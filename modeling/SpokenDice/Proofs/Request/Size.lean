import SpokenDice.Proofs.Expr.Brackets
import SpokenDice.Proofs.Request.Grammar
import SpokenDice.Proofs.Request.Numbers
import SpokenDice.Proofs.Request.Postconditions

/-!
# How large a request may be

A tree that is read of a text is bounded in size, whatever the text and the names in it. Arithmetic,
dice that are counted and parentheses cost a term each, so that there are fewer of them than there
may be terms; and each pair of parentheses is read one level deeper. Other nodes cost nothing
themselves. But only so many of them can stand next to a term: a side count may begin with as many
"d"s as there are levels, and dice take one phrase after them.

- `Expr.furtherTerms` and `Expr.paths`: what a tree costs besides its first term, and its paths from
  the root to the leaves.
- `Affordable`: the bounds of a tree that costs a number of terms.
- `Parser.Pays`: what is parsed was paid for with terms, and terms are only ever added.
- `nestedWithin_paid`: what is read one level deeper has been paid for.
- `size_of_read`: the bounds of a request.
-/

namespace SpokenDice

namespace Expr

/-- Whether the node is a group that stands for parentheses: one that is not right around the name
of a weapon or spell. -/
def isParentheses : Expr → Bool
  | .group inner => inner.kind ≠ .reference
  | _ => false

/-- The number of groups that stand for parentheses. -/
def parentheses (e : Expr) : Nat :=
  e.postorder.countP isParentheses

/-- The terms of a request of this tree besides its first one. -/
def furtherTerms (e : Expr) : Nat :=
  e.count .arithmetic + e.count .dice + e.parentheses

/-- The paths from the root to a leaf, with the nodes on them. -/
def paths : Expr → List (List Expr)
  | .binary op left right => (left.paths ++ right.paths).map (.binary op left right :: ·)
  | .rollOne sides => sides.paths.map (.rollOne sides :: ·)
  | .roll count sides => (count.paths ++ sides.paths).map (.roll count sides :: ·)
  | .critical inner => inner.paths.map (.critical inner :: ·)
  | .advantage inner => inner.paths.map (.advantage inner :: ·)
  | .disadvantage inner => inner.paths.map (.disadvantage inner :: ·)
  | .spellAt name level => level.paths.map (.spellAt name level :: ·)
  | .group inner => inner.paths.map (.group inner :: ·)
  | leaf => [[leaf]]

theorem furtherTerms_eq_countP (e : Expr) :
    e.furtherTerms = e.postorder.countP (fun node => node.kind = .arithmetic) +
      e.postorder.countP (fun node => node.kind = .dice) + e.postorder.countP isParentheses := by
  simp only [furtherTerms, count, parentheses, List.count, List.countP_map]
  rfl

section FurtherTerms

variable (op : BinaryOp) (l r c s inner : Expr) (name : String)

@[simp] theorem furtherTerms_binary :
    (binary op l r).furtherTerms = l.furtherTerms + r.furtherTerms + 1 := by
  simp [furtherTerms_eq_countP, postorder, kind, isParentheses]
  omega

@[simp] theorem furtherTerms_rollOne : (rollOne s).furtherTerms = s.furtherTerms := by
  simp [furtherTerms_eq_countP, postorder, kind, isParentheses]

@[simp] theorem furtherTerms_roll :
    (roll c s).furtherTerms = c.furtherTerms + s.furtherTerms + 1 := by
  simp [furtherTerms_eq_countP, postorder, kind, isParentheses]
  omega

@[simp] theorem furtherTerms_critical : (critical inner).furtherTerms = inner.furtherTerms := by
  simp [furtherTerms_eq_countP, postorder, kind, isParentheses]

@[simp] theorem furtherTerms_advantage : (advantage inner).furtherTerms = inner.furtherTerms := by
  simp [furtherTerms_eq_countP, postorder, kind, isParentheses]

@[simp] theorem furtherTerms_disadvantage :
    (disadvantage inner).furtherTerms = inner.furtherTerms := by
  simp [furtherTerms_eq_countP, postorder, kind, isParentheses]

@[simp] theorem furtherTerms_group :
    (group inner).furtherTerms = inner.furtherTerms + (isParentheses (.group inner)).toNat := by
  simp only [furtherTerms_eq_countP, postorder, List.countP_append, List.countP_singleton, kind]
  cases isParentheses (.group inner) with
  | false => simp
  | true =>
    simp
    omega

end FurtherTerms

/-- The tree costs at most `n` terms. It has at most 105 nodes for each of them, and some to spare,
and lies in at most so many levels of parentheses. -/
structure Affordable (levels spare n : Nat) (e : Expr) : Prop where
  terms_le : e.furtherTerms ≤ n
  nodes_le : e.nodeCount ≤ spare + 105 * n
  levels_le : ∀ path ∈ e.paths, path.countP isParentheses ≤ levels

namespace Affordable

variable {levels spare spare' n m : Nat} {e l r c s : Expr}

theorem mono {levels' : Nat} (h : Affordable levels spare n e) (hlevels : levels ≤ levels')
    (hspare : spare ≤ spare') : Affordable levels' spare' n e :=
  ⟨h.terms_le, Nat.le_trans h.nodes_le (Nat.add_le_add_right hspare _),
    fun path hpath => Nat.le_trans (h.levels_le path hpath) hlevels⟩

/-- No path holds more parentheses when a node is put before them that is no such group. -/
theorem levels_le_cons {node : Expr} (hnode : isParentheses node = false)
    {paths : List (List Expr)} (h : ∀ path ∈ paths, path.countP isParentheses ≤ levels) :
    ∀ path ∈ paths.map (node :: ·), path.countP isParentheses ≤ levels := by
  intro path hpath
  obtain ⟨tail, htail, rfl⟩ := List.mem_map.mp hpath
  rw [List.countP_cons_of_neg (by simp [hnode])]
  exact h tail htail

theorem levels_le_append {paths paths' : List (List Expr)}
    (h : ∀ path ∈ paths, path.countP isParentheses ≤ levels)
    (h' : ∀ path ∈ paths', path.countP isParentheses ≤ levels) :
    ∀ path ∈ paths ++ paths', path.countP isParentheses ≤ levels :=
  List.forall_mem_append.mpr ⟨h, h'⟩

theorem integer (levels : Nat) (k : Int64) : Affordable levels 1 0 (.integer k) :=
  ⟨Nat.le_refl 0, Nat.le_refl 1, by simp [paths, isParentheses]⟩

theorem namedDie (levels : Nat) (name : String) : Affordable levels 1 0 (.namedDie name) :=
  ⟨Nat.le_refl 0, Nat.le_refl 1, by simp [paths, isParentheses]⟩

/-- Parentheses cost a term, which the first term of what is inside them pays for. -/
theorem group (h : Affordable levels 104 n e) : Affordable (levels + 1) 0 (n + 1) (.group e) := by
  have hterms := h.terms_le
  have hnodes := h.nodes_le
  refine ⟨?_, ?_, fun path hpath => ?_⟩
  · rw [furtherTerms_group]
    exact Nat.add_le_add hterms (Bool.toNat_le _)
  · rw [nodeCount]
    omega
  · obtain ⟨tail, htail, rfl⟩ := List.mem_map.mp hpath
    have htailLevels := h.levels_le tail htail
    rw [List.countP_cons]
    split <;> omega

/-- A node around one tree costs nothing itself, unless it stands for parentheses. -/
theorem around {node : Expr} (h : Affordable levels spare n e)
    (hterms : node.furtherTerms = e.furtherTerms) (hnodes : node.nodeCount = e.nodeCount + 1)
    (hpaths : node.paths = e.paths.map (node :: ·)) (hnode : isParentheses node = false) :
    Affordable levels (spare + 1) n node := by
  have hnodesLe := h.nodes_le
  refine ⟨hterms ▸ h.terms_le, by omega, ?_⟩
  rw [hpaths]
  exact levels_le_cons hnode h.levels_le

theorem rollOne (h : Affordable levels spare n s) :
    Affordable levels (spare + 1) n (.rollOne s) :=
  h.around (furtherTerms_rollOne s) rfl rfl rfl

theorem critical (h : Affordable levels spare n e) :
    Affordable levels (spare + 1) n (.critical e) :=
  h.around (furtherTerms_critical e) rfl rfl rfl

theorem advantage (h : Affordable levels spare n e) :
    Affordable levels (spare + 1) n (.advantage e) :=
  h.around (furtherTerms_advantage e) rfl rfl rfl

theorem disadvantage (h : Affordable levels spare n e) :
    Affordable levels (spare + 1) n (.disadvantage e) :=
  h.around (furtherTerms_disadvantage e) rfl rfl rfl

/-- Dice that are counted cost a term. -/
theorem roll (hc : Affordable levels 104 n c) (hs : Affordable levels 102 m s) :
    Affordable levels 103 (n + (m + 1)) (.roll c s) := by
  have hcTerms := hc.terms_le
  have hsTerms := hs.terms_le
  have hcNodes := hc.nodes_le
  have hsNodes := hs.nodes_le
  refine ⟨?_, ?_, levels_le_cons rfl (levels_le_append hc.levels_le hs.levels_le)⟩
  · rw [furtherTerms_roll]
    omega
  · rw [nodeCount]
    omega

/-- Arithmetic costs a term, which the first term of the right operand pays for. -/
theorem binary (op : BinaryOp) (hl : Affordable levels 104 n l) (hr : Affordable levels 104 m r) :
    Affordable levels 104 (n + (m + 1)) (.binary op l r) := by
  have hlTerms := hl.terms_le
  have hrTerms := hr.terms_le
  have hlNodes := hl.nodes_le
  have hrNodes := hr.nodes_le
  refine ⟨?_, ?_, levels_le_cons rfl (levels_le_append hl.levels_le hr.levels_le)⟩
  · rw [furtherTerms_binary]
    omega
  · rw [nodeCount]
    omega

end Affordable

end Expr

namespace Request

open SpokenDice.Expr (Affordable)

variable {α β : Type}

/-! ## What is paid for -/

namespace Parser

/-- Whatever is parsed has the property for a number of terms that were counted on the way. Terms
are only ever added, up to as many as there may be. -/
def Pays (p : Parser α) (P : α → Nat → Prop) : Prop :=
  ∀ text terms, terms ≤ maxTerms → (p text terms).Holds
    (fun a _ terms' => terms' ≤ maxTerms ∧ ∃ n, terms + n ≤ terms' ∧ P a n)
    (fun terms' => terms ≤ terms' ∧ terms' ≤ maxTerms) True

variable {P : α → Nat → Prop} {Q : β → Nat → Prop}

theorem Pays.mono {P' : α → Nat → Prop} {p : Parser α} (hp : p.Pays P)
    (h : ∀ a n, P a n → P' a n) : p.Pays P' := by
  refine fun text terms hterms => (hp text terms hterms).mono ?_ fun _ => id
  rintro a rest terms' ⟨hmax, n, hn, ha⟩
  exact ⟨hmax, n, hn, h a n ha⟩

theorem pays_pure {a : α} (h : P a 0) : (pure a : Parser α).Pays P :=
  fun _ terms hterms => ⟨hterms, 0, Nat.le_refl terms, h⟩

theorem pays_tooLarge : (tooLarge : Parser α).Pays P :=
  fun _ _ _ => trivial

/-- What was paid for first is put to what is paid for then. -/
theorem Pays.bind {p : Parser α} {next : α → Parser β} (hp : p.Pays P)
    (hnext : ∀ a n, P a n → (next a).Pays fun b m => Q b (n + m)) : (p >>= next).Pays Q := by
  refine fun text terms hterms => (hp text terms hterms).bind ?_ fun _ => id
  rintro a rest terms' ⟨hmax, n, hn, ha⟩
  refine (hnext a n ha rest terms' hmax).mono ?_ fun terms'' h => ⟨by omega, h.2⟩
  rintro b rest' terms'' ⟨hmax', m, hm, hb⟩
  exact ⟨hmax', n + m, by omega, hb⟩

/-- What is parsed is only given another form. -/
theorem Pays.map {p : Parser α} (hp : p.Pays P) {f : α → β} (h : ∀ a n, P a n → Q (f a) n) :
    (do let a ← p; pure (f a)).Pays Q :=
  hp.bind fun a n ha => pays_pure (h a n ha)

/-- The terms of a way that is given up are paid for in vain. -/
theorem Pays.orElse {p q : Parser α} (hp : p.Pays P) (hq : q.Pays P) : (p <|> q).Pays P := by
  refine fun text terms hterms => (hp text terms hterms).orElse ?_
  rintro terms' ⟨hle, hmax⟩
  refine (hq text terms' hmax).mono ?_ fun terms'' h => ⟨Nat.le_trans hle h.1, h.2⟩
  rintro a rest terms'' ⟨hmax', n, hn, ha⟩
  exact ⟨hmax', n, by omega, ha⟩

theorem pays_ofScanner {s : Scanner α} (hs : ∀ whole, Scanner.Yields whole s fun a => P a 0) :
    (ofScanner s).Pays P := by
  refine fun text terms hterms => .scan (fun a rest hread => ?_) ⟨Nat.le_refl terms, hterms⟩
  exact ⟨hterms, 0, Nat.le_refl terms, (hs text text List.suffix_rfl a rest hread).2⟩

theorem pays_scan_bind {s : Scanner α} {next : α → Parser β} {R : α → Prop}
    (hs : ∀ whole, Scanner.Yields whole s R) (hnext : ∀ a, R a → (next a).Pays Q) :
    (ofScanner s >>= next).Pays Q := by
  refine fun text terms hterms => .scan_bind (fun a rest hread => ?_) ⟨Nat.le_refl terms, hterms⟩
  exact hnext a (hs text text List.suffix_rfl a rest hread).2 rest terms hterms

theorem pays_optional_scan_bind {s : Scanner α} {next : Option α → Parser β}
    (hsome : ∀ a, (next (some a)).Pays Q)
    (hnone : (next none).Pays Q) : ((ofScanner s).optional >>= next).Pays Q :=
  fun text terms hterms => .optional_scan_bind (fun a rest _ => hsome a rest terms hterms)
    (hnone text terms hterms)

theorem term_pays : term.Pays fun _ n => n = 1 := by
  intro text terms _
  rw [← bind_pure term]
  exact Reading.Holds.term_bind (fun _ => trivial) fun h => ⟨h, 1, Nat.le_refl _, rfl⟩

theorem Pays.optional {p : Parser α} (hp : p.Pays P) :
    p.optional.Pays fun a n => ∀ b, a = some b → P b n := by
  refine Pays.orElse (hp.bind fun a n ha => pays_pure ?_) (pays_pure nofun)
  rintro _ ⟨⟩
  exact ha

/-- What a repetition has come to was paid for with what each of its steps has counted. -/
theorem pays_repeatStep {step : α → Parser (Option α)}
    (hstep : ∀ a n, P a n → (step a).Pays fun next m => ∀ b, next = some b → P b (n + m))
    (bound : Nat) {a : α} {n : Nat} (h : P a n) :
    (repeatStep step bound a).Pays fun b m => P b (n + m) := by
  intro text terms hterms
  refine .repeatStep (I := fun a _ terms' => terms' ≤ maxTerms ∧
    ∃ m, terms + m ≤ terms' ∧ P a (n + m)) ?_ bound ⟨hterms, 0, Nat.le_refl terms, h⟩
  rintro a text' terms' ⟨hmax, m, hm, ha⟩
  refine (hstep a (n + m) ha text' terms' hmax).mono ?_ fun terms'' h' => ⟨by omega, h'.2⟩
  rintro next rest terms'' ⟨hmax', k, hk, hnext⟩
  cases next with
  | none => exact ⟨hmax', m, by omega, ha⟩
  | some b => exact ⟨hmax', m + k, by omega, Nat.add_assoc n m k ▸ hnext b rfl⟩

end Parser

/-! ## Phrases -/

section Phrases

open SpokenDice.Request.Parser

variable {rules : Ruleset} {whole : List Char} {nested : Nested} {levels : Nat}

/-- The name of a weapon or spell, with its level, costs nothing, and a group right around it does
not either. -/
theorem affordable_damage (levels : Nat) {e : Expr} (h : Derives rules whole .damage e) :
    Affordable levels 2 0 e ∧ Affordable levels 3 0 (.group e) := by
  have he : Affordable levels 2 0 e := by
    cases h with
    | weapon | spell =>
      exact ⟨Nat.le_refl 0, Nat.le_succ 1, by simp [Expr.paths, Expr.isParentheses]⟩
    | spellAt => exact ⟨Nat.le_refl 0, Nat.le_refl 2, by simp [Expr.paths, Expr.isParentheses]⟩
  have hreference : Expr.isParentheses (.group e) = false := by cases h <;> rfl
  refine ⟨he, he.around ?_ rfl rfl hreference⟩
  rw [Expr.furtherTerms_group, hreference]
  rfl

/-- A value, product or sum costs `n` terms, its first one included. -/
def Covered (levels : Nat) (e : Expr) (n : Nat) : Prop :=
  ∃ m, n = m + 1 ∧ Affordable levels 104 m e

/-- What is read one level deeper has been paid for, the parentheses around a sum included. -/
structure Nested.Paid (levels : Nat) (nested : Nested) : Prop where
  sum : nested.sum.Pays fun e n => Affordable levels 0 n (.group e)
  sides : nested.sides.Pays fun e n => Affordable levels (levels + 2) n e

theorem criticalHit_yields_of {P : Expr → Prop}
    (h : ∀ e, Derives rules whole .damage e → P (.critical e)) :
    Scanner.Yields whole (criticalHit (.ofRuleset rules)) P :=
  (Scanner.keyword_yields _).bind fun _ _ => (Scanner.keyword_yields _).optional.bind fun _ _ =>
    (Scanner.keyword_yields _).optional.bind fun _ _ =>
      (Scanner.keyword_yields _).optional.bind fun _ _ =>
        (Scanner.keyword_yields _).optional.bind fun _ _ =>
          damage_yields.bind fun e he => Scanner.yields_pure (h e he)

theorem damageGroup_yields_of {P : Expr → Prop}
    (h : ∀ e, Derives rules whole .damage e → P (.group e)) :
    Scanner.Yields whole (damageGroup (.ofRuleset rules)) P :=
  damage_yields.bind fun e he => Scanner.yields_pure (h e he)

theorem namedDie_pays (levels : Nat) :
    (ofScanner (namedDie (.ofRuleset rules))).Pays fun e n => Affordable levels 1 n e :=
  pays_ofScanner fun _ => (Scanner.nameAmong_yields _).bind fun name _ =>
    Scanner.yields_pure (.namedDie levels name)

section Values

variable (hnested : nested.Paid levels)

include hnested

theorem primary_pays :
    (primary (.ofRuleset rules) nested).Pays fun e n => Affordable levels 3 n e := by
  refine Pays.orElse ?_ (.orElse ?_ (.orElse ?_ ?_))
  · refine pays_scan_bind (fun _ => Scanner.sign_yields _) fun _ _ => ?_
    refine hnested.sum.bind fun e n he => ?_
    exact pays_scan_bind (fun _ => Scanner.sign_yields _) fun _ _ =>
      pays_pure (he.mono (Nat.le_refl _) (Nat.zero_le 3))
  · exact pays_ofScanner fun _ => criticalHit_yields_of fun e he =>
      (affordable_damage levels he).1.critical
  · exact pays_ofScanner fun _ => damageGroup_yields_of fun e he => (affordable_damage levels he).2
  · refine pays_ofScanner fun whole => Scanner.integer_yields.bind fun n _ => ?_
    exact Scanner.yields_pure ((Affordable.integer levels n).mono (Nat.le_refl _) (by decide))

/-- A side count is rolled for by a lone die for every "d" before it, and there are no more of them
than levels. -/
theorem sides_pays :
    (sides (.ofRuleset rules) nested).Pays fun e n => Affordable levels (levels + 3) n e := by
  have hmono {spare n : Nat} {e : Expr} (he : Affordable levels spare n e)
      (hspare : spare ≤ levels + 3) : Affordable levels (levels + 3) n e :=
    he.mono (Nat.le_refl _) hspare
  refine Pays.orElse ?_ (.orElse ?_ ?_)
  · exact (namedDie_pays levels).map fun e n he => hmono he.rollOne (by omega)
  · exact (primary_pays hnested).mono fun e n he => hmono he (by omega)
  · exact pays_scan_bind (fun _ => dieLetter_yields) fun _ _ =>
      hnested.sides.map fun e n he => he.rollOne

variable (hlevels : levels ≤ 100)

include hlevels

theorem die_pays :
    (die (.ofRuleset rules) nested).Pays fun e n => Affordable levels 102 n e := by
  have hmono {spare n : Nat} {e : Expr} (he : Affordable levels spare n e)
      (hspare : spare ≤ 102) : Affordable levels 102 n e :=
    he.mono (Nat.le_refl _) hspare
  refine Pays.orElse ?_ (.orElse ?_ ?_)
  · exact (namedDie_pays levels).mono fun e n he => hmono he (by omega)
  · refine (primary_pays hnested).bind fun e n he => ?_
    exact pays_scan_bind (fun _ => sidedDie_yields) fun _ _ => pays_pure (hmono he (by omega))
  · exact pays_scan_bind (fun _ => dieLetter_yields) fun _ _ =>
      hnested.sides.mono fun e n he => hmono he (by omega)

/-- Dice have a node less to spare, as a phrase may follow them. -/
theorem head_pays : (head (.ofRuleset rules) nested).Pays fun e n =>
    Affordable levels (104 - e.isDice.toNat) n e := by
  have hdice {spare n : Nat} {e : Expr} (he : Affordable levels spare n e) (hspare : spare ≤ 102) :
      Affordable levels (104 - (Expr.rollOne e).isDice.toNat) n (.rollOne e) :=
    he.rollOne.mono (Nat.le_refl _) (Nat.succ_le_succ hspare)
  refine Pays.orElse ?_ (.orElse ?_ ?_)
  · exact (namedDie_pays levels).map fun e n he => hdice he (by omega)
  · refine (primary_pays hnested).bind fun e n he => ?_
    refine pays_optional_scan_bind (fun _ => pays_pure (hdice he (by decide))) (pays_pure ?_)
    exact he.mono (Nat.le_refl _) (by have := Bool.toNat_le e.isDice; omega)
  · exact pays_scan_bind (fun _ => dieLetter_yields) fun _ _ =>
      hnested.sides.map fun e n he => hdice he (by omega)

theorem continuation_pays {e : Expr} {n : Nat}
    (he : Affordable levels (104 - e.isDice.toNat) n e) :
    (continuation (.ofRuleset rules) nested e).Pays fun next m => ∀ e', next = some e' →
      Affordable levels (104 - e'.isDice.toNat) (n + m) e' := by
  refine Pays.orElse ?_ ?_
  · refine (die_pays hnested hlevels).bind fun s m hs => term_pays.bind fun _ k hk => pays_pure ?_
    rintro _ ⟨⟩
    rw [hk]
    exact (he.mono (Nat.le_refl _) (Nat.sub_le _ _)).roll hs
  · by_cases hdice : e.isDice = true
    · rw [if_pos hdice]
      rw [hdice] at he
      refine Pays.optional ?_
      refine pays_ofScanner fun whole => .orElse ?_ ?_
      · exact (Scanner.keyword_yields _).bind fun _ _ => (Scanner.keyword_yields _).bind fun _ _ =>
          Scanner.yields_pure he.advantage
      · exact (Scanner.keyword_yields _).bind fun _ _ => (Scanner.keyword_yields _).bind fun _ _ =>
          Scanner.yields_pure he.disadvantage
    · rw [if_neg hdice]
      exact pays_pure nofun

theorem value_pays : (value (.ofRuleset rules) nested).Pays (Covered levels) := by
  refine term_pays.bind fun _ k hk => ?_
  refine (head_pays hnested hlevels).bind fun e n he => ?_
  refine (pays_repeatStep (P := fun e n => Affordable levels (104 - e.isDice.toNat) n e)
    (fun e n => continuation_pays hnested hlevels) maxChain he).mono fun e' m he' => ?_
  exact ⟨n + m, by omega, he'.mono (Nat.le_refl _) (Nat.sub_le _ _)⟩

end Values

/-- Every link of a chain costs the terms of its operand. -/
theorem chain_pays {operand : Parser Expr} {operator : Scanner BinaryOp}
    (hoperand : operand.Pays (Covered levels)) :
    (chain operand operator).Pays (Covered levels) := by
  refine hoperand.bind fun first n hfirst => pays_repeatStep ?_ maxChain hfirst
  rintro left _ ⟨n, rfl, hleft⟩
  refine pays_optional_scan_bind (fun op => ?_) (pays_pure nofun)
  refine hoperand.bind fun right k hright => pays_pure ?_
  obtain ⟨m, rfl, hright⟩ := hright
  rintro _ ⟨⟩
  exact ⟨n + (m + 1), by omega, hleft.binary op hright⟩

theorem sum_pays (hnested : nested.Paid levels) (hlevels : levels ≤ 100) :
    (sum (.ofRuleset rules) nested).Pays (Covered levels) :=
  chain_pays (chain_pays (value_pays hnested hlevels))

theorem nestedWithin_paid (hlevels : levels ≤ 100) :
    (nestedWithin (.ofRuleset rules) levels).Paid levels := by
  induction levels with
  | zero => exact ⟨pays_tooLarge, pays_tooLarge⟩
  | succ levels ih =>
    have hless := Nat.le_of_succ_le hlevels
    refine ⟨(sum_pays (ih hless) hless).mono ?_, (sides_pays (ih hless)).mono fun e n he => ?_⟩
    · rintro e _ ⟨m, rfl, he⟩
      exact he.group
    · exact he.mono (Nat.le_succ _) (by omega)

end Phrases

/-! ## Whole requests -/

/-- What is read was read by the parser of sums. -/
theorem exists_reading_of_read {lexicon : Lexicon} {text : String} {e : Expr}
    (h : read lexicon text = .ok e) : ∃ rest terms,
      readingOf lexicon text.toList = .parsed e rest terms ∧ skipSeparators rest = [] := by
  rw [read, readOr] at h
  split at h
  · rename_i e' rest terms hreading
    split at h
    · obtain rfl := Except.ok.inj h
      exact ⟨rest, terms, hreading, ‹_›⟩
    · cases h
  · cases h
  · cases h

/-- Whatever the names and the text, the tree of a request holds fewer than 1000 nodes of
arithmetic, counted dice and parentheses; no leaf lies in more than 100 parentheses, and there are
at most 110000 nodes. -/
theorem size_of_read {rules : Ruleset} {text : String} {e : Expr}
    (h : read (.ofRuleset rules) text = .ok e) :
    e.count .arithmetic + e.count .dice + e.parentheses ≤ 999 ∧
      (∀ path ∈ e.paths, path.countP Expr.isParentheses ≤ 100) ∧ e.nodeCount ≤ 110000 := by
  obtain ⟨rest, terms, hreading, -⟩ := exists_reading_of_read h
  have hsum : (sum (.ofRuleset rules) (nestedWithin (.ofRuleset rules) maxNesting)).Pays
      (Covered maxNesting) := sum_pays (nestedWithin_paid (Nat.le_refl 100)) (Nat.le_refl 100)
  have hpaid : (readingOf (.ofRuleset rules) text.toList).Holds _ _ True :=
    hsum text.toList 0 (Nat.zero_le maxTerms)
  rw [hreading] at hpaid
  obtain ⟨hmax, n, hn, m, rfl, he⟩ := hpaid
  have hterms : e.count .arithmetic + e.count .dice + e.parentheses ≤ m := he.terms_le
  have hnodes := he.nodes_le
  rw [show maxTerms = 1000 from rfl] at hmax
  exact ⟨by omega, he.levels_le, by omega⟩

/-- Of three groups one is right around a name, and the "d" before a lone die is no term. -/
theorem size_of_read_hail :
    let e := Expr.binary .add (.group (.group (.spell "hail")))
      (.group (.advantage (.roll (.integer 2) (.rollOne (.integer 6)))))
    read (.ofRuleset hailRules) "(hail)+(2dd6 with advantage)" = .ok e ∧
      (e.count .arithmetic = 1 ∧ e.count .dice = 1 ∧ e.parentheses = 2 ∧ e.nodeCount = 10) ∧
        e.count .arithmetic + e.count .dice + e.parentheses ≤ 999 ∧
          (∀ path ∈ e.paths, path.countP Expr.isParentheses ≤ 100) ∧ e.nodeCount ≤ 110000 := by
  intro e
  have hread : read (.ofRuleset hailRules) "(hail)+(2dd6 with advantage)" = .ok e :=
    eq_ok_of_toOption_eq_some (by decide +kernel)
  exact ⟨hread, ⟨rfl, rfl, rfl, rfl⟩, size_of_read hread⟩

end Request

end SpokenDice
