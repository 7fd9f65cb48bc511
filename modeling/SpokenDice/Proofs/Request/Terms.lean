import SpokenDice.Proofs.Request.Openings
import SpokenDice.Proofs.Request.Size

/-!
# The terms of a request

Where no name begins with a parenthesis, the terms that were met on the way to a tree are those of
the tree: one for its first value, and one for each node of arithmetic, each of counted dice and
each pair of parentheses. Terms that were met in vain were met behind an opening where nothing else
matches, so that the reading does not get beyond it.

- `Expr.terms`: the terms of a tree.
- `CountsAt` and `CountsSum`: what values and sums count.
- `nestedWithin_counts`: what is read one level deeper counts its terms.
- `terms_of_sum`: a sum that is read to its end has the terms of its tree.
-/

namespace SpokenDice

/-- The terms of a request of this tree. -/
def Expr.terms (e : Expr) : Nat :=
  e.furtherTerms + 1

namespace Request

open SpokenDice.Request.Parser (ofScanner)
open Reading (Holds)

/-- The tree costs no further terms, and is no bare name of a weapon or spell. -/
def Free (e : Expr) : Prop :=
  e.furtherTerms = 0 ∧ e.kind ≠ .reference

/-- The tree was read for the terms that it costs. -/
def Charged (terms terms' : Nat) (e : Expr) : Prop :=
  terms' = terms + e.furtherTerms ∧ e.kind ≠ .reference

/-- A value or side count is read for the terms that it costs. Terms are only counted where the text
is of a kind, also where nothing matches. -/
def CountsAt (At : List Char → Prop) (p : Parser Expr) : Prop :=
  ∀ text terms, (p text terms).Holds
    (fun e _ terms' => Charged terms terms' e ∧ (terms' = terms ∨ At text))
    (fun terms' => terms' = terms ∨ At text) True

/-- A sum is read for its terms, unless the reading stops before an opening. -/
def CountsSum (p : Parser Expr) : Prop :=
  ∀ text terms, (p text terms).Holds
    (fun e rest terms' => (terms' = terms + e.terms ∨ Opens rest) ∧ e.kind ≠ .reference)
    (fun _ => True) True

/-- What is read one level deeper counts its terms. -/
structure Nested.Counts (nested : Nested) : Prop where
  sum : CountsSum nested.sum
  sides : CountsAt Opens nested.sides

section Phrases

variable {rules : Ruleset} {nested : Nested} {text : List Char} {terms terms' : Nat}

/-! ## Values -/

theorem free_criticalHit (whole : List Char) :
    Scanner.Yields whole (criticalHit (.ofRuleset rules)) Free :=
  criticalHit_yields_of fun _ he =>
    ⟨Nat.le_zero.mp (affordable_damage 0 he).1.critical.terms_le, nofun⟩

theorem free_damageGroup (whole : List Char) :
    Scanner.Yields whole (damageGroup (.ofRuleset rules)) Free :=
  damageGroup_yields_of fun _ he => ⟨Nat.le_zero.mp (affordable_damage 0 he).2.terms_le, nofun⟩

theorem free_number (whole : List Char) : Scanner.Yields whole number Free :=
  Scanner.integer_yields.bind fun _ _ => Scanner.yields_pure ⟨rfl, nofun⟩

theorem free_namedDie (whole : List Char) :
    Scanner.Yields whole (namedDie (.ofRuleset rules)) Free :=
  (Scanner.nameAmong_yields _).bind fun _ _ => Scanner.yields_pure ⟨rfl, nofun⟩

theorem Charged.rollOne {e : Expr} (h : Charged terms terms' e) :
    Charged terms terms' (.rollOne e) :=
  ⟨by rw [Expr.furtherTerms_rollOne, h.1], nofun⟩

theorem charged_dicePhrase {e : Expr} (h : Charged terms terms' e) (whole : List Char) :
    Scanner.Yields whole (dicePhrase e) (Charged terms terms') := by
  refine Scanner.Yields.orElse ?_ ?_
  · refine (Scanner.keyword_yields _).bind fun _ _ => (Scanner.keyword_yields _).bind fun _ _ =>
      Scanner.yields_pure ⟨?_, nofun⟩
    rw [Expr.furtherTerms_advantage, h.1]
  · refine (Scanner.keyword_yields _).bind fun _ _ => (Scanner.keyword_yields _).bind fun _ _ =>
      Scanner.yields_pure ⟨?_, nofun⟩
    rw [Expr.furtherTerms_disadvantage, h.1]

namespace CountsAt

variable {At At' : List Char → Prop} {p q : Parser Expr}

/-- A scanner counts nothing. -/
theorem scan {s : Scanner Expr} (hs : ∀ whole, Scanner.Yields whole s Free) :
    CountsAt At (ofScanner s) := by
  refine fun text terms => .scan (fun e rest hread => ⟨?_, .inl rfl⟩) (.inl rfl)
  obtain ⟨hfree, hkind⟩ := (hs text text List.suffix_rfl e rest hread).2
  exact ⟨by rw [hfree, Nat.add_zero], hkind⟩

theorem loneDie (hp : CountsAt At p) : CountsAt At (do let sides ← p; pure (.rollOne sides)) :=
  fun text terms => (hp text terms).bind (fun _ _ _ h => ⟨h.1.rollOne, h.2⟩) fun _ => id

/-- Where terms were counted in vain, the other way does not match either. -/
theorem orElse (hp : CountsAt At p) (hq : CountsAt At' q) (hAt : ∀ text, At text → At' text)
    (hnone : ∀ text terms, At text → q text terms = .unmatched terms) :
    CountsAt At' (p <|> q) := by
  intro text terms
  refine ((hp text terms).mono (fun _ _ _ h => ⟨h.1, h.2.imp_right (hAt text)⟩) fun _ => id).orElse
    fun terms' h => ?_
  rcases h with rfl | hat
  · exact hq text terms'
  · rw [hnone text terms' hat]
    exact .inr (hAt text hat)

end CountsAt

/-- Where no name of a die stands, no terms were counted in looking for one. -/
theorem namedDie_counts :
    CountsAt (fun _ => False) (ofScanner (namedDie (.ofRuleset rules))) :=
  .scan free_namedDie

section Nested

variable (hnested : nested.Counts)

include hnested

theorem parenthesized_counts : CountsAt AtGroup (parenthesized nested) := by
  intro text terms
  refine .scan_bind (fun _ inner hopen => ?_) (.inl rfl)
  have hgroup : AtGroup text := ⟨inner, Scanner.skip_of_sign hopen⟩
  refine (hnested.sum inner terms).bind (fun e rest terms' hsum => ?_) fun _ _ => .inr hgroup
  refine .scan_bind (fun _ rest' hclose => ⟨⟨?_, nofun⟩, .inr hgroup⟩) (.inr hgroup)
  -- The parenthesis is closed, so that the sum did not stop before an opening.
  obtain ⟨hterms | hopens, hkind⟩ := hsum
  · have hparentheses : Expr.isParentheses (.group e) = true := decide_eq_true hkind
    rw [hterms, Expr.furtherTerms_group, hparentheses]
    rfl
  · cases (hopens.sign_eq_none (by decide)).symm.trans hclose

/-- Behind a "d" the terms of a side count are counted. -/
theorem lettered_counts : CountsAt Opens (do ofScanner dieLetter; nested.sides) := by
  refine fun text terms => .scan_bind (fun _ inner hletter => ?_) (.inl rfl)
  obtain ⟨c, hskip, hc⟩ := exists_opening_of_dieLetter hletter
  have hopens : Opens text := ⟨c, inner, hskip, hc⟩
  exact (hnested.sides inner terms).mono (fun _ _ _ h => ⟨h.1, .inr hopens⟩) fun _ _ => .inr hopens

theorem letteredDie_counts :
    CountsAt Opens (do ofScanner dieLetter; let sides ← nested.sides; pure (.rollOne sides)) := by
  have hdie := (lettered_counts hnested).loneDie
  rwa [bind_assoc] at hdie

variable (hrules : rules.Unparenthesized)

include hrules

theorem primary_counts : CountsAt AtGroup (primary (.ofRuleset rules) nested) := by
  have hscan {s : Scanner Expr} (hs : ∀ whole, Scanner.Yields whole s Free) :
      CountsAt (fun _ => False) (ofScanner s) := .scan hs
  refine (parenthesized_counts hnested).orElse ?_ (fun _ => id) fun text terms hgroup =>
    hgroup.tokens_unmatched hrules terms
  refine (hscan free_criticalHit).orElse ?_ (fun _ => False.elim) fun _ _ => False.elim
  exact (hscan free_damageGroup).orElse (.scan free_number) (fun _ => False.elim)
    fun _ _ => False.elim

theorem sides_counts : CountsAt Opens (sides (.ofRuleset rules) nested) := by
  refine namedDie_counts.loneDie.orElse ?_ (fun _ => False.elim) fun _ _ => False.elim
  exact (primary_counts hnested hrules).orElse (letteredDie_counts hnested) (fun _ => AtGroup.opens)
    fun text terms hgroup => hgroup.lettered_unmatched _ terms

theorem die_counts : CountsAt Opens (die (.ofRuleset rules) nested) := by
  have hsided : CountsAt AtGroup (do
      let sides ← primary (.ofRuleset rules) nested
      ofScanner sidedDie
      pure sides) := by
    intro text terms
    refine (primary_counts hnested hrules text terms).bind (fun e rest terms' he => ?_) fun _ => id
    exact .scan_bind (fun _ _ _ => he) he.2
  refine namedDie_counts.orElse ?_ (fun _ => False.elim) fun _ _ => False.elim
  exact hsided.orElse (lettered_counts hnested) (fun _ => AtGroup.opens)
    fun text terms hgroup => hgroup.lettered_unmatched _ terms

theorem head_counts : CountsAt Opens (head (.ofRuleset rules) nested) := by
  have hopens : ∀ text, AtGroup text → Opens text := fun _ => AtGroup.opens
  refine namedDie_counts.loneDie.orElse ?_ (fun _ => False.elim) fun _ _ => False.elim
  refine CountsAt.orElse ?_ (letteredDie_counts hnested) hopens
    fun text terms hgroup => hgroup.lettered_unmatched _ terms
  intro text terms
  refine (primary_counts hnested hrules text terms).bind (fun e rest terms' he => ?_) fun _ => id
  exact .optional_scan_bind (fun _ _ _ => ⟨he.1.rollOne, he.2⟩) he

/-- A value goes on with a die, which is one more term, or with a phrase, which is none; or it ends,
perhaps before an opening. -/
theorem continuation_counts {e : Expr} (he : Charged terms terms' e) (text : List Char) :
    (continuation (.ofRuleset rules) nested e text terms').Holds
      (fun next rest terms'' => next.elim
        ((terms'' = terms + e.furtherTerms ∨ Opens rest) ∧ e.kind ≠ .reference)
        fun e' => Charged terms terms'' e') (fun _ => False) True := by
  refine ((die_counts hnested hrules text terms').bind (fun s rest terms'' hs => ?_)
    fun _ => id).orElse fun terms'' hnone => ?_
  · refine .term_bind (fun _ => trivial) fun _ => ⟨?_, nofun⟩
    rw [Expr.furtherTerms_roll, hs.1.1, he.1]
    omega
  · have hend : terms'' = terms + e.furtherTerms ∨ Opens text :=
      hnone.imp_left fun h => h.trans he.1
    split
    · rw [← bind_pure (Parser.optional _)]
      refine .optional_scan_bind (fun e' rest hphrase => ?_) ⟨hend, he.2⟩
      -- No phrase stands at an opening.
      have hterms : terms'' = terms + e.furtherTerms := hend.resolve_right fun hopens => by
        cases (hopens.dicePhrase_eq_none e).symm.trans hphrase
      exact (charged_dicePhrase ⟨hterms, he.2⟩ text text List.suffix_rfl e' rest hphrase).2
    · exact ⟨hend, he.2⟩

/-- A value is one term itself. It is read for its terms, unless it stops before an opening. -/
theorem value_counts : CountsSum (value (.ofRuleset rules) nested) := by
  intro text terms
  refine .term_bind (fun _ => trivial) fun _ => ?_
  refine (head_counts hnested hrules text (terms + 1)).bind (fun e rest terms' he => ?_)
    fun _ _ => trivial
  refine .repeatStep (I := fun e _ terms' => Charged (terms + 1) terms' e)
    (fun e text terms' he => ?_) maxChain he.1
  refine (continuation_counts hnested hrules he text).mono (fun next rest terms'' h => ?_)
    fun _ _ => trivial
  cases next with
  | some e' => exact h
  | none =>
    refine ⟨h.1.imp_left fun hterms => ?_, h.2⟩
    rw [hterms, Expr.terms]
    omega

end Nested

/-! ## Chains -/

/-- Each operand of a chain counts its terms, where the operands before it do. -/
theorem CountsSum.chain {operand : Parser Expr} {operator : Scanner BinaryOp}
    (hoperand : CountsSum operand) (hnone : ∀ text, Opens text → operator text = none) :
    CountsSum (chain operand operator) := by
  intro text terms
  refine (hoperand text terms).bind (fun first rest terms' hfirst => ?_) fun _ _ => trivial
  refine .repeatStep (I := fun e rest terms' =>
    (terms' = terms + e.terms ∨ Opens rest) ∧ e.kind ≠ .reference) (fun e text terms' he => ?_)
    maxChain hfirst
  refine .optional_scan_bind (fun op rest hoperator => ?_) he
  -- No operator stands at an opening.
  have hterms : terms' = terms + e.terms := he.1.resolve_right fun hopens => by
    cases (hnone text hopens).symm.trans hoperator
  refine (hoperand rest terms').bind (fun right rest' terms'' hright => ⟨?_, nofun⟩)
    fun _ _ => trivial
  refine hright.1.imp_left fun h => ?_
  rw [h, hterms, Expr.terms, Expr.terms, Expr.terms, Expr.furtherTerms_binary]
  omega

theorem sum_counts (hrules : rules.Unparenthesized) (hnested : nested.Counts) :
    CountsSum (sum (.ofRuleset rules) nested) :=
  ((value_counts hnested hrules).chain fun _ => Opens.productSign_eq_none).chain
    fun _ => Opens.additiveSign_eq_none

/-- What is read one level deeper counts its terms, however many levels may be entered. -/
theorem nestedWithin_counts (hrules : rules.Unparenthesized) (levels : Nat) :
    (nestedWithin (.ofRuleset rules) levels).Counts := by
  induction levels with
  | zero => exact ⟨fun _ _ => trivial, fun _ _ => trivial⟩
  | succ levels ih => exact ⟨sum_counts hrules ih, sides_counts ih hrules⟩

end Phrases

/-- A sum that does not stop before an opening has the terms of its tree. -/
theorem terms_of_sum {rules : Ruleset} (hrules : rules.Unparenthesized) {levels terms : Nat}
    {text rest : List Char} {e : Expr} (hread : sum (.ofRuleset rules)
      (nestedWithin (.ofRuleset rules) levels) text 0 = .parsed e rest terms)
    (hrest : ¬ Opens rest) : terms = e.terms := by
  have hcounts := sum_counts hrules (nestedWithin_counts hrules levels) text 0
  rw [hread] at hcounts
  exact (hcounts.1.resolve_right hrest).trans (Nat.zero_add _)

end Request

end SpokenDice
