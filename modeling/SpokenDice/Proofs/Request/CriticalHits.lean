import SpokenDice.Proofs.Request.Endings
import SpokenDice.Proofs.Request.Shape
import SpokenDice.Proofs.Request.Size

/-!
# Hitting critically with what is named

A request that names a weapon or a spell, and says no more, is a critical hit with it when
"critical" stands before it. But a named die that begins with "critical" comes first.

- `Names`: if a group of a weapon or spell was read, it stands at the head of the text as damage.
- `sum_names`: so it is for all phrases, as no other phrase makes such a group.
- `damage_skips`: damage is read after separators as without them.
- `read_critical`: the critical hit.
-/

namespace SpokenDice.Request

open SpokenDice.Request.Parser

variable {rules : Ruleset} {whole text rest : List Char} {nested : Nested} {terms : Nat} {e : Expr}

/-! ## Requests that name a weapon or a spell -/

/-- If a group of a bare weapon or spell was read, it is the damage that stands at the head of
`text`, and the rest stands behind it. -/
def Names (rules : Ruleset) (text : List Char) (e : Expr) (rest : List Char) : Prop :=
  ∀ r, e = .group r → r.kind = .reference → damage (.ofRuleset rules) text = some (r, rest)

theorem names_of_kind_ne (h : e.kind ≠ .group) : Names rules text e rest := by
  rintro r rfl
  exact absurd rfl h

/-- The reading names only what stands at the head of `text`. -/
abbrev NamesOnly (rules : Ruleset) (text : List Char) (reading : Reading Expr) : Prop :=
  reading.Holds (fun e rest _ => Names rules text e rest) (fun _ => True) True

/-- What a parser yields holds of its reading. -/
theorem holds_of_yields {α : Type} {p : Parser α} {Q : α → Prop} (h : Yields whole p Q)
    (htext : text <:+ whole) :
    (p text terms).Holds (fun a _ _ => Q a) (fun _ => True) True := by
  cases hread : p text terms with
  | parsed a rest terms' => exact (h text terms a rest terms' htext hread).2
  | unmatched | tooLarge => trivial

theorem holds_trivially {α : Type} (reading : Reading α) :
    reading.Holds (fun _ _ _ => True) (fun _ => True) True := by
  cases reading <;> trivial

section Phrases

variable (hnested : nested.Sound rules whole) (htext : text <:+ whole)

include hnested htext

theorem parenthesized_names : NamesOnly rules text (parenthesized nested text terms) := by
  have hyields : Yields whole (parenthesized nested) fun e =>
      ∃ inner, e = .group inner ∧ inner.kind ≠ .reference :=
    (yields_ofScanner (Scanner.sign_yields _)).bind fun _ _ => hnested.sum.bind fun inner h =>
      (yields_ofScanner (Scanner.sign_yields _)).bind fun _ _ =>
        yields_pure ⟨inner, rfl, (not_name_of_sum h).1⟩
  refine (holds_of_yields hyields htext).mono (fun e rest _ hgroup => ?_) fun _ => id
  obtain ⟨inner, rfl, hinner⟩ := hgroup
  rintro r ⟨⟩ hr
  exact absurd hr hinner

theorem primary_names : NamesOnly rules text (primary (.ofRuleset rules) nested text terms) := by
  have hcritical (terms : Nat) :
      NamesOnly rules text (ofScanner (criticalHit (.ofRuleset rules)) text terms) := by
    have hyields : Scanner.Yields text (criticalHit (.ofRuleset rules)) fun e => e.kind ≠ .group :=
      criticalHit_yields_of fun _ _ => nofun
    exact .scan (fun e rest h => names_of_kind_ne (hyields text List.suffix_rfl e rest h).2) trivial
  have hdamage (terms : Nat) :
      NamesOnly rules text (ofScanner (damageGroup (.ofRuleset rules)) text terms) := by
    refine .scan (fun e rest h => ?_) trivial
    obtain ⟨⟨inner, rest'⟩, hinner, hread⟩ := Option.bind_eq_some_iff.mp h
    cases hread
    rintro r ⟨⟩ -
    exact hinner
  have hnumber (terms : Nat) : NamesOnly rules text (ofScanner number text terms) := by
    have hyields : Scanner.Yields text number fun e => e.kind ≠ .group :=
      Scanner.integer_yields.bind fun _ _ => Scanner.yields_pure nofun
    exact .scan (fun e rest h => names_of_kind_ne (hyields text List.suffix_rfl e rest h).2) trivial
  exact (parenthesized_names hnested htext).orElse fun terms _ => (hcritical terms).orElse
    fun terms _ => (hdamage terms).orElse fun terms _ => hnumber terms

theorem head_names : NamesOnly rules text (head (.ofRuleset rules) nested text terms) := by
  have hrolled {s : Expr} {rest : List Char} : Names rules text (.rollOne s) rest :=
    names_of_kind_ne nofun
  refine Reading.Holds.orElse (V := fun _ => True) ?named fun terms _ =>
    Reading.Holds.orElse (V := fun _ => True) ?sided fun terms _ => ?letter
  case named => exact .scan_bind (fun _ _ _ => hrolled) trivial
  case sided =>
    exact (primary_names hnested htext).bind
      (fun _ _ _ hvalue => .optional_scan_bind (fun _ _ _ => hrolled) hvalue) fun _ => id
  case letter =>
    exact .scan_bind (fun _ _ _ => (holds_trivially _).bind (fun _ _ _ _ => hrolled) fun _ => id)
      trivial

omit hnested htext in
/-- What goes on with a value is more than a name, and where nothing goes on, nothing is read. -/
theorem continuation_names {rest : List Char} (he : Names rules text e rest) :
    (continuation (.ofRuleset rules) nested e rest terms).Holds
      (fun next left _ => next.elim (Names rules text e left) fun e => Names rules text e left)
      (fun _ => True) True := by
  have hphrase : Scanner.Yields rest (dicePhrase e) fun e => e.kind ≠ .group :=
    ((Scanner.keyword_yields _).bind fun _ _ => (Scanner.keyword_yields _).bind fun _ _ =>
      Scanner.yields_pure nofun).orElse
      ((Scanner.keyword_yields _).bind fun _ _ => (Scanner.keyword_yields _).bind fun _ _ =>
        Scanner.yields_pure nofun)
  refine Reading.Holds.orElse ((holds_trivially _).bind (fun sides left terms' _ =>
    .term_bind (fun _ => trivial) fun _ => names_of_kind_ne nofun) fun _ => id) fun terms' _ => ?_
  split
  · refine Reading.Holds.orElse (V := fun _ => True)
      (.scan_bind (fun e left h => names_of_kind_ne ?_) trivial) fun _ _ => he
    exact (hphrase rest List.suffix_rfl e left h).2
  · exact he

theorem value_names : NamesOnly rules text (value (.ofRuleset rules) nested text terms) :=
  .term_bind (fun _ => trivial) fun _ => (head_names hnested htext).bind
    (fun _ _ _ he => .repeatStep (fun _ _ _ => continuation_names) maxChain he) fun _ => id

omit hnested htext in
/-- A chain names what its first operand names, if it has no other one. -/
theorem chain_names {operand : Parser Expr} {operator : Scanner BinaryOp}
    (h : NamesOnly rules text (operand text terms)) :
    NamesOnly rules text (chain operand operator text terms) := by
  refine h.bind (fun e rest terms he => .repeatStep (I := fun e rest _ => Names rules text e rest)
    (fun e rest terms he => ?_) maxChain he) fun _ => id
  exact .optional_scan_bind (fun op left _ => (holds_trivially _).bind
    (fun _ _ _ _ => names_of_kind_ne nofun) fun _ => id) he

theorem sum_names : NamesOnly rules text (sum (.ofRuleset rules) nested text terms) :=
  chain_names (chain_names (value_names hnested htext))

end Phrases

/-- A request for a weapon or a spell is its damage, up to the end. -/
theorem damage_of_read {text : String} {r : Expr}
    (h : read (.ofRuleset rules) text = .ok (.group r)) (hr : r.kind = .reference) :
    ∃ rest, damage (.ofRuleset rules) text.toList = some (r, rest) ∧ Ended rest := by
  obtain ⟨rest, terms, hreading, hrest⟩ := exists_reading_of_read h
  have hnames : NamesOnly rules text.toList (readingOf (.ofRuleset rules) text.toList) :=
    sum_names (nestedWithin_sound rules text.toList maxNesting) List.suffix_rfl
  rw [NamesOnly, hreading] at hnames
  exact ⟨rest, hnames r rfl hr, hrest⟩

/-! ## Critical hits with them -/

namespace Scanner

variable {α β : Type} {s t : Scanner α}

/-- Separators at the head of the text make no difference to the scanner. -/
def Skips (s : Scanner α) : Prop :=
  ∀ text, s (skipSeparators text) = s text

theorem Skips.bind (hs : Skips s) (next : α → Scanner β) : Skips (s >>= next) := by
  intro text
  show (s (skipSeparators text)).bind _ = (s text).bind _
  rw [hs]

theorem Skips.orElse (hs : Skips s) (ht : Skips t) : Skips (s <|> t) := by
  intro text
  show (s (skipSeparators text) <|> t (skipSeparators text)) = (s text <|> t text)
  rw [hs, ht]

end Scanner

open Scanner (Skips)

theorem skipSeparators_skipSeparators (text : List Char) :
    skipSeparators (skipSeparators text) = skipSeparators text :=
  List.dropWhile_idempotent isSeparator text

theorem keyword_skips (word : String) : Skips (keyword word) := by
  intro text
  rw [keyword_apply, keyword_apply, skipSeparators_skipSeparators]

theorem integer_skips : Skips integer := by
  intro text
  rw [integer_apply, integer_apply, skipSeparators_skipSeparators]

theorem damage_skips (lexicon : Lexicon) : Skips (damage lexicon) := by
  have hlevel : Skips levelBefore := ((keyword_skips _).bind _).orElse (integer_skips.bind _)
  refine (hlevel.bind _).orElse fun text => ?_
  rw [namedDamage_apply, namedDamage_apply, skipSeparators_skipSeparators]

/-- The words that may stand between "critical" and what is named. -/
def fillerWords : List String :=
  ["to", "hit", "with", "a"]

theorem criticalHit_of_damage {lexicon : Lexicon} {text rest : List Char} {r : Expr}
    (hdamage : damage lexicon text = some (r, rest))
    (hfillers : ∀ word ∈ fillerWords, matchesName (skipSeparators text) word.toList = false) :
    criticalHit lexicon ("critical ".toList ++ text) = some (.critical r, rest) := by
  have hspace : skipSeparators (' ' :: text) = skipSeparators text := skipSeparators_spaces 1 text
  have hword : skipSeparators ("critical ".toList ++ text) = "critical".toList ++ ' ' :: text :=
    skipSeparators_cons (by decide) _
  have hcritical : keyword "critical" ("critical ".toList ++ text) = some ((), ' ' :: text) :=
    keyword_eq_some hword (by decide) (endsWord_space text)
  have hfiller (word : String) (hword : word ∈ fillerWords) :
      optional (keyword word) (' ' :: text) = some (none, ' ' :: text) :=
    Scanner.optional_none (keyword_of_matchesName (hspace ▸ hfillers word hword))
  have hread : damage lexicon (' ' :: text) = some (r, rest) := by
    rw [← damage_skips, hspace, damage_skips, hdamage]
  rw [criticalHit, Scanner.bind_some hcritical, Scanner.bind_some (hfiller "to" (by decide)),
    Scanner.bind_some (hfiller "hit" (by decide)), Scanner.bind_some (hfiller "with" (by decide)),
    Scanner.bind_some (hfiller "a" (by decide)), Scanner.bind_some hread]
  rfl

/-- Whatever weapon or spell a request names, with a level or without, "critical" before it makes a
critical hit of it. But no named die may stand there, which comes before a critical hit; and the
name does not begin with a word that is taken for one of those after "critical". -/
theorem read_critical {text : String} {r : Expr}
    (h : read (.ofRuleset rules) text = .ok (.group r)) (hr : r.kind = .reference)
    (hdice : ∀ name ∈ (Lexicon.ofRuleset rules).namedDice,
      matchesName ("critical " ++ text).toList name = false)
    (hfillers : ∀ word ∈ fillerWords,
      matchesName (skipSeparators text.toList) word.toList = false) :
    read (.ofRuleset rules) ("critical " ++ text) = .ok (.critical r) := by
  obtain ⟨rest, hdamage, hrest⟩ := damage_of_read h hr
  have htext : ("critical " ++ text).toList = "critical ".toList ++ text.toList :=
    String.toList_append
  have hskip : skipSeparators ("critical " ++ text).toList = ("critical " ++ text).toList := by
    rw [htext]
    exact skipSeparators_cons (by decide) _
  have hname : namedDie (.ofRuleset rules) ("critical " ++ text).toList = none :=
    namedDie_of_matchesName (hskip.symm ▸ hdice)
  refine read_of_criticalHit hname (lacks_of_skip (hskip.trans htext) (by decide)) ?_ hrest
  rw [htext]
  exact criticalHit_of_damage hdamage hfillers

/-- A spell whose level stands before it, with the names of the standard ruleset. -/
theorem read_critical_fireball :
    read (.ofRuleset .standard) "5th level fireball" =
        .ok (.group (.spellAt "fireball" (.integer 5))) ∧
      read (.ofRuleset .standard) "critical 5th level fireball" =
        .ok (.critical (.spellAt "fireball" (.integer 5))) := by
  have hread : read (.ofRuleset .standard) "5th level fireball" =
      .ok (.group (.spellAt "fireball" (.integer 5))) :=
    eq_ok_of_toOption_eq_some (by decide +kernel)
  have hdice : ∀ name ∈ (Lexicon.ofRuleset .standard).namedDice,
      matchesName ("critical " ++ "5th level fireball").toList name = false := by decide +kernel
  have hfillers : ∀ word ∈ fillerWords,
      matchesName (skipSeparators "5th level fireball".toList) word.toList = false := by
    decide +kernel
  have htext : "critical 5th level fireball" = "critical " ++ "5th level fireball" := by
    decide +kernel
  rw [htext]
  exact ⟨hread, read_critical hread rfl hdice hfillers⟩

/-- A club, and a die that goes by the name of a critical hit with it. -/
def criticalClub : Ruleset :=
  ⟨[⟨"critical club", 6⟩], [⟨"Club", "1d6"⟩], []⟩

/-- Where a named die begins with "critical", it is the die that is meant. -/
theorem not_read_critical_club :
    ¬ ∀ (rules : Ruleset) (text : String) (r : Expr),
      read (.ofRuleset rules) text = .ok (.group r) → r.kind = .reference →
        read (.ofRuleset rules) ("critical " ++ text) = .ok (.critical r) := by
  intro h
  have hclub : read (.ofRuleset criticalClub) "club" = .ok (.group (.weapon "club")) :=
    eq_ok_of_toOption_eq_some (by decide +kernel)
  have hdie : read (.ofRuleset criticalClub) "critical club" =
      .ok (.rollOne (.namedDie "critical club")) := eq_ok_of_toOption_eq_some (by decide +kernel)
  have hcritical := h criticalClub "club" (.weapon "club") hclub rfl
  have htext : "critical " ++ "club" = "critical club" := by decide +kernel
  rw [htext] at hcritical
  cases hdie.symm.trans hcritical

end SpokenDice.Request
