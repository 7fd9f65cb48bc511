import SpokenDice.Proofs.Request.DiceText
import SpokenDice.Proofs.Request.Grammar
import SpokenDice.Proofs.Request.LetterCase
import SpokenDice.Proofs.Request.Numbers

/-!
# Openings of a request

A parenthesis and the "d" of a die open something that is read one level deeper. Whatever a scanner
reads, the text that is left is shorter, so that each opening is entered with a shorter text. Where
an opening stands, no sign and no phrase goes on with what was read before it; and where names do
not begin with a parenthesis, nothing but a group is read at one.

- `Scanner.Consumes`: a scanner that leaves a shorter text. All scanners of values, signs and
  phrases do.
- `Opens`: an opening stands at the head of a text. `Opens.productSign_eq_none`,
  `Opens.additiveSign_eq_none` and the lemmas beside them say what does not match there.
- `AtGroup`: the opening is a parenthesis.
-/

namespace SpokenDice

/-- No name of the ruleset begins with a parenthesis. -/
def Ruleset.Unparenthesized (rules : Ruleset) : Prop :=
  ∀ name ∈ rules.namedDice.map NamedDie.name ++ rules.weapons.map Weapon.name ++
    rules.spells.map Spell.name, name.toList.head? ≠ some '('

instance (rules : Ruleset) : Decidable rules.Unparenthesized :=
  inferInstanceAs (Decidable (∀ name ∈ _, _))

namespace Request

/-- The second text is an end of the first one, and shorter. -/
structure ShorterEnd (text rest : List Char) : Prop where
  suffix : rest <:+ text
  length_lt : rest.length < text.length

namespace ShorterEnd

variable {text middle rest : List Char}

theorem of_suffix (h : ShorterEnd middle rest) (hmiddle : middle <:+ text) :
    ShorterEnd text rest :=
  ⟨h.suffix.trans hmiddle, Nat.lt_of_lt_of_le h.length_lt hmiddle.length_le⟩

theorem trans_suffix (h : ShorterEnd text middle) (hrest : rest <:+ middle) :
    ShorterEnd text rest :=
  ⟨hrest.trans h.suffix, Nat.lt_of_le_of_lt hrest.length_le h.length_lt⟩

/-- What stands behind a token is shorter than the text in which it was looked for. -/
theorem of_skip {token : List Char} (h : skipSeparators text = token ++ rest)
    (htoken : token ≠ []) : ShorterEnd text rest := by
  have hskip : token ++ rest <:+ text := h ▸ List.dropWhile_suffix _
  have hpos := List.length_pos_iff.mpr htoken
  refine ⟨(List.suffix_append token rest).trans hskip, ?_⟩
  have hlength := hskip.length_le
  rw [List.length_append] at hlength
  omega

end ShorterEnd

variable {α β : Type} {rules : Ruleset}

/-- A name that may be used is not empty. -/
theorem ne_nil_of_mem_usableNames {table : List String} {name : List Char}
    (h : name ∈ usableNames table) : name ≠ [] := by
  rintro rfl
  simpa [Text.isBlankText] using (List.mem_filter.mp h).2

/-! ## Scanners leave less -/

namespace Scanner

/-- What the scanner leaves of `text` is shorter. -/
def ConsumesAt (text : List Char) (s : Scanner α) : Prop :=
  ∀ a rest, s text = some (a, rest) → ShorterEnd text rest

/-- What the scanner leaves of a text is shorter. -/
def Consumes (s : Scanner α) : Prop :=
  ∀ text, ConsumesAt text s

/-- Once something was read, the rest of a phrase may be missing. -/
theorem ConsumesAt.bind {text : List Char} {s : Scanner α} {next : α → Scanner β}
    (hs : ConsumesAt text s) (hnext : ∀ a whole, Yields whole (next a) fun _ => True) :
    ConsumesAt text (s >>= next) := by
  intro b rest h
  obtain ⟨⟨a, middle⟩, ha, hb⟩ := Option.bind_eq_some_iff.mp h
  exact (hs a middle ha).trans_suffix (hnext a middle middle List.suffix_rfl b rest hb).1

theorem Consumes.bind {s : Scanner α} {next : α → Scanner β} (hs : Consumes s)
    (hnext : ∀ a whole, Yields whole (next a) fun _ => True) : Consumes (s >>= next) :=
  fun text => (hs text).bind hnext

/-- What is read is only given another form. -/
theorem Consumes.map {s : Scanner α} (hs : Consumes s) (f : α → β) :
    Consumes (do let a ← s; pure (f a)) :=
  hs.bind fun _ _ => yields_pure trivial

theorem Consumes.orElse {s t : Scanner α} (hs : Consumes s) (ht : Consumes t) :
    Consumes (s <|> t) := by
  intro text a rest h
  cases hread : s text with
  | none => exact ht text a rest ((orElse_none hread).symm.trans h)
  | some result => exact hs text a rest (hread.trans ((orElse_some hread).symm.trans h))

/-! ### Tokens -/

/-- A token is looked for after the separators. -/
theorem consumes_token {next : List Char → Scanner α} (h : ∀ text, ConsumesAt text (next text)) :
    Consumes (do separators; let text ← get; next text) :=
  fun text a rest hs => (h (skipSeparators text) a rest hs).of_suffix (List.dropWhile_suffix _)

theorem keyword_consumes {word : String} (hword : word.toList ≠ []) : Consumes (keyword word) := by
  intro text a rest h
  rw [keyword_apply, Option.map_eq_some_iff] at h
  obtain ⟨rest', hafter, hrest⟩ := h
  obtain ⟨-, rfl⟩ := Prod.mk.inj hrest
  obtain ⟨head, htext, hsame, -⟩ := afterWord_eq_some_iff.mp hafter
  refine .of_skip htext ?_
  rintro rfl
  exact hword (List.length_eq_zero_iff.mp (Text.length_eq_of_sameLetters hsame).symm)

theorem skip_of_sign {c : Char} {text rest : List Char} {a : Unit}
    (h : sign c text = some (a, rest)) : skipSeparators text = c :: rest := by
  rw [sign_apply] at h
  split at h
  · cases h
  · rename_i d rest' hskip
    split at h
    · rename_i hd
      obtain ⟨-, rfl⟩ := Prod.mk.inj (Option.some.inj h)
      rw [hskip, hd]
    · cases h

theorem sign_consumes (c : Char) : Consumes (sign c) := by
  intro text a rest h
  have hskip : skipSeparators text = [c] ++ rest := skip_of_sign h
  exact .of_skip hskip (List.cons_ne_nil c [])

theorem integer_consumes : Consumes integer := by
  intro text n rest h
  obtain ⟨digits, hdigits, htext, -⟩ := exists_numeral_of_integer h
  exact .of_skip htext hdigits.isDigit.1

/-! ### Names -/

theorem nameOfLength_consumesAt {table : List String} {text : List Char} {n : Nat}
    (hlength : longestName (usableNames table) text = some n) :
    ConsumesAt text (nameOfLength n) := by
  intro name rest h
  obtain ⟨rfl, rfl⟩ := Prod.mk.inj (Option.some.inj h)
  obtain ⟨⟨known, hmem, hmatch, rfl⟩, -⟩ := longestName_eq_some_iff.mp hlength
  obtain ⟨rest, hafter⟩ := Option.isSome_iff_exists.mp hmatch
  obtain ⟨head, rfl, hsame, -⟩ := afterWord_eq_some_iff.mp hafter
  have hpos := List.length_pos_iff.mpr (ne_nil_of_mem_usableNames hmem)
  rw [← Text.length_eq_of_sameLetters hsame] at hpos ⊢
  refine ⟨List.drop_suffix _ _, ?_⟩
  rw [List.drop_left, List.length_append]
  omega

theorem nameAmong_consumes (table : List String) : Consumes (nameAmong (usableNames table)) := by
  intro text name rest h
  rw [nameAmong_apply] at h
  obtain ⟨n, hn, hname⟩ := Option.bind_eq_some_iff.mp h
  exact (nameOfLength_consumesAt hn name rest hname).of_suffix (List.dropWhile_suffix _)

end Scanner

section Phrases

open Scanner

theorem namedDamage_consumes : Consumes (namedDamage (.ofRuleset rules)) := by
  refine consumes_token fun text =>
    damageOfLengths_cases (p := ConsumesAt text) ?_ (fun w hw => ?_) fun s hs => ?_
  · intro e rest h
    cases h
  · exact (nameOfLength_consumesAt hw).bind fun _ _ => yields_pure trivial
  · refine (nameOfLength_consumesAt hs).bind fun name whole =>
      levelAfter_yields.optional.bind fun level _ => ?_
    cases level <;> exact yields_pure trivial

theorem levelledSpell_consumes : Consumes (levelledSpell (.ofRuleset rules)) := by
  have hnumbered : Consumes numberedLevel :=
    (keyword_consumes (by decide)).bind fun _ _ => integer_yields.mono fun _ _ => trivial
  have hordinal : Consumes ordinalLevel :=
    integer_consumes.bind fun _ _ => ordinal_yields.bind fun _ _ =>
      (keyword_yields _).bind fun _ _ => yields_pure trivial
  exact (hnumbered.orElse hordinal).bind fun _ _ =>
    (nameAmong_yields _).bind fun _ _ => yields_pure trivial

theorem damage_consumes : Consumes (damage (.ofRuleset rules)) :=
  levelledSpell_consumes.orElse namedDamage_consumes

theorem criticalHit_consumes : Consumes (criticalHit (.ofRuleset rules)) :=
  (keyword_consumes (by decide)).bind fun _ _ => (keyword_yields _).optional.bind fun _ _ =>
    (keyword_yields _).optional.bind fun _ _ => (keyword_yields _).optional.bind fun _ _ =>
      (keyword_yields _).optional.bind fun _ _ =>
        damage_yields.bind fun _ _ => yields_pure trivial

theorem damageGroup_consumes : Consumes (damageGroup (.ofRuleset rules)) :=
  damage_consumes.map Expr.group

theorem namedDie_consumes : Consumes (namedDie (.ofRuleset rules)) :=
  (nameAmong_consumes _).map Expr.namedDie

theorem number_consumes : Consumes number :=
  integer_consumes.map Expr.integer

theorem dieLetter_consumes : Consumes dieLetter :=
  (sign_consumes 'd').orElse (sign_consumes 'D')

theorem sidedDie_consumes : Consumes sidedDie :=
  (keyword_consumes (by decide)).bind fun _ _ => (keyword_yields _).orElse (keyword_yields _)

theorem dicePhrase_consumes (dice : Expr) : Consumes (dicePhrase dice) := by
  have hphrase (word : String) (e : Expr) : Consumes (do keyword "with"; keyword word; pure e) :=
    (keyword_consumes (by decide)).bind fun _ _ =>
      (keyword_yields _).bind fun _ _ => yields_pure trivial
  exact (hphrase _ _).orElse (hphrase _ _)

theorem productSign_consumes : Consumes productSign := by
  have hmultiplied (word : String) :
      Consumes (do keyword "multiplied"; keyword word; pure BinaryOp.mul) :=
    (keyword_consumes (by decide)).bind fun _ _ =>
      (keyword_yields _).bind fun _ _ => yields_pure trivial
  refine Consumes.orElse ?_ (.orElse ?_ (.orElse (hmultiplied _) (hmultiplied _)))
  · exact (sign_consumes _).map fun _ => BinaryOp.mul
  · exact (keyword_consumes (by decide)).map fun _ => BinaryOp.mul

theorem additiveSign_consumes : Consumes additiveSign := by
  refine Consumes.orElse ?_ (.orElse ?_ (.orElse ?_ ?_))
  · exact (sign_consumes _).map fun _ => BinaryOp.add
  · exact (keyword_consumes (by decide)).map fun _ => BinaryOp.add
  · exact (sign_consumes _).map fun _ => BinaryOp.sub
  · exact (keyword_consumes (by decide)).map fun _ => BinaryOp.sub

end Phrases

/-! ## Openings -/

/-- Whether the character opens something that is read one level deeper. -/
def isOpening (c : Char) : Bool :=
  c == '(' || c == 'd' || c == 'D'

theorem isOpening_iff {c : Char} : isOpening c = true ↔ c.toLower = '(' ∨ c.toLower = 'd' := by
  rw [Text.toLower_eq_iff (by decide), Text.toLower_eq_d_iff]
  simp [isOpening, or_assoc]

/-- How many openings the text may hold. -/
def openings (text : List Char) : Nat :=
  text.countP isOpening

theorem openings_le {text rest : List Char} (h : rest <:+ text) : openings rest ≤ openings text :=
  h.sublist.countP_le

/-- Behind an opening there is one less. -/
theorem openings_lt {text rest : List Char} {c : Char} (h : skipSeparators text = c :: rest)
    (hc : isOpening c = true) : openings rest < openings text := by
  have hskip : openings (c :: rest) ≤ openings text :=
    openings_le (h ▸ List.dropWhile_suffix _)
  rwa [openings, List.countP_cons_of_pos hc] at hskip

/-- After separators, the text goes on with an opening. -/
def Opens (text : List Char) : Prop :=
  ∃ c rest, skipSeparators text = c :: rest ∧ isOpening c = true

/-- After separators, the text goes on with a parenthesis. -/
def AtGroup (text : List Char) : Prop :=
  ∃ rest, skipSeparators text = '(' :: rest

theorem AtGroup.opens {text : List Char} (h : AtGroup text) : Opens text :=
  ⟨'(', h.choose, h.choose_spec, by decide⟩

theorem exists_opening_of_dieLetter {text rest : List Char} {a : Unit}
    (h : dieLetter text = some (a, rest)) :
    ∃ c, skipSeparators text = c :: rest ∧ isOpening c = true := by
  rw [dieLetter_apply] at h
  split at h
  · cases h
  · rename_i c rest' hskip
    split at h
    · rename_i hc
      obtain ⟨-, rfl⟩ := Prod.mk.inj (Option.some.inj h)
      exact ⟨c, hskip, isOpening_iff.mpr (.inr hc)⟩
    · cases h

/-! ### What does not stand at an opening -/

/-- Whether the word begins with something other than an opening. -/
def startsClosed : List Char → Bool
  | c :: _ => !isOpening c
  | [] => false

theorem afterWord_eq_none_of_ne {w c : Char} (h : w.toLower ≠ c.toLower)
    (word text : List Char) : afterWord (w :: word) (c :: text) = none :=
  if_neg h

namespace Opens

variable {text : List Char} (h : Opens text)

include h

theorem keyword_eq_none {word : String} (hword : startsClosed word.toList = true) :
    keyword word text = none := by
  obtain ⟨c, rest, hskip, hc⟩ := h
  rw [keyword_apply, hskip]
  cases hletters : word.toList with
  | nil => simp [startsClosed, hletters] at hword
  | cons w tail =>
    rw [afterWord_eq_none_of_ne]
    · rfl
    · intro heq
      have hw : isOpening w = true := by rwa [isOpening_iff, heq, ← isOpening_iff]
      simp [startsClosed, hletters, hw] at hword

theorem sign_eq_none {c : Char} (hc : isOpening c = false) : sign c text = none := by
  obtain ⟨d, rest, hskip, hd⟩ := h
  refine Request.sign_eq_none (lacks_of_skip hskip (beq_eq_false_iff_ne.mpr ?_))
  rintro rfl
  cases hd.symm.trans hc

theorem dicePhrase_eq_none (dice : Expr) : dicePhrase dice text = none := by
  have hwith := h.keyword_eq_none (by decide : startsClosed "with".toList = true)
  rw [dicePhrase, Scanner.orElse_none (Scanner.bind_none hwith), Scanner.bind_none hwith]

theorem productSign_eq_none : productSign text = none := by
  have hmultiplied := h.keyword_eq_none (by decide : startsClosed "multiplied".toList = true)
  rw [productSign, Scanner.orElse_none (Scanner.bind_none (h.sign_eq_none (by decide))),
    Scanner.orElse_none (Scanner.bind_none (h.keyword_eq_none (by decide))),
    Scanner.orElse_none (Scanner.bind_none hmultiplied), Scanner.bind_none hmultiplied]

theorem additiveSign_eq_none : additiveSign text = none := by
  rw [additiveSign, Scanner.orElse_none (Scanner.bind_none (h.sign_eq_none (by decide))),
    Scanner.orElse_none (Scanner.bind_none (h.keyword_eq_none (by decide))),
    Scanner.orElse_none (Scanner.bind_none (h.sign_eq_none (by decide))),
    Scanner.bind_none (h.keyword_eq_none (by decide))]

end Opens

namespace AtGroup

open SpokenDice.Request.Parser (ofScanner)

variable {text : List Char} (h : AtGroup text)

include h

theorem lacks {p : Char → Bool} (hp : p '(' = false) : Lacks p text :=
  lacks_of_skip h.choose_spec hp

theorem dieLetter_eq_none : dieLetter text = none := by
  obtain ⟨rest, hskip⟩ := h
  rw [dieLetter_apply, hskip]
  rfl

theorem number_eq_none : number text = none :=
  Scanner.bind_none (integer_eq_none (h.lacks (by decide)))

theorem criticalHit_eq_none (lexicon : Lexicon) : criticalHit lexicon text = none :=
  Request.criticalHit_eq_none (Lacks.wordless (h.lacks (by decide))) lexicon

theorem longestName_eq_none {table : List String}
    (htable : ∀ name ∈ table, name.toList.head? ≠ some '(') :
    longestName (usableNames table) (skipSeparators text) = none := by
  obtain ⟨rest, hskip⟩ := h
  refine longestName_eq_none_iff.mpr fun name hname => ?_
  obtain ⟨known, hknown, rfl⟩ := List.mem_map.mp (List.mem_filter.mp hname).1
  have hhead := htable known hknown
  rw [matchesName, hskip]
  cases hletters : known.toList with
  | nil => exact absurd hletters (ne_nil_of_mem_usableNames hname)
  | cons w tail =>
    rw [afterWord_eq_none_of_ne]
    · rfl
    · intro heq
      have hw : w = '(' := (Text.toLower_eq_iff (by decide)).mp heq
      exact hhead (by rw [hletters, hw, List.head?_cons])

theorem damage_eq_none (hrules : rules.Unparenthesized) :
    damage (.ofRuleset rules) text = none := by
  have hnumber : ∀ n rest, integer text = some (n, rest) → Wordless rest := by
    intro n rest hn
    cases (integer_eq_none (h.lacks (by decide))).symm.trans hn
  have hlevelled := levelledSpell_eq_none (Lacks.wordless (h.lacks (by decide))) hnumber
  have hweapons : longestName (Lexicon.ofRuleset rules).weapons (skipSeparators text) = none :=
    h.longestName_eq_none fun name hname =>
      hrules name (List.mem_append_left _ (List.mem_append_right _ hname))
  have hspells : longestName (Lexicon.ofRuleset rules).spells (skipSeparators text) = none :=
    h.longestName_eq_none fun name hname => hrules name (List.mem_append_right _ hname)
  rw [damage, Scanner.orElse_none (hlevelled _), namedDamage_apply, hweapons, hspells]
  rfl

theorem damageGroup_eq_none (hrules : rules.Unparenthesized) :
    damageGroup (.ofRuleset rules) text = none :=
  Scanner.bind_none (h.damage_eq_none hrules)

/-- Where a group begins, nothing else can be read that is no die. -/
theorem tokens_unmatched (hrules : rules.Unparenthesized) (terms : Nat) :
    (ofScanner (criticalHit (.ofRuleset rules)) <|> ofScanner (damageGroup (.ofRuleset rules))
      <|> ofScanner number) text terms = .unmatched terms := by
  rw [Parser.orElse_unmatched (Parser.ofScanner_none (h.criticalHit_eq_none _)),
    Parser.orElse_unmatched (Parser.ofScanner_none (h.damageGroup_eq_none hrules)),
    Parser.ofScanner_none h.number_eq_none]

theorem lettered_unmatched (next : Unit → Parser α) (terms : Nat) :
    (ofScanner dieLetter >>= next) text terms = .unmatched terms :=
  Parser.bind_unmatched (Parser.ofScanner_none h.dieLetter_eq_none)

end AtGroup

end Request

end SpokenDice
