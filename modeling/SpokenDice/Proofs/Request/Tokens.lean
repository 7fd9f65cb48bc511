import Mathlib
import SpokenDice.Request.Parser

/-!
# Texts without words

The keywords of a request begin with two letters, and so do the names of most rulesets. Where a
text does not go on with two letters, no keyword and no name matches, and only signs and numbers
are left to be read.

- `Ruleset.Worded`: every name begins with two letters, and `Wordless`: a text does not.
- `keyword_eq_none`, `nameAmong_eq_none`, `damage_eq_none`: what does not match a wordless text.
- `integer_eq_some`: a numeral is read to its end.
- `Idle`: nothing stands here that could go on with a value.
-/

namespace SpokenDice

namespace Text

theorem isDigit_toLower (c : Char) : c.toLower.isDigit = c.isDigit := by
  simp only [Char.isDigit, Char.toLower]
  split <;> grind [UInt32.toNat_add, Char.toNat_val]

theorem isAlpha_of_isDigit {c : Char} (h : c.isDigit = true) : c.isAlpha = false := by
  simp only [Char.isDigit, Char.isAlpha, Char.isUpper, Char.isLower] at h ⊢
  grind

theorem isDigit_of_isAlpha {c : Char} (h : c.isAlpha = true) : c.isDigit = false :=
  Bool.eq_false_iff.mpr fun hdigit => by cases (isAlpha_of_isDigit hdigit).symm.trans h

theorem isDigit_ne {c d : Char} (h : c.isDigit = true) (hd : d.isDigit = false) :
    (c == d) = false := by
  refine beq_eq_false_iff_ne.mpr ?_
  rintro rfl
  cases h.symm.trans hd

/-- No visible character of ASCII is blank. -/
theorem isBlank_of_visible {c : Char} (hlow : 33 ≤ c.toNat) (hhigh : c.toNat ≤ 126) :
    isBlank c = false := by
  have hranges : ∀ r ∈ blankRanges, r.2 < 33 ∨ 126 < r.1 := by decide
  refine Bool.eq_false_iff.mpr fun hcontains => ?_
  obtain ⟨r, hr, hfrom, hto⟩ := CodeRanges.contains_iff.mp hcontains
  have hrange := hranges r hr
  omega

/-- Whether the text begins with two letters of ASCII. -/
def startsWord : List Char → Bool
  | c :: d :: _ => c.isAlpha && d.isAlpha
  | _ => false

/-- The case of letters makes no difference. -/
theorem startsWord_append {word head : List Char} (hsame : sameLetters head word = true)
    (hword : startsWord word = true) (rest : List Char) : startsWord (head ++ rest) = true := by
  have hletters := sameLetters_iff.mp hsame
  match word, head with
  | c :: d :: _, c' :: d' :: _ =>
    simp only [lowerCase, List.map_cons, List.cons.injEq] at hletters
    obtain ⟨hc, hd, -⟩ := hletters
    simp only [startsWord, List.cons_append] at hword ⊢
    rw [← Char.isAlpha_toLower_eq_isAlpha c', ← Char.isAlpha_toLower_eq_isAlpha d', hc, hd,
      Char.isAlpha_toLower_eq_isAlpha, Char.isAlpha_toLower_eq_isAlpha, hword]
  | c :: d :: _, [] | c :: d :: _, [_] => simp [lowerCase] at hletters
  | [], _ | [_], _ => simp [startsWord] at hword

end Text

/-- Every name of the ruleset begins with two letters. -/
def Ruleset.Worded (rules : Ruleset) : Prop :=
  ∀ name ∈ rules.namedDice.map NamedDie.name ++ rules.weapons.map Weapon.name ++
    rules.spells.map Spell.name, Text.startsWord name.toList = true

namespace Request

open Text (startsWord)

/-- Every name begins with two letters. -/
def Lexicon.Worded (lexicon : Lexicon) : Prop :=
  ∀ name ∈ lexicon.namedDice ++ lexicon.weapons ++ lexicon.spells, startsWord name = true

/-- What holds of every name of a ruleset holds of every name of its lexicon. -/
theorem Lexicon.forall_ofRuleset {rules : Ruleset} {p : List Char → Prop}
    (h : ∀ name ∈ rules.namedDice.map NamedDie.name ++ rules.weapons.map Weapon.name ++
      rules.spells.map Spell.name, p name.toList) :
    ∀ name ∈ (ofRuleset rules).namedDice ++ (ofRuleset rules).weapons ++ (ofRuleset rules).spells,
      p name := by
  intro name hname
  simp only [ofRuleset, List.mem_append] at hname
  rcases hname with (hname | hname) | hname
  all_goals
    obtain ⟨known, hknown, rfl⟩ := List.mem_map.mp (List.mem_filter.mp hname).1
    exact h known (by simp only [List.mem_append, hknown, true_or, or_true])

theorem Lexicon.worded_ofRuleset {rules : Ruleset} (h : rules.Worded) :
    (Lexicon.ofRuleset rules).Worded :=
  forall_ofRuleset h

/-- After separators, the text does not go on with two letters. -/
def Wordless (text : List Char) : Prop :=
  startsWord (skipSeparators text) = false

/-! ## What a scanner reads -/

namespace Scanner

variable {α β : Type} {text rest : List Char}

theorem bind_some {s : Scanner α} {next : α → Scanner β} {a : α} (h : s text = some (a, rest)) :
    (s >>= next) text = next a rest := by
  show (s text).bind _ = _
  rw [h, Option.bind_some]

theorem bind_none {s : Scanner α} {next : α → Scanner β} (h : s text = none) :
    (s >>= next) text = none := by
  show (s text).bind _ = _
  rw [h, Option.bind_none]

theorem orElse_some {s t : Scanner α} {a : α} (h : s text = some (a, rest)) :
    (s <|> t) text = some (a, rest) := by
  show (s text <|> t text) = _
  rw [h]
  rfl

theorem orElse_none {s t : Scanner α} (h : s text = none) : (s <|> t) text = t text := by
  show (s text <|> t text) = _
  rw [h]
  rfl

theorem optional_some {s : Scanner α} {a : α} (h : s text = some (a, rest)) :
    optional s text = some (some a, rest) := by
  refine orElse_some ?_
  show (s text).bind _ = _
  rw [h, Option.bind_some]
  rfl

theorem optional_none {s : Scanner α} (h : s text = none) :
    optional s text = some (none, text) := by
  refine orElse_none ?_
  show (s text).bind _ = _
  rw [h, Option.bind_none]

end Scanner

theorem keyword_apply (word : String) (text : List Char) :
    keyword word text =
      (afterWord word.toList (skipSeparators text)).map fun rest => ((), rest) := by
  show (liftM (afterWord word.toList (skipSeparators text)) >>= fun rest => set rest : Scanner Unit)
    (skipSeparators text) = _
  cases afterWord word.toList (skipSeparators text) <;> rfl

theorem sign_apply (c : Char) (text : List Char) :
    sign c text = match skipSeparators text with
      | [] => none
      | d :: rest => if d = c then some ((), rest) else none := by
  show (match skipSeparators text with
    | [] => failure
    | d :: rest => if d = c then set rest else failure : Scanner Unit) (skipSeparators text) = _
  cases skipSeparators text with
  | nil => rfl
  | cons d rest =>
    by_cases hd : d = c
    · simp only [if_pos hd]
      rfl
    · simp only [if_neg hd]
      rfl

theorem nameAmong_apply (names : List (List Char)) (text : List Char) :
    nameAmong names text = (longestName names (skipSeparators text)).bind fun n =>
      nameOfLength n (skipSeparators text) := by
  show (liftM (longestName names (skipSeparators text)) >>= nameOfLength : Scanner String)
    (skipSeparators text) = _
  cases longestName names (skipSeparators text) <;> rfl

/-- Reads a weapon or spell, given how long their longest names are that stand here. -/
def damageOfLengths : Option Nat → Option Nat → Scanner Expr
  | none, none => failure
  | some w, none => weaponOfLength w
  | none, some s => spellOfLength s
  | some w, some s => if s ≤ w then weaponOfLength w else spellOfLength s

/-- Either nothing is read, or a weapon or spell of the length that was found. -/
theorem damageOfLengths_cases {p : Scanner Expr → Prop} {w? s? : Option Nat} (hnone : p failure)
    (hweapon : ∀ w, w? = some w → p (weaponOfLength w))
    (hspell : ∀ s, s? = some s → p (spellOfLength s)) : p (damageOfLengths w? s?) := by
  cases w? with
  | none =>
    cases s? with
    | none => exact hnone
    | some s => exact hspell s rfl
  | some w =>
    cases s? with
    | none => exact hweapon w rfl
    | some s =>
      rw [damageOfLengths]
      split
      · exact hweapon w rfl
      · exact hspell s rfl

theorem namedDamage_apply (lexicon : Lexicon) (text : List Char) :
    namedDamage lexicon text = damageOfLengths (longestName lexicon.weapons (skipSeparators text))
      (longestName lexicon.spells (skipSeparators text)) (skipSeparators text) := rfl

theorem integer_apply (text : List Char) :
    integer text = (natural? ((skipSeparators text).takeWhile Char.isDigit)).bind fun value =>
      (int64? (Int.ofNat value)).map fun n =>
        (n, (skipSeparators text).dropWhile Char.isDigit) := by
  show (do
    let value ← natural? ((skipSeparators text).takeWhile Char.isDigit)
    set ((skipSeparators text).dropWhile Char.isDigit)
    let n ← int64? (Int.ofNat value)
    pure n : Scanner Int64) (skipSeparators text) = _
  cases natural? ((skipSeparators text).takeWhile Char.isDigit) with
  | none => rfl
  | some value =>
    show (do
      let n ← int64? (Int.ofNat value)
      pure n : Scanner Int64) ((skipSeparators text).dropWhile Char.isDigit) = (int64? _).map _
    cases int64? (Int.ofNat value) <;> rfl

/-! ## Words -/

theorem endsWord_space (rest : List Char) : endsWord (' ' :: rest) = true := by
  have hspace : Text.isAlphanumeric ' ' = false := by decide +kernel
  rw [endsWord, hspace, Bool.not_false]

theorem keyword_eq_some {word : String} {text head rest : List Char}
    (htext : skipSeparators text = head ++ rest)
    (hsame : Text.sameLetters head word.toList = true) (hrest : endsWord rest = true) :
    keyword word text = some ((), rest) := by
  rw [keyword_apply, afterWord_eq_some_iff.mpr ⟨head, htext, hsame, hrest⟩]
  rfl

theorem keyword_of_matchesName {word : String} {text : List Char}
    (h : matchesName (skipSeparators text) word.toList = false) : keyword word text = none := by
  rw [keyword_apply, Option.map_eq_none_iff]
  exact Option.isNone_iff_eq_none.mp (Option.isSome_eq_false_iff.mp h)

theorem afterWord_eq_none {word text : List Char} (hword : startsWord word = true)
    (htext : startsWord text = false) : afterWord word text = none := by
  refine Option.eq_none_iff_forall_ne_some.mpr fun rest h => ?_
  obtain ⟨head, rfl, hsame, -⟩ := afterWord_eq_some_iff.mp h
  exact absurd (Text.startsWord_append hsame hword rest) (by simp [htext])

theorem longestName_eq_none {names : List (List Char)} {text : List Char}
    (hnames : ∀ name ∈ names, startsWord name = true) (htext : startsWord text = false) :
    longestName names text = none := by
  refine longestName_eq_none_iff.mpr fun name hname => ?_
  rw [matchesName, afterWord_eq_none (hnames name hname) htext]
  rfl

section Wordless

variable {text : List Char} (htext : Wordless text)

include htext

theorem keyword_eq_none (word : String) (hword : startsWord word.toList = true) :
    keyword word text = none := by
  rw [keyword_apply, afterWord_eq_none hword htext]
  rfl

theorem nameAmong_eq_none {names : List (List Char)}
    (hnames : ∀ name ∈ names, startsWord name = true) : nameAmong names text = none := by
  rw [nameAmong_apply, longestName_eq_none hnames htext]
  rfl

theorem ordinal_eq_none : ordinal text = none := by
  have hkeyword := keyword_eq_none htext
  rw [ordinal, Scanner.orElse_none (hkeyword "st" (by decide)),
    Scanner.orElse_none (hkeyword "nd" (by decide)),
    Scanner.orElse_none (hkeyword "rd" (by decide)), hkeyword "th" (by decide)]

theorem sidedDie_eq_none : sidedDie text = none :=
  Scanner.bind_none (keyword_eq_none htext "sided" (by decide))

theorem dicePhrase_eq_none (dice : Expr) : dicePhrase dice text = none := by
  have hwith := keyword_eq_none htext "with" (by decide)
  rw [dicePhrase, Scanner.orElse_none (Scanner.bind_none hwith), Scanner.bind_none hwith]

theorem criticalHit_eq_none (lexicon : Lexicon) : criticalHit lexicon text = none :=
  Scanner.bind_none (keyword_eq_none htext "critical" (by decide))

/-- A number that stands here is no level when no word follows it. -/
theorem levelledSpell_eq_none (hnumber : ∀ n rest, integer text = some (n, rest) → Wordless rest)
    (lexicon : Lexicon) : levelledSpell lexicon text = none := by
  have hnumbered : numberedLevel text = none :=
    Scanner.bind_none (keyword_eq_none htext "level" (by decide))
  have hordinal : ordinalLevel text = none := by
    cases hinteger : integer text with
    | none => exact Scanner.bind_none hinteger
    | some read =>
      rw [ordinalLevel, Scanner.bind_some hinteger]
      exact Scanner.bind_none (ordinal_eq_none (hnumber read.1 read.2 hinteger))
  exact Scanner.bind_none ((Scanner.orElse_none hnumbered).trans hordinal)

variable {lexicon : Lexicon} (hlexicon : lexicon.Worded)

include hlexicon

theorem namedDie_eq_none : namedDie lexicon text = none :=
  Scanner.bind_none (nameAmong_eq_none htext fun name hname =>
    hlexicon name (List.mem_append_left _ (List.mem_append_left _ hname)))

theorem namedDamage_eq_none : namedDamage lexicon text = none := by
  have hweapons := longestName_eq_none (fun name hname =>
    hlexicon name (List.mem_append_left _ (List.mem_append_right _ hname))) htext
  have hspells := longestName_eq_none (fun name hname =>
    hlexicon name (List.mem_append_right _ hname)) htext
  rw [namedDamage_apply, hweapons, hspells]
  rfl

theorem damage_eq_none (hnumber : ∀ n rest, integer text = some (n, rest) → Wordless rest) :
    damage lexicon text = none := by
  rw [damage, Scanner.orElse_none (levelledSpell_eq_none htext hnumber lexicon),
    namedDamage_eq_none htext hlexicon]

end Wordless

/-! ## Signs -/

/-- After separators, the text does not begin with a character of this class. -/
def Lacks (isForbidden : Char → Bool) (text : List Char) : Prop :=
  ∀ c rest, skipSeparators text = c :: rest → isForbidden c = false

/-- Nothing stands here that a value could begin with, or go on with. -/
abbrev Idle (text : List Char) : Prop :=
  Lacks (fun c => c.isAlphanum || c == '(') text

theorem Lacks.mono {p q : Char → Bool} {text : List Char} (h : Lacks p text)
    (hpq : ∀ c, q c = true → p c = true) : Lacks q text := by
  intro c rest hc
  refine Bool.eq_false_iff.mpr fun hq => ?_
  exact absurd (hpq c hq) (by simp [h c rest hc])

theorem Lacks.wordless {text : List Char} (h : Lacks Char.isAlpha text) : Wordless text := by
  rw [Wordless]
  match hskip : skipSeparators text with
  | [] | [_] => rfl
  | c :: d :: rest => simp [startsWord, h c (d :: rest) hskip]

theorem lacks_of_skip {p : Char → Bool} {text rest : List Char} {c : Char}
    (h : skipSeparators text = c :: rest) (hc : p c = false) : Lacks p text := by
  intro d rest' hd
  obtain ⟨rfl, -⟩ := List.cons.inj (h.symm.trans hd)
  exact hc

namespace Idle

variable {text : List Char} (h : Idle text)

include h

theorem wordless : Wordless text :=
  Lacks.wordless (h.mono fun c hc => by simp [Char.isAlphanum, hc])

theorem digit : Lacks Char.isDigit text :=
  h.mono fun c hc => by simp [Char.isAlphanum, hc]

theorem sign {c : Char} (hc : (c.isAlphanum || c == '(') = true) : Lacks (· == c) text := by
  refine h.mono fun d hd => ?_
  rwa [beq_iff_eq.mp hd]

end Idle

theorem lacks_nil {p : Char → Bool} : Lacks p [] := by
  intro c rest h
  cases h

theorem sign_eq_some {c : Char} {text rest : List Char} (h : skipSeparators text = c :: rest) :
    sign c text = some ((), rest) := by
  simp [sign_apply, h]

theorem sign_eq_none {c : Char} {text : List Char} (h : Lacks (· == c) text) :
    sign c text = none := by
  rw [sign_apply]
  split
  · rfl
  · rename_i d rest hd
    rw [if_neg]
    simpa using h d rest hd

/-! ## Numbers -/

/-- The digits write the integer. -/
def Numeral (digits : List Char) (n : Int64) : Prop :=
  ∃ value, natural? digits = some value ∧ int64? (Int.ofNat value) = some n

theorem Numeral.isDigit {digits : List Char} {n : Int64} (h : Numeral digits n) :
    digits ≠ [] ∧ ∀ c ∈ digits, c.isDigit = true := by
  obtain ⟨value, hvalue, -⟩ := h
  unfold natural? at hvalue
  split at hvalue
  · rename_i hdigits
    exact ⟨hdigits.1, List.all_eq_true.mp hdigits.2⟩
  · cases hvalue

theorem Numeral.nonneg {digits : List Char} {n : Int64} (h : Numeral digits n) : 0 ≤ n.toInt := by
  obtain ⟨value, -, hn⟩ := h
  rw [int64?_eq_some_iff.mp hn]
  exact Int.natCast_nonneg value

theorem isSeparator_of_isDigit {c : Char} (h : c.isDigit = true) : isSeparator c = false := by
  simp only [Char.isDigit, Bool.and_eq_true, decide_eq_true_eq, UInt32.le_iff_toNat_le,
    ge_iff_le] at h
  obtain ⟨hlow, hhigh⟩ : 48 ≤ c.toNat ∧ c.toNat ≤ 57 := h
  have hblank : Text.isBlank c = false := Text.isBlank_of_visible (by omega) (by omega)
  have hcomma : c ≠ ',' := by
    rintro rfl
    exact absurd hlow (by decide)
  simp [isSeparator, hblank, hcomma]

theorem skipSeparators_spaces (n : Nat) (text : List Char) :
    skipSeparators (List.replicate n ' ' ++ text) = skipSeparators text :=
  List.dropWhile_append_of_pos fun c hc => by
    rw [List.eq_of_mem_replicate hc]
    decide

theorem skipSeparators_cons {c : Char} (h : isSeparator c = false) (rest : List Char) :
    skipSeparators (c :: rest) = c :: rest := by
  simp [skipSeparators, h]

theorem Numeral.exists_cons {digits : List Char} {n : Int64} (h : Numeral digits n) :
    ∃ c tail, digits = c :: tail ∧ c.isDigit = true := by
  obtain ⟨hne, hall⟩ := h.isDigit
  obtain ⟨c, tail, rfl⟩ := List.exists_cons_of_ne_nil hne
  exact ⟨c, tail, rfl, hall c (List.mem_cons_self ..)⟩

theorem Numeral.skip {digits : List Char} {n : Int64} (h : Numeral digits n) (rest : List Char) :
    skipSeparators (digits ++ rest) = digits ++ rest := by
  obtain ⟨c, tail, rfl, hc⟩ := h.exists_cons
  exact skipSeparators_cons (isSeparator_of_isDigit hc) (tail ++ rest)

theorem Idle.head {rest tail : List Char} {c : Char} (h : Idle rest) (hrest : rest = c :: tail) :
    c.isDigit = false := by
  refine Bool.eq_false_iff.mpr fun hdigit => ?_
  have hskip := skipSeparators_cons (isSeparator_of_isDigit hdigit) tail
  exact absurd (h.digit c tail (hrest ▸ hskip)) (by simp [hdigit])

/-- A numeral is read to its end. -/
theorem integer_eq_some {digits rest : List Char} {n : Int64} (hdigits : Numeral digits n)
    (hrest : ∀ c tail, rest = c :: tail → c.isDigit = false) {text : List Char}
    (htext : skipSeparators text = digits ++ rest) : integer text = some (n, rest) := by
  have htake : (digits ++ rest).takeWhile Char.isDigit = digits := by
    rw [List.takeWhile_append_of_pos hdigits.isDigit.2]
    cases rest with
    | nil => simp
    | cons c tail => simp [hrest c tail rfl]
  have hdrop : (digits ++ rest).dropWhile Char.isDigit = rest := by
    rw [List.dropWhile_append_of_pos hdigits.isDigit.2]
    cases rest with
    | nil => rfl
    | cons c tail => simp [hrest c tail rfl]
  obtain ⟨value, hvalue, hn⟩ := hdigits
  rw [integer_apply, htext, htake, hdrop, hvalue, Option.bind_some, hn, Option.map_some]

theorem integer_eq_none {text : List Char} (h : Lacks Char.isDigit text) : integer text = none := by
  have hnone : (skipSeparators text).takeWhile Char.isDigit = [] := by
    match hskip : skipSeparators text with
    | [] => rfl
    | c :: rest => simp [h c rest hskip]
  rw [integer_apply, hnone]
  rfl

/-- A number begins with a digit. -/
theorem lacks_of_integer {text rest : List Char} {n : Int64}
    (hinteger : integer text = some (n, rest)) {p : Char → Bool}
    (hp : ∀ c, c.isDigit = true → p c = false) : Lacks p text := by
  intro c tail hc
  refine hp c (Bool.eq_false_imp_eq_true.mp fun hdigit => ?_)
  have hnone := integer_eq_none (lacks_of_skip hc hdigit)
  cases hnone.symm.trans hinteger

theorem wordless_of_integer {text rest : List Char} {n : Int64}
    (hinteger : integer text = some (n, rest)) : Wordless text :=
  Lacks.wordless (lacks_of_integer hinteger fun _ => Text.isAlpha_of_isDigit)

end Request

end SpokenDice
