import SpokenDice.Proofs.Request.Openings
import SpokenDice.Proofs.Request.Size

/-!
# Reading before a closing parenthesis

A closing parenthesis ends a text as its end does: it is no separator, no digit and no letter, it
ends a word, and it begins no name and no phrase. So scanners read the same before it, and leave it
with everything behind it.

- `Bounds`: a word ends in front of what stands behind a text, and does not reach into it.
- `Closes`: what may stand behind a text, nothing or a closing parenthesis and more.
- `skipSeparators_append` and `longestName_append`: what is found in the text is found before a
  closing parenthesis as well.
- `Scanner.Leaves`: a scanner that reads the same with more behind the text. All scanners of values,
  signs and phrases do, where no name holds a closing parenthesis.
-/

namespace SpokenDice

/-- No name of the ruleset holds a parenthesis. -/
def Ruleset.ParenthesisFree (rules : Ruleset) : Prop :=
  ∀ name ∈ rules.namedDice.map NamedDie.name ++ rules.weapons.map Weapon.name ++
    rules.spells.map Spell.name, '(' ∉ name.toList ∧ ')' ∉ name.toList

instance (rules : Ruleset) : Decidable rules.ParenthesisFree :=
  inferInstanceAs (Decidable (∀ name ∈ _, _))

theorem Ruleset.ParenthesisFree.unparenthesized {rules : Ruleset} (h : rules.ParenthesisFree) :
    rules.Unparenthesized :=
  fun name hname hhead => (h name hname).1 (List.mem_of_head? hhead)

namespace Request

variable {α β : Type}

/-- No name holds a closing parenthesis. -/
def Lexicon.Unclosed (lexicon : Lexicon) : Prop :=
  ∀ name ∈ lexicon.namedDice ++ lexicon.weapons ++ lexicon.spells, ')' ∉ name

theorem Lexicon.unclosed_ofRuleset {rules : Ruleset} (h : rules.ParenthesisFree) :
    (Lexicon.ofRuleset rules).Unclosed :=
  forall_ofRuleset fun name hname => (h name hname).2

/-! ## Tokens with more behind a text -/

section Behind

variable {behind word : List Char}

/-- The word may end in front of `behind`, and no end of it stands there. -/
structure Bounds (behind word : List Char) : Prop where
  ends : endsWord behind = true
  apart : ∀ tail, tail <:+ word → tail ≠ [] → afterWord tail behind = none

/-- With what bounds the word behind it, a text begins with the word where it does by itself. -/
theorem Bounds.afterWord_append (h : Bounds behind word) (text : List Char) :
    afterWord word (text ++ behind) = (afterWord word text).map (· ++ behind) := by
  induction word generalizing text with
  | nil =>
    have hends : endsWord (text ++ behind) = endsWord text := by
      cases text with
      | nil => exact h.ends
      | cons c rest => rfl
    rw [afterWord, afterWord, hends]
    split <;> rfl
  | cons w word ih =>
    cases text with
    | nil => exact h.apart _ List.suffix_rfl (List.cons_ne_nil w word)
    | cons c rest =>
      have hrest : Bounds behind word :=
        ⟨h.ends, fun tail htail => h.apart tail (htail.trans (List.suffix_cons w word))⟩
      rw [List.cons_append, afterWord, afterWord, ih hrest]
      split <;> rfl

theorem longestName_append_of_bounds {names : List (List Char)}
    (hnames : ∀ name ∈ names, Bounds behind name) (text : List Char) :
    longestName names (text ++ behind) = longestName names text := by
  rw [longestName, longestName]
  congr 2
  refine List.filter_congr fun name hname => ?_
  rw [matchesName, matchesName, (hnames name hname).afterWord_append, Option.isSome_map]

variable {p : Char → Bool} (hp : ∀ c ∈ behind.head?, p c = false)

include hp

theorem takeWhile_append_of_head (text : List Char) :
    (text ++ behind).takeWhile p = text.takeWhile p := by
  have hstop : behind.takeWhile p = [] := by
    cases behind with
    | nil => rfl
    | cons c rest => exact List.takeWhile_cons_of_neg (by simp [hp c rfl])
  rw [List.takeWhile_append]
  split
  · rename_i hall
    rw [hstop, List.append_nil]
    exact ((List.takeWhile_prefix p).eq_of_length hall).symm
  · rfl

theorem dropWhile_append_of_head (text : List Char) :
    (text ++ behind).dropWhile p = text.dropWhile p ++ behind := by
  have hstop : behind.dropWhile p = behind := by
    cases behind with
    | nil => rfl
    | cons c rest => exact List.dropWhile_cons_of_neg (by simp [hp c rfl])
  rw [List.dropWhile_append]
  split
  · rename_i hempty
    rw [hstop, List.isEmpty_iff.mp hempty, List.nil_append]
  · rfl

end Behind

/-! ## Tokens before a closing parenthesis -/

/-- Nothing stands there, or a closing parenthesis and then anything. -/
def Closes (behind : List Char) : Prop :=
  behind = [] ∨ ∃ more, behind = ')' :: more

section Texts

variable {behind : List Char} (hbehind : Closes behind)

include hbehind

theorem Closes.head {p : Char → Bool} (hp : p ')' = false) : ∀ c ∈ behind.head?, p c = false := by
  rcases hbehind with rfl | ⟨more, rfl⟩
  · simp
  · simpa using hp

/-- A word without parentheses does not go on behind a text. -/
theorem Closes.bounds {word : List Char} (hword : ')' ∉ word) : Bounds behind word := by
  rcases hbehind with rfl | ⟨more, rfl⟩
  · refine ⟨rfl, fun tail _ hne => ?_⟩
    obtain ⟨w, tail, rfl⟩ := List.exists_cons_of_ne_nil hne
    rfl
  · refine ⟨(by decide +kernel : (!Text.isAlphanumeric ')') = true), fun tail htail hne => ?_⟩
    obtain ⟨w, tail, rfl⟩ := List.exists_cons_of_ne_nil hne
    refine afterWord_eq_none_of_ne (fun heq => hword ?_) tail more
    have hw : w = ')' := (Text.toLower_eq_iff (by decide)).mp heq
    exact hw ▸ htail.subset (List.mem_cons_self ..)

theorem skipSeparators_append (text : List Char) :
    skipSeparators (text ++ behind) = skipSeparators text ++ behind :=
  dropWhile_append_of_head (hbehind.head (by decide)) text

theorem longestName_append {names : List (List Char)} (hnames : ∀ name ∈ names, ')' ∉ name)
    (text : List Char) : longestName names (text ++ behind) = longestName names text :=
  longestName_append_of_bounds (fun name hname => hbehind.bounds (hnames name hname)) text

end Texts

/-- The name that is found stands in the text. -/
theorem length_le_of_longestName {names : List (List Char)} {text : List Char} {n : Nat}
    (h : longestName names text = some n) : n ≤ text.length := by
  obtain ⟨⟨name, -, hmatch, rfl⟩, -⟩ := longestName_eq_some_iff.mp h
  obtain ⟨rest, hafter⟩ := Option.isSome_iff_exists.mp hmatch
  obtain ⟨head, rfl, hsame, -⟩ := afterWord_eq_some_iff.mp hafter
  rw [← Text.length_eq_of_sameLetters hsame, List.length_append]
  exact Nat.le_add_right ..

/-! ## Scanners before a closing parenthesis -/

namespace Scanner

/-- With more behind the text, the scanner reads the same and leaves that as well. -/
def LeavesAt (behind text : List Char) (s : Scanner α) : Prop :=
  s (text ++ behind) = (s text).map fun read => (read.1, read.2 ++ behind)

/-- With more behind a text, the scanner reads the same and leaves that as well. -/
def Leaves (behind : List Char) (s : Scanner α) : Prop :=
  ∀ text, LeavesAt behind text s

variable {behind : List Char}

theorem leaves_pure (a : α) : Leaves behind (pure a : Scanner α) :=
  fun _ => rfl

theorem LeavesAt.bind {text : List Char} {s : Scanner α} {next : α → Scanner β}
    (hs : LeavesAt behind text s) (hnext : ∀ a, Leaves behind (next a)) :
    LeavesAt behind text (s >>= next) := by
  rw [LeavesAt] at hs
  cases hread : s text with
  | none =>
    rw [hread] at hs
    rw [LeavesAt, bind_none hs, bind_none hread]
    rfl
  | some read =>
    rw [hread] at hs
    rw [LeavesAt, bind_some hs, bind_some hread]
    exact hnext read.1 read.2

theorem Leaves.bind {s : Scanner α} {next : α → Scanner β} (hs : Leaves behind s)
    (hnext : ∀ a, Leaves behind (next a)) : Leaves behind (s >>= next) :=
  fun text => (hs text).bind hnext

/-- What is read is only given another form. -/
theorem Leaves.map {s : Scanner α} (hs : Leaves behind s) (f : α → β) :
    Leaves behind (do let a ← s; pure (f a)) :=
  hs.bind fun _ => leaves_pure _

theorem Leaves.orElse {s t : Scanner α} (hs : Leaves behind s) (ht : Leaves behind t) :
    Leaves behind (s <|> t) := by
  intro text
  have hread := hs text
  rw [LeavesAt] at hread ⊢
  cases hs' : s text with
  | none =>
    rw [hs'] at hread
    rw [orElse_none hread, orElse_none hs']
    exact ht text
  | some read =>
    rw [hs'] at hread
    rw [orElse_some hread, orElse_some hs']
    rfl

theorem Leaves.optional {s : Scanner α} (hs : Leaves behind s) : Leaves behind (optional s) :=
  Leaves.orElse (hs.map some) (leaves_pure none)

/-! ### Tokens -/

section Tokens

variable {text : List Char}
  (hskip : skipSeparators (text ++ behind) = skipSeparators text ++ behind)

include hskip

theorem keyword_leavesAt {word : String} (hword : Bounds behind word.toList) :
    LeavesAt behind text (keyword word) := by
  rw [LeavesAt, keyword_apply, keyword_apply, hskip, hword.afterWord_append, Option.map_map,
    Option.map_map]
  rfl

/-- A sign that is missing at the end of the text is not behind it either. -/
theorem sign_leavesAt {c : Char} (hc : skipSeparators text = [] → c ∉ behind.head?) :
    LeavesAt behind text (sign c) := by
  rw [LeavesAt, sign_apply, sign_apply, hskip]
  cases htext : skipSeparators text with
  | cons d rest =>
    dsimp only [List.cons_append]
    split <;> rfl
  | nil =>
    cases behind with
    | nil => rfl
    | cons d more => exact if_neg fun hd => hc htext (congrArg some hd)

theorem integer_leavesAt (hdigit : ∀ c ∈ behind.head?, c.isDigit = false) :
    LeavesAt behind text integer := by
  rw [LeavesAt, integer_apply, integer_apply, hskip, takeWhile_append_of_head hdigit,
    dropWhile_append_of_head hdigit, Option.map_bind]
  simp only [Function.comp_def, Option.map_map]

omit hskip in
theorem nameOfLength_leavesAt {text : List Char} {n : Nat} (h : n ≤ text.length) :
    LeavesAt behind text (nameOfLength n) := by
  show some (String.ofList ((text ++ behind).take n), (text ++ behind).drop n) = _
  rw [List.take_append_of_le_length h, List.drop_append_of_le_length h]
  rfl

end Tokens

variable (hbehind : Closes behind)

include hbehind

theorem keyword_leaves {word : String} (hword : ')' ∉ word.toList) :
    Leaves behind (keyword word) :=
  fun text => keyword_leavesAt (skipSeparators_append hbehind text) (hbehind.bounds hword)

/-- Before a closing parenthesis another sign is still missing. -/
theorem sign_leaves {c : Char} (hc : c ≠ ')') : Leaves behind (sign c) := by
  refine fun text => sign_leavesAt (skipSeparators_append hbehind text) fun _ hhead => ?_
  have hother := hbehind.head (p := (· == c)) (beq_eq_false_iff_ne.mpr hc.symm) c hhead
  simp at hother

theorem integer_leaves : Leaves behind integer :=
  fun text => integer_leavesAt (skipSeparators_append hbehind text) (hbehind.head (by decide))

theorem nameAmong_leaves {names : List (List Char)} (hnames : ∀ name ∈ names, ')' ∉ name) :
    Leaves behind (nameAmong names) := by
  intro text
  rw [LeavesAt, nameAmong_apply, nameAmong_apply, skipSeparators_append hbehind,
    longestName_append hbehind hnames]
  cases hlength : longestName names (skipSeparators text) with
  | none => rfl
  | some n => exact nameOfLength_leavesAt (length_le_of_longestName hlength)

end Scanner

section Damage

open Scanner

variable {behind : List Char} (hbehind : Closes behind)

include hbehind

theorem ordinalLevel_leaves : Leaves behind ordinalLevel := by
  have hordinal : Leaves behind ordinal :=
    (keyword_leaves hbehind (by decide)).orElse <| (keyword_leaves hbehind (by decide)).orElse <|
      (keyword_leaves hbehind (by decide)).orElse (keyword_leaves hbehind (by decide))
  exact (integer_leaves hbehind).bind fun _ => hordinal.bind fun _ =>
    (keyword_leaves hbehind (by decide)).map _

theorem numberedLevel_leaves : Leaves behind numberedLevel :=
  (keyword_leaves hbehind (by decide)).bind fun _ => integer_leaves hbehind

theorem levelAfter_leaves : Leaves behind levelAfter := by
  refine Leaves.orElse ?_ ?_
  · exact (keyword_leaves hbehind (by decide)).bind fun _ => numberedLevel_leaves hbehind
  · exact (keyword_leaves hbehind (by decide)).optional.bind fun _ => ordinalLevel_leaves hbehind

theorem sidedDie_leaves : Leaves behind sidedDie :=
  (keyword_leaves hbehind (by decide)).bind fun _ =>
    (keyword_leaves hbehind (by decide)).orElse (keyword_leaves hbehind (by decide))

theorem dicePhrase_leaves (dice : Expr) : Leaves behind (dicePhrase dice) := by
  have hwith := keyword_leaves hbehind (by decide : ')' ∉ "with".toList)
  refine Leaves.orElse ?_ ?_
  · exact hwith.bind fun _ => (keyword_leaves hbehind (by decide)).map _
  · exact hwith.bind fun _ => (keyword_leaves hbehind (by decide)).map _

theorem productSign_leaves : Leaves behind productSign := by
  have hmultiplied := keyword_leaves hbehind (by decide : ')' ∉ "multiplied".toList)
  refine Leaves.orElse ?_ (.orElse ?_ (.orElse ?_ ?_))
  · exact (sign_leaves hbehind (by decide)).map _
  · exact (keyword_leaves hbehind (by decide)).map _
  · exact hmultiplied.bind fun _ => (keyword_leaves hbehind (by decide)).map _
  · exact hmultiplied.bind fun _ => (keyword_leaves hbehind (by decide)).map _

theorem additiveSign_leaves : Leaves behind additiveSign := by
  refine Leaves.orElse ?_ (.orElse ?_ (.orElse ?_ ?_))
  · exact (sign_leaves hbehind (by decide)).map _
  · exact (keyword_leaves hbehind (by decide)).map _
  · exact (sign_leaves hbehind (by decide)).map _
  · exact (keyword_leaves hbehind (by decide)).map _

theorem dieLetter_leaves : Leaves behind dieLetter :=
  (sign_leaves hbehind (by decide)).orElse (sign_leaves hbehind (by decide))

theorem number_leaves : Leaves behind number :=
  (integer_leaves hbehind).map _

variable {lexicon : Lexicon} (hlexicon : lexicon.Unclosed)

include hlexicon

theorem namedDie_leaves : Leaves behind (namedDie lexicon) :=
  (nameAmong_leaves hbehind fun name hname =>
    hlexicon name (List.mem_append_left _ (List.mem_append_left _ hname))).map _

theorem namedDamage_leaves : Leaves behind (namedDamage lexicon) := by
  have hweapons : ∀ name ∈ lexicon.weapons, ')' ∉ name := fun name hname =>
    hlexicon name (List.mem_append_left _ (List.mem_append_right _ hname))
  have hspells : ∀ name ∈ lexicon.spells, ')' ∉ name := fun name hname =>
    hlexicon name (List.mem_append_right _ hname)
  intro text
  rw [LeavesAt, namedDamage_apply, namedDamage_apply, skipSeparators_append hbehind,
    longestName_append hbehind hweapons, longestName_append hbehind hspells]
  -- The names that were found stand in the text, whichever of them is taken.
  refine damageOfLengths_cases (p := LeavesAt behind (skipSeparators text)) rfl
    (fun w hw => ?_) fun s hs => ?_
  · exact (nameOfLength_leavesAt (length_le_of_longestName hw)).bind fun _ => leaves_pure _
  · refine (nameOfLength_leavesAt (length_le_of_longestName hs)).bind fun name => ?_
    refine (levelAfter_leaves hbehind).optional.bind fun level => ?_
    cases level <;> exact leaves_pure _

theorem damage_leaves : Leaves behind (damage lexicon) := by
  refine Leaves.orElse ?_ (namedDamage_leaves hbehind hlexicon)
  have hlevel : Leaves behind levelBefore :=
    (numberedLevel_leaves hbehind).orElse (ordinalLevel_leaves hbehind)
  exact hlevel.bind fun _ => (nameAmong_leaves hbehind fun name hname =>
    hlexicon name (List.mem_append_right _ hname)).map _

theorem criticalHit_leaves : Leaves behind (criticalHit lexicon) :=
  (keyword_leaves hbehind (by decide)).bind fun _ =>
    (keyword_leaves hbehind (by decide)).optional.bind fun _ =>
      (keyword_leaves hbehind (by decide)).optional.bind fun _ =>
        (keyword_leaves hbehind (by decide)).optional.bind fun _ =>
          (keyword_leaves hbehind (by decide)).optional.bind fun _ =>
            (damage_leaves hbehind hlexicon).map _

theorem damageGroup_leaves : Leaves behind (damageGroup lexicon) :=
  (damage_leaves hbehind hlexicon).map _

end Damage

end Request

end SpokenDice
