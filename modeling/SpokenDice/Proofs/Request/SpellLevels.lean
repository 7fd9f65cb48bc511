import SpokenDice.Proofs.Request.Endings

/-!
# The levels of spells

The level of a spell may be said in five ways: "Hail at level 5", "Hail at 5th level",
"Hail 5th level", "level 5 Hail" and "5th level Hail". All of them are read as the same spell at the
same level, where no other name gets in the way of that of the spell.

- `Ruleset.Unmistakable`: no other name gets in the way.
- `Unmistakable.longestName_eq_some` and the lemmas beside it: which names stand in such a text.
- `numberedLevel_eq_some`, `ordinalLevel_eq_some`: how a level is read.
- `read_spell_at_level`: the five ways.
-/

namespace SpokenDice

open Text (lowerCase sameLetters)

/-- All names of the ruleset. -/
def Ruleset.names (rules : Ruleset) : List String :=
  rules.namedDice.map NamedDie.name ++ rules.weapons.map Weapon.name ++
    rules.spells.map Spell.name

/-- The name of a spell is not mistaken for anything else, nor anything else for it. -/
structure Ruleset.Unmistakable (rules : Ruleset) (name : String) : Prop where
  /-- It is the name of a spell. -/
  spell : name ∈ rules.spells.map Spell.name
  /-- It begins with a letter. -/
  letter : name.toList.head?.any Char.isAlpha = true
  /-- It begins with none of the words that may come before a spell. -/
  words : ∀ word ∈ ["critical", "level"], ¬ word.toList <+: lowerCase name.toList
  /-- Of two different names that are not blank, neither begins with the other. -/
  apart : ∀ other ∈ rules.names, Text.isBlankText other.toList = false →
    sameName other name = false → ¬ lowerCase other.toList <+: lowerCase name.toList ∧
      ¬ lowerCase name.toList <+: lowerCase other.toList
  /-- No die and no weapon has the name. -/
  only : ∀ other ∈ rules.namedDice.map NamedDie.name ++ rules.weapons.map Weapon.name,
    sameName other name = false
  /-- No name begins with a digit. -/
  digit : ∀ other ∈ rules.names, other.toList.head?.any Char.isDigit = false
  /-- No name begins with "level". -/
  level : ∀ other ∈ rules.names, ¬ "level".toList <+: lowerCase other.toList

namespace Request

/-! ## Names in a text -/

theorem exists_of_mem_usableNames {table : List String} {name : List Char}
    (h : name ∈ usableNames table) :
    ∃ other ∈ table, other.toList = name ∧ Text.isBlankText other.toList = false := by
  obtain ⟨hmem, hblank⟩ := List.mem_filter.mp h
  obtain ⟨other, hother, rfl⟩ := List.mem_map.mp hmem
  exact ⟨other, hother, rfl, by simpa using hblank⟩

theorem exists_letter {text : List Char} (h : text.head?.any Char.isAlpha = true) :
    ∃ c tail, text = c :: tail ∧ c.isAlpha = true := by
  cases text with
  | nil => cases h
  | cons c tail => exact ⟨c, tail, rfl, h⟩

theorem skipSeparators_letter {text : List Char} (h : text.head?.any Char.isAlpha = true)
    (rest : List Char) : skipSeparators (text ++ rest) = text ++ rest := by
  obtain ⟨c, tail, rfl, hc⟩ := exists_letter h
  exact skipSeparators_cons (isSeparator_of_isAlpha hc) _

/-- A word that stands at the head of a text is what the text begins with, up to its letter case. -/
theorem exists_of_matchesName {word text : List Char} (h : matchesName text word = true) :
    ∃ head rest, text = head ++ rest ∧ lowerCase head = lowerCase word ∧ endsWord rest = true := by
  obtain ⟨rest, hrest⟩ := Option.isSome_iff_exists.mp h
  obtain ⟨head, htext, hsame, hend⟩ := afterWord_eq_some_iff.mp hrest
  exact ⟨head, rest, htext, Text.sameLetters_iff.mp hsame, hend⟩

theorem isPrefix_lowerCase {a b : List Char} (h : a <+: b) : lowerCase a <+: lowerCase b :=
  h.map Char.toLower

/-- What stands as a whole word at the head of a word of letters begins with that word. -/
theorem lowerCase_prefix_of_matchesName {word text other : List Char}
    (hletters : ∀ c ∈ word, c.isAlpha = true) (h : matchesName (word ++ text) other = true) :
    lowerCase word <+: lowerCase other := by
  obtain ⟨head, rest, htext, hhead, hend⟩ := exists_of_matchesName h
  rw [← hhead]
  rcases List.append_eq_append_iff.mp htext with ⟨more, rfl, -⟩ | ⟨more, rfl, rfl⟩
  · exact isPrefix_lowerCase (List.prefix_append word more)
  · cases more with
    | nil => rw [List.append_nil]
    | cons c more =>
      -- A letter goes on with what stands there, so it does not end.
      have hc := hletters c (List.mem_append_right _ (List.mem_cons_self ..))
      have hword : Text.isAlphanumeric c = true :=
        Text.isAlphanumeric_of_isAlphanum (by simp [Char.isAlphanum, hc])
      simp [endsWord, hword] at hend

/-- Where a word stands that ends with a space, a word of letters is one that it begins with. -/
theorem prefix_lowerCase_of_matchesName {word text other : List Char}
    (hletters : ∀ c ∈ other, c.isAlpha = true)
    (h : matchesName (word ++ ' ' :: text) other = true) : lowerCase other <+: lowerCase word := by
  obtain ⟨head, rest, htext, hhead, -⟩ := exists_of_matchesName h
  rw [← hhead]
  rcases List.append_eq_append_iff.mp htext with ⟨more, rfl, hmore⟩ | ⟨more, rfl, -⟩
  · cases more with
    | nil => rw [List.append_nil]
    | cons c more =>
      obtain ⟨rfl, -⟩ := List.cons.inj hmore
      have hspace : ' ' ∈ lowerCase other := by
        rw [← hhead]
        exact List.mem_map.mpr ⟨' ', List.mem_append_right _ (List.mem_cons_self ..), by decide⟩
      obtain ⟨d, hd, hlower⟩ := List.mem_map.mp hspace
      have hletter := hletters d hd
      rw [← Char.isAlpha_toLower_eq_isAlpha, hlower] at hletter
      cases hletter
  · exact isPrefix_lowerCase (List.prefix_append head more)

end Request

namespace Ruleset.Unmistakable

open Request

variable {rules : Ruleset} {name : String} (h : rules.Unmistakable name) (rest : List Char)

include h

/-- A name that stands where the spell is named is the same name. -/
theorem sameName_of_matchesName {other : String} (hother : other ∈ rules.names)
    (hblank : Text.isBlankText other.toList = false)
    (hmatch : matchesName (name.toList ++ rest) other.toList = true) :
    sameName other name = true := by
  obtain ⟨head, rest', htext, hhead, -⟩ := exists_of_matchesName hmatch
  refine Bool.eq_true_of_not_eq_false fun hdifferent => ?_
  obtain ⟨hbefore, hbehind⟩ := h.apart other hother hblank hdifferent
  rw [← hhead] at hbefore hbehind
  have hprefix : head <+: name.toList ++ rest := htext ▸ List.prefix_append head rest'
  rcases List.prefix_or_prefix_of_prefix hprefix (List.prefix_append name.toList rest) with
    hle | hle
  · exact hbefore (isPrefix_lowerCase hle)
  · exact hbehind (isPrefix_lowerCase hle)

theorem longestName_eq_none {table : List String}
    (htable : table ⊆ rules.namedDice.map NamedDie.name ++ rules.weapons.map Weapon.name) :
    longestName (usableNames table) (name.toList ++ rest) = none := by
  refine longestName_eq_none_iff.mpr fun word hword => Bool.eq_false_iff.mpr fun hmatch => ?_
  obtain ⟨other, hother, rfl, hblank⟩ := exists_of_mem_usableNames hword
  have hname := List.mem_append_left (rules.spells.map Spell.name) (htable hother)
  have hsame := h.sameName_of_matchesName rest hname hblank hmatch
  cases (h.only other (htable hother)).symm.trans hsame

theorem longestName_eq_some (hrest : endsWord rest = true) :
    longestName (Lexicon.ofRuleset rules).spells (name.toList ++ rest) =
      some name.toList.length := by
  refine longestName_eq_some_iff.mpr ⟨⟨name.toList, ?_, ?_, rfl⟩, fun word hword hmatch => ?_⟩
  · obtain ⟨c, tail, hname, hc⟩ := exists_letter h.letter
    refine List.mem_filter.mpr ⟨List.mem_map_of_mem h.spell, ?_⟩
    simp [hname, Text.isBlankText, Text.isBlank_of_isAlpha hc]
  · rw [matchesName, afterWord_eq_some_iff.mpr
      ⟨name.toList, rfl, Text.sameLetters_iff.mpr rfl, hrest⟩]
    rfl
  · obtain ⟨other, hother, rfl, hblank⟩ := exists_of_mem_usableNames hword
    have hsame := h.sameName_of_matchesName rest (List.mem_append_right _ hother) hblank hmatch
    exact (Text.length_eq_of_sameLetters hsame).le

/-- No name stands where the text begins with "level". -/
theorem matchesName_level {other : String} (hother : other ∈ rules.names) :
    matchesName ("level".toList ++ rest) other.toList = false := by
  refine Bool.eq_false_iff.mpr fun hmatch => h.level other hother ?_
  exact lowerCase_prefix_of_matchesName (List.all_eq_true.mp (by decide)) hmatch

/-- No name stands where the text begins with a digit. -/
theorem matchesName_digit {other : String} (hother : other ∈ rules.names)
    (hblank : Text.isBlankText other.toList = false) {c : Char} (hc : c.isDigit = true) :
    matchesName (c :: rest) other.toList = false := by
  cases hletters : other.toList with
  | nil =>
    rw [hletters] at hblank
    cases hblank
  | cons d tail =>
    have hd := h.digit other hother
    rw [hletters, List.head?_cons, Option.any_some] at hd
    rw [matchesName, afterWord_eq_none_of_ne]
    · rfl
    · intro heq
      rw [← Text.isDigit_toLower, heq, Text.isDigit_toLower, hc] at hd
      cases hd

/-- None of the words that may come before a spell stands where it is named. -/
theorem keyword_eq_none {word : String} (hword : word ∈ ["critical", "level"]) :
    keyword word (name.toList ++ ' ' :: rest) = none := by
  have hwords : ∀ word ∈ ["critical", "level"],
      word.toList.all Char.isAlpha = true ∧ lowerCase word.toList = word.toList := by decide
  obtain ⟨hletters, hlower⟩ := hwords word hword
  refine keyword_of_matchesName (Bool.eq_false_iff.mpr fun hmatch => h.words word hword ?_)
  rw [skipSeparators_letter h.letter] at hmatch
  rw [← hlower]
  exact prefix_lowerCase_of_matchesName (List.all_eq_true.mp hletters) hmatch

end Ruleset.Unmistakable

namespace Request

/-! ## Levels in a text -/

/-- The endings of ordinal numbers. -/
def ordinals : List String :=
  ["st", "nd", "rd", "th"]

/-- A text that begins with a level such as "level 5". -/
def numberedText (level : Int64) (rest : List Char) : List Char :=
  "level".toList ++ ' ' :: ((decimal level.toInt).toList ++ rest)

/-- A text that begins with a level such as "5th level". -/
def ordinalText (level : Int64) (ending : String) (rest : List Char) : List Char :=
  (decimal level.toInt).toList ++ (ending.toList ++ ' ' :: ("level".toList ++ rest))

theorem numberedText_eq (level : Int64) (rest : List Char) : numberedText level rest =
    "level".toList ++ ' ' :: ((decimal level.toInt).toList ++ rest) := rfl

theorem ordinalText_eq (level : Int64) (ending : String) (rest : List Char) :
    ordinalText level ending rest = (decimal level.toInt).toList ++
      (ending.toList ++ ' ' :: ("level".toList ++ rest)) := rfl

theorem skipSeparators_space (text : List Char) :
    skipSeparators (' ' :: text) = skipSeparators text :=
  skipSeparators_spaces 1 text

theorem skipSeparators_numberedText (level : Int64) (rest : List Char) :
    skipSeparators (numberedText level rest) = numberedText level rest :=
  skipSeparators_cons (by decide) _

section Levels

variable {text rest : List Char} {level : Int64} {ending : String}

theorem ordinal_letter : ∀ ending ∈ ordinals, ending.toList.head?.any Char.isAlpha = true := by
  decide

theorem ordinal_eq_some (hending : ending ∈ ordinals) (rest : List Char) :
    ordinal (ending.toList ++ ' ' :: rest) = some ((), ' ' :: rest) := by
  have hskip := skipSeparators_letter (ordinal_letter ending hending) (' ' :: rest)
  have hread : keyword ending (ending.toList ++ ' ' :: rest) = some ((), ' ' :: rest) :=
    keyword_eq_some hskip (Text.sameLetters_iff.mpr rfl) (endsWord_space rest)
  -- The endings begin with different letters, so none of them is mistaken for another one.
  simp only [ordinals, List.mem_cons, List.not_mem_nil, or_false] at hending
  rcases hending with rfl | rfl | rfl | rfl
  · exact Scanner.orElse_some hread
  · rw [ordinal, Scanner.orElse_none (by rfl)]
    exact Scanner.orElse_some hread
  · rw [ordinal, Scanner.orElse_none (by rfl), Scanner.orElse_none (by rfl)]
    exact Scanner.orElse_some hread
  · rw [ordinal, Scanner.orElse_none (by rfl), Scanner.orElse_none (by rfl),
      Scanner.orElse_none (by rfl)]
    exact hread

theorem keyword_at (rest : List Char) :
    keyword "at" (' ' :: ("at".toList ++ ' ' :: rest)) = some ((), ' ' :: rest) := by
  have hskip : skipSeparators (' ' :: ("at".toList ++ ' ' :: rest)) = "at".toList ++ ' ' :: rest :=
    (skipSeparators_space _).trans (skipSeparators_cons (by decide) _)
  exact keyword_eq_some hskip (by decide) (endsWord_space rest)

variable (hlevel : 0 ≤ level.toInt)

include hlevel

theorem numberedLevel_eq_some (hrest : ∀ c tail, rest = c :: tail → c.isDigit = false)
    (htext : skipSeparators text = numberedText level rest) :
    numberedLevel text = some (level, rest) := by
  have hword : keyword "level" text = some ((), ' ' :: ((decimal level.toInt).toList ++ rest)) :=
    keyword_eq_some htext (by decide) (endsWord_space _)
  have hnumeral := numeral_decimal hlevel
  rw [numberedLevel, Scanner.bind_some hword]
  exact integer_eq_some hnumeral hrest ((skipSeparators_space _).trans (hnumeral.skip rest))

theorem skipSeparators_ordinalText (ending : String) (rest : List Char) :
    skipSeparators (ordinalText level ending rest) = ordinalText level ending rest :=
  (numeral_decimal hlevel).skip _

/-- Digits begin no word. -/
theorem wordless_ordinalText (htext : skipSeparators text = ordinalText level ending rest) :
    Wordless text := by
  obtain ⟨c, tail, hdigits, hc⟩ := (numeral_decimal hlevel).exists_cons
  rw [ordinalText_eq, hdigits] at htext
  exact Lacks.wordless (lacks_of_skip htext (Text.isAlpha_of_isDigit hc))

variable (hending : ending ∈ ordinals)

include hending

theorem ordinalLevel_eq_some (hrest : endsWord rest = true)
    (htext : skipSeparators text = ordinalText level ending rest) :
    ordinalLevel text = some (level, rest) := by
  have hinteger :
      integer text = some (level, ending.toList ++ ' ' :: ("level".toList ++ rest)) := by
    obtain ⟨c, tail, hcons, hc⟩ := exists_letter (ordinal_letter ending hending)
    refine integer_eq_some (numeral_decimal hlevel) ?_ htext
    rw [hcons]
    rintro d rest' ⟨⟩
    exact Text.isDigit_of_isAlpha hc
  have hword : skipSeparators (' ' :: ("level".toList ++ rest)) = "level".toList ++ rest :=
    (skipSeparators_space _).trans (skipSeparators_cons (by decide) _)
  have hkeyword : keyword "level" (' ' :: ("level".toList ++ rest)) = some ((), rest) :=
    keyword_eq_some hword (by decide) hrest
  rw [ordinalLevel, Scanner.bind_some hinteger, Scanner.bind_some (ordinal_eq_some hending _),
    Scanner.bind_some hkeyword]
  rfl

omit hending in
theorem levelAfter_at_numbered :
    levelAfter (' ' :: ("at".toList ++ ' ' :: numberedText level [])) = some (level, []) := by
  refine Scanner.orElse_some ?_
  rw [Scanner.bind_some (keyword_at _)]
  exact numberedLevel_eq_some hlevel nofun
    ((skipSeparators_space _).trans (skipSeparators_numberedText level []))

theorem levelAfter_at_ordinal :
    levelAfter (' ' :: ("at".toList ++ ' ' :: ordinalText level ending [])) = some (level, []) := by
  have hskip := (skipSeparators_space _).trans (skipSeparators_ordinalText hlevel ending [])
  have hword := keyword_eq_none (wordless_ordinalText hlevel hskip) "level" (by decide)
  have hnumbered : (do keyword "at"; numberedLevel : Scanner Int64)
      (' ' :: ("at".toList ++ ' ' :: ordinalText level ending [])) = none := by
    rw [Scanner.bind_some (keyword_at _)]
    exact Scanner.bind_none hword
  rw [levelAfter, Scanner.orElse_none hnumbered,
    Scanner.bind_some (Scanner.optional_some (keyword_at _))]
  exact ordinalLevel_eq_some hlevel hending rfl hskip

theorem levelAfter_ordinal :
    levelAfter (' ' :: ordinalText level ending []) = some (level, []) := by
  have hskip := (skipSeparators_space _).trans (skipSeparators_ordinalText hlevel ending [])
  have hat := keyword_eq_none (wordless_ordinalText hlevel hskip) "at" (by decide)
  rw [levelAfter, Scanner.orElse_none (Scanner.bind_none hat),
    Scanner.bind_some (Scanner.optional_none hat)]
  exact ordinalLevel_eq_some hlevel hending rfl hskip

omit hending in
theorem levelBefore_numbered (rest : List Char) :
    levelBefore (numberedText level (' ' :: rest)) = some (level, ' ' :: rest) := by
  refine Scanner.orElse_some
    (numberedLevel_eq_some hlevel ?_ (skipSeparators_numberedText level (' ' :: rest)))
  rintro c tail ⟨⟩
  decide

theorem levelBefore_ordinal (rest : List Char) :
    levelBefore (ordinalText level ending (' ' :: rest)) = some (level, ' ' :: rest) := by
  have hskip := skipSeparators_ordinalText hlevel ending (' ' :: rest)
  have hword := keyword_eq_none (wordless_ordinalText hlevel hskip) "level" (by decide)
  have hnumbered : numberedLevel (ordinalText level ending (' ' :: rest)) = none :=
    Scanner.bind_none hword
  rw [levelBefore, Scanner.orElse_none hnumbered]
  exact ordinalLevel_eq_some hlevel hending (endsWord_space rest) hskip

end Levels

/-! ## Spells with their levels -/

section Spells

variable {rules : Ruleset} {name : String} (h : rules.Unmistakable name) {level : Int64}

theorem nameOfLength_append (name : String) (rest : List Char) :
    nameOfLength name.toList.length (name.toList ++ rest) = some (name, rest) := by
  show some (String.ofList ((name.toList ++ rest).take name.toList.length),
    (name.toList ++ rest).drop name.toList.length) = _
  rw [List.take_left, List.drop_left, String.ofList_toList]

include h

/-- The head of a text that begins with the name is a letter. -/
theorem lacks_of_letter {p : Char → Bool} (hp : ∀ c : Char, c.isAlpha = true → p c = false)
    (rest : List Char) : Lacks p (name.toList ++ rest) := by
  have hskip := skipSeparators_letter h.letter rest
  obtain ⟨c, tail, hname, hc⟩ := exists_letter h.letter
  rw [hname] at hskip ⊢
  exact lacks_of_skip hskip (hp c hc)

theorem damage_of_levelAfter {suffix : List Char}
    (hlevel : levelAfter (' ' :: suffix) = some (level, [])) :
    damage (.ofRuleset rules) (name.toList ++ ' ' :: suffix) =
      some (.spellAt name (.integer level), []) := by
  have hnumbered : numberedLevel (name.toList ++ ' ' :: suffix) = none :=
    Scanner.bind_none (h.keyword_eq_none suffix (by decide))
  have hordinal : ordinalLevel (name.toList ++ ' ' :: suffix) = none :=
    Scanner.bind_none (integer_eq_none (lacks_of_letter h (fun _ => Text.isDigit_of_isAlpha) _))
  have hlevelled : levelledSpell (.ofRuleset rules) (name.toList ++ ' ' :: suffix) = none :=
    Scanner.bind_none ((Scanner.orElse_none hnumbered).trans hordinal)
  have hweapons : longestName (Lexicon.ofRuleset rules).weapons (name.toList ++ ' ' :: suffix) =
      none := h.longestName_eq_none _ (List.subset_append_right _ _)
  rw [damage, Scanner.orElse_none hlevelled, namedDamage_apply, skipSeparators_letter h.letter,
    hweapons, h.longestName_eq_some _ (endsWord_space suffix), damageOfLengths, spellOfLength,
    Scanner.bind_some (nameOfLength_append name _),
    Scanner.bind_some (Scanner.optional_some hlevel)]
  rfl

theorem damage_of_levelBefore {text : List Char}
    (hlevel : levelBefore text = some (level, ' ' :: name.toList)) :
    damage (.ofRuleset rules) text = some (.spellAt name (.integer level), []) := by
  have hname :
      nameAmong (Lexicon.ofRuleset rules).spells (' ' :: name.toList) = some (name, []) := by
    rw [nameAmong_apply, skipSeparators_space, ← List.append_nil name.toList,
      skipSeparators_letter h.letter, h.longestName_eq_some [] rfl, Option.bind_some]
    exact nameOfLength_append name []
  refine Scanner.orElse_some ?_
  rw [levelledSpell, Scanner.bind_some hlevel, Scanner.bind_some hname]
  rfl

/-- A spell whose level stands behind its name. -/
theorem read_of_levelAfter {text : String} {suffix : List Char}
    (htext : text.toList = name.toList ++ ' ' :: suffix)
    (hlevel : levelAfter (' ' :: suffix) = some (level, [])) :
    read (.ofRuleset rules) text = .ok (.group (.spellAt name (.integer level))) := by
  have hdice : namedDie (.ofRuleset rules) text.toList = none := by
    refine namedDie_of_matchesName (longestName_eq_none_iff.mp ?_)
    rw [htext, skipSeparators_letter h.letter]
    exact h.longestName_eq_none _ (List.subset_append_left _ _)
  have hcritical : criticalHit (.ofRuleset rules) text.toList = none := by
    rw [htext]
    exact Scanner.bind_none (h.keyword_eq_none suffix (by decide))
  have hparen : Lacks (· == '(') text.toList := by
    rw [htext]
    refine lacks_of_letter h (fun c hc => beq_eq_false_iff_ne.mpr ?_) _
    rintro rfl
    cases hc
  refine read_of_damage hdice hparen hcritical ?_ ended_nil
  rw [htext]
  exact damage_of_levelAfter h hlevel

/-- A spell whose level stands before its name as a number. -/
theorem read_numbered (hlevel : 0 ≤ level.toInt) {text : String}
    (htext : text.toList = numberedText level (' ' :: name.toList)) :
    read (.ofRuleset rules) text = .ok (.group (.spellAt name (.integer level))) := by
  have hskip := skipSeparators_numberedText level (' ' :: name.toList)
  have hdice : namedDie (.ofRuleset rules) text.toList = none := by
    refine namedDie_of_matchesName fun word hword => ?_
    obtain ⟨other, hother, rfl, -⟩ := exists_of_mem_usableNames hword
    rw [htext, hskip]
    exact h.matchesName_level _ (List.mem_append_left _ (List.mem_append_left _ hother))
  have hcritical : criticalHit (.ofRuleset rules) text.toList = none := by
    rw [htext]
    exact Scanner.bind_none (by rfl)
  refine read_of_damage hdice ?_ hcritical ?_ ended_nil
  · rw [htext]
    exact lacks_of_skip hskip (by decide)
  · rw [htext]
    exact damage_of_levelBefore h (levelBefore_numbered hlevel _)

/-- A spell whose level stands before its name as an ordinal number. -/
theorem read_ordinal (hlevel : 0 ≤ level.toInt) {ending : String} (hending : ending ∈ ordinals)
    {text : String} (htext : text.toList = ordinalText level ending (' ' :: name.toList)) :
    read (.ofRuleset rules) text = .ok (.group (.spellAt name (.integer level))) := by
  have hskip := skipSeparators_ordinalText hlevel ending (' ' :: name.toList)
  have hwordless := wordless_ordinalText hlevel hskip
  have hdamage := damage_of_levelBefore h (levelBefore_ordinal hlevel hending name.toList)
  rw [← htext] at hskip hwordless hdamage
  obtain ⟨c, tail, hdigits, hc⟩ := (numeral_decimal hlevel).exists_cons
  rw [ordinalText_eq, hdigits, List.cons_append] at htext
  have hdice : namedDie (.ofRuleset rules) text.toList = none := by
    refine namedDie_of_matchesName fun word hword => ?_
    obtain ⟨other, hother, rfl, hblank⟩ := exists_of_mem_usableNames hword
    rw [hskip, htext]
    exact h.matchesName_digit _ (List.mem_append_left _ (List.mem_append_left _ hother)) hblank hc
  have hparen : Lacks (· == '(') text.toList :=
    lacks_of_skip (hskip.trans htext) (Text.isDigit_ne hc (by decide))
  exact read_of_damage hdice hparen (criticalHit_eq_none hwordless _) hdamage ended_nil

end Spells

/-- The ways to say the level of a spell. -/
def spellTexts (name : String) (level : Int64) (ending : String) : List String :=
  let n := decimal level.toInt
  [name ++ " at level " ++ n, name ++ " at " ++ n ++ ending ++ " level",
    name ++ " " ++ n ++ ending ++ " level", "level " ++ n ++ " " ++ name,
    n ++ ending ++ " level " ++ name]

/-- Where the name of a spell is not mistaken for another one, all ways to say its level, whatever
the level and the ending of the ordinal number, are read as the spell at that level. -/
theorem read_spell_at_level {rules : Ruleset} {name : String} (h : rules.Unmistakable name)
    {level : Int64} (hlevel : 0 ≤ level) {ending : String} (hending : ending ∈ ordinals) :
    ∀ text ∈ spellTexts name level ending,
      read (.ofRuleset rules) text = .ok (.group (.spellAt name (.integer level))) := by
  rw [Int64.le_iff_toInt_le] at hlevel
  simp only [spellTexts, List.forall_mem_cons, List.not_mem_nil, false_imp_iff, implies_true,
    and_true]
  refine ⟨?_, ?_, ?_, ?_, ?_⟩
  · exact read_of_levelAfter h (by simp [numberedText_eq]) (levelAfter_at_numbered hlevel)
  · exact read_of_levelAfter h (by simp [ordinalText_eq]) (levelAfter_at_ordinal hlevel hending)
  · exact read_of_levelAfter h (by simp [ordinalText_eq]) (levelAfter_ordinal hlevel hending)
  · exact read_numbered h hlevel (by simp [numberedText_eq])
  · exact read_ordinal h hlevel hending (by simp [ordinalText_eq])

/-- A die, a weapon and two spells whose names begin alike. -/
def fireRules : Ruleset where
  namedDice := [⟨"Fire die", 6⟩]
  weapons := [⟨"Fire lance", "1d6"⟩]
  spells := [⟨"Fireball", 3, "8d6 fire damage", "1d6 more"⟩, ⟨"Fire bolt", 1, "1d10", "1d10 more"⟩]

/-- A fireball at the highest level that can be said, with an ending that does not suit it. -/
theorem read_spell_at_level_fireball :
    fireRules.Unmistakable "Fireball" ∧
      spellTexts "Fireball" Int64.maxValue "st" =
        ["Fireball at level 9223372036854775807", "Fireball at 9223372036854775807st level",
          "Fireball 9223372036854775807st level", "level 9223372036854775807 Fireball",
          "9223372036854775807st level Fireball"] ∧
      ∀ text ∈ spellTexts "Fireball" Int64.maxValue "st",
        read (.ofRuleset fireRules) text =
          .ok (.group (.spellAt "Fireball" (.integer Int64.maxValue))) := by
  have h : fireRules.Unmistakable "Fireball" :=
    { spell := by decide
      letter := by decide
      words := by decide
      apart := by decide +kernel
      only := by decide +kernel
      digit := by decide
      level := by decide +kernel }
  exact ⟨h, by decide +kernel, read_spell_at_level h (by decide) (by decide)⟩

end Request

end SpokenDice
