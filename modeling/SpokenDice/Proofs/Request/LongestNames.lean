import SpokenDice.Proofs.Request.SpellLevels
import SpokenDice.Proofs.Ruleset.Names

/-!
# The longest name is meant

Of all names that stand where something is named, the longest one is read, and of a weapon and a
spell that are equally long it is the weapon. This is what a search finds that goes through the
names of weapons and then of spells in the order of their lengths in bytes, the longest first, and
keeps the order of the table among equally long ones.

- `greatestFirst` and `find?_greatestFirst`: a stable order, and what is found first in it.
- `length_le_iff_of_matchesName`: names that stand in one place are compared alike by characters
  and by bytes.
- `longestName_eq_search` and `namedDamage_eq_search`: names are read as such a search finds them.
- `longest_name_read`: what is read where something is named.
-/

namespace SpokenDice

variable {α : Type}

/-! ## Searching from the greatest on -/

/-- Whether the first value is at least as great as the second one. -/
def noLess (f : α → Nat) (a b : α) : Bool :=
  decide (f b ≤ f a)

theorem noLess_trans (f : α → Nat) (a b c : α) (hab : noLess f a b = true)
    (hbc : noLess f b c = true) : noLess f a c = true :=
  decide_eq_true (Nat.le_trans (of_decide_eq_true hbc) (of_decide_eq_true hab))

theorem noLess_total (f : α → Nat) (a b : α) : (noLess f a b || noLess f b a) = true := by
  rw [Bool.or_eq_true, noLess, noLess, decide_eq_true_eq, decide_eq_true_eq]
  exact Nat.le_total _ _

/-- The list in the order of a measure, the greatest first; what is equally great keeps its
order. -/
def greatestFirst (f : α → Nat) (l : List α) : List α :=
  l.mergeSort (noLess f)

section Search

variable {f : α → Nat} {l : List α} {p : α → Bool} {a : α}

theorem mem_greatestFirst : a ∈ greatestFirst f l ↔ a ∈ l :=
  List.mem_mergeSort

theorem filter_greatestFirst (f : α → Nat) (l : List α) (n : Nat) :
    (greatestFirst f l).filter (f · == n) = l.filter (f · == n) := by
  have hequal : (l.filter (f · == n)).Pairwise (noLess f · ·) := by
    refine List.pairwise_of_forall_mem_list fun a ha b hb => decide_eq_true ?_
    have hfa : f a = n := by simpa using (List.mem_filter.mp ha).2
    have hfb : f b = n := by simpa using (List.mem_filter.mp hb).2
    omega
  have hsub : (l.filter (f · == n)).Sublist (greatestFirst f l) :=
    List.sublist_mergeSort (noLess_trans f) (noLess_total f) hequal List.filter_sublist
  have hkept := hsub.filter (f · == n)
  rw [List.filter_filter, funext fun a => Bool.and_self (f a == n)] at hkept
  have hperm := (List.mergeSort_perm l (noLess f)).filter (f · == n)
  exact (hkept.eq_of_length hperm.length_eq.symm).symm

/-- What is found first is greatest, and of what is equally great the first in the list. -/
theorem find?_greatestFirst (h : (greatestFirst f l).find? p = some a) :
    (l.filter (f · == f a)).find? p = some a ∧ ∀ b ∈ l, p b = true → f b ≤ f a := by
  obtain ⟨ha, before, behind, hsplit, hbefore⟩ := List.find?_eq_some_iff_append.mp h
  constructor
  · rw [← filter_greatestFirst, hsplit, List.filter_append, List.filter_cons_of_pos (by simp)]
    refine List.find?_eq_some_iff_append.mpr ⟨ha, _, _, rfl, fun b hb => ?_⟩
    exact hbefore b (List.mem_of_mem_filter hb)
  · intro b hb hpb
    have hsorted : (greatestFirst f l).Pairwise (noLess f · ·) :=
      List.pairwise_mergeSort (noLess_trans f) (noLess_total f) l
    have hmem : b ∈ greatestFirst f l := mem_greatestFirst.mpr hb
    rw [hsplit] at hsorted hmem
    rcases List.mem_append.mp hmem with hb | hb
    · cases (congrArg not hpb).symm.trans (hbefore b hb)
    · rcases List.mem_cons.mp hb with rfl | hb
      · exact Nat.le_refl _
      · have htail := (List.pairwise_append.mp hsorted).2.1
        exact of_decide_eq_true (List.rel_of_pairwise_cons htail hb)

end Search

/-! ## Lengths in characters and in bytes -/

open String (utf8Len)

namespace Text

theorem utf8Size_toLower (c : Char) : c.toLower.utf8Size = c.utf8Size := by
  have hletters : ∀ d : Char, d.isAlpha = true →
      (d.utf8Size == c.utf8Size) = (1 == c.utf8Size) := by
    intro d hd
    have hsize : d.utf8Size = 1 := by
      rw [Char.utf8Size_eq_one_iff]
      simp only [Char.isAlpha, Char.isUpper, Char.isLower] at hd
      grind [UInt32.le_iff_toNat_le]
    rw [hsize]
  simpa using congr_toLower hletters c

theorem utf8Len_lowerCase (text : List Char) : utf8Len (lowerCase text) = utf8Len text := by
  induction text with
  | nil => rfl
  | cons c text ih =>
    rw [lowerCase_cons, String.utf8Len_cons, String.utf8Len_cons, ih, utf8Size_toLower]

end Text

namespace Request

open Text (lowerCase)

variable {text name name' : List Char}

/-- A name that stands in a text is as long as what the text begins with. -/
theorem exists_prefix_of_matchesName (h : matchesName text name = true) :
    ∃ head, head <+: text ∧ head.length = name.length ∧ utf8Len head = utf8Len name := by
  obtain ⟨head, rest, htext, hhead, -⟩ := exists_of_matchesName h
  refine ⟨head, ⟨rest, htext.symm⟩, ?_, ?_⟩
  · simpa using congrArg List.length hhead
  · rw [← Text.utf8Len_lowerCase head, hhead, Text.utf8Len_lowerCase]

/-- Names that stand in one place are compared alike by characters and by bytes. -/
theorem length_le_iff_of_matchesName (h : matchesName text name = true)
    (h' : matchesName text name' = true) :
    name.length ≤ name'.length ↔ utf8Len name ≤ utf8Len name' := by
  obtain ⟨head, hhead, hlength, hbytes⟩ := exists_prefix_of_matchesName h
  obtain ⟨head', hhead', hlength', hbytes'⟩ := exists_prefix_of_matchesName h'
  rw [← hlength, ← hlength', ← hbytes, ← hbytes']
  rcases List.prefix_or_prefix_of_prefix hhead hhead' with hle | hle
  · exact iff_of_true hle.length_le (String.utf8Len_le_of_prefix hle)
  · obtain ⟨more, rfl⟩ := hle
    rw [List.length_append, String.utf8Len_append, add_le_iff_nonpos_right,
      add_le_iff_nonpos_right, Nat.le_zero, Nat.le_zero, List.length_eq_zero_iff,
      String.utf8Len_eq_zero]

/-! ## Searches for a name -/

section Searches

/-- The first name that stands at the head of the text, from the longest name on. -/
def searchName (names : List (List Char)) (text : List Char) : Option (List Char) :=
  (greatestFirst utf8Len names).find? (matchesName text)

/-- The name found by a search has the length of the longest name. -/
theorem longestName_eq_search (names : List (List Char)) (text : List Char) :
    longestName names text = (searchName names text).map List.length := by
  cases hfound : searchName names text with
  | none =>
    refine longestName_eq_none_iff.mpr fun name hname => ?_
    simpa using List.find?_eq_none.mp hfound name (mem_greatestFirst.mpr hname)
  | some name =>
    obtain ⟨hfirst, hgreatest⟩ := find?_greatestFirst hfound
    have hmatch : matchesName text name = true := List.find?_some hfirst
    have hname : name ∈ names := List.mem_of_mem_filter (List.mem_of_find?_eq_some hfirst)
    refine longestName_eq_some_iff.mpr ⟨⟨name, hname, hmatch, rfl⟩, fun other hother hm => ?_⟩
    exact (length_le_iff_of_matchesName hm hmatch).mpr (hgreatest other hother hm)

/-- What a name stands for. -/
inductive DamageKind where
  | weapon
  | spell
  deriving DecidableEq

/-- The names of weapons and then those of spells. -/
def damageTable (lexicon : Lexicon) : List (List Char × DamageKind) :=
  lexicon.weapons.map (·, .weapon) ++ lexicon.spells.map (·, .spell)

/-- The first name of a weapon or spell that stands at the head of the text, from the longest name
on. -/
def searchDamage (lexicon : Lexicon) (text : List Char) : Option (List Char × DamageKind) :=
  (greatestFirst (fun entry => utf8Len entry.1) (damageTable lexicon)).find?
    fun entry => matchesName text entry.1

/-- The names of one kind. -/
def Lexicon.namesOf (lexicon : Lexicon) : DamageKind → List (List Char)
  | .weapon => lexicon.weapons
  | .spell => lexicon.spells

theorem mem_damageTable {lexicon : Lexicon} {kind : DamageKind} :
    (name, kind) ∈ damageTable lexicon ↔ name ∈ lexicon.namesOf kind := by
  cases kind <;> simp [damageTable, Lexicon.namesOf]

/-- The name is the longest one that stands at the head of the text, and if it is that of a spell,
no weapon has an equally long one. -/
structure Wins (lexicon : Lexicon) (text name : List Char) (kind : DamageKind) : Prop where
  mem : name ∈ lexicon.namesOf kind
  stands : matchesName text name = true
  longest : ∀ kind' other, other ∈ lexicon.namesOf kind' → matchesName text other = true →
    utf8Len other ≤ utf8Len name
  weapon_first : kind = .spell → ∀ weapon ∈ lexicon.weapons, matchesName text weapon = true →
    utf8Len weapon ≠ utf8Len name

theorem wins_of_searchDamage {lexicon : Lexicon} {kind : DamageKind}
    (h : searchDamage lexicon text = some (name, kind)) : Wins lexicon text name kind := by
  obtain ⟨hfirst, hgreatest⟩ := find?_greatestFirst h
  constructor
  · exact mem_damageTable.mp (List.mem_of_mem_filter (List.mem_of_find?_eq_some hfirst))
  · exact (List.find?_eq_some_iff_append.mp h).1
  · intro kind' other hother hmatch
    exact hgreatest (other, kind') (mem_damageTable.mpr hother) hmatch
  · rintro rfl weapon hweapon hmatch hsize
    -- A weapon of this length stands in the table before all spells.
    rw [damageTable, List.filter_append, List.find?_append] at hfirst
    have hsome : (((lexicon.weapons.map (·, DamageKind.weapon)).filter
        fun entry => utf8Len entry.1 == utf8Len name).find?
          fun entry => matchesName text entry.1).isSome := by
      refine List.find?_isSome.mpr ⟨(weapon, .weapon), ?_, hmatch⟩
      exact List.mem_filter.mpr ⟨List.mem_map_of_mem hweapon, by simp [hsize]⟩
    obtain ⟨entry, hentry⟩ := Option.isSome_iff_exists.mp hsome
    rw [hentry, Option.some_or] at hfirst
    obtain rfl := Option.some.inj hfirst
    have hmem := List.mem_of_mem_filter (List.mem_of_find?_eq_some hentry)
    simp at hmem

/-- Where a search finds no weapon or spell, none stands. -/
theorem longestName_namesOf_eq_none {lexicon : Lexicon} (h : searchDamage lexicon text = none)
    (kind : DamageKind) : longestName (lexicon.namesOf kind) text = none := by
  refine longestName_eq_none_iff.mpr fun name hname => ?_
  simpa using List.find?_eq_none.mp h (name, kind)
    (mem_greatestFirst.mpr (mem_damageTable.mpr hname))

namespace Wins

variable {lexicon : Lexicon} {kind : DamageKind}

theorem longestName_eq (h : Wins lexicon text name kind) :
    longestName (lexicon.namesOf kind) text = some name.length := by
  refine longestName_eq_some_iff.mpr ⟨⟨name, h.mem, h.stands, rfl⟩, fun other hother hmatch => ?_⟩
  exact (length_le_iff_of_matchesName hmatch h.stands).mpr (h.longest _ other hother hmatch)

/-- A name of another kind is no longer. -/
theorem length_le (h : Wins lexicon text name kind) (kind' : DamageKind) {n : Nat}
    (hn : longestName (lexicon.namesOf kind') text = some n) : n ≤ name.length := by
  obtain ⟨⟨other, hother, hmatch, rfl⟩, -⟩ := longestName_eq_some_iff.mp hn
  exact (length_le_iff_of_matchesName hmatch h.stands).mpr (h.longest _ other hother hmatch)

/-- A weapon where a spell is meant is shorter. -/
theorem length_lt (h : Wins lexicon text name .spell) {w : Nat}
    (hw : longestName lexicon.weapons text = some w) : w < name.length := by
  obtain ⟨⟨weapon, hweapon, hmatch, rfl⟩, -⟩ := longestName_eq_some_iff.mp hw
  have hbytes := h.longest .weapon weapon hweapon hmatch
  have hne := h.weapon_first rfl weapon hweapon hmatch
  refine Nat.lt_of_not_le fun hle => hne (Nat.le_antisymm hbytes ?_)
  exact (length_le_iff_of_matchesName h.stands hmatch).mp hle

theorem damageOfLengths_weapon (h : Wins lexicon text name .weapon) :
    damageOfLengths (longestName lexicon.weapons text) (longestName lexicon.spells text) =
      weaponOfLength name.length := by
  have hweapons : longestName lexicon.weapons text = some name.length := h.longestName_eq
  rw [hweapons]
  cases hspells : longestName lexicon.spells text with
  | none => rfl
  | some s => exact if_pos (h.length_le .spell hspells)

theorem damageOfLengths_spell (h : Wins lexicon text name .spell) :
    damageOfLengths (longestName lexicon.weapons text) (longestName lexicon.spells text) =
      spellOfLength name.length := by
  have hspells : longestName lexicon.spells text = some name.length := h.longestName_eq
  rw [hspells]
  cases hweapons : longestName lexicon.weapons text with
  | none => rfl
  | some w => exact if_neg (Nat.not_le.mpr (h.length_lt hweapons))

end Wins

/-- Reads a weapon or spell whose name was found. -/
def damageFound : Option (List Char × DamageKind) → Scanner Expr
  | none => failure
  | some (name, .weapon) => weaponOfLength name.length
  | some (name, .spell) => spellOfLength name.length

/-- The damage that is read is the one that a search finds. -/
theorem namedDamage_eq_search (lexicon : Lexicon) (text : List Char) :
    namedDamage lexicon text =
      damageFound (searchDamage lexicon (skipSeparators text)) (skipSeparators text) := by
  rw [namedDamage_apply]
  cases hfound : searchDamage lexicon (skipSeparators text) with
  | none =>
    have hweapons : longestName lexicon.weapons (skipSeparators text) = none :=
      longestName_namesOf_eq_none hfound .weapon
    have hspells : longestName lexicon.spells (skipSeparators text) = none :=
      longestName_namesOf_eq_none hfound .spell
    rw [hweapons, hspells]
    rfl
  | some entry =>
    obtain ⟨name, kind⟩ := entry
    have hwins := wins_of_searchDamage hfound
    cases kind with
    | weapon => rw [hwins.damageOfLengths_weapon, damageFound]
    | spell => rw [hwins.damageOfLengths_spell, damageFound]

end Searches

/-! ## What is read -/

/-- The name is not blank, and it stands at the head of the text as a whole word: up to the case of
letters of ASCII the text begins with it, and no alphanumeric character goes on with it. -/
structure Stands (text : List Char) (name : String) : Prop where
  usable : Text.isBlankText name.toList = false
  heads : ∃ head rest, text = head ++ rest ∧ Text.sameLetters head name.toList = true ∧
    endsWord rest = true

/-- The longest names of the table that stand at the head of the text have this many bytes. -/
structure Longest (table : List String) (text : List Char) (size : Nat) : Prop where
  reached : ∃ name ∈ table, Stands text name ∧ name.utf8ByteSize = size
  greatest : ∀ name ∈ table, Stands text name → name.utf8ByteSize ≤ size

section Standing

variable {table : List String} {known : String}

theorem stands_iff : Stands text known ↔
    Text.isBlankText known.toList = false ∧ matchesName text known.toList = true := by
  rw [matchesName, Option.isSome_iff_exists]
  constructor
  · rintro ⟨husable, head, rest, htext, hsame, hend⟩
    exact ⟨husable, rest, afterWord_eq_some_iff.mpr ⟨head, htext, hsame, hend⟩⟩
  · rintro ⟨husable, rest, hafter⟩
    obtain ⟨head, htext, hsame, hend⟩ := afterWord_eq_some_iff.mp hafter
    exact ⟨husable, head, rest, htext, hsame, hend⟩

/-- A usable name that matches is a name of the table that stands there. -/
theorem exists_stands (hname : name ∈ usableNames table) (hmatch : matchesName text name = true) :
    ∃ known ∈ table, Stands text known ∧ known.utf8ByteSize = utf8Len name := by
  obtain ⟨known, hknown, rfl, hblank⟩ := exists_of_mem_usableNames hname
  exact ⟨known, hknown, stands_iff.mpr ⟨hblank, hmatch⟩, (String.utf8Len_toList ..).symm⟩

theorem mem_usableNames_of_stands (hknown : known ∈ table) (h : Stands text known) :
    known.toList ∈ usableNames table :=
  List.mem_filter.mpr ⟨List.mem_map_of_mem hknown, by simp [h.usable]⟩

theorem longestName_eq_none_iff_stands :
    longestName (usableNames table) text = none ↔ ∀ known ∈ table, ¬ Stands text known := by
  rw [longestName_eq_none_iff]
  constructor
  · intro h known hknown hstands
    have hmatch := (stands_iff.mp hstands).2
    cases hmatch.symm.trans (h _ (mem_usableNames_of_stands hknown hstands))
  · intro h name hname
    refine Bool.eq_false_iff.mpr fun hmatch => ?_
    obtain ⟨known, hknown, hstands, -⟩ := exists_stands hname hmatch
    exact h known hknown hstands

theorem longest_of_greatest (hname : name ∈ usableNames table)
    (hmatch : matchesName text name = true)
    (hgreatest : ∀ other ∈ usableNames table, matchesName text other = true →
      utf8Len other ≤ utf8Len name) : Longest table text (utf8Len name) := by
  refine ⟨exists_stands hname hmatch, fun known hknown hstands => ?_⟩
  rw [← String.utf8Len_toList]
  exact hgreatest _ (mem_usableNames_of_stands hknown hstands) (stands_iff.mp hstands).2

/-- As many characters as a name has that stands there are that name, in the spelling of the
text. -/
theorem nameOfLength_of_matchesName (hname : name ∈ usableNames table)
    (hmatch : matchesName text name = true) :
    ∃ read rest, nameOfLength name.length text = some (read, rest) ∧ text = read.toList ++ rest ∧
      read.utf8ByteSize = utf8Len name ∧ Scanner.Spelled text table read := by
  obtain ⟨head, rest, rfl, hhead, -⟩ := exists_of_matchesName hmatch
  obtain ⟨known, hknown, rfl, -⟩ := exists_of_mem_usableNames hname
  have hlength : known.toList.length = head.length := by
    simpa using (congrArg List.length hhead).symm
  have htext : (String.ofList head).toList = head := String.toList_ofList
  refine ⟨String.ofList head, rest, ?_, ?_, ?_, ?_, known, hknown, ?_⟩
  · show some (String.ofList ((head ++ rest).take known.toList.length),
      (head ++ rest).drop known.toList.length) = _
    rw [hlength, List.take_left, List.drop_left]
  · rw [htext]
  · rw [String.utf8ByteSize_ofList, ← Text.utf8Len_lowerCase, hhead, Text.utf8Len_lowerCase]
  · rw [htext]
    exact (List.prefix_append head rest).isInfix
  · rw [sameName, htext]
    exact Text.sameLetters_iff.mpr hhead.symm

end Standing

/-- A spell with the level that stands behind its name, if there is one. -/
def spellNamed (name : String) : Option Int64 → Expr
  | none => .spell name
  | some level => .spellAt name (.integer level)

theorem spellOfLength_eq {n : Nat} {read : String} {rest : List Char}
    (h : nameOfLength n text = some (read, rest)) :
    ∃ level rest', optional levelAfter rest = some (level, rest') ∧
      spellOfLength n text = some (spellNamed read level, rest') := by
  rw [spellOfLength, Scanner.bind_some h]
  cases hlevel : levelAfter rest with
  | none =>
    have hoptional := Scanner.optional_none hlevel
    exact ⟨none, rest, hoptional, Scanner.bind_some hoptional⟩
  | some result =>
    have hoptional := Scanner.optional_some hlevel
    exact ⟨some result.1, result.2, hoptional, Scanner.bind_some hoptional⟩

/-- Nothing is read just when no name of the table stands at the head of the text. Otherwise the
longest of those that do is read, in the spelling of the text, and what follows from that is told by
its size, its text and the rest. -/
def ReadsLongest (table : List String) (text : List Char) (reading : Option (Expr × List Char))
    (P : Nat → String → List Char → Prop) : Prop :=
  (reading = none ↔ ∀ known ∈ table, ¬ Stands text known) ∧
    ((∃ known ∈ table, Stands text known) → ∃ size name rest, Longest table text size ∧
      text = name.toList ++ rest ∧ name.utf8ByteSize = size ∧ P size name rest)

section Readings

variable {table : List String} {reading : Option (Expr × List Char)}
  {P : Nat → String → List Char → Prop}

theorem readsLongest_none (hreading : reading = none)
    (h : longestName (usableNames table) text = none) : ReadsLongest table text reading P := by
  have hnone := longestName_eq_none_iff_stands.mp h
  refine ⟨iff_of_true hreading hnone, ?_⟩
  rintro ⟨known, hknown, hstands⟩
  exact absurd hstands (hnone known hknown)

theorem readsLongest_some {size : Nat} {read : String} {rest : List Char}
    (hreading : reading ≠ none) (hlongest : Longest table text size)
    (htext : text = read.toList ++ rest) (hsize : read.utf8ByteSize = size)
    (h : P size read rest) :
    ReadsLongest table text reading P := by
  refine ⟨iff_of_false hreading fun hnone => ?_, fun _ => ?_⟩
  · obtain ⟨known, hknown, hstands, -⟩ := hlongest.reached
    exact hnone known hknown hstands
  · exact ⟨size, read, rest, hlongest, htext, hsize, h⟩

end Readings

section Rules

variable (rules : Ruleset) (text : List Char)

/-- The die of this name is read, and there is one. -/
def ReadsDie (reading : Option (Expr × List Char)) (name : String) (rest : List Char) : Prop :=
  reading = some (.namedDie name, rest) ∧ (rules.namedDie? name).isSome

/-- If a weapon's name of this size stands at the head of the text, the weapon of this name is read.
Otherwise the spell of this name is, with the level that stands behind it, if there is one. In both
cases there is a record of the name. -/
def ReadsDamage (text : List Char) (reading : Option (Expr × List Char)) (size : Nat)
    (name : String) (rest : List Char) : Prop :=
  ((∃ weapon ∈ rules.weapons.map Weapon.name, Stands text weapon ∧ weapon.utf8ByteSize = size) →
    reading = some (.weapon name, rest) ∧ (rules.weapon? name).isSome) ∧
  ((¬ ∃ weapon ∈ rules.weapons.map Weapon.name, Stands text weapon ∧ weapon.utf8ByteSize = size) →
    (∃ level rest', optional levelAfter rest = some (level, rest') ∧
      reading = some (spellNamed name level, rest')) ∧ (rules.spell? name).isSome)

/-- Of the dice that go by a name, the one with the longest name is read. -/
theorem namedDie_longest :
    ReadsLongest (rules.namedDice.map NamedDie.name) (skipSeparators text)
      (namedDie (.ofRuleset rules) text)
      fun _ => ReadsDie rules (namedDie (.ofRuleset rules) text) := by
  have hlength := longestName_eq_search (Lexicon.ofRuleset rules).namedDice (skipSeparators text)
  have hname := nameAmong_apply (Lexicon.ofRuleset rules).namedDice text
  cases hfound : searchName (Lexicon.ofRuleset rules).namedDice (skipSeparators text) with
  | none =>
    rw [hfound, Option.map_none] at hlength
    rw [hlength, Option.bind_none] at hname
    exact readsLongest_none (Scanner.bind_none hname) hlength
  | some found =>
    obtain ⟨hfirst, hgreatest⟩ := find?_greatestFirst hfound
    have hmatch : matchesName (skipSeparators text) found = true := List.find?_some hfirst
    have hmem := List.mem_of_mem_filter (List.mem_of_find?_eq_some hfirst)
    obtain ⟨read, rest, hread, htext, hsize, hspelled⟩ := nameOfLength_of_matchesName hmem hmatch
    rw [hlength, hfound, Option.map_some, Option.bind_some, hread] at hname
    have hdie : namedDie (.ofRuleset rules) text = some (.namedDie read, rest) :=
      Scanner.bind_some hname
    refine readsLongest_some (by simp [hdie]) (longest_of_greatest hmem hmatch hgreatest) htext
      hsize ⟨hdie, ?_⟩
    exact Ruleset.find?_isSome_of_spelled hspelled

theorem mem_usableNames_damage {rules : Ruleset} :
    name ∈ usableNames (rules.weapons.map Weapon.name ++ rules.spells.map Spell.name) ↔
      ∃ kind, name ∈ (Lexicon.ofRuleset rules).namesOf kind := by
  rw [usableNames, List.map_append, List.filter_append, List.mem_append]
  constructor
  · rintro (hweapon | hspell)
    · exact ⟨.weapon, hweapon⟩
    · exact ⟨.spell, hspell⟩
  · rintro ⟨_ | _, hname⟩
    · exact .inl hname
    · exact .inr hname

/-- Of weapons and spells, the one with the longest name is read, and the weapon if there is one. -/
theorem namedDamage_longest :
    ReadsLongest (rules.weapons.map Weapon.name ++ rules.spells.map Spell.name)
      (skipSeparators text) (namedDamage (.ofRuleset rules) text)
      (ReadsDamage rules (skipSeparators text) (namedDamage (.ofRuleset rules) text)) := by
  have hsearch := namedDamage_eq_search (.ofRuleset rules) text
  cases hfound : searchDamage (.ofRuleset rules) (skipSeparators text) with
  | none =>
    rw [hfound] at hsearch
    refine readsLongest_none hsearch (longestName_eq_none_iff.mpr fun name hname => ?_)
    obtain ⟨kind, hkind⟩ := mem_usableNames_damage.mp hname
    exact longestName_eq_none_iff.mp (longestName_namesOf_eq_none hfound kind) name hkind
  | some entry =>
    obtain ⟨found, kind⟩ := entry
    have hwins := wins_of_searchDamage hfound
    have hmem := mem_usableNames_damage.mpr ⟨kind, hwins.mem⟩
    have hlongest : Longest (rules.weapons.map Weapon.name ++ rules.spells.map Spell.name)
        (skipSeparators text) (utf8Len found) := by
      refine longest_of_greatest hmem hwins.stands fun other hother hmatch => ?_
      obtain ⟨kind', hkind'⟩ := mem_usableNames_damage.mp hother
      exact hwins.longest kind' other hkind' hmatch
    rw [hfound] at hsearch
    cases kind with
    | weapon =>
      obtain ⟨read, rest, hread, htext, hsize, hspelled⟩ :=
        nameOfLength_of_matchesName hwins.mem hwins.stands
      have hdamage : namedDamage (.ofRuleset rules) text = some (.weapon read, rest) :=
        hsearch.trans (Scanner.bind_some hread)
      refine readsLongest_some (by simp [hdamage]) hlongest htext hsize ⟨fun _ => ?_, fun hno => ?_⟩
      · exact ⟨hdamage, Ruleset.find?_isSome_of_spelled hspelled⟩
      · exact absurd (exists_stands hwins.mem hwins.stands) hno
    | spell =>
      obtain ⟨read, rest, hread, htext, hsize, hspelled⟩ :=
        nameOfLength_of_matchesName hwins.mem hwins.stands
      obtain ⟨level, rest', hlevel, hspell⟩ := spellOfLength_eq hread
      have hdamage : namedDamage (.ofRuleset rules) text = some (spellNamed read level, rest') :=
        hsearch.trans hspell
      refine readsLongest_some (by simp [hdamage]) hlongest htext hsize ⟨?_, fun _ => ?_⟩
      · rintro ⟨weapon, hweapon, hstands, hbytes⟩
        rw [← String.utf8Len_toList] at hbytes
        exact absurd hbytes (hwins.weapon_first rfl _ (mem_usableNames_of_stands hweapon hstands)
          (stands_iff.mp hstands).2)
      · exact ⟨⟨level, rest', hlevel, hdamage⟩, Ruleset.find?_isSome_of_spelled hspelled⟩

/-- The longest name wins, and a weapon before a spell. Behind the separators, a weapon or spell is
read unless no name of one stands there; what is read has as many bytes as the longest names that
do, and is a weapon if one of these is that of a weapon. Dice that go by a name are read
likewise. -/
theorem longest_name_read :
    ReadsLongest (rules.weapons.map Weapon.name ++ rules.spells.map Spell.name)
        (skipSeparators text) (namedDamage (.ofRuleset rules) text)
        (ReadsDamage rules (skipSeparators text) (namedDamage (.ofRuleset rules) text)) ∧
      ReadsLongest (rules.namedDice.map NamedDie.name) (skipSeparators text)
        (namedDie (.ofRuleset rules) text)
        fun _ => ReadsDie rules (namedDie (.ofRuleset rules) text) :=
  ⟨namedDamage_longest rules text, namedDie_longest rules text⟩

/-- A weapon whose name begins with that of a spell. -/
example :
    namedDamage (.ofRuleset ⟨[], [⟨"Light hammer", "1d4"⟩], [⟨"Light", 0, "", ""⟩]⟩)
      ", light HAMMER 2".toList = some (.weapon "light HAMMER", " 2".toList) := by
  decide +kernel

end Rules

end Request

end SpokenDice
