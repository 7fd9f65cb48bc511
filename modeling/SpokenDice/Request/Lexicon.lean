import SpokenDice.Request.Scanner
import SpokenDice.Ruleset.Basic

/-!
# The names of a ruleset in a request

A lexicon holds the names that a request may use. Where several of them match, the longest is
meant. A blank name is never meant.

- `longestName_eq_some_iff`: the length found belongs to a name that matches, and no name that
  matches is longer.
- `nameAmong` reads a name in the spelling of the request.
-/

namespace SpokenDice.Request

/-- The names that a request may use. -/
structure Lexicon where
  namedDice : List (List Char)
  weapons : List (List Char)
  spells : List (List Char)

/-- The names that are not blank. -/
def usableNames (names : List String) : List (List Char) :=
  (names.map String.toList).filter fun name => !Text.isBlankText name

/-- The names of a ruleset. -/
def Lexicon.ofRuleset (rules : Ruleset) : Lexicon where
  namedDice := usableNames (rules.namedDice.map NamedDie.name)
  weapons := usableNames (rules.weapons.map Weapon.name)
  spells := usableNames (rules.spells.map Spell.name)

/-- Whether the name stands at the head of the text as a whole word. -/
def matchesName (text name : List Char) : Bool :=
  (afterWord name text).isSome

/-- The length of the longest name that stands at the head of the text. -/
def longestName (names : List (List Char)) (text : List Char) : Option Nat :=
  ((names.filter (matchesName text)).map List.length).max?

theorem longestName_eq_some_iff {names : List (List Char)} {text : List Char} {n : Nat} :
    longestName names text = some n ↔
      (∃ name ∈ names, matchesName text name = true ∧ name.length = n) ∧
        ∀ name ∈ names, matchesName text name = true → name.length ≤ n := by
  simp only [longestName, List.max?_eq_some_iff, List.mem_map, List.mem_filter]
  constructor
  · rintro ⟨⟨name, ⟨hmem, hmatch⟩, hlen⟩, hmax⟩
    exact ⟨⟨name, hmem, hmatch, hlen⟩, fun other ho hm => hmax _ ⟨other, ⟨ho, hm⟩, rfl⟩⟩
  · rintro ⟨⟨name, hmem, hmatch, hlen⟩, hmax⟩
    refine ⟨⟨name, ⟨hmem, hmatch⟩, hlen⟩, ?_⟩
    rintro _ ⟨other, ⟨ho, hm⟩, rfl⟩
    exact hmax other ho hm

theorem longestName_eq_none_iff {names : List (List Char)} {text : List Char} :
    longestName names text = none ↔ ∀ name ∈ names, matchesName text name = false := by
  simp [longestName, List.max?_eq_none_iff, List.filter_eq_nil_iff]

/-- Reads a name of `n` characters, in the spelling of the request. -/
def nameOfLength (n : Nat) : Scanner String :=
  modifyGet fun text => (String.ofList (text.take n), text.drop n)

/-- Reads the longest of some names. -/
def nameAmong (names : List (List Char)) : Scanner String := do
  separators
  let length ← longestName names (← get)
  nameOfLength length

end SpokenDice.Request
