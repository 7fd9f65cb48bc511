import SpokenDice.Text.LetterCase

/-!
# Rulesets

A ruleset explains the names that a request may use: dice that go by a name, weapons with the
dice of their damage, and spells, whose dice stand in their descriptions. A name is looked up
without regard to the case of its letters, and the first record that has it wins.
-/

namespace SpokenDice

/-- A die that goes by a name. -/
structure NamedDie where
  name : String
  sides : Int64
  deriving DecidableEq

/-- A weapon and the dice of its damage. -/
structure Weapon where
  name : String
  damage : String
  deriving DecidableEq

/-- A spell. Its damage stands somewhere in its description, and what a higher level adds stands
somewhere in the text on higher levels. -/
structure Spell where
  name : String
  level : Int64
  description : String
  higherLevels : String
  deriving DecidableEq

/-- The dice, weapons and spells that requests may name. -/
structure Ruleset where
  namedDice : List NamedDie
  weapons : List Weapon
  spells : List Spell
  deriving DecidableEq

/-- Whether two names are the same but for the case of their letters. -/
def sameName (a b : String) : Bool :=
  Text.sameLetters a.toList b.toList

namespace Ruleset

/-- The die of this name. -/
def namedDie? (rules : Ruleset) (name : String) : Option NamedDie :=
  rules.namedDice.find? fun die => sameName die.name name

/-- The weapon of this name. -/
def weapon? (rules : Ruleset) (name : String) : Option Weapon :=
  rules.weapons.find? fun weapon => sameName weapon.name name

/-- The spell of this name. -/
def spell? (rules : Ruleset) (name : String) : Option Spell :=
  rules.spells.find? fun spell => sameName spell.name name

end Ruleset

end SpokenDice
