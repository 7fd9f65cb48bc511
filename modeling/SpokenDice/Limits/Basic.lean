import SpokenDice.Integer
import SpokenDice.Text.Blank

/-!
# Limits

A roller accepts only so many dice, so long a chain of names that refer to other names, and
spells up to some level. `Limits.ofVariables` reads the limits from variables: one that is
missing, or is no number of its range, leaves its default.
-/

namespace SpokenDice

/-- What a roller accepts at most. -/
structure Limits where
  /-- How many dice one roll may throw. -/
  diceCount : UInt64 := 10000
  /-- How deep the damage of a weapon or spell may refer to other weapons and spells. -/
  expansionDepth : UInt32 := 16
  /-- The highest level at which a spell may be cast. -/
  spellLevel : Int64 := 20
  deriving DecidableEq

namespace Limits

/-- A dice limit of this value, if there is one. -/
def diceCount? (n : Nat) : Option UInt64 :=
  if n ≤ 18446744073709551615 then some (UInt64.ofNat n) else none

/-- A depth limit of this value, if there is one. -/
def expansionDepth? (n : Nat) : Option UInt32 :=
  if n ≤ 4294967295 then some (UInt32.ofNat n) else none

/-- The number that digits write after at most a plus sign. -/
def unsigned? : List Char → Option Nat
  | '+' :: digits => natural? digits
  | digits => natural? digits

/-- The variable of the dice limit. -/
def diceCountVariable : String := "CRITDICE_DICE_COUNT_LIMIT"

/-- The variable of the depth limit. -/
def expansionDepthVariable : String := "CRITDICE_EXPANSION_DEPTH_LIMIT"

/-- The variable of the level limit. -/
def spellLevelVariable : String := "CRITDICE_SPELL_LEVEL_LIMIT"

/-- The limits that variables set, blanks around their values aside. -/
def ofVariables (lookup : String → Option String) : Limits :=
  let defaults : Limits := {}
  let value? (name : String) : Option (List Char) :=
    (lookup name).map fun text => Text.trim text.toList
  { diceCount :=
      (((value? diceCountVariable).bind unsigned?).bind diceCount?).getD defaults.diceCount
    expansionDepth :=
      (((value? expansionDepthVariable).bind unsigned?).bind expansionDepth?).getD
        defaults.expansionDepth
    spellLevel :=
      (((value? spellLevelVariable).bind signed?).bind int64?).getD defaults.spellLevel }

/-- Without variables, every limit has its default. -/
theorem ofVariables_none : ofVariables (fun _ => none) = {} := rfl

end Limits

end SpokenDice
