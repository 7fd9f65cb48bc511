import SpokenDice.Json.Reader
import SpokenDice.Ruleset.Standard

/-!
# Rulesets as JSON

The weapons and the spells of a ruleset can be given as JSON texts, each an array of records. Such
a ruleset has the standard dice. The weapons are looked at first: when both texts are
unacceptable, the failure names the weapons.
-/

namespace SpokenDice

/-- The tables of a ruleset that texts can give. -/
inductive RulesetTable where
  | weapons
  | spells
  deriving DecidableEq

/-- What can be wrong with a ruleset that is given as texts. -/
inductive RulesetError where
  /-- The text of the table is no array of its records. -/
  | malformed (table : RulesetTable)
  /-- The file of the table cannot be read. -/
  | unreadable (table : RulesetTable)
  deriving DecidableEq

/-- The name of the file that holds a table. -/
def RulesetTable.fileName : RulesetTable → String
  | .weapons => "weapons.json"
  | .spells => "spells.json"

/-- Reads a weapon. -/
def Weapon.ofJson? (value : JsonValue) : Option Weapon :=
  match value.record? ["name", "damage_dice"] with
  | some [some name, some damage] => do
    pure ⟨← name.text?, ← damage.text?⟩
  | _ => none

/-- Reads a spell. Its text on higher levels may be missing, and is then empty. -/
def Spell.ofJson? (value : JsonValue) : Option Spell :=
  match value.record? ["name", "level_int", "desc", "higher_level"] with
  | some [some name, some level, some description, higherLevels] => do
    let higherLevels ← match higherLevels with
      | some text => text.text?
      | none => pure ""
    pure ⟨← name.text?, ← level.int64?, ← description.text?, higherLevels⟩
  | _ => none

namespace Ruleset

/-- Reads the records of a table. -/
def readTable {α : Type} (table : RulesetTable) (read : JsonValue → Option α) (text : String) :
    Except RulesetError (List α) :=
  match (JsonValue.ofText? text).bind (JsonValue.list? read) with
  | some records => .ok records
  | none => .error (.malformed table)

/-- The ruleset of two JSON texts. -/
def ofJson (weapons spells : String) : Except RulesetError Ruleset := do
  let weapons ← readTable .weapons Weapon.ofJson? weapons
  let spells ← readTable .spells Spell.ofJson? spells
  pure ⟨standardDice, weapons, spells⟩

/-- The text of a table's file. -/
def fileOf (file? : String → Option String) (table : RulesetTable) : Except RulesetError String :=
  match file? table.fileName with
  | some text => .ok text
  | none => .error (.unreadable table)

/-- The ruleset of two files. Both are read before either is looked at. -/
def ofFiles (file? : String → Option String) : Except RulesetError Ruleset := do
  let weapons ← fileOf file? .weapons
  let spells ← fileOf file? .spells
  ofJson weapons spells

end Ruleset

end SpokenDice
