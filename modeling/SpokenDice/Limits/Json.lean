import SpokenDice.Json.Reader
import SpokenDice.Limits.Basic

/-!
# Limits as JSON

Limits can be given as a JSON record. A limit that is missing has its default; one that is no
number of its range makes the record unacceptable.
-/

namespace SpokenDice.Limits

/-- A field that has a default. -/
def fieldOr {α : Type} (read : JsonValue → Option α) (otherwise : α) :
    Option JsonValue → Option α
  | some value => read value
  | none => some otherwise

/-- Reads limits. -/
def ofJson? (value : JsonValue) : Option Limits :=
  let defaults : Limits := {}
  match value.record? ["diceCountLimit", "expansionDepthLimit", "spellLevelLimit"] with
  | some [dice, depth, level] => do
    let dice ← fieldOr (fun v => v.natural?.bind diceCount?) defaults.diceCount dice
    let depth ← fieldOr (fun v => v.natural?.bind expansionDepth?) defaults.expansionDepth depth
    let level ← fieldOr JsonValue.int64? defaults.spellLevel level
    pure ⟨dice, depth, level⟩
  | _ => none

/-- The limits of a JSON text. -/
def ofText? (text : String) : Option Limits :=
  (JsonValue.ofText? text).bind ofJson?

end SpokenDice.Limits
