import SpokenDice.Integer

/-!
# JSON values

Rulesets and limits can be given as JSON. A value keeps only what such a text can ask for: a
number matters when it is a whole number, and a string when its escapes spell a text.

- `record?` takes the fields of a record from an object or an array, each field at most once.
- `text?`, `int64?`, `natural?` and `list?` read one field.
-/

namespace SpokenDice

/-- A JSON value. -/
inductive JsonValue where
  | null
  | boolean (value : Bool)
  /-- A number, with its value if it is written as a whole number. -/
  | number (value : Option Int)
  /-- A string, with its text if the escapes in it spell one. -/
  | string (text : Option String)
  | array (items : List JsonValue)
  /-- An object: its keys, which are strings, with their values, in the order written. -/
  | object (members : List (Option String × JsonValue))

namespace JsonValue

/-- The text of a string. -/
def text? : JsonValue → Option String
  | .string text => text
  | _ => none

/-- The whole number that a value is. -/
def whole? : JsonValue → Option Int
  | .number value => value
  | _ => none

/-- The natural number that a value is. -/
def natural? (value : JsonValue) : Option Nat :=
  match value.whole? with
  | some (.ofNat n) => some n
  | _ => none

/-- The integer of 64 bits that a value is. -/
def int64? (value : JsonValue) : Option Int64 :=
  value.whole?.bind SpokenDice.int64?

/-- The items of an array, read one by one. -/
def list? {α : Type} (read : JsonValue → Option α) : JsonValue → Option (List α)
  | .array items => items.mapM read
  | _ => none

/-- The value of the only member with this key; `some none` if there is no such member. -/
def member? (members : List (Option String × JsonValue)) (key : String) :
    Option (Option JsonValue) :=
  match members.filter fun member => member.1 == some key with
  | [] => some none
  | [member] => some (some member.2)
  | _ => none

/-- The values of the fields of a record, or `none` for those that are not given. A record is an
object, which may have other members too, or an array of its first fields in order. -/
def record? (fields : List String) : JsonValue → Option (List (Option JsonValue))
  | .object members =>
    if members.all fun member => member.1.isSome then fields.mapM (member? members) else none
  | .array items =>
    if items.length ≤ fields.length then
      some (items.map some ++ List.replicate (fields.length - items.length) none)
    else none
  | _ => none

end JsonValue

end SpokenDice
