import SpokenDice.Json.Value

/-!
# Reading JSON

`JsonValue.ofText?` reads a text that is one JSON value, with white space around its tokens: space,
tab, line feed and carriage return. A string may hold no control character, and its escapes are
those of JSON. Escapes may name code units of UTF-16: a leading and a trailing surrogate together
spell one character, and a surrogate on its own makes a string that has no text.
-/

namespace SpokenDice

namespace JsonValue

/-! ## Strings -/

/-- One character of a string, or one surrogate that an escape names. -/
inductive Unit16 where
  | character (c : Char)
  | surrogate (code : Nat)

/-- The value of a hexadecimal digit. -/
def hexDigit? (c : Char) : Option Nat :=
  if c.isDigit then some (c.toNat - '0'.toNat)
  else if 'a' ≤ c ∧ c ≤ 'f' then some (c.toNat - 'a'.toNat + 10)
  else if 'A' ≤ c ∧ c ≤ 'F' then some (c.toNat - 'A'.toNat + 10)
  else none

/-- The value of four hexadecimal digits. -/
def hexCode? (a b c d : Char) : Option Nat := do
  let a ← hexDigit? a
  let b ← hexDigit? b
  let c ← hexDigit? c
  let d ← hexDigit? d
  pure (((a * 16 + b) * 16 + c) * 16 + d)

/-- What an escape of four hexadecimal digits names. -/
def unitOfCode (code : Nat) : Unit16 :=
  if 0xD800 ≤ code ∧ code ≤ 0xDFFF then .surrogate code else .character (Char.ofNat code)

/-- The character that a backslash and one letter name. -/
def escaped? : Char → Option Char
  | '"' => some '"'
  | '\\' => some '\\'
  | '/' => some '/'
  | 'b' => some '\x08'
  | 'f' => some '\x0c'
  | 'n' => some '\n'
  | 'r' => some '\r'
  | 't' => some '\t'
  | _ => none

/-- Reads a string after its opening quote, and leaves what follows the closing one. -/
def readString : List Char → Option (List Unit16 × List Char)
  | [] => none
  | '"' :: rest => some ([], rest)
  | '\\' :: 'u' :: a :: b :: c :: d :: rest => do
    let code ← hexCode? a b c d
    let (units, rest) ← readString rest
    pure (unitOfCode code :: units, rest)
  | '\\' :: c :: rest => do
    let c ← escaped? c
    let (units, rest) ← readString rest
    pure (.character c :: units, rest)
  | c :: rest =>
    if c = '\\' ∨ c.toNat < 0x20 then none
    else do
      let (units, rest) ← readString rest
      pure (.character c :: units, rest)

/-- The characters that units spell, if each surrogate has its partner. -/
def spell? : List Unit16 → Option (List Char)
  | [] => some []
  | .character c :: rest => do
    let text ← spell? rest
    pure (c :: text)
  | .surrogate high :: .surrogate low :: rest =>
    if high ≤ 0xDBFF ∧ 0xDC00 ≤ low then do
      let text ← spell? rest
      pure (Char.ofNat (0x10000 + (high - 0xD800) * 0x400 + (low - 0xDC00)) :: text)
    else none
  | .surrogate _ :: _ => none

/-- The text of a string. -/
def textOf (units : List Unit16) : Option String :=
  (spell? units).map String.ofList

/-! ## Numbers -/

/-- Takes at least one digit. -/
def takeDigits (text : List Char) : Option (List Char × List Char) :=
  match text.takeWhile Char.isDigit with
  | [] => none
  | digits => some (digits, text.dropWhile Char.isDigit)

/-- Takes the digits of a whole number, which has no zero in front. -/
def takeWhole : List Char → Option (List Char × List Char)
  | '0' :: rest => some (['0'], rest)
  | text => takeDigits text

/-- Skips a fraction, and says whether there was one. -/
def skipFraction : List Char → Option (Bool × List Char)
  | '.' :: rest => (takeDigits rest).map fun taken => (true, taken.2)
  | rest => some (false, rest)

/-- Skips the digits of an exponent and the sign before them. -/
def skipSignedDigits : List Char → Option (List Char)
  | '+' :: rest => (takeDigits rest).map Prod.snd
  | '-' :: rest => (takeDigits rest).map Prod.snd
  | rest => (takeDigits rest).map Prod.snd

/-- Skips an exponent, and says whether there was one. -/
def skipExponent : List Char → Option (Bool × List Char)
  | 'e' :: rest => (skipSignedDigits rest).map fun rest => (true, rest)
  | 'E' :: rest => (skipSignedDigits rest).map fun rest => (true, rest)
  | rest => some (false, rest)

/-- The value of a whole number. Zero with a minus sign is none. -/
def wholeValue (negative : Bool) (digits : List Char) : Option Int :=
  let value := Nat.ofDigitChars 10 digits 0
  if negative then if value = 0 then none else some (-Int.ofNat value)
  else some (Int.ofNat value)

/-- Reads a number after its sign. -/
def readUnsigned (negative : Bool) (text : List Char) : Option (JsonValue × List Char) := do
  let (digits, rest) ← takeWhole text
  let (fraction, rest) ← skipFraction rest
  let (exponent, rest) ← skipExponent rest
  pure (.number (if fraction || exponent then none else wholeValue negative digits), rest)

/-- Reads a number. -/
def readNumber : List Char → Option (JsonValue × List Char)
  | '-' :: rest => readUnsigned true rest
  | text => readUnsigned false text

/-! ## Values -/

/-- Whether the character is white space between tokens. -/
def isSpacing (c : Char) : Bool :=
  c == ' ' || c == '\n' || c == '\t' || c == '\r'

/-- The text after the white space at its head. -/
def skipSpacing (text : List Char) : List Char :=
  text.dropWhile isSpacing

/-- Reads the key of a member and the colon after it. -/
def readKey (text : List Char) : Option (Option String × List Char) :=
  match skipSpacing text with
  | '"' :: rest => do
    let (units, rest) ← readString rest
    match skipSpacing rest with
    | ':' :: rest => pure (textOf units, rest)
    | _ => none
  | _ => none

/-- Reads a value that holds no others. -/
def readScalar : List Char → Option (JsonValue × List Char)
  | 'n' :: 'u' :: 'l' :: 'l' :: rest => some (.null, rest)
  | 't' :: 'r' :: 'u' :: 'e' :: rest => some (.boolean true, rest)
  | 'f' :: 'a' :: 'l' :: 's' :: 'e' :: rest => some (.boolean false, rest)
  | '"' :: rest => do
    let (units, rest) ← readString rest
    pure (.string (textOf units), rest)
  | text => readNumber text

mutual

/-- Reads a value. The fuel bounds how many values and lists of values are read. -/
def readValue : Nat → List Char → Option (JsonValue × List Char)
  | 0, _ => none
  | fuel + 1, text =>
    match skipSpacing text with
    | '[' :: rest =>
      match skipSpacing rest with
      | ']' :: rest => some (.array [], rest)
      | _ => do
        let (items, rest) ← readItems fuel rest
        pure (.array items, rest)
    | '\x7b' :: rest =>
      match skipSpacing rest with
      | '\x7d' :: rest => some (.object [], rest)
      | _ => do
        let (members, rest) ← readMembers fuel rest
        pure (.object members, rest)
    | text => readScalar text

/-- Reads the items of an array up to its closing bracket. -/
def readItems : Nat → List Char → Option (List JsonValue × List Char)
  | 0, _ => none
  | fuel + 1, text => do
    let (item, rest) ← readValue fuel text
    match skipSpacing rest with
    | ']' :: rest => pure ([item], rest)
    | ',' :: rest => do
      let (items, rest) ← readItems fuel rest
      pure (item :: items, rest)
    | _ => none

/-- Reads the members of an object up to its closing brace. -/
def readMembers : Nat → List Char → Option (List (Option String × JsonValue) × List Char)
  | 0, _ => none
  | fuel + 1, text => do
    let (key, rest) ← readKey text
    let (value, rest) ← readValue fuel rest
    match skipSpacing rest with
    | '\x7d' :: rest => pure ([(key, value)], rest)
    | ',' :: rest => do
      let (members, rest) ← readMembers fuel rest
      pure ((key, value) :: members, rest)
    | _ => none

end

/-- The value that a text writes. Every value and every item or member begins at a character of its
own, so that no text needs more fuel than two for each of its characters and one for the value
itself. -/
def ofText? (text : String) : Option JsonValue :=
  let characters := text.toList
  match readValue (2 * characters.length + 1) characters with
  | some (value, rest) => if skipSpacing rest = [] then some value else none
  | none => none

end JsonValue

end SpokenDice
