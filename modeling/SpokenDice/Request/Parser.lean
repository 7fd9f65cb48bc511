import SpokenDice.Error
import SpokenDice.Request.Reading
import SpokenDice.Request.Reference

/-!
# Requests

A request is a sum of products of values. A value is a number, a die or some dice, the damage of a
weapon or spell, a critical hit, or a sum in parentheses:

    sum      := product (("+" | "plus" | "-" | "minus") product)*
    product  := value (("*" | "times" | "multiplied by" | "multiplied with") value)*
    value    := head (die | "with advantage" | "with disadvantage")*
    head     := named die | primary ["sided" ("dice" | "die")] | "d" sides
    die      := named die | primary "sided" ("dice" | "die") | "d" sides
    sides    := named die | primary | "d" sides
    primary  := "(" sum ")" | critical hit | damage | integer

The alternatives are tried in this order and the first that matches is taken, so a name is read
before a "d", and "dagger" is never a die of "agger" sides. Advantage and disadvantage follow dice
only. A "d" before a lone die rolls that die for the number of sides.

A request is too large when parentheses and "d"s nest more than `maxNesting` deep, or when it has
more than `maxTerms` terms: each value is a term, and so is each die that a value counts. Terms
count where they are met, also on a way that is given up later.

- `read` reads a request, and `readDice` the dice text of a record.
-/

namespace SpokenDice.Request

open SpokenDice.Request.Parser (ofScanner)

/-- How deep parentheses and side counts may nest. -/
def maxNesting : Nat := 100

/-- No chain is longer than this: between two of its dice stands at most one phrase, and each of
its operands and dice is a term. -/
def maxChain : Nat := 2 * maxTerms + 1

/-- What can be read one level deeper. -/
structure Nested where
  /-- The sum inside parentheses. -/
  sum : Parser Expr
  /-- The side count after a "d". -/
  sides : Parser Expr

/-! ## Signs and phrases -/

/-- Reads the sign of a sum. -/
def additiveSign : Scanner BinaryOp :=
  (do sign '+'; pure .add) <|> (do keyword "plus"; pure .add)
    <|> (do sign '-'; pure .sub) <|> (do keyword "minus"; pure .sub)

/-- Reads the sign of a product. -/
def productSign : Scanner BinaryOp :=
  (do sign '*'; pure .mul) <|> (do keyword "times"; pure .mul)
    <|> (do keyword "multiplied"; keyword "by"; pure .mul)
    <|> (do keyword "multiplied"; keyword "with"; pure .mul)

/-- Reads the "d" of a die. -/
def dieLetter : Scanner Unit :=
  sign 'd' <|> sign 'D'

/-- Reads the phrase that makes a die of a number. -/
def sidedDie : Scanner Unit := do
  keyword "sided"
  keyword "dice" <|> keyword "die"

/-- Reads the phrase that follows dice, and rolls the dice with it. -/
def dicePhrase (dice : Expr) : Scanner Expr :=
  (do keyword "with"; keyword "advantage"; pure (.advantage dice))
    <|> (do keyword "with"; keyword "disadvantage"; pure (.disadvantage dice))

/-! ## Values -/

/-- Reads the sides of a die that goes by a name. -/
def namedDie (lexicon : Lexicon) : Scanner Expr := do
  let name ← nameAmong lexicon.namedDice
  pure (.namedDie name)

/-- Reads the damage of a weapon or spell, as a group. -/
def damageGroup (lexicon : Lexicon) : Scanner Expr := do
  let inner ← damage lexicon
  pure (.group inner)

/-- Reads a number. -/
def number : Scanner Expr := do
  let n ← integer
  pure (.integer n)

/-- Reads a sum in parentheses. -/
def parenthesized (nested : Nested) : Parser Expr := do
  ofScanner (sign '(')
  let inner ← nested.sum
  ofScanner (sign ')')
  pure (.group inner)

/-- Reads a value that is no die. -/
def primary (lexicon : Lexicon) (nested : Nested) : Parser Expr :=
  parenthesized nested <|> ofScanner (criticalHit lexicon) <|> ofScanner (damageGroup lexicon)
    <|> ofScanner number

/-- Reads the side count after a "d". -/
def sides (lexicon : Lexicon) (nested : Nested) : Parser Expr :=
  (do let sides ← ofScanner (namedDie lexicon); pure (.rollOne sides))
    <|> primary lexicon nested
    <|> (do ofScanner dieLetter; let sides ← nested.sides; pure (.rollOne sides))

/-- Reads a die and gives its side count. -/
def die (lexicon : Lexicon) (nested : Nested) : Parser Expr :=
  ofScanner (namedDie lexicon)
    <|> (do let sides ← primary lexicon nested; ofScanner sidedDie; pure sides)
    <|> (do ofScanner dieLetter; nested.sides)

/-- Reads the head of a value: a lone die or a value that is no die. -/
def head (lexicon : Lexicon) (nested : Nested) : Parser Expr :=
  (do let sides ← ofScanner (namedDie lexicon); pure (.rollOne sides))
    <|> (do
      let value ← primary lexicon nested
      match ← (ofScanner sidedDie).optional with
      | none => pure value
      | some () => pure (.rollOne value))
    <|> (do ofScanner dieLetter; let sides ← nested.sides; pure (.rollOne sides))

/-- Reads what goes on with a value: a die that it counts, or a phrase that follows dice. -/
def continuation (lexicon : Lexicon) (nested : Nested) (value : Expr) : Parser (Option Expr) :=
  (do
    let sides ← die lexicon nested
    Parser.term
    pure (some (.roll value sides)))
    <|> if value.isDice then (ofScanner (dicePhrase value)).optional else pure none

/-- Reads a value. -/
def value (lexicon : Lexicon) (nested : Nested) : Parser Expr := do
  Parser.term
  let value ← head lexicon nested
  Parser.repeatStep (continuation lexicon nested) maxChain value

/-! ## Chains -/

/-- Reads what goes on with a chain of operands: a sign and one more operand. -/
def link (operand : Parser Expr) (operator : Scanner BinaryOp) (left : Expr) :
    Parser (Option Expr) := do
  match ← (ofScanner operator).optional with
  | none => pure none
  | some op => do
    let right ← operand
    pure (some (.binary op left right))

/-- Reads a chain of operands, which groups to the left. -/
def chain (operand : Parser Expr) (operator : Scanner BinaryOp) : Parser Expr := do
  let first ← operand
  Parser.repeatStep (link operand operator) maxChain first

/-- Reads a product. -/
def product (lexicon : Lexicon) (nested : Nested) : Parser Expr :=
  chain (value lexicon nested) productSign

/-- Reads a sum. -/
def sum (lexicon : Lexicon) (nested : Nested) : Parser Expr :=
  chain (product lexicon nested) additiveSign

/-! ## Whole requests -/

/-- What can be read one level deeper, when `levels` levels may still be entered. -/
def nestedWithin (lexicon : Lexicon) : Nat → Nested
  | 0 => ⟨Parser.tooLarge, Parser.tooLarge⟩
  | levels + 1 =>
    let deeper := nestedWithin lexicon levels
    ⟨sum lexicon deeper, sides lexicon deeper⟩

/-- Makes a reading of a whole text. -/
def readingOf (lexicon : Lexicon) (text : List Char) : Reading Expr :=
  sum lexicon (nestedWithin lexicon maxNesting) text 0

/-- Reads a text to its end; a text that is no request fails as told. -/
def readOr (otherwise : RollError) (lexicon : Lexicon) (text : String) : Except RollError Expr :=
  match readingOf lexicon text.toList with
  | .parsed e rest _ => if skipSeparators rest = [] then .ok e else .error otherwise
  | .unmatched _ => .error otherwise
  | .tooLarge => .error .tooLarge

/-- Reads a request. -/
def read (lexicon : Lexicon) (text : String) : Except RollError Expr :=
  readOr .notUnderstood lexicon text

/-- Reads the dice text of a record. -/
def readDice (lexicon : Lexicon) (text : String) : Except RollError Expr :=
  readOr (.diceNotUnderstood text) lexicon text

end SpokenDice.Request
