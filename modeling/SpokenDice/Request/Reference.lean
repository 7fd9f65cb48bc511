import SpokenDice.Expr.Basic
import SpokenDice.Request.Lexicon

/-!
# Weapons, spells and critical hits in a request

A weapon is named, and so is a spell, whose level may stand after it ("Fireball at level 5",
"Fireball at 5th level", "Fireball 5th level") or before it ("level 5 Fireball",
"5th level Fireball"). A critical hit is the word "critical", some of the words "to hit with a" in
this order, and a weapon or spell. Of a weapon and a spell the one with the longer name is meant,
and of equally long names the weapon.
-/

namespace SpokenDice.Request

/-- Reads the ending of an ordinal number. -/
def ordinal : Scanner Unit :=
  keyword "st" <|> keyword "nd" <|> keyword "rd" <|> keyword "th"

/-- Reads an ordinal number of levels: "5th level". -/
def ordinalLevel : Scanner Int64 := do
  let level ← integer
  ordinal
  keyword "level"
  pure level

/-- Reads a numbered level: "level 5". -/
def numberedLevel : Scanner Int64 := do
  keyword "level"
  integer

/-- Reads the level of a spell that was named before. -/
def levelAfter : Scanner Int64 :=
  (do keyword "at"; numberedLevel) <|> (do let _ ← optional (keyword "at"); ordinalLevel)

/-- Reads the level of a spell that is named after it. -/
def levelBefore : Scanner Int64 :=
  numberedLevel <|> ordinalLevel

/-- Reads a spell whose level stands before it. -/
def levelledSpell (lexicon : Lexicon) : Scanner Expr := do
  let level ← levelBefore
  let name ← nameAmong lexicon.spells
  pure (.spellAt name (.integer level))

/-- Reads a weapon whose name has `n` characters. -/
def weaponOfLength (n : Nat) : Scanner Expr := do
  let name ← nameOfLength n
  pure (.weapon name)

/-- Reads a spell whose name has `n` characters, and its level if it has one. -/
def spellOfLength (n : Nat) : Scanner Expr := do
  let name ← nameOfLength n
  match ← optional levelAfter with
  | none => pure (.spell name)
  | some level => pure (.spellAt name (.integer level))

/-- Reads a weapon, or a spell that begins with its name. -/
def namedDamage (lexicon : Lexicon) : Scanner Expr := do
  separators
  let text ← get
  match longestName lexicon.weapons text, longestName lexicon.spells text with
  | none, none => failure
  | some w, none => weaponOfLength w
  | none, some s => spellOfLength s
  | some w, some s => if s ≤ w then weaponOfLength w else spellOfLength s

/-- Reads a weapon or a spell. -/
def damage (lexicon : Lexicon) : Scanner Expr :=
  levelledSpell lexicon <|> namedDamage lexicon

/-- Reads a critical hit. -/
def criticalHit (lexicon : Lexicon) : Scanner Expr := do
  keyword "critical"
  let _ ← optional (keyword "to")
  let _ ← optional (keyword "hit")
  let _ ← optional (keyword "with")
  let _ ← optional (keyword "a")
  let inner ← damage lexicon
  pure (.critical inner)

end SpokenDice.Request
