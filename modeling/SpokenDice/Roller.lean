import SpokenDice.Dice.Evaluate
import SpokenDice.Expr.Modifier
import SpokenDice.Expr.Simplify
import SpokenDice.Limits.Basic
import SpokenDice.Outcome
import SpokenDice.Ruleset.Resolve
import SpokenDice.Ruleset.Standard

/-!
# Rollers

A roller has a ruleset and limits. It reads a request, compiles it by passes into literals,
arithmetic and rolls, and rolls the dice.
-/

namespace SpokenDice

/-- What explains the names of requests, and what requests may cost. -/
structure Roller where
  ruleset : Ruleset
  limits : Limits

/-- The passes over an expression. -/
inductive Pass where
  /-- Numbers and named dice become literals. -/
  | numbers
  /-- Weapons and spells become the dice of their records. -/
  | references
  /-- Dice get one form. -/
  | simplify
  /-- Critical hits, advantage and disadvantage change the dice below them. -/
  | modifiers
  deriving DecidableEq

/-- The outcome of rolling an expression, and the dice that are left. -/
def Expr.rollWith {δ : Type} [DiceSource δ] (e : Expr) (limit : UInt64) (dice : δ) :
    Except RollError Outcome × δ :=
  match e.evaluate limit ⟨dice, #[]⟩ with
  | (.ok total, tray) => (.ok ⟨total, tray.faces.toList⟩, tray.dice)
  | (.error cause, tray) => (.error cause, tray.dice)

namespace Roller

/-- The roller of the standard ruleset and the default limits. -/
def standard : Roller :=
  ⟨.standard, {}⟩

/-- Reads a request. -/
def read (roller : Roller) (text : String) : Except RollError Expr :=
  Request.read (Request.Lexicon.ofRuleset roller.ruleset) text

/-- Runs one pass. -/
def runPass (roller : Roller) : Pass → Expr → Except RollError Expr
  | .numbers, e => roller.ruleset.resolveNumbers e
  | .references, e =>
    roller.ruleset.resolveReferences roller.limits.spellLevel roller.limits.expansionDepth.toNat e
  | .simplify, e => pure e.simplify
  | .modifiers, e => e.withoutModifiers

/-- The passes that compile a request, in order. Dice get one form before the modifiers change
them, and once more after. -/
def passes : List Pass :=
  [.numbers, .references, .simplify, .modifiers, .simplify]

/-- Reads a request and compiles it. -/
def compile (roller : Roller) (text : String) : Except RollError Expr := do
  let e ← roller.read text
  passes.foldlM (fun e pass => roller.runPass pass e) e

/-- Rolls a request, and gives the dice that are left. -/
def roll {δ : Type} [DiceSource δ] (roller : Roller) (text : String) (dice : δ) :
    Except RollError Outcome × δ :=
  match roller.compile text with
  | .ok e => e.rollWith roller.limits.diceCount dice
  | .error cause => (.error cause, dice)

end Roller

end SpokenDice
