import SpokenDice.Integer
import SpokenDice.Expr.Basic
import SpokenDice.Expr.Printer
import SpokenDice.Expr.Simplify
import SpokenDice.Expr.Modifier
import SpokenDice.Dice.Source
import SpokenDice.Dice.Evaluate
import SpokenDice.Ruleset.Standard
import SpokenDice.Ruleset.Resolve
import SpokenDice.Ruleset.Json
import SpokenDice.Request.Lexicon
import SpokenDice.Request.Parser
import SpokenDice.Limits.Json
import SpokenDice.Outcome
import SpokenDice.Roller
import SpokenDice.Command
import SpokenDice.Main
import SpokenDice.Proofs.Failure
import SpokenDice.Proofs.Saturation
import SpokenDice.Proofs.Expr.Nodes
import SpokenDice.Proofs.Expr.Simplify
import SpokenDice.Proofs.Expr.Modifiers
import SpokenDice.Proofs.Expr.Counts
import SpokenDice.Proofs.Expr.Pools
import SpokenDice.Proofs.Expr.NormalForm
import SpokenDice.Proofs.Request.Yields
import SpokenDice.Proofs.Request.Grammar
import SpokenDice.Proofs.Request.Shape
import SpokenDice.Proofs.Ruleset.Resolution
import SpokenDice.Proofs.Dice.Evaluate
import SpokenDice.Proofs.Dice.Lawful
import SpokenDice.Proofs.Dice.Simplify
import SpokenDice.Proofs.Dice.Modifiers
import SpokenDice.Proofs.Roller.Compile
import SpokenDice.Proofs.Roller.EmptyPools
import SpokenDice.Proofs.Ruleset.References
import SpokenDice.Proofs.Ruleset.Limits
import SpokenDice.Proofs.Ruleset.Depth
import SpokenDice.Proofs.Roller.Limits
import SpokenDice.Proofs.Expr.Doubling
import SpokenDice.Proofs.Roller.Critical
import SpokenDice.Proofs.Request.DiceText
import SpokenDice.Proofs.Dice.Draw
import SpokenDice.Proofs.Roller.Scaling
import SpokenDice.Proofs.Expr.Names
import SpokenDice.Proofs.Request.Agreement
import SpokenDice.Proofs.Request.Numbers
import SpokenDice.Proofs.Request.LetterCase
import SpokenDice.Proofs.Ruleset.Names
import SpokenDice.Proofs.Roller.LetterCase
import SpokenDice.Proofs.Expr.Brackets
import SpokenDice.Proofs.Request.Printed
import SpokenDice.Proofs.Dice.Accounting
import SpokenDice.Proofs.Dice.SharedSides
import SpokenDice.Proofs.Request.Lexicons
import SpokenDice.Proofs.Ruleset.Agreement
import SpokenDice.Proofs.Roller.TableOrder
import SpokenDice.Proofs.Roller.Unmentioned
import SpokenDice.Proofs.Roller.WeaponDamage
import SpokenDice.Proofs.Request.Openings
import SpokenDice.Proofs.Request.Postconditions
import SpokenDice.Proofs.Request.Budget
import SpokenDice.Proofs.Expr.Copies
import SpokenDice.Proofs.Dice.Replay
import SpokenDice.Proofs.Request.Size
import SpokenDice.Proofs.Request.Closing
import SpokenDice.Proofs.Request.Surroundings
import SpokenDice.Proofs.Request.Terms
import SpokenDice.Proofs.Request.Composition
import SpokenDice.Proofs.Dice.BetterFaces
import SpokenDice.Proofs.Ruleset.DicePattern
import SpokenDice.Proofs.Request.FoundDice
import SpokenDice.Proofs.Request.Endings
import SpokenDice.Proofs.Request.CriticalHits
import SpokenDice.Proofs.Request.SpellLevels
import SpokenDice.Proofs.Dice.Limit
import SpokenDice.Proofs.Request.OuterSeparators
import SpokenDice.Proofs.Narration
import SpokenDice.Proofs.Request.LongestNames
