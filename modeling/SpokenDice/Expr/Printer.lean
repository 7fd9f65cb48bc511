import SpokenDice.Expr.Basic

/-!
# The text of an expression

`Expr.text` writes an expression on one line, with as few parentheses as keep its shape: an
operand gets them when it binds less tightly than its place demands. Names of weapons, spells and
dice may hold several words, so they bind as loosely as a sum and stand in parentheses wherever
something would be glued to them.
-/

namespace SpokenDice

/-- How tightly the text of an expression holds together, from the loosest to the tightest. -/
inductive Tightness where
  | sum
  | product
  | dice
  | closed
  deriving DecidableEq

/-- The place of a tightness in their order. -/
def Tightness.rank : Tightness → Nat
  | .sum => 0
  | .product => 1
  | .dice => 2
  | .closed => 3

namespace BinaryOp

/-- Whether the operation is written in front of its operands, as a call. -/
def isCall : BinaryOp → Bool
  | .max => true
  | .min => true
  | _ => false

/-- The sign of an operation. -/
def symbol : BinaryOp → String
  | .add => "+"
  | .sub => "-"
  | .mul => "*"
  | .max => "max"
  | .min => "min"

/-- How tightly the text of an operation holds together. -/
def tightness : BinaryOp → Tightness
  | .add => .sum
  | .sub => .sum
  | .mul => .product
  | .max => .closed
  | .min => .closed

end BinaryOp

namespace Expr

/-- How tightly the text of an expression holds together. -/
def tightness : Expr → Tightness
  | .binary op _ _ => op.tightness
  | .rollOne _ => .dice
  | .roll _ _ => .dice
  | .weapon _ => .sum
  | .spell _ => .sum
  | .spellAt _ _ => .sum
  | .namedDie _ => .sum
  | _ => .closed

/-- Puts parentheses around a text when they are needed. -/
def parenthesize (needed : Bool) (text : String) : String :=
  if needed then "(" ++ text ++ ")" else text

/-- Whether an operand needs parentheses where at least the tightness `least` is demanded. -/
def looserThan (e : Expr) (least : Tightness) : Bool :=
  decide (e.tightness.rank < least.rank)

/-- Whether an operand needs parentheses where more than the tightness `bound` is demanded, as to
the right of an operator that groups to the left. -/
def noTighterThan (e : Expr) (bound : Tightness) : Bool :=
  decide (e.tightness.rank ≤ bound.rank)

/-- The text of an expression. -/
def text : Expr → String
  | .integer n => decimal n.toInt
  | .namedDie name => name
  | .literal n => decimal n.toInt
  | .binary op left right =>
    if op.isCall then op.symbol ++ "(" ++ left.text ++ "," ++ right.text ++ ")"
    else parenthesize (left.looserThan op.tightness) left.text ++ op.symbol
      ++ parenthesize (right.noTighterThan op.tightness) right.text
  | .rollOne sides => "d" ++ parenthesize (sides.looserThan .closed) sides.text
  | .roll count sides =>
    parenthesize (count.looserThan .closed) count.text ++ "d"
      ++ parenthesize (sides.looserThan .closed) sides.text
  | .critical inner => "critical(" ++ inner.text ++ ")"
  | .advantage inner => "advantage(" ++ inner.text ++ ")"
  | .disadvantage inner => "disadvantage(" ++ inner.text ++ ")"
  | .weapon name => name
  | .spell name => name
  | .spellAt name level => name ++ " at level " ++ level.text
  | .group inner => "(" ++ inner.text ++ ")"

end Expr

end SpokenDice
