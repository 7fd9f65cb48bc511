import SpokenDice.Expr.Basic

/-!
# Simplification

Simplification brings dice into one form: groups vanish, a lone die becomes one die of its kind,
and two rolls of the same kind that are added up become one roll, when both counts are known. The
nodes are visited from the leaves up, so that a chain such as `d6 + d6 + 2d6` becomes `4d6`.
-/

namespace SpokenDice.Expr

/-- The simpler form of a node whose children are simple. -/
def simplifyNode : Expr → Expr
  | .group inner => inner
  | .rollOne sides => .roll (.literal 1) sides
  | .binary .add (.roll (.literal a) s) (.roll (.literal b) t) =>
    if s = t then .roll (.literal (BinaryOp.add.apply a b)) s
    else .binary .add (.roll (.literal a) s) (.roll (.literal b) t)
  | e => e

/-- The expression with its dice in one form. -/
def simplify (e : Expr) : Expr :=
  e.mapNodes simplifyNode

@[simp] theorem simplify_literal (n : Int64) : (literal n).simplify = .literal n := rfl

@[simp] theorem simplify_group (e : Expr) : (group e).simplify = e.simplify := rfl

@[simp] theorem simplify_rollOne (sides : Expr) :
    (rollOne sides).simplify = .roll (.literal 1) sides.simplify := rfl

@[simp] theorem simplify_roll (count sides : Expr) :
    (roll count sides).simplify = .roll count.simplify sides.simplify := rfl

/-- Two rolls of the same kind become one. -/
theorem simplify_add_rolls {a b : Int64} {s t : Expr} (h : s.simplify = t.simplify) :
    (binary .add (.roll (.literal a) s) (.roll (.literal b) t)).simplify =
      .roll (.literal (BinaryOp.add.apply a b)) s.simplify := by
  simp [simplify, mapNodes, simplifyNode] at h ⊢
  simp [h]

end SpokenDice.Expr
