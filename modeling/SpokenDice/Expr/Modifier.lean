import SpokenDice.Error

/-!
# Critical hits, advantage and disadvantage

These three stand around an expression and change the dice below them. A critical hit doubles the
count of every roll and leaves all else as it is. Advantage turns every roll into the better of
two rolls, disadvantage into the worse of two; such a copy repeats all that is below the roll, so
that nested ones multiply the tree. A budget bounds the nodes that are copied: a copy that does
not fit fails and takes nothing from it.

- `double` doubles the dice of an expression.
- `duplicate` rolls everything twice, within the budget.
- `applyModifiers` removes the three from an expression, the innermost first.
-/

namespace SpokenDice.Expr

/-- The node with the count of its own dice doubled. -/
def doubleNode : Expr → Expr
  | .roll (.literal n) sides => .roll (.literal (BinaryOp.mul.apply 2 n)) sides
  | .roll count sides => .roll (.binary .mul (.literal 2) count) sides
  | .rollOne sides => .roll (.literal 2) sides
  | e => e

/-- The expression with all its dice doubled. -/
def double (e : Expr) : Expr :=
  e.mapNodes doubleNode

/-- A computation that copies nodes: it may fail, and what it has copied until then is taken from
the budget. -/
abbrev Copying := ExceptT RollError (StateM Nat)

/-- How many nodes advantage and disadvantage may copy. -/
def copyBudget : Nat := 100000

/-- Takes `n` nodes from the budget. -/
def spend (n : Nat) : Copying Unit := do
  let budget ← get
  if n ≤ budget then set (budget - n) else throw .tooManyCopies

/-- What fits the budget is taken from it, and what does not fit leaves it as it is. -/
theorem spend_apply (n budget : Nat) :
    spend n budget =
      if n ≤ budget then (.ok (), budget - n) else (.error .tooManyCopies, budget) := by
  by_cases h : n ≤ budget
  · simp only [if_pos h]
    show (if n ≤ budget then _ else _ : Copying Unit) budget = _
    rw [if_pos h]
    rfl
  · simp only [if_neg h]
    show (if n ≤ budget then _ else _ : Copying Unit) budget = _
    rw [if_neg h]
    rfl

/-- Rolls the dice of a node twice and combines the two rolls. -/
def duplicateNode (op : BinaryOp) (e : Expr) : Copying Expr :=
  if e.isDice then do
    spend e.nodeCount
    pure (.binary op e e)
  else pure e

/-- Rolls all dice of an expression twice and combines each two rolls. -/
def duplicate (op : BinaryOp) (e : Expr) : Copying Expr :=
  e.mapNodesM (duplicateNode op)

/-- Removes a modifier whose inner expression holds none. -/
def applyModifier : Expr → Copying Expr
  | .critical inner => pure inner.double
  | .advantage inner => inner.duplicate .max
  | .disadvantage inner => inner.duplicate .min
  | e => pure e

/-- Removes all modifiers of an expression, the innermost first. -/
def applyModifiers (e : Expr) : Copying Expr :=
  e.mapNodesM applyModifier

/-- Removes all modifiers of an expression, within a budget of its own. -/
def withoutModifiers (e : Expr) : Except RollError Expr :=
  (e.applyModifiers.run copyBudget).1

end SpokenDice.Expr
