import SpokenDice.Integer

/-!
# Dice expressions

An expression is what a request for dice means: numbers, dice, arithmetic, and names that a
ruleset explains. A tree that was just read holds names and numbers as they were spoken; the
passes of `Roller` turn it into literals, arithmetic and rolls.

- `nodeCount` and `postorder`: the size of a tree, and its nodes from the leaves up.
- `mapNodes` and `mapNodesM`: change every node, from the leaves up; the second may fail or count.
- `length_postorder`: the two views of size agree.
- `run_mapNodesM_note`: a change visits every node once, in the order of `postorder`.
-/

namespace SpokenDice

/-- The arithmetic between two values. -/
inductive BinaryOp where
  | add
  | sub
  | mul
  | max
  | min
  deriving DecidableEq

namespace BinaryOp

/-- The operation on unbounded integers. -/
def exact : BinaryOp → Int → Int → Int
  | .add, a, b => a + b
  | .sub, a, b => a - b
  | .mul, a, b => a * b
  | .max, a, b => Max.max a b
  | .min, a, b => Min.min a b

/-- The operation on integers of 64 bits, where results saturate. -/
def apply (op : BinaryOp) (a b : Int64) : Int64 :=
  saturate (op.exact a.toInt b.toInt)

theorem toInt_apply_of_inRange {op : BinaryOp} {a b : Int64}
    (h : InRange (op.exact a.toInt b.toInt)) : (op.apply a b).toInt = op.exact a.toInt b.toInt :=
  toInt_saturate_of_inRange h

end BinaryOp

/-- A dice expression. -/
inductive Expr where
  /-- A number as it was spoken. -/
  | integer (value : Int64)
  /-- The side count of a die that goes by a name. -/
  | namedDie (name : String)
  /-- A number that takes part in the roll. -/
  | literal (value : Int64)
  /-- Arithmetic between two values. -/
  | binary (op : BinaryOp) (left right : Expr)
  /-- A lone die. -/
  | rollOne (sides : Expr)
  /-- As many dice of one kind as `count` says. -/
  | roll (count sides : Expr)
  /-- A critical hit, which doubles the dice. -/
  | critical (inner : Expr)
  /-- The better of two rolls. -/
  | advantage (inner : Expr)
  /-- The worse of two rolls. -/
  | disadvantage (inner : Expr)
  /-- The damage of a weapon. -/
  | weapon (name : String)
  /-- The damage of a spell, cast at its own level. -/
  | spell (name : String)
  /-- The damage of a spell, cast at a stated level. -/
  | spellAt (name : String) (level : Expr)
  /-- A group, which keeps together what was said together. -/
  | group (inner : Expr)
  deriving DecidableEq

namespace Expr

/-- A literal 0 stands in a place whose tree was taken away. -/
instance : Inhabited Expr := ⟨.literal 0⟩

/-- Whether the node rolls dice, which advantage and disadvantage may follow. -/
def isDice : Expr → Bool
  | .rollOne _ => true
  | .roll _ _ => true
  | _ => false

/-- The number of nodes of the tree. -/
def nodeCount : Expr → Nat
  | .integer _ => 1
  | .namedDie _ => 1
  | .literal _ => 1
  | .binary _ left right => left.nodeCount + right.nodeCount + 1
  | .rollOne sides => sides.nodeCount + 1
  | .roll count sides => count.nodeCount + sides.nodeCount + 1
  | .critical inner => inner.nodeCount + 1
  | .advantage inner => inner.nodeCount + 1
  | .disadvantage inner => inner.nodeCount + 1
  | .weapon _ => 1
  | .spell _ => 1
  | .spellAt _ level => level.nodeCount + 1
  | .group inner => inner.nodeCount + 1

/-- The nodes of the tree from the leaves up: first the children, from left to right, each with
all that is below it, then the node. -/
def postorder : Expr → List Expr
  | .integer n => [.integer n]
  | .namedDie name => [.namedDie name]
  | .literal n => [.literal n]
  | .binary op left right => left.postorder ++ right.postorder ++ [.binary op left right]
  | .rollOne sides => sides.postorder ++ [.rollOne sides]
  | .roll count sides => count.postorder ++ sides.postorder ++ [.roll count sides]
  | .critical inner => inner.postorder ++ [.critical inner]
  | .advantage inner => inner.postorder ++ [.advantage inner]
  | .disadvantage inner => inner.postorder ++ [.disadvantage inner]
  | .weapon name => [.weapon name]
  | .spell name => [.spell name]
  | .spellAt name level => level.postorder ++ [.spellAt name level]
  | .group inner => inner.postorder ++ [.group inner]

@[simp] theorem length_postorder (e : Expr) : e.postorder.length = e.nodeCount := by
  induction e <;> simp_all [postorder, nodeCount, Nat.add_assoc]

theorem nodeCount_pos (e : Expr) : 0 < e.nodeCount := by
  cases e <;> simp [nodeCount]

/-! ## Changing every node -/

/-- Applies `f` to every node, from the leaves up: a node is visited after its children. -/
def mapNodes (f : Expr → Expr) : Expr → Expr
  | .integer n => f (.integer n)
  | .namedDie name => f (.namedDie name)
  | .literal n => f (.literal n)
  | .binary op left right => f (.binary op (left.mapNodes f) (right.mapNodes f))
  | .rollOne sides => f (.rollOne (sides.mapNodes f))
  | .roll count sides => f (.roll (count.mapNodes f) (sides.mapNodes f))
  | .critical inner => f (.critical (inner.mapNodes f))
  | .advantage inner => f (.advantage (inner.mapNodes f))
  | .disadvantage inner => f (.disadvantage (inner.mapNodes f))
  | .weapon name => f (.weapon name)
  | .spell name => f (.spell name)
  | .spellAt name level => f (.spellAt name (level.mapNodes f))
  | .group inner => f (.group (inner.mapNodes f))

variable {m : Type → Type} [Monad m]

/-- Applies `f` to every node in the order of `postorder`, with the effects of `m`. -/
def mapNodesM (f : Expr → m Expr) : Expr → m Expr
  | .integer n => f (.integer n)
  | .namedDie name => f (.namedDie name)
  | .literal n => f (.literal n)
  | .binary op left right => do
    let left ← left.mapNodesM f
    let right ← right.mapNodesM f
    f (.binary op left right)
  | .rollOne sides => do
    let sides ← sides.mapNodesM f
    f (.rollOne sides)
  | .roll count sides => do
    let count ← count.mapNodesM f
    let sides ← sides.mapNodesM f
    f (.roll count sides)
  | .critical inner => do
    let inner ← inner.mapNodesM f
    f (.critical inner)
  | .advantage inner => do
    let inner ← inner.mapNodesM f
    f (.advantage inner)
  | .disadvantage inner => do
    let inner ← inner.mapNodesM f
    f (.disadvantage inner)
  | .weapon name => f (.weapon name)
  | .spell name => f (.spell name)
  | .spellAt name level => do
    let level ← level.mapNodesM f
    f (.spellAt name level)
  | .group inner => do
    let inner ← inner.mapNodesM f
    f (.group inner)

/-- Notes a node and leaves it as it is. -/
def note (node : Expr) : StateM (List Expr) Expr := do
  modify (· ++ [node])
  pure node

/-- Every node is visited once, in the order of `postorder`. -/
theorem run_mapNodesM_note (e : Expr) (seen : List Expr) :
    ((e.mapNodesM note).run seen).run = (e, seen ++ e.postorder) := by
  induction e generalizing seen <;> simp_all [mapNodesM, postorder, note]

/-- A change without effects changes the tree as `mapNodes` does. -/
theorem mapNodesM_pure [LawfulMonad m] (f : Expr → Expr) (e : Expr) :
    e.mapNodesM (fun node => (pure (f node) : m Expr)) = pure (e.mapNodes f) := by
  induction e <;> simp_all [mapNodesM, mapNodes]

end Expr

end SpokenDice
