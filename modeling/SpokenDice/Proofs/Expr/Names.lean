import SpokenDice.Proofs.Expr.Nodes

/-!
# Names in expressions

The names of an expression are the only texts in it. `mapNames` changes them and nothing else, so
that two expressions which differ in their names alone become equal under it.

- `mapNames` and its equations.
- `mapNodesM_mapNames`: a traversal sees the changed names, and nothing else is new to it.
-/

namespace SpokenDice.Expr

/-- The node with its name changed. -/
def mapName (f : String → String) : Expr → Expr
  | .namedDie name => .namedDie (f name)
  | .weapon name => .weapon (f name)
  | .spell name => .spell (f name)
  | .spellAt name level => .spellAt (f name) level
  | node => node

/-- The expression with its names changed. -/
def mapNames (f : String → String) (e : Expr) : Expr :=
  e.mapNodes (mapName f)

variable (f : String → String)

@[simp] theorem mapNames_integer (n : Int64) : (integer n).mapNames f = .integer n := rfl

@[simp] theorem mapNames_namedDie (name : String) :
    (namedDie name).mapNames f = .namedDie (f name) := rfl

@[simp] theorem mapNames_binary (op : BinaryOp) (l r : Expr) :
    (binary op l r).mapNames f = .binary op (l.mapNames f) (r.mapNames f) := rfl

@[simp] theorem mapNames_rollOne (s : Expr) : (rollOne s).mapNames f = .rollOne (s.mapNames f) :=
  rfl

@[simp] theorem mapNames_roll (c s : Expr) :
    (roll c s).mapNames f = .roll (c.mapNames f) (s.mapNames f) := rfl

@[simp] theorem mapNames_critical (e : Expr) : (critical e).mapNames f = .critical (e.mapNames f) :=
  rfl

@[simp] theorem mapNames_advantage (e : Expr) :
    (advantage e).mapNames f = .advantage (e.mapNames f) := rfl

@[simp] theorem mapNames_disadvantage (e : Expr) :
    (disadvantage e).mapNames f = .disadvantage (e.mapNames f) := rfl

@[simp] theorem mapNames_weapon (name : String) : (weapon name).mapNames f = .weapon (f name) := rfl

@[simp] theorem mapNames_spell (name : String) : (spell name).mapNames f = .spell (f name) := rfl

@[simp] theorem mapNames_spellAt (name : String) (level : Expr) :
    (spellAt name level).mapNames f = .spellAt (f name) (level.mapNames f) := rfl

@[simp] theorem mapNames_group (e : Expr) : (group e).mapNames f = .group (e.mapNames f) := rfl

@[simp] theorem isDice_mapNames (e : Expr) : (e.mapNames f).isDice = e.isDice := by
  cases e <;> rfl

/-- Two expressions that differ in their names alone, and there only in what the change drops. -/
def SameUpTo (a b : Expr) : Prop :=
  a.mapNames f = b.mapNames f

/-- A traversal of an expression with changed names visits the same nodes with changed names. -/
theorem mapNodesM_mapNames {m : Type → Type} [Monad m] (g : Expr → m Expr) (e : Expr) :
    (e.mapNames f).mapNodesM g = e.mapNodesM fun node => g (node.mapName f) := by
  induction e with
  | integer | namedDie | literal | weapon | spell => rfl
  | binary op l r ihl ihr =>
    rw [mapNames_binary, mapNodesM, ihl, ihr]
    rfl
  | roll c s ihc ihs =>
    rw [mapNames_roll, mapNodesM, ihc, ihs]
    rfl
  | rollOne s ih | critical s ih | advantage s ih | disadvantage s ih | group s ih =>
    show (s.mapNames f).mapNodesM g >>= _ = _
    rw [ih]
    rfl
  | spellAt name level ih =>
    rw [mapNames_spellAt, mapNodesM, ih]
    rfl

end SpokenDice.Expr
