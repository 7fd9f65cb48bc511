import SpokenDice.Expr.Modifier
import SpokenDice.Proofs.Expr.Nodes

/-!
# Expressions without modifiers

The budget decides whether the modifiers of an expression can be removed, and not what becomes of
the expression then. `unmodified` says that apart from the budget, as a pure change of nodes.

- `withoutModifiers_eq`: the modifiers are removed, or the copies are too many.
- `unmodified_eq_self` and `withoutModifiers_eq_self`: an expression without modifiers stays as it
  is.
- `avoids_unmodified`: modifiers are gone, and nothing comes in but dice, literals and arithmetic.
-/

namespace SpokenDice.Expr

/-- Rolls the dice of a node twice and combines the two rolls, whatever that copies. -/
def twiceNode (op : BinaryOp) (e : Expr) : Expr :=
  if e.isDice then .binary op e e else e

/-- The expression with all its dice rolled twice. -/
def twice (op : BinaryOp) (e : Expr) : Expr :=
  e.mapNodes (twiceNode op)

/-- The node without the modifier that it may be. -/
def unmodifiedNode : Expr → Expr
  | .critical inner => inner.double
  | .advantage inner => inner.twice .max
  | .disadvantage inner => inner.twice .min
  | e => e

/-- The expression without its modifiers, the innermost removed first. -/
def unmodified (e : Expr) : Expr :=
  e.mapNodes unmodifiedNode

/-- Where there are no modifiers, none is removed. -/
theorem unmodified_eq_self {e : Expr} (h : e.Avoids [.modifier]) : e.unmodified = e := by
  revert h
  refine mapNodes_rel (R := fun a b => a.Avoids [.modifier] → b = a) (fun e node hnode he => ?_) e
  obtain rfl := hnode.eq_self he
  cases node with
  | critical | advantage | disadvantage => simp [Avoids, kind] at he
  | _ => rfl

/-! ## The budget -/

/-- Copying gives this expression, unless it copies too much. -/
def Gives (x : Copying Expr) (e : Expr) : Prop :=
  ∀ budget, ∃ left, x budget = (.ok e, left) ∨ x budget = (.error .tooManyCopies, left)

theorem gives_pure (e : Expr) : Gives (pure e) e :=
  fun budget => ⟨budget, .inl rfl⟩

theorem Gives.bind {x : Copying Expr} {a : Expr} {next : Expr → Copying Expr} {b : Expr}
    (hx : Gives x a) (hnext : Gives (next a) b) : Gives (x >>= next) b := by
  intro budget
  rw [run_bind]
  obtain ⟨left, h | h⟩ := hx budget
  · rw [h]
    exact hnext left
  · rw [h]
    exact ⟨left, .inr rfl⟩

theorem duplicateNode_gives (op : BinaryOp) (e : Expr) :
    Gives (duplicateNode op e) (e.twiceNode op) := by
  rw [duplicateNode, twiceNode]
  by_cases hdice : e.isDice = true
  · -- The copy is made when it fits the budget, and nothing else can fail.
    rw [if_pos hdice, if_pos hdice]
    intro budget
    rw [run_bind, spend_apply]
    by_cases hfits : e.nodeCount ≤ budget
    · rw [if_pos hfits]
      exact ⟨_, .inl rfl⟩
    · rw [if_neg hfits]
      exact ⟨_, .inr rfl⟩
  · rw [if_neg hdice, if_neg hdice]
    exact gives_pure e

theorem duplicate_gives (op : BinaryOp) (e : Expr) : Gives (e.duplicate op) (e.twice op) :=
  mapNodesM_agrees Gives.bind (duplicateNode_gives op) e

theorem applyModifier_gives (e : Expr) : Gives e.applyModifier e.unmodifiedNode := by
  cases e with
  | advantage inner => exact duplicate_gives .max inner
  | disadvantage inner => exact duplicate_gives .min inner
  | _ => exact gives_pure _

/-- Removing the modifiers gives the expression without them, or copies too much. -/
theorem withoutModifiers_eq (e : Expr) :
    e.withoutModifiers = .ok e.unmodified ∨ e.withoutModifiers = .error .tooManyCopies := by
  obtain ⟨left, h | h⟩ := mapNodesM_agrees Gives.bind applyModifier_gives e copyBudget
  · exact .inl (congrArg Prod.fst h)
  · exact .inr (congrArg Prod.fst h)

/-- Where there are no modifiers, nothing is copied. -/
theorem applyModifiers_eq_pure {e : Expr} (h : e.Avoids [.modifier]) :
    e.applyModifiers = pure e := by
  induction e with
  | critical | advantage | disadvantage => simp [Avoids, kind] at h
  | _ => simp_all [applyModifiers, mapNodesM, applyModifier, Avoids]

theorem withoutModifiers_eq_self {e : Expr} (h : e.Avoids [.modifier]) :
    e.withoutModifiers = .ok e := by
  rw [withoutModifiers, applyModifiers_eq_pure h]
  rfl

theorem eq_unmodified_of_withoutModifiers_eq_ok {e r : Expr} (h : e.withoutModifiers = .ok r) :
    r = e.unmodified := by
  rcases e.withoutModifiers_eq with heq | heq
  · exact Except.ok.inj (h.symm.trans heq)
  · rw [heq] at h
    cases h

/-! ## Kinds of nodes -/

section Kinds

variable {kinds : List NodeKind} (hdice : .dice ∉ kinds) (hliteral : .literal ∉ kinds)
  (harithmetic : .arithmetic ∉ kinds)

include hdice hliteral harithmetic in
/-- Doubling brings in dice, literals and arithmetic. -/
theorem avoids_double {e : Expr} (h : e.Avoids kinds) : e.double.Avoids kinds := by
  revert h
  refine mapNodes_rel (R := fun a b => a.Avoids kinds → b.Avoids kinds)
    (fun e node hnode he => ?_) e
  have hkind : node.kind ∉ kinds := hnode.kind_eq ▸ he.self
  have hall : node.Avoids kinds := hnode.everywhere he hkind
  -- A known count becomes another literal, and a computed one the factor of a product.
  unfold doubleNode
  split
  · exact ⟨hliteral, hall.2.1, hdice⟩
  · exact ⟨⟨hliteral, hall.1, harithmetic⟩, hall.2.1, hdice⟩
  · exact ⟨hliteral, hall.1, hdice⟩
  · exact hall

include harithmetic in
/-- Rolling twice brings in arithmetic. -/
theorem avoids_twice (op : BinaryOp) {e : Expr} (h : e.Avoids kinds) :
    (e.twice op).Avoids kinds := by
  revert h
  refine mapNodes_rel (R := fun a b => a.Avoids kinds → b.Avoids kinds)
    (fun e node hnode he => ?_) e
  have hall : node.Avoids kinds := hnode.everywhere he (hnode.kind_eq ▸ he.self)
  rw [twiceNode]
  split
  · exact ⟨hall, hall, harithmetic⟩
  · exact hall

include hdice hliteral harithmetic in
/-- An expression without its modifiers holds none. -/
theorem avoids_unmodified {e : Expr} (h : e.Avoids kinds) :
    e.unmodified.Avoids (.modifier :: kinds) := by
  have hdice' : NodeKind.dice ∉ .modifier :: kinds := by simpa
  have hliteral' : NodeKind.literal ∉ .modifier :: kinds := by simpa
  have harithmetic' : NodeKind.arithmetic ∉ .modifier :: kinds := by simpa
  revert h
  refine mapNodes_rel (R := fun a b => a.Avoids kinds → b.Avoids (.modifier :: kinds))
    (fun e node hnode he => ?_) e
  have hkind : node.kind ∉ kinds := hnode.kind_eq ▸ he.self
  -- By now the expression inside a modifier holds none, and only its dice change.
  unfold unmodifiedNode
  split
  · cases hnode with
    | critical hi => exact avoids_double hdice' hliteral' harithmetic' (hi he.1)
  · cases hnode with
    | advantage hi => exact avoids_twice harithmetic' .max (hi he.1)
  · cases hnode with
    | disadvantage hi => exact avoids_twice harithmetic' .min (hi he.1)
  · refine hnode.everywhere he ?_
    cases node <;> simp_all [kind]

end Kinds

end SpokenDice.Expr
