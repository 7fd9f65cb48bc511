import SpokenDice.Expr.Simplify
import SpokenDice.Proofs.Expr.Nodes

/-!
# Simplified expressions

What a simplification does to a sum, and which kinds of nodes it leaves.

- `simplify_add`: two operands become one roll exactly when both are rolls of one kind with known
  counts; otherwise the sum stays.
- `simplify_simplify`: a simplified expression is `Simple`, and stays as it is.
- `avoids_simplify`: groups and lone dice are gone, and nothing comes in but dice and literals.
-/

namespace SpokenDice.Expr

/-- Arithmetic other than a sum stays as it is. -/
theorem simplify_binary {op : BinaryOp} (h : op ≠ .add) (left right : Expr) :
    (binary op left right).simplify = .binary op left.simplify right.simplify := by
  cases op <;> first | rfl | exact absurd rfl h

/-- A sum becomes one roll when its operands are rolls of one kind with known counts, and stays
otherwise. -/
theorem simplify_add (left right : Expr) :
    (∃ a b sides, left.simplify = .roll (.literal a) sides ∧
      right.simplify = .roll (.literal b) sides ∧
      (binary .add left right).simplify = .roll (.literal (BinaryOp.add.apply a b)) sides) ∨
    (∀ a b sides, left.simplify = .roll (.literal a) sides →
        right.simplify ≠ .roll (.literal b) sides) ∧
      (binary .add left right).simplify = .binary .add left.simplify right.simplify := by
  show (∃ a b sides, _ ∧ _ ∧ simplifyNode (.binary .add left.simplify right.simplify) = _) ∨
    _ ∧ simplifyNode (.binary .add left.simplify right.simplify) = _
  generalize left.simplify = left
  generalize right.simplify = right
  unfold simplifyNode
  split
  · rename_i h
    cases h
  · rename_i h
    cases h
  · -- Known counts on both sides: only the side counts decide.
    rename_i a s b t h
    obtain ⟨-, rfl, rfl⟩ := binary.inj h
    by_cases hst : s = t
    · subst hst
      exact .inl ⟨a, b, s, rfl, rfl, if_pos rfl⟩
    · refine .inr ⟨?_, if_neg hst⟩
      rintro a' b' s' ⟨⟩ ⟨⟩
      exact hst rfl
  · rename_i hnot
    refine .inr ⟨?_, rfl⟩
    rintro a b s rfl rfl
    exact hnot a s b s rfl

/-! ## Simple expressions -/

/-- Simplification has nothing to do at the node. -/
def Simple : Expr → Prop
  | .group _ => False
  | .rollOne _ => False
  | .binary .add (.roll (.literal _) s) (.roll (.literal _) t) => s ≠ t
  | _ => True

theorem simplifyNode_eq_self {node : Expr} (h : node.Simple) : node.simplifyNode = node := by
  unfold simplifyNode
  split
  · exact h.elim
  · exact h.elim
  · exact if_neg h
  · rfl

/-- A simple expression is its own simplification. -/
theorem simplify_eq_self {e : Expr} (h : e.Everywhere Simple) : e.simplify = e := by
  revert h
  refine mapNodes_rel (R := fun a b => a.Everywhere Simple → b = a) (fun e node hnode he => ?_) e
  obtain rfl := hnode.eq_self he
  exact simplifyNode_eq_self he.self

/-- What a simplification leaves is simple. -/
theorem everywhere_simple_simplify (e : Expr) : e.simplify.Everywhere Simple := by
  induction e with
  | integer | namedDie | literal | weapon | spell => trivial
  | group inner ih => exact ih
  | rollOne sides ih => exact ⟨trivial, ih, trivial⟩
  | roll count sides ihc ihs => exact ⟨ihc, ihs, trivial⟩
  | critical inner ih | advantage inner ih | disadvantage inner ih => exact ⟨ih, trivial⟩
  | spellAt name level ih => exact ⟨ih, trivial⟩
  | binary op left right ihl ihr =>
    by_cases hop : op = .add
    · subst hop
      rcases simplify_add left right with ⟨a, b, sides, hl, -, heq⟩ | ⟨hnot, heq⟩
      · rw [hl] at ihl
        rw [heq]
        exact ⟨trivial, ihl.2.1, trivial⟩
      · -- The sum stayed, so its operands are not rolls of one kind with known counts.
        rw [heq]
        refine ⟨ihl, ihr, ?_⟩
        unfold Simple
        split
        · rename_i h
          cases h
        · rename_i h
          cases h
        · rename_i a s b t h
          obtain ⟨-, hl, hr⟩ := binary.inj h
          rintro rfl
          exact hnot a b s hl hr
        · trivial
    · rw [simplify_binary hop]
      refine ⟨ihl, ihr, ?_⟩
      cases op <;> trivial

/-- One simplification is enough. -/
@[simp] theorem simplify_simplify (e : Expr) : e.simplify.simplify = e.simplify :=
  simplify_eq_self e.everywhere_simple_simplify

/-! ## Kinds of nodes -/

/-- Simplification brings in dice and literals, and leaves no group and no lone die. -/
theorem avoids_simplify {kinds : List NodeKind} (hdice : .dice ∉ kinds)
    (hliteral : .literal ∉ kinds) {e : Expr} (h : e.Avoids kinds) :
    e.simplify.Avoids (.group :: .loneDie :: kinds) := by
  revert h
  refine mapNodes_rel (R := fun a b => a.Avoids kinds → b.Avoids (.group :: .loneDie :: kinds))
    (fun e node hnode he => ?_) e
  have hkind : node.kind ∉ kinds := hnode.kind_eq ▸ he.self
  unfold simplifyNode
  split
  · cases hnode with
    | group hi => exact hi he.1
  · cases hnode with
    | rollOne hs => exact ⟨by simpa [kind], hs he.1, by simpa [kind]⟩
  · rename_i a s b t
    cases hnode with
    | binary op hl hr =>
      split
      · exact ⟨by simpa [kind], (hl he.1).2.1, by simpa [kind]⟩
      · exact ⟨hl he.1, hr he.2.1, by simpa [kind] using hkind⟩
  · -- The node stays, and it is neither a group nor a lone die.
    rename_i hgroup hrollOne _
    refine hnode.everywhere he ?_
    cases node <;> simp_all [kind]

end SpokenDice.Expr
