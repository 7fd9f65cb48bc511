import SpokenDice.Proofs.Expr.Modifiers
import SpokenDice.Proofs.Expr.Simplify
import SpokenDice.Proofs.Saturation

/-!
# Counts of dice

A count of dice that is a number is not negative. Simplifying an expression and removing its
modifiers make new counts, by adding up two of them and by doubling one, and both also bring to
light numbers that stood in groups or under modifiers. No negative count comes of that.

- `Counted`: what is counted may be computed, but it is no negative number.
- `KeepsCounts`: a change of expressions keeps all counts so. `KeepsCounts.mapNodes` takes it from
  the change of a node to that of a tree.
- `keepsCounts_simplify` and `keepsCounts_unmodified`: the two changes do.
-/

namespace SpokenDice

namespace Expr

/-- The expression without the groups and modifiers around it. -/
@[simp] def bare : Expr → Expr
  | .group inner => inner.bare
  | .critical inner => inner.bare
  | .advantage inner => inner.bare
  | .disadvantage inner => inner.bare
  | e => e

/-- If the expression is a number, perhaps in groups or under modifiers, it is not negative. -/
def Counted (e : Expr) : Prop :=
  ∀ n, e.bare = .literal n → 0 ≤ n.toInt

/-- If the node rolls dice, its count is no negative number. -/
def CountedRoll : Expr → Prop
  | .roll count _ => count.Counted
  | _ => True

theorem counted_literal {n : Int64} (h : 0 ≤ n.toInt) : (literal n).Counted := by
  rintro m ⟨⟩
  exact h

/-! ## Changes that keep counts -/

/-- The change brings in no negative count. -/
def KeepsCounts (f : Expr → Expr) : Prop :=
  ∀ e, e.Everywhere CountedRoll →
    (f e).Everywhere CountedRoll ∧ (e.Counted → (f e).Counted)

/-- New children that keep the counts of the old ones keep those of the node. -/
theorem Rebuilt.keepsCounts {e node : Expr}
    (h : Rebuilt (fun a b => a.Everywhere CountedRoll →
      b.Everywhere CountedRoll ∧ (a.Counted → b.Counted)) e node)
    (he : e.Everywhere CountedRoll) :
    node.Everywhere CountedRoll ∧ (e.Counted → node.Counted) := by
  cases h with
  | integer | namedDie | literal | weapon | spell => exact ⟨he, id⟩
  | binary op hl hr => exact ⟨⟨(hl he.1).1, (hr he.2.1).1, trivial⟩, fun _ n hn => by cases hn⟩
  | rollOne hs => exact ⟨⟨(hs he.1).1, trivial⟩, fun _ n hn => by cases hn⟩
  | @roll _ count _ _ hc hs =>
    have hcount : count.Counted := (hc he.1).2 he.2.2
    exact ⟨⟨(hc he.1).1, (hs he.2.1).1, hcount⟩, fun _ n hn => by cases hn⟩
  | spellAt name hl => exact ⟨⟨(hl he.1).1, trivial⟩, fun _ n hn => by cases hn⟩
  | critical hi | advantage hi | disadvantage hi | group hi =>
    exact ⟨⟨(hi he.1).1, trivial⟩, (hi he.1).2⟩

/-- What keeps the counts of nodes keeps those of trees. -/
theorem KeepsCounts.mapNodes {f : Expr → Expr} (h : KeepsCounts f) :
    KeepsCounts (Expr.mapNodes f) := by
  refine mapNodes_rel (R := fun a b => a.Everywhere CountedRoll →
    b.Everywhere CountedRoll ∧ (a.Counted → b.Counted)) fun e node hnode he => ?_
  obtain ⟨hall, hcounted⟩ := hnode.keepsCounts he
  obtain ⟨hall', hcounted'⟩ := h node hall
  exact ⟨hall', hcounted' ∘ hcounted⟩

/-! ## Simplification -/

theorem keepsCounts_simplifyNode : KeepsCounts simplifyNode := by
  intro e he
  unfold simplifyNode
  split
  · exact ⟨he.1, id⟩
  · exact ⟨⟨trivial, he.1, counted_literal (by decide)⟩, fun _ n hn => by cases hn⟩
  · rename_i a s b t
    split
    · -- The counts that are added up are those of two rolls, so neither is negative.
      have ha : 0 ≤ a.toInt := he.1.2.2 a rfl
      have hb : 0 ≤ b.toInt := he.2.1.2.2 b rfl
      have hsum : 0 ≤ (BinaryOp.add.apply a b).toInt :=
        BinaryOp.toInt_add_apply_nonneg ha hb
      exact ⟨⟨trivial, he.1.2.1, counted_literal hsum⟩, fun _ n hn => by cases hn⟩
    · exact ⟨he, id⟩
  · exact ⟨he, id⟩

theorem keepsCounts_simplify : KeepsCounts simplify :=
  keepsCounts_simplifyNode.mapNodes

/-! ## Modifiers -/

theorem keepsCounts_doubleNode : KeepsCounts doubleNode := by
  intro e he
  unfold doubleNode
  split
  · rename_i n sides
    have hn : 0 ≤ n.toInt := he.2.2 n rfl
    have htwice : 0 ≤ (BinaryOp.mul.apply 2 n).toInt := by
      refine toInt_saturate_nonneg ?_
      show 0 ≤ 2 * n.toInt
      omega
    exact ⟨⟨trivial, he.2.1, counted_literal htwice⟩, fun _ n hn => by cases hn⟩
  · -- A product is computed, so that it is no number.
    refine ⟨⟨⟨trivial, he.1, trivial⟩, he.2.1, ?_⟩, fun _ n hn => by cases hn⟩
    intro n hn
    cases hn
  · exact ⟨⟨trivial, he.1, counted_literal (by decide)⟩, fun _ n hn => by cases hn⟩
  · exact ⟨he, id⟩

theorem keepsCounts_twiceNode (op : BinaryOp) : KeepsCounts (twiceNode op) := by
  intro e he
  rw [twiceNode]
  split
  · exact ⟨⟨he, he, trivial⟩, fun _ n hn => by cases hn⟩
  · exact ⟨he, id⟩

theorem keepsCounts_unmodifiedNode : KeepsCounts unmodifiedNode := by
  intro e he
  unfold unmodifiedNode
  split
  · exact keepsCounts_doubleNode.mapNodes _ he.1
  · exact (keepsCounts_twiceNode .max).mapNodes _ he.1
  · exact (keepsCounts_twiceNode .min).mapNodes _ he.1
  · exact ⟨he, id⟩

theorem keepsCounts_unmodified : KeepsCounts unmodified :=
  keepsCounts_unmodifiedNode.mapNodes

end Expr

end SpokenDice
