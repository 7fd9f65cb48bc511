import SpokenDice.Proofs.Expr.Modifiers
import SpokenDice.Proofs.Expr.Pools

/-!
# Doubled dice

A critical hit doubles the dice of an expression, and simplification may come before that or after
it. It makes no difference: two rolls are of one kind when their doubles are, as long as no count
saturates.

- `Doubled`: what doubling means, said by cases and in exact numbers; `doubled_double` says that
  this is what `double` does.
- `halve_double`: doubling can be taken back, so that it is injective (`double_injective`).
- `simplify_double`: simplifying and doubling may change places.
- `withoutModifiers_critical`: a critical hit around an expression doubles what is left of it
  without its other modifiers.
-/

namespace SpokenDice

namespace Expr

/-- A node of a compiled request. -/
def Compiled (node : Expr) : Prop :=
  node.kind ∈ [.literal, .arithmetic, .dice]

theorem everywhere_compiled_iff {e : Expr} :
    e.Everywhere Compiled ↔ e.Avoids [.token, .loneDie, .modifier, .reference, .group] := by
  have hkinds (node : Expr) :
      node.Compiled ↔ node.kind ∉ [.token, .loneDie, .modifier, .reference, .group] := by
    cases hkind : node.kind <;> simp [Compiled, hkind]
  exact ⟨Everywhere.imp fun node => (hkinds node).mp, Everywhere.imp fun node => (hkinds node).mpr⟩

/-- If the node rolls a known count of dice, twice as many can still be counted. -/
def Doublable : Expr → Prop
  | .roll (.literal n) _ => 0 ≤ n.toInt ∧ n.toInt ≤ 4611686018427387903
  | _ => True

theorem everywhere_doublable {e : Expr} (hcounted : e.Everywhere CountedRoll)
    (hbound : ∀ n sides, .roll (.literal n) sides ∈ e.postorder → n.toInt ≤ 2 ^ 62 - 1) :
    e.Everywhere Doublable := by
  refine everywhere_iff.mpr fun node hnode => ?_
  have hnode' := everywhere_iff.mp hcounted node hnode
  unfold Doublable
  split
  · rename_i n sides
    have hlow : 0 ≤ n.toInt := hnode' n rfl
    have hhigh := hbound n sides hnode
    exact ⟨hlow, by omega⟩
  · trivial

/-- The second expression is the first one with twice the dice: a known count is twice the number,
and a computed count is two times what it was, with the dice in it doubled as well. -/
inductive Doubled : Expr → Expr → Prop
  | literal (n : Int64) : Doubled (.literal n) (.literal n)
  | binary (op : BinaryOp) {left left' right right' : Expr} (hl : Doubled left left')
      (hr : Doubled right right') : Doubled (.binary op left right) (.binary op left' right')
  | known {n m : Int64} {sides sides' : Expr} (h : m.toInt = 2 * n.toInt)
      (hs : Doubled sides sides') :
      Doubled (.roll (.literal n) sides) (.roll (.literal m) sides')
  | computed {count count' sides sides' : Expr} (h : ∀ n, count ≠ .literal n)
      (hc : Doubled count count') (hs : Doubled sides sides') :
      Doubled (.roll count sides) (.roll (.binary .mul (.literal 2) count') sides')

/-! ## Doubling by cases -/

theorem toInt_twice {n : Int64} (hlow : 0 ≤ n.toInt) (hhigh : n.toInt ≤ 4611686018427387903) :
    (BinaryOp.mul.apply 2 n).toInt = 2 * n.toInt := by
  have hrange : InRange (2 * n.toInt) := ⟨by omega, by omega⟩
  exact BinaryOp.toInt_apply_of_inRange hrange

theorem double_eq_literal_iff {e : Expr} {n : Int64} : e.double = .literal n ↔ e = .literal n := by
  cases e with
  | roll count sides =>
    have hroll : ∃ count' sides', (roll count sides).double = .roll count' sides' := by
      show ∃ count' sides', doubleNode (.roll count.double sides.double) = .roll count' sides'
      unfold doubleNode
      split <;> simp_all
    obtain ⟨count', sides', heq⟩ := hroll
    simp [heq]
  | _ => simp [double, mapNodes, doubleNode]

/-- A count that is computed becomes the factor of a product. -/
theorem double_roll {count sides : Expr} (h : ∀ n, count ≠ .literal n) :
    (roll count sides).double = .roll (.binary .mul (.literal 2) count.double) sides.double := by
  show doubleNode (.roll count.double sides.double) = _
  have hcount : ∀ n, count.double ≠ .literal n := fun n hn => h n (double_eq_literal_iff.mp hn)
  generalize count.double = count at hcount
  cases count with
  | literal n => exact absurd rfl (hcount n)
  | _ => rfl

theorem double_roll_literal (n : Int64) (sides : Expr) :
    (roll (.literal n) sides).double = .roll (.literal (BinaryOp.mul.apply 2 n)) sides.double := rfl

theorem double_binary (op : BinaryOp) (left right : Expr) :
    (binary op left right).double = .binary op left.double right.double := rfl

/-- Doubling gives the double where no count saturates. -/
theorem doubled_double {e : Expr} (hcompiled : e.Everywhere Compiled)
    (hcounts : e.Everywhere Doublable) : Doubled e e.double := by
  induction e with
  | literal n => exact .literal n
  | binary op left right ihl ihr =>
    exact .binary op (ihl hcompiled.1 hcounts.1) (ihr hcompiled.2.1 hcounts.2.1)
  | roll count sides ihc ihs =>
    have hsides := ihs hcompiled.2.1 hcounts.2.1
    by_cases hknown : ∃ n, count = .literal n
    · obtain ⟨n, rfl⟩ := hknown
      rw [double_roll_literal]
      exact .known (toInt_twice hcounts.2.2.1 hcounts.2.2.2) hsides
    · have hcomputed : ∀ n, count ≠ .literal n := fun n hn => hknown ⟨n, hn⟩
      rw [double_roll hcomputed]
      exact .computed hcomputed (ihc hcompiled.1 hcounts.1) hsides
  | _ => simp [Compiled, kind] at hcompiled

/-! ## Taking it back -/

/-- The expression with half its dice. -/
def halve : Expr → Expr
  | .binary op left right => .binary op left.halve right.halve
  | .roll (.literal n) sides => .roll (.literal (saturate (n.toInt / 2))) sides.halve
  | .roll (.binary _ _ count) sides => .roll count.halve sides.halve
  | e => e

/-- Half of twice the dice are the dice. -/
theorem halve_double {e : Expr} (hcompiled : e.Everywhere Compiled)
    (hcounts : e.Everywhere Doublable) : e.double.halve = e := by
  induction e with
  | literal n => rfl
  | binary op left right ihl ihr =>
    rw [double_binary, halve, ihl hcompiled.1 hcounts.1, ihr hcompiled.2.1 hcounts.2.1]
  | roll count sides ihc ihs =>
    have hsides := ihs hcompiled.2.1 hcounts.2.1
    by_cases hknown : ∃ n, count = .literal n
    · obtain ⟨n, rfl⟩ := hknown
      have htwice := toInt_twice hcounts.2.2.1 hcounts.2.2.2
      rw [double_roll_literal, halve, hsides, htwice, Int.mul_ediv_cancel_left _ (by decide),
        saturate_toInt]
    · have hcomputed : ∀ n, count ≠ .literal n := fun n hn => hknown ⟨n, hn⟩
      rw [double_roll hcomputed, halve, ihc hcompiled.1 hcounts.1, hsides]
  | _ => simp [Compiled, kind] at hcompiled

theorem double_injective {e e' : Expr} (hcompiled : e.Everywhere Compiled)
    (hcompiled' : e'.Everywhere Compiled) (hcounts : e.Everywhere Doublable)
    (hcounts' : e'.Everywhere Doublable) (h : e.double = e'.double) : e = e' := by
  rw [← halve_double hcompiled hcounts, h, halve_double hcompiled' hcounts']

/-- What doubles to a roll of a known count is one. -/
theorem eq_roll_of_double_eq {e sides : Expr} {n : Int64} (hcompiled : e.Compiled)
    (h : e.double = .roll (.literal n) sides) :
    ∃ m sides', e = .roll (.literal m) sides' ∧ sides'.double = sides := by
  cases e with
  | roll count sides' =>
    by_cases hknown : ∃ m, count = .literal m
    · obtain ⟨m, rfl⟩ := hknown
      exact ⟨m, sides', rfl, (roll.inj h).2⟩
    · have hcomputed : ∀ m, count ≠ .literal m := fun m hm => hknown ⟨m, hm⟩
      rw [double_roll hcomputed] at h
      cases h
  | literal | binary => cases h
  | _ => simp [Compiled, kind] at hcompiled

/-! ## Doubling and simplification -/

theorem twice_add {a b : Int64} (ha : 0 ≤ a.toInt) (hb : 0 ≤ b.toInt)
    (hsum : (BinaryOp.add.apply a b).toInt ≤ 4611686018427387903) :
    BinaryOp.add.apply (BinaryOp.mul.apply 2 a) (BinaryOp.mul.apply 2 b) =
      BinaryOp.mul.apply 2 (BinaryOp.add.apply a b) := by
  have hexact := BinaryOp.toInt_add_apply ha hb
  have htwo : Int64.toInt 2 = 2 := rfl
  rw [← Int64.toInt_inj]
  simp only [BinaryOp.apply, BinaryOp.exact, toInt_saturate, htwo] at hsum hexact ⊢
  omega

/-- Two rolls of one kind with known counts become one. -/
theorem simplify_add_of_eq {left right sides : Expr} {a b : Int64}
    (hl : left.simplify = .roll (.literal a) sides)
    (hr : right.simplify = .roll (.literal b) sides) :
    (binary .add left right).simplify = .roll (.literal (BinaryOp.add.apply a b)) sides := by
  rcases simplify_add left right with ⟨a', b', sides', hl', hr', heq⟩ | ⟨hnot, -⟩
  · obtain ⟨ha, -⟩ := roll.inj (hl.symm.trans hl')
    obtain ⟨hb, hs⟩ := roll.inj (hr.symm.trans hr')
    rw [heq, ← literal.inj ha, ← literal.inj hb, ← hs]
  · exact absurd hr (hnot a b sides hl)

theorem everywhere_compiled_simplify {e : Expr} (h : e.Everywhere Compiled) :
    e.simplify.Everywhere Compiled := by
  have hsimple := avoids_simplify (by decide) (by decide) (everywhere_compiled_iff.mp h)
  exact everywhere_compiled_iff.mpr (hsimple.subset (by decide))

/-- A count that is computed is still computed when it is simplified. -/
theorem simplify_ne_literal {count : Expr} (hcompiled : count.Compiled)
    (h : ∀ n, count ≠ .literal n) (n : Int64) : count.simplify ≠ .literal n := by
  intro heq
  have hungroup := simplify_eq_literal_iff.mp heq
  cases count with
  | literal m => exact h m rfl
  | group => simp [Compiled, kind] at hcompiled
  | _ => cases hungroup

/-- Dice may be doubled before or after an expression is simplified, when no count saturates. -/
theorem simplify_double {e : Expr} (hcompiled : e.Everywhere Compiled)
    (hcounted : e.Everywhere CountedRoll) (hcounts : e.simplify.Everywhere Doublable) :
    e.double.simplify = e.simplify.double := by
  induction e with
  | literal n => rfl
  | roll count sides ihc ihs =>
    rw [simplify_roll] at hcounts ⊢
    have hsides := ihs hcompiled.2.1 hcounted.2.1 hcounts.2.1
    by_cases hknown : ∃ n, count = .literal n
    · obtain ⟨n, rfl⟩ := hknown
      rw [double_roll_literal, simplify_roll, hsides]
      rfl
    · have hcomputed : ∀ n, count ≠ .literal n := fun n hn => hknown ⟨n, hn⟩
      have hcount := ihc hcompiled.1 hcounted.1 hcounts.1
      rw [double_roll hcomputed, double_roll (simplify_ne_literal hcompiled.1.self hcomputed),
        simplify_roll, simplify_binary (by decide), hcount, hsides]
      rfl
  | binary op left right ihl ihr =>
    rw [double_binary]
    by_cases hop : op = .add
    · subst hop
      have hleft := (keepsCounts_simplify left hcounted.1).1
      have hright := (keepsCounts_simplify right hcounted.2.1).1
      rcases simplify_add left right with ⟨a, b, sides, hl, hr, heq⟩ | ⟨hnot, heq⟩
      · -- The two became one roll, so their doubles do as well.
        rw [heq] at hcounts ⊢
        rw [hl] at hleft ihl
        rw [hr] at hright ihr
        have ha : 0 ≤ a.toInt := hleft.2.2 a rfl
        have hb : 0 ≤ b.toInt := hright.2.2 b rfl
        have hsum : (BinaryOp.add.apply a b).toInt ≤ 4611686018427387903 := hcounts.2.2.2
        have hexact := BinaryOp.toInt_add_apply ha hb
        have hl' := ihl hcompiled.1 hcounted.1 ⟨trivial, hcounts.2.1, ha, by omega⟩
        have hr' := ihr hcompiled.2.1 hcounted.2.1 ⟨trivial, hcounts.2.1, hb, by omega⟩
        rw [double_roll_literal] at hl' hr'
        rw [simplify_add_of_eq hl' hr', double_roll_literal, twice_add ha hb hsum]
      · rw [heq] at hcounts ⊢
        have hl' := ihl hcompiled.1 hcounted.1 hcounts.1
        have hr' := ihr hcompiled.2.1 hcounted.2.1 hcounts.2.1
        have hcl := everywhere_compiled_simplify hcompiled.1
        have hcr := everywhere_compiled_simplify hcompiled.2.1
        rcases simplify_add left.double right.double with ⟨a, b, sides, hl, hr, -⟩ | ⟨-, heq'⟩
        · -- If the doubles became one roll, the two would have done so before they were doubled.
          obtain ⟨m, s, hs, hsides⟩ := eq_roll_of_double_eq hcl.self (hl'.symm.trans hl)
          obtain ⟨n, t, ht, hsides'⟩ := eq_roll_of_double_eq hcr.self (hr'.symm.trans hr)
          rw [hs] at hcl hcounts
          rw [ht] at hcr hcounts
          have hst : s = t := double_injective hcl.2.1 hcr.2.1 hcounts.1.2.1 hcounts.2.1.2.1
            (hsides.trans hsides'.symm)
          exact absurd ht (hst ▸ hnot m n s hs)
        · rw [heq', hl', hr', double_binary]
    · rw [simplify_binary hop] at hcounts ⊢
      rw [simplify_binary hop, ihl hcompiled.1 hcounted.1 hcounts.1,
        ihr hcompiled.2.1 hcounted.2.1 hcounts.2.1, double_binary]
  | _ => simp [Compiled, kind] at hcompiled

/-- Dice that were simplified before they are doubled are simplified after that as well. -/
theorem simplify_double_simplify {e : Expr} (hcompiled : e.Everywhere Compiled)
    (hcounted : e.Everywhere CountedRoll) (hcounts : e.simplify.Everywhere Doublable) :
    e.simplify.double.simplify = e.double.simplify := by
  have hsimple := everywhere_compiled_simplify hcompiled
  have hcounted' := (keepsCounts_simplify e hcounted).1
  rw [simplify_double hcompiled hcounted hcounts, simplify_double hsimple hcounted' (by
    rwa [simplify_simplify]), simplify_simplify]

/-! ## Critical hits -/

/-- A critical hit around an expression doubles it once its own modifiers are removed. -/
theorem withoutModifiers_critical (e : Expr) :
    (critical e).withoutModifiers = (do
      let r ← e.withoutModifiers
      pure r.double) := by
  show ((e.applyModifiers >>= fun inner => pure inner.double : Copying Expr) copyBudget).1 =
    (e.applyModifiers copyBudget).1 >>= _
  rw [run_bind]
  rcases e.applyModifiers copyBudget with ⟨r | cause, left⟩
  · rfl
  · rfl

end Expr

end SpokenDice
