import SpokenDice.Proofs.Expr.Pools

/-!
# What one simplification achieves

Simplification visits every node once, from the leaves up, and each change may make room for another
one above it: a group that is taken away may have stood around a known count, and two rolls that
become one may be added to a third. The order of the visits makes one sweep enough.

- `DiceSum`: dice of one kind that are added up, whatever the association, the order and the
  groups.
- `simplify_diceSum`: they become one roll, which depends on nothing but their kind and their
  number.
- `Normal`: an expression in which there is nothing to simplify.
- `normal_simplify`: one sweep gives such an expression, and leaves those and no others as they are.
-/

namespace SpokenDice.Expr

/-! ## Sums of dice -/

/-- The expression adds up dice whose side counts all simplify to `sides`. The list has their known
counts from left to right, none of which is negative; a lone die counts as one. Groups may stand
around a count and around any part of the sum. -/
inductive DiceSum (sides : Expr) : List Int64 → Expr → Prop
  | loneDie {s : Expr} (hs : s.simplify = sides) : DiceSum sides [1] (.rollOne s)
  | dice {count s : Expr} {n : Int64} (hcount : count.ungroup = .literal n) (hn : 0 ≤ n.toInt)
      (hs : s.simplify = sides) : DiceSum sides [n] (.roll count s)
  | add {counts counts' : List Int64} {left right : Expr} (hl : DiceSum sides counts left)
      (hr : DiceSum sides counts' right) :
      DiceSum sides (counts ++ counts') (.binary .add left right)
  | group {counts : List Int64} {inner : Expr} (hi : DiceSum sides counts inner) :
      DiceSum sides counts (.group inner)

namespace DiceSum

variable {sides e : Expr} {counts : List Int64}

theorem counts_nonneg (h : DiceSum sides counts e) : ∀ n ∈ counts, 0 ≤ n.toInt := by
  induction h with
  | loneDie => exact List.forall_mem_singleton.mpr (by decide)
  | dice _ hn => exact List.forall_mem_singleton.mpr hn
  | add _ _ ihl ihr => exact List.forall_mem_append.mpr ⟨ihl, ihr⟩
  | group _ ih => exact ih

/-- Such a sum is a pool as a whole. -/
theorem pool?_eq (h : DiceSum sides counts e) : e.pool? = some ⟨counts, sides⟩ := by
  induction h with
  | loneDie hs => rw [pool?, hs]
  | dice hcount _ hs => exact pool?_roll_eq_some_iff.mpr ⟨_, hcount, by rw [hs]⟩
  | add _ _ ihl ihr => exact pool?_add_eq_some_iff.mpr ⟨_, _, ihl, ihr, rfl, rfl⟩
  | group _ ih => exact ih

end DiceSum

/-- Dice of one kind that are added up become one roll of as many dice as they are together, or of
the greatest number of 64 bits where they are more, whatever the association and the order in which
they are added and wherever groups stand. -/
theorem simplify_diceSum {sides e : Expr} {counts : List Int64} (h : DiceSum sides counts e) :
    ∃ n : Int64, n.toInt = min (2 ^ 63 - 1) (counts.map Int64.toInt).sum ∧
      e.simplify = .roll (.literal n) sides := by
  have hnonneg := h.counts_nonneg
  have hsum := sum_nonneg hnonneg
  refine ⟨saturate (counts.map Int64.toInt).sum, ?_, simplify_eq_of_pool? h.pool?_eq hnonneg⟩
  rw [toInt_saturate]
  omega

/-- Three dice of six sides, the greatest count among them, grouped to the right and with groups
around a count, a side count and parts of the sum. -/
theorem simplify_diceSum_saturated :
    (binary .add (.rollOne (.group (.literal 6))) (.group (.binary .add
      (.roll (.group (.group (.literal 9223372036854775807))) (.literal 6))
      (.group (.rollOne (.literal 6)))))).simplify =
        .roll (.literal 9223372036854775807) (.literal 6) := by
  have hsum : DiceSum (.literal 6) ([1] ++ ([9223372036854775807] ++ [1]))
      (binary .add (.rollOne (.group (.literal 6))) (.group (.binary .add
        (.roll (.group (.group (.literal 9223372036854775807))) (.literal 6))
        (.group (.rollOne (.literal 6)))))) :=
    .add (.loneDie rfl) (.group (.add (.dice rfl (by decide) rfl) (.group (.loneDie rfl))))
  obtain ⟨n, hn, heq⟩ := simplify_diceSum hsum
  obtain rfl : n = 9223372036854775807 := Int64.toInt_inj.mp (hn.trans (by decide))
  exact heq

/-! ## Normal forms -/

/-- There is nothing to simplify: nowhere in the expression is a group or a lone die, and nowhere
are two rolls of one kind with known counts added. -/
structure Normal (e : Expr) : Prop where
  group : ∀ inner, .group inner ∉ e.postorder
  loneDie : ∀ sides, .rollOne sides ∉ e.postorder
  dice : ∀ a b sides,
    .binary .add (.roll (.literal a) sides) (.roll (.literal b) sides) ∉ e.postorder

theorem simple_iff {node : Expr} :
    node.Simple ↔ (∀ inner, node ≠ .group inner) ∧ (∀ sides, node ≠ .rollOne sides) ∧
      ∀ a b sides, node ≠ .binary .add (.roll (.literal a) sides) (.roll (.literal b) sides) := by
  unfold Simple
  split
  · simp
  · simp
  · rename_i a s b t
    simp only [ne_eq, reduceCtorEq, not_false_eq_true, implies_true, true_and, binary.injEq,
      roll.injEq, literal.injEq]
    constructor
    · rintro hst _ _ sides ⟨⟨-, rfl⟩, -, rfl⟩
      exact hst rfl
    · rintro hnot rfl
      exact hnot a b s ⟨⟨rfl, rfl⟩, rfl, rfl⟩
  · rename_i hgroup hrollOne hdice
    refine iff_of_true trivial ⟨hgroup, hrollOne, ?_⟩
    rintro a b sides rfl
    exact hdice a sides b sides rfl

/-- An expression is normal when each of its nodes is simple. -/
theorem normal_iff {e : Expr} : e.Normal ↔ e.Everywhere Simple := by
  rw [everywhere_iff]
  constructor
  · intro h node hnode
    refine simple_iff.mpr ⟨?_, ?_, ?_⟩
    · rintro inner rfl
      exact h.group inner hnode
    · rintro sides rfl
      exact h.loneDie sides hnode
    · rintro a b sides rfl
      exact h.dice a b sides hnode
  · intro h
    exact ⟨fun inner hnode => (simple_iff.mp (h _ hnode)).1 inner rfl,
      fun sides hnode => (simple_iff.mp (h _ hnode)).2.1 sides rfl,
      fun a b sides hnode => (simple_iff.mp (h _ hnode)).2.2 a b sides rfl⟩

/-- One sweep of simplification reaches the normal form, whatever the nodes of the expression, and
the expressions that it leaves alone are those in normal form. So a second sweep changes nothing. -/
theorem normal_simplify (e : Expr) :
    e.simplify.Normal ∧ (e.simplify = e ↔ e.Normal) ∧ e.simplify.simplify = e.simplify := by
  have hnormal : e.simplify.Normal := normal_iff.mpr e.everywhere_simple_simplify
  refine ⟨hnormal, ⟨fun heq => ?_, fun h => ?_⟩, e.simplify_simplify⟩
  · rwa [heq] at hnormal
  · exact simplify_eq_self (normal_iff.mp h)

end SpokenDice.Expr
