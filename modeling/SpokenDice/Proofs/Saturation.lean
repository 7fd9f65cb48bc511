import Mathlib.Algebra.Ring.Int.Defs
import SpokenDice.Expr.Basic

/-!
# Saturating sums

Arithmetic of 64 bits saturates, so in general it matters in which order a sum is taken. It does
not where no summand is negative: such a sum only grows, and once it has saturated it stays so.

- `pos_iff_toInt_pos`: what is positive in 64 bits is positive.
- `add_apply_assoc`: saturating sums may be taken in any order.
- `sum_pos_iff`: a sum is positive when one of its summands is.
-/

namespace SpokenDice

theorem pos_iff_toInt_pos {n : Int64} : 0 < n ↔ 0 < n.toInt :=
  Int64.lt_iff_toInt_lt

theorem toInt_saturate_nonneg {n : Int} (h : 0 ≤ n) : 0 ≤ (saturate n).toInt := by
  rw [toInt_saturate]
  omega

namespace BinaryOp

theorem toInt_add_apply_nonneg {a b : Int64} (ha : 0 ≤ a.toInt) (hb : 0 ≤ b.toInt) :
    0 ≤ (add.apply a b).toInt :=
  toInt_saturate_nonneg (Int.add_nonneg ha hb)

theorem add_apply_pos {a b : Int64} (ha : 0 < a) (hb : 0 < b) : 0 < add.apply a b := by
  rw [pos_iff_toInt_pos] at ha hb ⊢
  rw [apply, exact, toInt_saturate]
  omega

@[simp] theorem add_apply_zero (a : Int64) : add.apply a 0 = a := by
  rw [apply, exact, Int64.toInt_zero, Int.add_zero, saturate_toInt]

theorem toInt_add_apply {a b : Int64} (ha : 0 ≤ a.toInt) (hb : 0 ≤ b.toInt) :
    (add.apply a b).toInt = Min.min (a.toInt + b.toInt) 9223372036854775807 := by
  rw [apply, exact, toInt_saturate]
  omega

/-- Saturating sums of numbers that are not negative may be taken in any order. -/
theorem add_apply_assoc {a b c : Int64} (ha : 0 ≤ a.toInt) (hb : 0 ≤ b.toInt) (hc : 0 ≤ c.toInt) :
    add.apply (add.apply a b) c = add.apply a (add.apply b c) := by
  rw [← Int64.toInt_inj]
  simp only [apply, exact, toInt_saturate]
  omega

end BinaryOp

/-! ## Sums of lists -/

theorem sum_nonneg {numbers : List Int64} (h : ∀ n ∈ numbers, 0 ≤ n.toInt) :
    0 ≤ (numbers.map Int64.toInt).sum := by
  induction numbers with
  | nil => exact Int.le_refl 0
  | cons n rest ih =>
    obtain ⟨hn, hrest⟩ := List.forall_mem_cons.mp h
    have hsum := ih hrest
    rw [List.map_cons, List.sum_cons]
    omega

/-- A sum of numbers that are not negative is positive when one of them is. -/
theorem sum_pos_iff {numbers : List Int64} (h : ∀ n ∈ numbers, 0 ≤ n.toInt) :
    0 < (numbers.map Int64.toInt).sum ↔ ∃ n ∈ numbers, 0 < n := by
  induction numbers with
  | nil => simp
  | cons n rest ih =>
    obtain ⟨hn, hrest⟩ := List.forall_mem_cons.mp h
    have hsum := sum_nonneg hrest
    simp only [List.mem_cons, exists_eq_or_imp, List.map_cons, List.sum_cons]
    rw [← ih hrest, pos_iff_toInt_pos]
    omega

end SpokenDice
