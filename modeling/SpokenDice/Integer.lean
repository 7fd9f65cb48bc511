/-!
# Integers of 64 bits

Counts, side counts, faces and totals are integers of 64 bits, and arithmetic on them saturates:
a result outside the range becomes the nearer end of the range.

- `toInt_saturate`: `saturate` clamps an unbounded integer into the range.
- `int64?_eq_some_iff`: `int64?` keeps an unbounded integer only when it lies in the range.
- `signed?_decimal`: an integer written in decimal reads back.
-/

namespace SpokenDice

/-- The unbounded integer lies in the 64-bit range. -/
def InRange (n : Int) : Prop :=
  -9223372036854775808 ≤ n ∧ n ≤ 9223372036854775807

instance (n : Int) : Decidable (InRange n) :=
  inferInstanceAs (Decidable (_ ∧ _))

/-- The 64-bit integer nearest to `n`. -/
def saturate (n : Int) : Int64 :=
  Int64.ofIntClamp n

/-- The 64-bit integer of value `n`, if there is one. -/
def int64? (n : Int) : Option Int64 :=
  if InRange n then some (saturate n) else none

theorem inRange_toInt (a : Int64) : InRange a.toInt :=
  ⟨Int64.minValue_le_toInt a, Int64.toInt_le a⟩

theorem toInt_saturate_of_inRange {n : Int} (h : InRange n) : (saturate n).toInt = n :=
  Int64.toInt_ofIntClamp h.1 h.2

theorem toInt_saturate (n : Int) :
    (saturate n).toInt = max (-9223372036854775808) (min n 9223372036854775807) := by
  by_cases hlow : Int64.minValue.toInt ≤ n
  · by_cases hhigh : n ≤ Int64.maxValue.toInt
    · rw [toInt_saturate_of_inRange ⟨hlow, hhigh⟩]
      simp only [Int64.toInt_minValue, Int64.toInt_maxValue] at hlow hhigh
      omega
    · simp only [saturate, Int64.ofIntClamp, dif_pos hlow, dif_neg hhigh]
      simp only [Int64.toInt_minValue, Int64.toInt_maxValue] at hlow hhigh ⊢
      omega
  · simp only [saturate, Int64.ofIntClamp, dif_neg hlow]
    simp only [Int64.toInt_minValue] at hlow ⊢
    omega

@[simp] theorem saturate_toInt (a : Int64) : saturate a.toInt = a :=
  Int64.toInt_inj.mp (toInt_saturate_of_inRange (inRange_toInt a))

theorem int64?_eq_some_iff {n : Int} {a : Int64} : int64? n = some a ↔ a.toInt = n := by
  constructor
  · intro h
    by_cases hn : InRange n
    · obtain rfl : saturate n = a := by simpa [int64?, hn] using h
      exact toInt_saturate_of_inRange hn
    · simp [int64?, hn] at h
  · rintro rfl
    simp [int64?, inRange_toInt]

/-! ## Decimal texts -/

/-- The decimal text of an integer: its digits, after a minus sign when it is negative. -/
def decimal : Int → String
  | .ofNat n => toString n
  | .negSucc n => "-" ++ toString (n + 1)

/-- The number that a text of ASCII digits writes; leading zeros are allowed. -/
def natural? (text : List Char) : Option Nat :=
  if text ≠ [] ∧ text.all Char.isDigit then some (Nat.ofDigitChars 10 text 0) else none

/-- The number that ASCII digits write after at most one sign. -/
def signed? : List Char → Option Int
  | '+' :: digits => (natural? digits).map Int.ofNat
  | '-' :: digits => (natural? digits).map fun n => -Int.ofNat n
  | digits => (natural? digits).map Int.ofNat

theorem isDigit_of_mem_toString {n : Nat} {c : Char} (h : c ∈ (toString n).toList) :
    c.isDigit = true := by
  rw [Nat.toString_eq_ofList_toDigits, String.toList_ofList] at h
  exact Nat.isDigit_of_mem_toDigits (by decide) (by decide) h

/-- The digits of a number read back as that number. -/
theorem natural?_toString (n : Nat) : natural? (toString n).toList = some n := by
  have hdigits : (toString n).toList.all Char.isDigit = true :=
    List.all_eq_true.mpr fun _ => isDigit_of_mem_toString
  rw [Nat.toString_eq_ofList_toDigits, String.toList_ofList] at hdigits ⊢
  rw [natural?, if_pos ⟨Nat.toDigits_ne_nil, hdigits⟩]
  exact congrArg some Nat.ofDigitChars_ten_toDigits

/-- What `decimal` writes, `signed?` reads. -/
theorem signed?_decimal (n : Int) : signed? (decimal n).toList = some n := by
  cases n with
  | ofNat n =>
    have hread := natural?_toString n
    unfold decimal signed?
    split
    · rename_i digits heq
      exact absurd (isDigit_of_mem_toString (c := '+') (heq ▸ List.mem_cons_self ..)) (by decide)
    · rename_i digits heq
      exact absurd (isDigit_of_mem_toString (c := '-') (heq ▸ List.mem_cons_self ..)) (by decide)
    · rw [hread]
      rfl
  | negSucc n =>
    have hread := natural?_toString (n + 1)
    rw [decimal, String.toList_append, show "-".toList = ['-'] from rfl, List.singleton_append,
      signed?, hread]
    rfl

end SpokenDice
