import SpokenDice.Error
import SpokenDice.Dice.Source

/-!
# Rolling an expression

An expression of literals, arithmetic, dice and groups has a value once its dice are rolled. They
are rolled from left to right, the dice of a count or side count before the dice that need them,
and every face stays on the tray in the order drawn, also when the roll fails later on.

- `throwDice` rolls dice of one kind: neither their count nor their sides may be below 1, and with
  the faces that lie on the tray they may not be more than the limit.
- `throwDice_apply`: a throw that is refused rolls nothing.
- `evaluate` rolls an expression.
-/

namespace SpokenDice

/-- The dice that are still to be rolled, and the faces of those that were. -/
structure Tray (δ : Type) where
  dice : δ
  faces : Array Int64

/-- A computation that rolls dice: it may fail, and the dice rolled until then stay rolled. -/
abbrev Rolling (δ : Type) := ExceptT RollError (StateM (Tray δ))

namespace Tray

variable {δ : Type} [DiceSource δ]

/-- Rolls one die and puts its face on the tray. -/
def rollDie (sides : Int64) : Tray δ → Int64 × Tray δ
  | ⟨dice, faces⟩ =>
    let (face, dice) := DiceSource.rollDie dice sides
    (face, ⟨dice, faces.push face⟩)

/-- Rolls `count` dice of one kind and adds their faces to `sum`. -/
def rollDice (sides : Int64) : Nat → Int64 → Tray δ → Int64 × Tray δ
  | 0, sum, tray => (sum, tray)
  | count + 1, sum, tray =>
    let (face, tray) := tray.rollDie sides
    rollDice sides count (BinaryOp.add.apply sum face) tray

/-- Each die puts one face on the tray. -/
theorem size_rollDice (sides : Int64) (count : Nat) (sum : Int64) (tray : Tray δ) :
    (tray.rollDice sides count sum).2.faces.size = tray.faces.size + count := by
  induction count generalizing sum tray with
  | zero => rfl
  | succ count ih =>
    rw [rollDice, ih]
    simp [rollDie, Nat.add_assoc, Nat.add_comm 1]

end Tray

variable {δ : Type}

/-- How many dice have been rolled once `count` more are, in unsigned words of 64 bits. -/
def Tray.sizeWith (tray : Tray δ) (count : Int64) : Nat :=
  min (tray.faces.size + count.toInt.toNat) 18446744073709551615

variable [DiceSource δ]

/-- Rolls `count` dice of one kind and adds up their faces. -/
def throwDice (limit : UInt64) (count sides : Int64) : Rolling δ Int64 := do
  if count ≤ 0 then throw (.noDice count)
  if sides ≤ 0 then throw (.noSides sides)
  let total := (← get).sizeWith count
  if limit.toNat < total then throw (.tooManyDice total)
  modifyGet fun tray => tray.rollDice sides count.toInt.toNat 0

/-- A throw is refused for the first of its faults, and then rolls nothing. -/
theorem throwDice_apply (limit : UInt64) (count sides : Int64) (tray : Tray δ) :
    throwDice limit count sides tray =
      if count ≤ 0 then (.error (.noDice count), tray)
      else if sides ≤ 0 then (.error (.noSides sides), tray)
      else if limit.toNat < tray.sizeWith count then
        (.error (.tooManyDice (tray.sizeWith count)), tray)
      else
        let (sum, tray) := tray.rollDice sides count.toInt.toNat 0
        (.ok sum, tray) := by
  unfold throwDice
  by_cases hcount : count ≤ 0
  · rw [if_pos hcount, if_pos hcount]
    rfl
  by_cases hsides : sides ≤ 0
  · rw [if_neg hcount, if_neg hcount, if_pos hsides, if_pos hsides]
    rfl
  rw [if_neg hcount, if_neg hcount, if_neg hsides, if_neg hsides]
  by_cases hlimit : limit.toNat < tray.sizeWith count
  · rw [if_pos hlimit]
    show (if limit.toNat < tray.sizeWith count then _ else _ : Rolling δ Int64) tray = _
    rw [if_pos hlimit]
    rfl
  · rw [if_neg hlimit]
    show (if limit.toNat < tray.sizeWith count then _ else _ : Rolling δ Int64) tray = _
    rw [if_neg hlimit]
    rfl

namespace Expr

/-- Rolls the dice of an expression and gives its value. -/
def evaluate (limit : UInt64) : Expr → Rolling δ Int64
  | .literal n => pure n
  | .binary op left right => do
    let a ← left.evaluate limit
    let b ← right.evaluate limit
    pure (op.apply a b)
  | .rollOne sides => do
    let sides ← sides.evaluate limit
    throwDice limit 1 sides
  | .roll count sides => do
    let count ← count.evaluate limit
    let sides ← sides.evaluate limit
    throwDice limit count sides
  | .group inner => inner.evaluate limit
  | e => throw (.unresolved e)

end Expr

end SpokenDice
