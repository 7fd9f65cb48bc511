import SpokenDice.Integer

/-!
# Sources of dice

A source of dice shows a face when a die is rolled and is then a source for the dice that follow.
A script is a source whose faces are written down. It starts over when they are used up, a face
that the die does not have becomes the nearest one that it has, and it remembers which dice it
was asked for.
-/

namespace SpokenDice

/-- A source of dice: rolling a die gives its face and the source for the next dice. -/
class DiceSource (δ : Type) where
  rollDie (dice : δ) (sides : Int64) : Int64 × δ

/-- A source whose faces are written down. -/
structure Script where
  /-- The faces, which repeat. -/
  faces : Array Int64
  /-- How many dice were rolled. -/
  rolled : Nat
  /-- The side counts of the dice that were rolled, in order. -/
  requested : Array Int64

namespace Script

/-- A script of these faces, before its first die. -/
def ofFaces (faces : List Int64) : Script :=
  ⟨faces.toArray, 0, #[]⟩

/-- The face that is nearest to `face` on a die of `sides` sides. -/
def nearestFace (sides face : Int64) : Int64 :=
  saturate (max 1 (min sides.toInt face.toInt))

theorem toInt_nearestFace (sides face : Int64) :
    (nearestFace sides face).toInt = max 1 (min sides.toInt face.toInt) := by
  have h := (inRange_toInt sides).2
  exact toInt_saturate_of_inRange ⟨by omega, by omega⟩

theorem one_le_nearestFace (sides face : Int64) : 1 ≤ nearestFace sides face := by
  rw [Int64.le_iff_toInt_le, toInt_nearestFace]
  exact Int.le_max_left ..

theorem nearestFace_le {sides : Int64} (h : 1 ≤ sides) (face : Int64) :
    nearestFace sides face ≤ sides := by
  rw [Int64.le_iff_toInt_le] at h ⊢
  rw [toInt_nearestFace]
  exact Int.max_le.mpr ⟨h, Int.min_le_left ..⟩

/-- A face that the die has is shown as it is. -/
theorem nearestFace_eq_self {sides face : Int64} (hlow : 1 ≤ face) (hhigh : face ≤ sides) :
    nearestFace sides face = face := by
  rw [Int64.le_iff_toInt_le] at hlow hhigh
  rw [← Int64.toInt_inj, toInt_nearestFace, Int.min_eq_right hhigh]
  exact Int.max_eq_right hlow

/-- The face that the script shows next: a script without faces shows 1. -/
def nextFace (script : Script) (sides : Int64) : Int64 :=
  nearestFace sides (script.faces.getD (script.rolled % script.faces.size) 1)

/-- Rolls a die of the script. -/
def rollDie (script : Script) (sides : Int64) : Int64 × Script :=
  (script.nextFace sides,
    { script with rolled := script.rolled + 1, requested := script.requested.push sides })

@[simp] theorem requested_rollDie (sides : Int64) (script : Script) :
    (script.rollDie sides).2.requested.toList = script.requested.toList ++ [sides] := by
  simp [rollDie]

instance : DiceSource Script := ⟨rollDie⟩

end Script

end SpokenDice
