import SpokenDice.Proofs.Dice.Evaluate
import SpokenDice.Proofs.Saturation

/-!
# Lawful sources and their logs

A source of dice is lawful when every die shows one of its faces. Sums of its faces only grow, so
that it does not matter where they saturate, and dice of one kind may be thrown at once or in two
throws.

- `LawfulDiceSource`: faces lie between 1 and the side count. Scripts are lawful.
- `Logged`: a source that also writes down which dice it is asked for, and `evaluate_logs`: the log
  changes nothing.
- `rollDice_two_throws`: dice thrown at once or in two throws.
-/

namespace SpokenDice

/-- Every die shows one of its faces. -/
class LawfulDiceSource (δ : Type) [DiceSource δ] : Prop where
  one_le_face (dice : δ) {sides : Int64} (h : 0 < sides) : 1 ≤ (DiceSource.rollDie dice sides).1
  face_le_sides (dice : δ) {sides : Int64} (h : 0 < sides) :
    (DiceSource.rollDie dice sides).1 ≤ sides

theorem one_le_of_pos {n : Int64} (h : 0 < n) : 1 ≤ n := by
  rw [Int64.lt_iff_toInt_lt] at h
  rw [Int64.le_iff_toInt_le]
  exact h

instance : LawfulDiceSource Script where
  one_le_face _ _ _ := Script.one_le_nearestFace _ _
  face_le_sides _ _ h := Script.nearestFace_le (one_le_of_pos h) _

/-! ## Logs -/

/-- A source of dice with the side counts that it was asked for, in order. -/
structure Logged (δ : Type) where
  dice : δ
  requested : List Int64

namespace Logged

variable {δ : Type} [DiceSource δ]

instance : DiceSource (Logged δ) where
  rollDie logged sides :=
    let (face, dice) := DiceSource.rollDie logged.dice sides
    (face, ⟨dice, logged.requested ++ [sides]⟩)

instance [LawfulDiceSource δ] : LawfulDiceSource (Logged δ) where
  one_le_face logged _ h := LawfulDiceSource.one_le_face logged.dice h
  face_le_sides logged _ h := LawfulDiceSource.face_le_sides logged.dice h

/-- An empty tray beside a source that was asked for nothing yet. -/
def emptyTray (dice : δ) : Tray (Logged δ) :=
  ⟨⟨dice, []⟩, #[]⟩

/-- The tray without the log of its source. -/
def forget (tray : Tray (Logged δ)) : Tray δ :=
  ⟨tray.dice.dice, tray.faces⟩

/-- The two computations do the same but for the log that the first one keeps. -/
def Logs {α : Type} (x : Rolling (Logged δ) α) (y : Rolling δ α) : Prop :=
  ∀ tray, y (forget tray) = ((x tray).1, forget (x tray).2)

omit [DiceSource δ] in
theorem Logs.bind {α β : Type} {x : Rolling (Logged δ) α} {y : Rolling δ α}
    {f : α → Rolling (Logged δ) β} {g : α → Rolling δ β} (hxy : Logs x y)
    (hfg : ∀ a, Logs (f a) (g a)) : Logs (x >>= f) (y >>= g) := by
  intro tray
  rw [run_bind, run_bind, hxy tray]
  rcases x tray with ⟨a | cause, tray'⟩
  · rfl
  · exact hfg _ tray'

theorem rollDice_logs (sides : Int64) (count : Nat) (sum : Int64) (tray : Tray (Logged δ)) :
    (forget tray).rollDice sides count sum =
      ((tray.rollDice sides count sum).1, forget (tray.rollDice sides count sum).2) := by
  induction count generalizing sum tray with
  | zero => rfl
  | succ count ih =>
    show (forget (tray.rollDie sides).2).rollDice sides count _ = _
    exact ih _ _

theorem throwDice_logs (limit : UInt64) (count sides : Int64) :
    Logs (throwDice limit count sides : Rolling (Logged δ) Int64)
      (throwDice limit count sides) := by
  intro tray
  -- A refusal looks at the number of faces only, which a log does not change.
  rw [throwDice_apply, throwDice_apply, rollDice_logs]
  show (if _ then _ else if _ then _ else if limit.toNat < tray.sizeWith count then _ else _) = _
  split
  · rfl
  · split
    · rfl
    · split
      · rfl
      · rfl

/-- A log changes nothing of what is rolled. -/
theorem evaluate_logs (limit : UInt64) (e : Expr) :
    Logs (e.evaluate limit : Rolling (Logged δ) Int64) (e.evaluate limit) := by
  induction e with
  | literal n => exact fun _ => rfl
  | binary op left right ihl ihr => exact ihl.bind fun a => ihr.bind fun b => fun _ => rfl
  | rollOne sides ih => exact ih.bind fun s => throwDice_logs limit 1 s
  | roll count sides ihc ihs => exact ihc.bind fun c => ihs.bind fun s => throwDice_logs limit c s
  | group inner ih => exact ih
  | integer | namedDie | weapon | spell => exact fun _ => rfl
  | critical | advantage | disadvantage | spellAt => exact fun _ => rfl

end Logged

/-! ## Throws of lawful dice -/

namespace Tray

variable {δ : Type} [DiceSource δ] {sides : Int64}

theorem rollDice_succ (count : Nat) (sum : Int64) (tray : Tray δ) :
    tray.rollDice sides (count + 1) sum =
      (tray.rollDie sides).2.rollDice sides count
        (BinaryOp.add.apply sum (tray.rollDie sides).1) := rfl

/-- Dice may be thrown in two throws, one on from where the other ends. -/
theorem rollDice_add (first second : Nat) (sum : Int64) (tray : Tray δ) :
    tray.rollDice sides (first + second) sum =
      (tray.rollDice sides first sum).2.rollDice sides second
        (tray.rollDice sides first sum).1 := by
  induction first generalizing sum tray with
  | zero => rw [Nat.zero_add, rollDice]
  | succ first ih =>
    rw [Nat.add_right_comm, rollDice_succ, rollDice_succ, ih]

variable [LawfulDiceSource δ]

theorem toInt_rollDie_nonneg (hsides : 0 < sides) (tray : Tray δ) :
    0 ≤ (tray.rollDie sides).1.toInt := by
  have hface := LawfulDiceSource.one_le_face tray.dice hsides
  rw [Int64.le_iff_toInt_le] at hface
  show 0 ≤ (DiceSource.rollDie tray.dice sides).1.toInt
  have hone : (1 : Int64).toInt = 1 := rfl
  omega

theorem toInt_rollDice_nonneg (hsides : 0 < sides) (count : Nat) (sum : Int64)
    (hsum : 0 ≤ sum.toInt) (tray : Tray δ) : 0 ≤ (tray.rollDice sides count sum).1.toInt := by
  induction count generalizing sum tray with
  | zero => exact hsum
  | succ count ih =>
    rw [rollDice_succ]
    exact ih _ (BinaryOp.toInt_add_apply_nonneg hsum (toInt_rollDie_nonneg hsides tray)) _

/-- What a throw starts from may as well be added to its sum afterwards. -/
theorem rollDice_sum (hsides : 0 < sides) (count : Nat) (before sum : Int64)
    (hbefore : 0 ≤ before.toInt) (hsum : 0 ≤ sum.toInt) (tray : Tray δ) :
    tray.rollDice sides count (BinaryOp.add.apply before sum) =
      (BinaryOp.add.apply before (tray.rollDice sides count sum).1,
        (tray.rollDice sides count sum).2) := by
  induction count generalizing sum tray with
  | zero => rfl
  | succ count ih =>
    -- The next face joins the sum of this throw before what the throw started from does.
    have hface := toInt_rollDie_nonneg hsides tray
    rw [rollDice_succ, rollDice_succ, BinaryOp.add_apply_assoc hbefore hsum hface]
    exact ih _ (BinaryOp.toInt_add_apply_nonneg hsum hface) _

/-- Dice thrown at once show the faces that they show in two throws, and these add up to the two
sums. -/
theorem rollDice_two_throws (hsides : 0 < sides) (first second : Nat) (tray : Tray δ) :
    tray.rollDice sides (first + second) 0 =
      (BinaryOp.add.apply (tray.rollDice sides first 0).1
          ((tray.rollDice sides first 0).2.rollDice sides second 0).1,
        ((tray.rollDice sides first 0).2.rollDice sides second 0).2) := by
  have hbefore := toInt_rollDice_nonneg hsides first 0 (Int.le_refl 0) tray
  rw [rollDice_add, ← rollDice_sum hsides second _ 0 hbefore (Int.le_refl 0),
    BinaryOp.add_apply_zero]

end Tray

end SpokenDice
