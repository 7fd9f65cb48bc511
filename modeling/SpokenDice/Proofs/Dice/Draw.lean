import SpokenDice.Proofs.Dice.Simplify

/-!
# Sums of dice

Which dice a sum throws, in which order, and what they add up to, for any lawful source. Until
something saturates, the total is the sum of the faces and of the constants in the expression; and
as neither is negative, it does not matter where it saturates.

- `DiceSource.draw`: the faces that a source shows for dice of these side counts.
- `Tray.rollDice_eq`: a throw draws as many dice of one kind.
- `Expr.Throws`: the dice and the constant of an expression, composed by `Throws.add`, and kept by
  simplification (`Throws.simplify`).
-/

namespace SpokenDice

/-- The exact sum of the faces. -/
def faceSum (faces : List Int64) : Int :=
  (faces.map Int64.toInt).sum

theorem faceSum_append (faces faces' : List Int64) :
    faceSum (faces ++ faces') = faceSum faces + faceSum faces' := by
  simp [faceSum]

/-! ## Drawing dice -/

section Drawing

variable {δ : Type} [DiceSource δ]

/-- Rolls a die of each of these side counts, and gives their faces and what is left. -/
def DiceSource.draw : δ → List Int64 → List Int64 × δ
  | dice, [] => ([], dice)
  | dice, sides :: requests =>
    let (face, dice) := rollDie dice sides
    let (faces, dice) := draw dice requests
    (face :: faces, dice)

open DiceSource (draw)

theorem draw_append (dice : δ) (first second : List Int64) :
    draw dice (first ++ second) =
      ((draw dice first).1 ++ (draw (draw dice first).2 second).1,
        (draw (draw dice first).2 second).2) := by
  induction first generalizing dice with
  | nil => rfl
  | cons sides first ih => simp only [List.cons_append, draw, ih]

/-- Every die shows one face. -/
theorem length_draw (dice : δ) (requests : List Int64) :
    (draw dice requests).1.length = requests.length := by
  induction requests generalizing dice with
  | nil => rfl
  | cons sides requests ih => simp only [draw, List.length_cons, ih]

theorem faceSum_draw_nonneg [LawfulDiceSource δ] {requests : List Int64}
    (hrequests : ∀ sides ∈ requests, 0 < sides) (dice : δ) :
    0 ≤ faceSum (draw dice requests).1 := by
  induction requests generalizing dice with
  | nil => exact Int.le_refl 0
  | cons sides requests ih =>
    obtain ⟨hsides, hrest⟩ := List.forall_mem_cons.mp hrequests
    have hface := LawfulDiceSource.one_le_face dice hsides
    have hsum := ih hrest (DiceSource.rollDie dice sides).2
    rw [Int64.le_iff_toInt_le] at hface
    have hone : (1 : Int64).toInt = 1 := rfl
    simp only [faceSum, draw, List.map_cons, List.sum_cons] at hsum ⊢
    omega

/-- The log of a source holds the dice that were drawn. -/
theorem Logged.draw_eq (dice : δ) (log requests : List Int64) :
    draw (Logged.mk dice log) requests =
      ((draw dice requests).1, ⟨(draw dice requests).2, log ++ requests⟩) := by
  induction requests generalizing dice log with
  | nil => simp [draw]
  | cons sides requests ih =>
    have hroll : DiceSource.rollDie (Logged.mk dice log) sides =
        ((DiceSource.rollDie dice sides).1,
          ⟨(DiceSource.rollDie dice sides).2, log ++ [sides]⟩) := rfl
    simp only [draw, hroll, ih, List.append_assoc, List.singleton_append]

/-- The tray after dice of these side counts. -/
def Tray.draw (tray : Tray δ) (requests : List Int64) : Tray δ :=
  let (faces, dice) := DiceSource.draw tray.dice requests
  ⟨dice, tray.faces ++ faces.toArray⟩

theorem Tray.draw_nil (tray : Tray δ) : tray.draw [] = tray := by
  simp [Tray.draw, DiceSource.draw]

theorem Tray.draw_append (tray : Tray δ) (first second : List Int64) :
    tray.draw (first ++ second) = (tray.draw first).draw second := by
  simp [Tray.draw, SpokenDice.draw_append]

theorem Tray.size_draw (tray : Tray δ) (requests : List Int64) :
    (tray.draw requests).faces.size = tray.faces.size + requests.length := by
  simp [Tray.draw, length_draw]

theorem Tray.draw_cons (tray : Tray δ) (sides : Int64) (requests : List Int64) :
    tray.draw (sides :: requests) = (tray.rollDie sides).2.draw requests := by
  simp [Tray.draw, Tray.rollDie, DiceSource.draw]

/-- A throw draws its dice. -/
theorem Tray.rollDice_tray (sides : Int64) (count : Nat) (sum : Int64) (tray : Tray δ) :
    (tray.rollDice sides count sum).2 = tray.draw (List.replicate count sides) := by
  induction count generalizing sum tray with
  | zero => exact (Tray.draw_nil tray).symm
  | succ count ih => rw [rollDice_succ, ih, List.replicate_succ, Tray.draw_cons]

/-- A throw draws its dice and adds up their faces. -/
theorem Tray.rollDice_eq [LawfulDiceSource δ] {sides : Int64} (hsides : 0 < sides) (count : Nat)
    (sum : Int64) (hsum : 0 ≤ sum.toInt) (tray : Tray δ) :
    (tray.rollDice sides count sum).2 = tray.draw (List.replicate count sides) ∧
      (tray.rollDice sides count sum).1.toInt =
        min (sum.toInt + faceSum (DiceSource.draw tray.dice (List.replicate count sides)).1)
          9223372036854775807 := by
  refine ⟨Tray.rollDice_tray sides count sum tray, ?_⟩
  induction count generalizing sum tray with
  | zero =>
    have hhigh := (inRange_toInt sum).2
    simp only [Tray.rollDice, List.replicate_zero, DiceSource.draw, faceSum, List.map_nil,
      List.sum_nil]
    omega
  | succ count ih =>
    have hface := toInt_rollDie_nonneg hsides tray
    have hsum' := BinaryOp.toInt_add_apply hsum hface
    have htotal := ih _ (BinaryOp.toInt_add_apply_nonneg hsum hface) (tray.rollDie sides).2
    have hrest : 0 ≤ faceSum (DiceSource.draw (tray.rollDie sides).2.dice
        (List.replicate count sides)).1 :=
      faceSum_draw_nonneg (fun s hs => List.eq_of_mem_replicate hs ▸ hsides) _
    have hfaces : faceSum (DiceSource.draw tray.dice (List.replicate (count + 1) sides)).1 =
        (tray.rollDie sides).1.toInt +
          faceSum (DiceSource.draw (tray.rollDie sides).2.dice
            (List.replicate count sides)).1 := rfl
    rw [rollDice_succ, htotal, hsum', hfaces]
    omega

end Drawing

/-! ## Expressions that throw dice -/

namespace Expr

open DiceSource (draw)

/-- Within the limit, and whatever the source, the expression throws dice of these side counts in
this order, and its value is the sum of their faces and the constant, as far as there are numbers
of 64 bits. -/
structure Throws (limit : UInt64) (e : Expr) (requests : List Int64) (constant : Int) : Prop where
  sides_pos : ∀ sides ∈ requests, 0 < sides
  constant_nonneg : 0 ≤ constant
  evaluate_eq_ok : ∀ {δ : Type} [DiceSource δ] [LawfulDiceSource δ] (tray : Tray δ),
    tray.faces.size + requests.length ≤ limit.toNat →
      ∃ total, e.evaluate limit tray = (.ok total, tray.draw requests) ∧
        total.toInt = min (faceSum (draw tray.dice requests).1 + constant) 9223372036854775807

variable {limit : UInt64}

theorem throws_literal {n : Int64} (hn : 0 ≤ n.toInt) : Throws limit (literal n) [] n.toInt := by
  refine ⟨nofun, hn, fun tray _ => ⟨n, ?_, ?_⟩⟩
  · simp [Tray.draw, draw]
    rfl
  · have hhigh := (inRange_toInt n).2
    simp only [draw, faceSum, List.map_nil, List.sum_nil]
    omega

theorem throws_roll {count sides : Int64} (hcount : 0 < count) (hsides : 0 < sides) :
    Throws limit (roll (.literal count) (.literal sides))
      (List.replicate count.toInt.toNat sides) 0 := by
  refine ⟨fun s hs => List.eq_of_mem_replicate hs ▸ hsides, Int.le_refl 0, fun tray hlimit => ?_⟩
  rw [List.length_replicate] at hlimit
  have hfits : ¬ limit.toNat < tray.sizeWith count := by
    rw [Tray.sizeWith]
    omega
  obtain ⟨htray, htotal⟩ :=
    Tray.rollDice_eq hsides count.toInt.toNat 0 (Int.le_refl 0) tray
  rw [evaluate_roll_literal rfl, throwDice_eq_rollDice hcount hsides hfits, htray]
  refine ⟨_, rfl, htotal.trans ?_⟩
  rw [Int64.toInt_zero, Int.zero_add, Int.add_zero]

namespace Throws

variable {left right e : Expr} {first second requests : List Int64} {a b constant : Int}

/-- A sum throws the dice of its operands, one after the other. -/
theorem add (hleft : Throws limit left first a) (hright : Throws limit right second b) :
    Throws limit (binary .add left right) (first ++ second) (a + b) := by
  constructor
  · intro sides hsides
    exact (List.mem_append.mp hsides).elim (hleft.sides_pos sides) (hright.sides_pos sides)
  · exact Int.add_nonneg hleft.constant_nonneg hright.constant_nonneg
  · intro δ _ _ tray hlimit
    rw [List.length_append] at hlimit
    obtain ⟨n, hl, hn⟩ := hleft.evaluate_eq_ok tray (by omega)
    obtain ⟨m, hr, hm⟩ := hright.evaluate_eq_ok (tray.draw first) (by
      rw [Tray.size_draw]
      omega)
    refine ⟨BinaryOp.add.apply n m, ?_, ?_⟩
    · rw [Tray.draw_append]
      exact run_bind_eq_ok_iff.mpr ⟨n, _, hl, run_bind_eq_ok_iff.mpr ⟨m, _, hr, rfl⟩⟩
    · -- Neither operand is negative, so a sum that saturates early stays saturated.
      have hfirst := faceSum_draw_nonneg hleft.sides_pos tray.dice
      have hsecond := faceSum_draw_nonneg hright.sides_pos (tray.draw first).dice
      have ha := hleft.constant_nonneg
      have hb := hright.constant_nonneg
      rw [BinaryOp.toInt_add_apply (by omega) (by omega), hn, hm, SpokenDice.draw_append,
        faceSum_append]
      show min _ _ = min (faceSum (draw tray.dice first).1 +
        faceSum (draw (tray.draw first).dice second).1 + (a + b)) _
      omega

/-- Simplification keeps what an expression throws. -/
theorem simplify (h : Throws limit e requests constant)
    (hlimit : limit.toNat < 9223372036854775807) (hkinds : e.Avoids [.token, .modifier, .reference])
    (hdice : e.Everywhere SteadyDice) : Throws limit e.simplify requests constant := by
  refine ⟨h.sides_pos, h.constant_nonneg, fun {δ} _ _ tray hfits => ?_⟩
  obtain ⟨total, heval, htotal⟩ := h.evaluate_eq_ok tray hfits
  have hagrees := (simplifies (δ := δ) hlimit hkinds hdice).agrees tray
  rw [heval] at hagrees
  refine ⟨total, ?_, htotal⟩
  generalize e.simplify.evaluate limit tray = r at hagrees
  cases hagrees with
  | ok => rfl

end Throws

end Expr

end SpokenDice
