import SpokenDice.Proofs.Dice.Draw

/-!
# The limit on dice, exactly

Where all counts and side counts are known, the dice of an expression are thrown in turn, from left
to right, and nothing else decides whether the roll succeeds but their number. Not a die too many is
rolled, none is refused too early, and the apology tells the first number of dice that is beyond the
limit.

- `Throw`: dice of one kind, and `Expr.throws`: those of an expression, in the order of the roll.
- `evaluate_throws`: rolling the expression is to make its throws in turn.
- `makeThrows_eq_ok` and `makeThrows_eq_error`: what comes of throws within the limit and beyond it.
- `evaluate_within_limit_iff`: the limit is exact.
-/

namespace SpokenDice

/-! ## Throws -/

/-- Dice of one kind that are thrown at once. -/
structure Throw where
  count : Int64
  sides : Int64
  deriving DecidableEq

namespace Throw

/-- How many dice are thrown. -/
def size (throw : Throw) : Nat :=
  throw.count.toInt.toNat

/-- The side counts of the dice. -/
def requests (throw : Throw) : List Int64 :=
  List.replicate throw.size throw.sides

/-- There are dice to be thrown, and they have sides. -/
def Possible (throw : Throw) : Prop :=
  0 < throw.count ∧ 0 < throw.sides

end Throw

/-- How many dice the throws have together. -/
def diceOf : List Throw → Nat
  | [] => 0
  | throw :: throws => throw.size + diceOf throws

/-- The side counts of the dice of all throws, in order. -/
def requestsOf (throws : List Throw) : List Int64 :=
  throws.flatMap Throw.requests

/-- How many dice lie on the tray after each of the throws, from `size` dice on, in unsigned words
of 64 bits. -/
def runningTotals : Nat → List Throw → List Nat
  | _, [] => []
  | size, throw :: throws =>
    let total := min (size + throw.size) 18446744073709551615
    total :: runningTotals total throws

namespace Expr

/-- The throws of the expression, in the order of the roll, where its counts and side counts are
known. -/
def throws : Expr → List Throw
  | .binary _ left right => left.throws ++ right.throws
  | .rollOne (.literal sides) => [⟨1, sides⟩]
  | .roll (.literal count) (.literal sides) => [⟨count, sides⟩]
  | .group inner => inner.throws
  | _ => []

theorem possible_of_mem_throws {e : Expr} (hknown : e.Everywhere KnownDice)
    (hthrown : e.Everywhere Thrown) {throw : Throw} (hthrow : throw ∈ e.throws) :
    throw.Possible := by
  fun_induction throws e with
  | case1 op left right ihl ihr =>
    rcases List.mem_append.mp hthrow with hthrow | hthrow
    · exact ihl hknown.1 hthrown.1 hthrow
    · exact ihr hknown.2.1 hthrown.2.1 hthrow
  | case2 sides =>
    obtain rfl := List.mem_singleton.mp hthrow
    exact ⟨(by decide : (0 : Int64) < 1), hknown.2⟩
  | case3 count sides =>
    obtain rfl := List.mem_singleton.mp hthrow
    exact ⟨hthrown.2.2, hknown.2.2⟩
  | case4 inner ih => exact ih hknown.1 hthrown.1 hthrow
  | case5 => cases hthrow

end Expr

/-! ## Throws in turn -/

section Turns

variable {δ : Type} [DiceSource δ] {limit : UInt64}

/-- Makes throws in turn, and adds up nothing. -/
def makeThrows (limit : UInt64) : List Throw → Rolling δ Unit
  | [] => pure ()
  | throw :: throws => do
    let _ ← throwDice limit throw.count throw.sides
    makeThrows limit throws

theorem makeThrows_append (limit : UInt64) (first second : List Throw) :
    (makeThrows limit (first ++ second) : Rolling δ Unit) =
      (do makeThrows limit first; makeThrows limit second) := by
  induction first with
  | nil => rw [List.nil_append, makeThrows, pure_bind]
  | cons throw first ih => simp only [List.cons_append, makeThrows, ih, bind_assoc]

section Limits

variable {throw : Throw} {throws : List Throw} {tray : Tray δ}

theorem Throw.size_draw (throw : Throw) (tray : Tray δ) :
    (tray.draw throw.requests).faces.size = tray.faces.size + throw.size := by
  rw [Tray.size_draw, Throw.requests, List.length_replicate]

/-- A throw for which there is place within the limit draws its dice. -/
theorem throwDice_eq_draw (hthrow : throw.Possible)
    (hfits : tray.faces.size + throw.size ≤ limit.toNat) :
    ∃ n, throwDice limit throw.count throw.sides tray = (.ok n, tray.draw throw.requests) := by
  have hlimit : ¬ limit.toNat < tray.sizeWith throw.count := by
    rw [Tray.sizeWith]
    rw [Throw.size] at hfits
    omega
  rw [throwDice_eq_rollDice hthrow.1 hthrow.2 hlimit, Tray.rollDice_tray]
  exact ⟨_, rfl⟩

/-- A throw for which there is no place draws nothing, and tells how many dice there would be. -/
theorem throwDice_eq_tooManyDice (hthrow : throw.Possible)
    (hbeyond : limit.toNat < tray.sizeWith throw.count) :
    throwDice limit throw.count throw.sides tray =
      (.error (.tooManyDice (tray.sizeWith throw.count)), tray) := by
  rw [throwDice_apply, if_neg (Int64.not_le.mpr hthrow.1), if_neg (Int64.not_le.mpr hthrow.2),
    if_pos hbeyond]

/-- Throws within the limit draw all their dice. -/
theorem makeThrows_eq_ok (hthrows : ∀ throw ∈ throws, throw.Possible)
    (hfits : tray.faces.size + diceOf throws ≤ limit.toNat) :
    makeThrows limit throws tray = (.ok (), tray.draw (requestsOf throws)) := by
  induction throws generalizing tray with
  | nil =>
    show _ = (_, tray.draw [])
    rw [Tray.draw_nil]
    rfl
  | cons throw throws ih =>
    obtain ⟨hthrow, hrest⟩ := List.forall_mem_cons.mp hthrows
    rw [diceOf] at hfits
    have hplace : tray.faces.size + throw.size ≤ limit.toNat := by omega
    obtain ⟨n, hdraw⟩ := throwDice_eq_draw hthrow hplace
    have hlater : (tray.draw throw.requests).faces.size + diceOf throws ≤ limit.toNat := by
      rw [Throw.size_draw]
      omega
    rw [requestsOf, List.flatMap_cons, ← requestsOf, Tray.draw_append, ← ih hrest hlater,
      makeThrows, run_bind, hdraw]

/-- Throws beyond the limit fail at the first one for which there is no place, once the dice of
those before it are drawn. -/
theorem makeThrows_eq_error (hlimit : limit.toNat < 18446744073709551615)
    (hthrows : ∀ throw ∈ throws, throw.Possible) (hsize : tray.faces.size ≤ limit.toNat)
    (hbeyond : limit.toNat < tray.faces.size + diceOf throws) :
    ∃ k total, (runningTotals tray.faces.size throws)[k]? = some total ∧ limit.toNat < total ∧
      (∀ earlier ∈ (runningTotals tray.faces.size throws).take k, earlier ≤ limit.toNat) ∧
      makeThrows limit throws tray =
        (.error (.tooManyDice total), tray.draw (requestsOf (throws.take k))) := by
  induction throws generalizing tray with
  | nil =>
    rw [diceOf] at hbeyond
    omega
  | cons throw throws ih =>
    obtain ⟨hthrow, hrest⟩ := List.forall_mem_cons.mp hthrows
    have htotal : tray.sizeWith throw.count =
        min (tray.faces.size + throw.size) 18446744073709551615 := rfl
    by_cases hnow : limit.toNat < tray.sizeWith throw.count
    · refine ⟨0, tray.sizeWith throw.count, rfl, hnow, nofun, ?_⟩
      show _ = (_, tray.draw [])
      rw [Tray.draw_nil, makeThrows, run_bind, throwDice_eq_tooManyDice hthrow hnow]
    · -- Below the greatest word the total is exact, and the other throws go on from it.
      have hplace : tray.faces.size + throw.size ≤ limit.toNat := by omega
      obtain ⟨n, hdraw⟩ := throwDice_eq_draw hthrow hplace
      have hdrawn := throw.size_draw tray
      have hexact : tray.sizeWith throw.count = (tray.draw throw.requests).faces.size := by omega
      rw [diceOf] at hbeyond
      have hwithin : (tray.draw throw.requests).faces.size ≤ limit.toNat := by omega
      obtain ⟨k, total, hget, hlater, hfirst, hrun⟩ := ih hrest hwithin (by omega)
      have htotals : runningTotals tray.faces.size (throw :: throws) =
          tray.sizeWith throw.count ::
            runningTotals (tray.draw throw.requests).faces.size throws := by
        rw [runningTotals, ← htotal, hexact]
      rw [htotals]
      refine ⟨k + 1, total, hget, hlater, ?_, ?_⟩
      · rw [List.take_succ_cons]
        exact List.forall_mem_cons.mpr ⟨by omega, hfirst⟩
      · rw [List.take_succ_cons, requestsOf, List.flatMap_cons, ← requestsOf, Tray.draw_append,
          ← hrun, makeThrows, run_bind, hdraw]

end Limits

namespace Expr

/-- Rolling known dice is to make their throws in turn. -/
theorem evaluate_throws {e : Expr} (hknown : e.Everywhere KnownDice) :
    (do let _ ← e.evaluate limit; pure ()) = (makeThrows limit e.throws : Rolling δ Unit) := by
  induction e with
  | literal n => simp only [evaluate, throws, makeThrows, pure_bind]
  | binary op left right ihl ihr =>
    rw [throws, makeThrows_append, ← ihl hknown.1, ← ihr hknown.2.1]
    simp only [evaluate, bind_assoc, pure_bind]
  | group inner ih => exact ih hknown.1
  | rollOne sides =>
    cases sides with
    | literal s => simp only [evaluate, throws, makeThrows, pure_bind]
    | _ => simp [KnownDice, kind] at hknown
  | roll count sides =>
    cases count with
    | literal n =>
      cases sides with
      | literal s => simp only [evaluate, throws, makeThrows, pure_bind]
      | _ => simp [KnownDice, kind] at hknown
    | _ => simp [KnownDice, kind] at hknown
  | integer | namedDie | weapon | spell => simp [KnownDice, kind] at hknown
  | critical | advantage | disadvantage | spellAt => simp [KnownDice, kind] at hknown

/-- The limit is exact. Where all counts and side counts are positive literals, and the faces on the
tray are within a limit that words of 64 bits can exceed, the roll succeeds just when there is place
for all dice besides those faces. Otherwise it fails for the first running total of its throws that
is beyond the limit, which the apology tells, and the dice of the throws before that one, and no
others, are drawn. -/
theorem evaluate_within_limit_iff (hlimit : limit.toNat < 18446744073709551615) {e : Expr}
    (hknown : e.Everywhere KnownDice) (hthrown : e.Everywhere Thrown) {tray : Tray δ}
    (hsize : tray.faces.size ≤ limit.toNat) :
    ((∃ n, (e.evaluate limit tray).1 = .ok n) ↔
        tray.faces.size + diceOf e.throws ≤ limit.toNat) ∧
      (limit.toNat < tray.faces.size + diceOf e.throws →
        ∃ k total, (runningTotals tray.faces.size e.throws)[k]? = some total ∧
          limit.toNat < total ∧
          (∀ earlier ∈ (runningTotals tray.faces.size e.throws).take k, earlier ≤ limit.toNat) ∧
          e.evaluate limit tray =
            (.error (.tooManyDice total), tray.draw (requestsOf (e.throws.take k))) ∧
          DiceImpossible (.tooManyDice total) ∧
          (RollError.tooManyDice total).message =
            "Sorry, I couldn't roll " ++ toString total ++ " dice.") := by
  have hthrows : ∀ throw ∈ e.throws, throw.Possible :=
    fun throw => possible_of_mem_throws hknown hthrown
  have hrun : (do let _ ← e.evaluate limit; pure () : Rolling δ Unit) tray =
      makeThrows limit e.throws tray := congrFun (evaluate_throws hknown) tray
  rw [run_bind] at hrun
  by_cases hfits : tray.faces.size + diceOf e.throws ≤ limit.toNat
  · rw [makeThrows_eq_ok hthrows hfits] at hrun
    generalize e.evaluate limit tray = r at hrun ⊢
    obtain ⟨cause | n, tray'⟩ := r
    · cases (Prod.mk.inj hrun).1
    · exact ⟨⟨fun _ => hfits, fun _ => ⟨n, rfl⟩⟩, fun hbeyond => by omega⟩
  · obtain ⟨k, total, hget, hbeyond, hfirst, herror⟩ :=
      makeThrows_eq_error hlimit hthrows hsize (Nat.not_le.mp hfits)
    rw [herror] at hrun
    generalize e.evaluate limit tray = r at hrun ⊢
    obtain ⟨cause | n, tray'⟩ := r
    · obtain ⟨hcause, rfl⟩ := Prod.mk.inj hrun
      obtain rfl := Except.error.inj hcause
      exact ⟨⟨nofun, fun h => absurd h hfits⟩,
        fun _ => ⟨k, total, hget, hbeyond, hfirst, rfl, rfl, rfl⟩⟩
    · cases (Prod.mk.inj hrun).1

/-- Six dice in three throws: two dice, and a die times three dice. -/
def sixDice : Expr :=
  .binary .add (.roll (.literal 2) (.literal 6))
    (.group (.binary .mul (.rollOne (.literal 4)) (.roll (.literal 3) (.literal 8))))

/-- Beside one face on the tray, the last throw would be of the fifth to seventh dice. -/
theorem evaluate_six_dice_within_five :
    let tray : Tray Script := ⟨.ofFaces [4], #[1]⟩
    runningTotals 1 sixDice.throws = [3, 4, 7] ∧ ¬ (∃ n, (sixDice.evaluate 5 tray).1 = .ok n) ∧
      sixDice.evaluate 5 tray = (.error (.tooManyDice 7), tray.draw [6, 6, 4]) := by
  intro tray
  have hknown : sixDice.Everywhere KnownDice := by
    simp [sixDice, KnownDice, kind]
  have hthrown : sixDice.Everywhere Thrown := by
    simp [sixDice, Thrown]
  have htotals : runningTotals tray.faces.size sixDice.throws = [3, 4, 7] := by decide
  have hdice : tray.faces.size + diceOf sixDice.throws = 7 := by decide
  have hlimit : (5 : UInt64).toNat < 18446744073709551615 := by decide
  have hsize : tray.faces.size ≤ (5 : UInt64).toNat := by decide
  obtain ⟨hiff, hbeyond⟩ := evaluate_within_limit_iff hlimit hknown hthrown hsize
  rw [hdice] at hiff hbeyond
  rw [htotals] at hbeyond
  obtain ⟨k, total, hget, htotal, -, hrun, -⟩ := hbeyond (by decide)
  have hlast : total = 7 ∧ k = 2 := by
    rcases k with _ | _ | _ | k
    · cases hget
      exact absurd htotal (by decide)
    · cases hget
      exact absurd htotal (by decide)
    · cases hget
      exact ⟨rfl, rfl⟩
    · cases hget
  obtain ⟨rfl, rfl⟩ := hlast
  exact ⟨htotals, fun h => absurd (hiff.mp h) (by decide), hrun⟩

end Expr

end Turns

end SpokenDice
