import SpokenDice.Proofs.Dice.Draw

/-!
# Better faces

Where the counts and side counts of all dice are known, nothing is subtracted and no number is
negative, the faces decide neither which dice are rolled nor whether the roll fails, and better
faces never make a lower total. So the total lies between those of the lowest and of the highest
faces.

- `BinaryOp.apply_noLess`: arithmetic of greater numbers is not less, also where it saturates.
- `Better`: die by die, one source shows at least the face that another one shows.
- `Compared`: two rolls that draw the same dice, and that both fail for one cause or have values of
  which the second is not less.
- `evaluate_compared`: what the parts of an expression have in common, the expression has.
- `evaluate_better_faces`: two sources, and the sources of the lowest and the highest faces.
-/

namespace SpokenDice

/-! ## Greater numbers -/

/-- The first number is not negative, and the second one is not less. -/
structure NoLess (a b : Int64) : Prop where
  nonneg : 0 ≤ a.toInt
  le : a.toInt ≤ b.toInt

theorem NoLess.refl {a : Int64} (h : 0 ≤ a.toInt) : NoLess a a :=
  ⟨h, Int.le_refl _⟩

theorem toInt_saturate_mono {a b : Int} (h : a ≤ b) :
    (saturate a).toInt ≤ (saturate b).toInt := by
  rw [toInt_saturate, toInt_saturate]
  omega

namespace BinaryOp

theorem exact_nonneg {op : BinaryOp} (hop : op ≠ .sub) {a b : Int} (ha : 0 ≤ a) (hb : 0 ≤ b) :
    0 ≤ op.exact a b := by
  cases op with
  | add => exact Int.add_nonneg ha hb
  | sub => exact absurd rfl hop
  | mul => exact Int.mul_nonneg ha hb
  | max => exact Int.le_trans ha (Int.le_max_left a b)
  | min => exact Int.le_min.mpr ⟨ha, hb⟩

theorem exact_mono {op : BinaryOp} (hop : op ≠ .sub) {a a' b b' : Int} (ha : 0 ≤ a) (hb : 0 ≤ b)
    (haa' : a ≤ a') (hbb' : b ≤ b') : op.exact a b ≤ op.exact a' b' := by
  cases op with
  | add => exact Int.add_le_add haa' hbb'
  | sub => exact absurd rfl hop
  | mul => exact Int.mul_le_mul haa' hbb' hb (Int.le_trans ha haa')
  | max =>
    show Max.max a b ≤ Max.max a' b'
    omega
  | min =>
    show Min.min a b ≤ Min.min a' b'
    omega

/-- But for differences, arithmetic of greater numbers is not less. -/
theorem apply_noLess {op : BinaryOp} (hop : op ≠ .sub) {a a' b b' : Int64} (ha : NoLess a a')
    (hb : NoLess b b') : NoLess (op.apply a b) (op.apply a' b') := by
  constructor
  · exact toInt_saturate_nonneg (exact_nonneg hop ha.nonneg hb.nonneg)
  · exact toInt_saturate_mono (exact_mono hop ha.nonneg hb.nonneg ha.le hb.le)

end BinaryOp

/-! ## Better sources -/

section Sources

open DiceSource (draw rollDie)

variable {δ ε : Type} [DiceSource δ] [DiceSource ε]

/-- Asked for these dice, both sources show faces that the dice have, and the second one never a
lower face than the first one. -/
def Better : List Int64 → δ → ε → Prop
  | [], _, _ => True
  | sides :: requests, f, g =>
    (1 ≤ (rollDie f sides).1 ∧ (rollDie f sides).1 ≤ (rollDie g sides).1 ∧
      (rollDie g sides).1 ≤ sides) ∧ Better requests (rollDie f sides).2 (rollDie g sides).2

/-- Faces are compared one by one. -/
theorem better_of_draw {requests : List Int64} {f : δ} {g : ε}
    (h : ∀ (k : Nat) (sides a b : Int64), requests[k]? = some sides →
      (draw f requests).1[k]? = some a → (draw g requests).1[k]? = some b →
        1 ≤ a ∧ a ≤ b ∧ b ≤ sides) : Better requests f g := by
  induction requests generalizing f g with
  | nil => trivial
  | cons sides requests ih =>
    constructor
    · exact h 0 sides _ _ rfl rfl rfl
    · refine ih fun k s a b hs ha hb => h (k + 1) s a b ?_ ?_ ?_
      · rwa [List.getElem?_cons_succ]
      · rwa [draw, List.getElem?_cons_succ]
      · rwa [draw, List.getElem?_cons_succ]

theorem better_append {first second : List Int64} {f : δ} {g : ε} :
    Better (first ++ second) f g ↔
      Better first f g ∧ Better second (draw f first).2 (draw g first).2 := by
  induction first generalizing f g with
  | nil => simp [Better, draw]
  | cons sides first ih => simp only [List.cons_append, Better, ih, draw, and_assoc]

/-- A source whose dice show the face that is chosen for their side count. -/
structure ChosenFaces where
  face : Int64 → Int64

instance : DiceSource ChosenFaces :=
  ⟨fun dice sides => (dice.face sides, dice)⟩

/-- Every die shows a 1. -/
def lowestFaces : ChosenFaces :=
  ⟨fun _ => 1⟩

/-- Every die shows as much as it has sides. -/
def highestFaces : ChosenFaces :=
  ⟨fun sides => sides⟩

theorem Better.lowestFaces {requests : List Int64} {f : δ} {g : ε} (h : Better requests f g) :
    Better requests lowestFaces f := by
  induction requests generalizing f g with
  | nil => trivial
  | cons sides requests ih =>
    obtain ⟨⟨hone, hle, hsides⟩, hrest⟩ := h
    exact ⟨⟨Int64.le_refl 1, hone, Int64.le_trans hle hsides⟩, ih hrest⟩

theorem Better.highestFaces {requests : List Int64} {f : δ} {g : ε} (h : Better requests f g) :
    Better requests g highestFaces := by
  induction requests generalizing f g with
  | nil => trivial
  | cons sides requests ih =>
    obtain ⟨⟨hone, hle, hsides⟩, hrest⟩ := h
    exact ⟨⟨Int64.le_trans hone hle, hsides, Int64.le_refl sides⟩, ih hrest⟩

/-! ## Rolls that are compared -/

/-- Of these dice, both rolls draw the same ones, in the same order. Either they draw all of them
and the second value is not less than the first one, or both rolls fail for one cause and draw those
that come before it. -/
inductive Compared (requests : List Int64) (f : Tray δ) (g : Tray ε) :
    Except RollError Int64 × Tray δ → Except RollError Int64 × Tray ε → Prop
  | ok {a b : Int64} (h : NoLess a b) :
      Compared requests f g (.ok a, f.draw requests) (.ok b, g.draw requests)
  | error (cause : RollError) {drawn : List Int64} (h : drawn <+: requests) :
      Compared requests f g (.error cause, f.draw drawn) (.error cause, g.draw drawn)

variable {limit : UInt64} {f : Tray δ} {g : Tray ε}

/-- A throw whose dice all show better faces is worth no less. -/
theorem rollDice_noLess {sides : Int64} {count : Nat}
    (h : Better (List.replicate count sides) f.dice g.dice) {sum sum' : Int64}
    (hsum : NoLess sum sum') :
    NoLess (f.rollDice sides count sum).1 (g.rollDice sides count sum').1 := by
  induction count generalizing f g sum sum' with
  | zero => exact hsum
  | succ count ih =>
    obtain ⟨⟨hone, hle, -⟩, hrest⟩ := h
    rw [Int64.le_iff_toInt_le] at hone hle
    have hface : NoLess (f.rollDie sides).1 (g.rollDie sides).1 :=
      ⟨Int.le_trans (by decide : (0 : Int) ≤ (1 : Int64).toInt) hone, hle⟩
    exact ih (f := (f.rollDie sides).2) (g := (g.rollDie sides).2) hrest
      (BinaryOp.apply_noLess (by decide) hsum hface)

theorem throwDice_compared {count sides : Int64} (hcount : 0 < count) (hsides : 0 < sides)
    (hsize : f.faces.size = g.faces.size)
    (h : Better (List.replicate count.toInt.toNat sides) f.dice g.dice) :
    Compared (List.replicate count.toInt.toNat sides) f g (throwDice limit count sides f)
      (throwDice limit count sides g) := by
  have hsizes : f.sizeWith count = g.sizeWith count := by rw [Tray.sizeWith, Tray.sizeWith, hsize]
  by_cases hlimit : limit.toNat < f.sizeWith count
  · -- The throw is refused for the number of dice, which is the same for both.
    have hrefused {ζ : Type} [DiceSource ζ] {tray : Tray ζ}
        (htray : f.sizeWith count = tray.sizeWith count) :
        throwDice limit count sides tray =
          (.error (.tooManyDice (f.sizeWith count)), tray.draw []) := by
      rw [throwDice_apply, if_neg (Int64.not_le.mpr hcount), if_neg (Int64.not_le.mpr hsides),
        ← htray, if_pos hlimit, Tray.draw_nil]
    rw [hrefused rfl, hrefused hsizes]
    exact .error _ (List.nil_prefix ..)
  · have hlimit' : ¬ limit.toNat < g.sizeWith count := hsizes ▸ hlimit
    rw [throwDice_eq_rollDice hcount hsides hlimit, throwDice_eq_rollDice hcount hsides hlimit',
      Tray.rollDice_tray, Tray.rollDice_tray]
    exact .ok (rollDice_noLess h (.refl (by decide)))

namespace Expr

/-- The side counts of the dice that the expression rolls, in order, where its counts and side
counts are known. -/
def requests : Expr → List Int64
  | .binary _ left right => left.requests ++ right.requests
  | .rollOne (.literal sides) => [sides]
  | .roll (.literal count) (.literal sides) => List.replicate count.toInt.toNat sides
  | .group inner => inner.requests
  | _ => []

/-- The node is a number that is not negative, arithmetic other than a difference, a group, or dice
whose count and side count are positive literals. -/
def Rising : Expr → Prop
  | .literal n => 0 ≤ n
  | .binary op _ _ => op ≠ .sub
  | .rollOne sides => ∃ s, sides = .literal s ∧ 0 < s
  | .roll count sides => ∃ n s, count = .literal n ∧ sides = .literal s ∧ 0 < n ∧ 0 < s
  | .group _ => True
  | _ => False

theorem evaluate_compared {e : Expr} (he : e.Everywhere Rising)
    (hsize : f.faces.size = g.faces.size) (h : Better e.requests f.dice g.dice) :
    Compared e.requests f g (e.evaluate limit f) (e.evaluate limit g) := by
  induction e generalizing f g with
  | literal n =>
    have hn : NoLess n n := .refl (Int64.le_iff_toInt_le.mp he)
    have hvalue {ζ : Type} [DiceSource ζ] (tray : Tray ζ) :
        (literal n).evaluate limit tray = (.ok n, tray.draw []) := by
      rw [Tray.draw_nil]
      rfl
    rw [hvalue, hvalue]
    exact .ok hn
  | binary op left right ihl ihr =>
    obtain ⟨hleft, hright, hop⟩ := he
    obtain ⟨hfirst, hsecond⟩ := better_append.mp h
    have hl := ihl hleft hsize hfirst
    show Compared _ f g ((left.evaluate limit >>= _) f) ((left.evaluate limit >>= _) g)
    rw [run_bind, run_bind]
    generalize left.evaluate limit f = r at hl
    generalize left.evaluate limit g = r' at hl
    cases hl with
    | error cause hdrawn => exact .error cause (hdrawn.trans (List.prefix_append ..))
    | @ok a b hab =>
      -- The right operand goes on where the left one has left the two trays.
      have hsize' : (f.draw left.requests).faces.size = (g.draw left.requests).faces.size := by
        rw [Tray.size_draw, Tray.size_draw, hsize]
      have hr := ihr hright hsize' hsecond
      show Compared _ f g ((right.evaluate limit >>= _) _) ((right.evaluate limit >>= _) _)
      rw [run_bind, run_bind]
      generalize right.evaluate limit (f.draw left.requests) = r at hr
      generalize right.evaluate limit (g.draw left.requests) = r' at hr
      cases hr with
      | error cause hdrawn =>
        rw [← Tray.draw_append, ← Tray.draw_append]
        exact .error cause ((List.prefix_append_right_inj _).mpr hdrawn)
      | ok hab' =>
        rw [← Tray.draw_append, ← Tray.draw_append]
        exact .ok (BinaryOp.apply_noLess hop hab hab')
  | rollOne sides =>
    obtain ⟨-, s, rfl, hs⟩ := he
    exact throwDice_compared (by decide : (0 : Int64) < 1) hs hsize h
  | roll count sides =>
    obtain ⟨-, -, n, s, rfl, rfl, hn, hs⟩ := he
    exact throwDice_compared hn hs hsize h
  | group inner ih => exact ih he.1 hsize h
  | integer | namedDie | weapon | spell => exact he.elim
  | critical | advantage | disadvantage | spellAt => exact he.2.elim

/-- Better faces never lower the total: where nothing is subtracted or negative and all counts and
side counts are positive literals, two sources are asked for the same dice in the same order, both
rolls fail for the same cause or both have a value, and if no face of the second source is lower,
its total is not. Whatever the faces, the total is not lower than that of dice that all show 1, and
not higher than that of dice that all show their side counts. -/
theorem evaluate_better_faces {e : Expr} (he : e.Everywhere Rising)
    (hsize : f.faces.size = g.faces.size)
    (hfaces : ∀ (k : Nat) (sides a b : Int64), e.requests[k]? = some sides →
      (draw f.dice e.requests).1[k]? = some a → (draw g.dice e.requests).1[k]? = some b →
        1 ≤ a ∧ a ≤ b ∧ b ≤ sides) (limit : UInt64) :
    let lowest : Tray ChosenFaces := ⟨lowestFaces, f.faces⟩
    let highest : Tray ChosenFaces := ⟨highestFaces, g.faces⟩
    Compared e.requests lowest f (e.evaluate limit lowest) (e.evaluate limit f) ∧
      Compared e.requests f g (e.evaluate limit f) (e.evaluate limit g) ∧
        Compared e.requests g highest (e.evaluate limit g) (e.evaluate limit highest) := by
  intro lowest highest
  have h : Better e.requests f.dice g.dice := better_of_draw hfaces
  exact ⟨evaluate_compared he rfl h.lowestFaces, evaluate_compared he hsize h,
    evaluate_compared he rfl h.highestFaces⟩

/-- Two dice and a bonus, as often as a die says that is taken for a 2 at least. -/
def boostedDice : Expr :=
  .binary .mul (.group (.binary .add (.roll (.literal 2) (.literal 6)) (.literal 3)))
    (.binary .max (.rollOne (.literal 4)) (.literal 2))

/-- The second script shows better faces for the two dice, and the same for the last one. -/
theorem evaluate_better_faces_boosted :
    let f : Tray Script := ⟨.ofFaces [1, 2, 3], #[]⟩
    let g : Tray Script := ⟨.ofFaces [4, 6, 3], #[]⟩
    (boostedDice.evaluate 3 f).1 = .ok 18 ∧ (boostedDice.evaluate 3 g).1 = .ok 39 ∧
      Compared [6, 6, 4] f g (boostedDice.evaluate 3 f) (boostedDice.evaluate 3 g) := by
  intro f g
  have hrising : boostedDice.Everywhere Rising := by
    simp [boostedDice, Rising]
  have hfaces : ∀ (k : Nat) (sides a b : Int64), boostedDice.requests[k]? = some sides →
      (draw f.dice boostedDice.requests).1[k]? = some a →
        (draw g.dice boostedDice.requests).1[k]? = some b → 1 ≤ a ∧ a ≤ b ∧ b ≤ sides := by
    intro k sides a b hsides ha hb
    rcases k with _ | _ | _ | k
    · cases hsides
      cases ha
      cases hb
      decide
    · cases hsides
      cases ha
      cases hb
      decide
    · cases hsides
      cases ha
      cases hb
      decide
    · cases hsides
  have hrequests : boostedDice.requests = [6, 6, 4] := by decide
  obtain ⟨-, hcompared, -⟩ := evaluate_better_faces (f := f) (g := g) hrising rfl hfaces 3
  rw [hrequests] at hcompared
  exact ⟨rfl, rfl, hcompared⟩

end Expr

end Sources

end SpokenDice
