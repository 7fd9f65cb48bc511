import Mathlib.Algebra.GroupWithZero.Nat
import SpokenDice.Proofs.Dice.Accounting

/-!
# Sums of dice whose sides are rolled

The side count of a die may be rolled itself, as in `d d6`. When such dice are added up, each of
them rolls its own side count. Simplification makes one roll of two that look alike, and so the
dice for the side count of the second one are never rolled.

- `evaluate_simplify_eq_ok`: where no side count of such a sum is rolled, simplification keeps what
  is rolled.
- `sharedDice`: the dice that are never rolled, when all counts are known.
- `faces_of_simplify`: how many dice a simplified expression rolls.
-/

namespace SpokenDice

variable {δ : Type} [DiceSource δ] {limit : UInt64}

/-! ## Throws that succeed -/

theorem throwDice_eq_ok_iff {count sides n : Int64} {tray after : Tray δ} :
    throwDice limit count sides tray = (.ok n, after) ↔
      0 < count ∧ 0 < sides ∧ ¬ limit.toNat < tray.sizeWith count ∧
        tray.rollDice sides count.toInt.toNat 0 = (n, after) := by
  constructor
  · intro h
    rw [throwDice_apply] at h
    split at h
    · cases (Prod.mk.inj h).1
    · split at h
      · cases (Prod.mk.inj h).1
      · split at h
        · cases (Prod.mk.inj h).1
        · rename_i hcount hsides hfits
          obtain ⟨hn, hafter⟩ := Prod.mk.inj h
          exact ⟨Int64.not_le.mp hcount, Int64.not_le.mp hsides, hfits,
            Prod.ext (Except.ok.inj hn) hafter⟩
  · rintro ⟨hcount, hsides, hfits, hroll⟩
    rw [throwDice_eq_rollDice hcount hsides hfits, hroll]

/-- A throw that succeeds puts its dice on the tray. -/
theorem size_of_throwDice_eq_ok {count sides n : Int64} {tray after : Tray δ}
    (h : throwDice limit count sides tray = (.ok n, after)) :
    after.faces.size = tray.faces.size + count.toInt.toNat := by
  obtain ⟨-, -, -, hroll⟩ := throwDice_eq_ok_iff.mp h
  have hsize := Tray.size_rollDice sides count.toInt.toNat 0 tray
  rwa [hroll] at hsize

/-- Two throws of one kind that succeed are one throw, unless there are more dice than a count can
say. -/
theorem throwDice_add_eq_ok [LawfulDiceSource δ] {first second sides a b : Int64}
    {tray mid after : Tray δ} (hfirst : throwDice limit first sides tray = (.ok a, mid))
    (hsecond : throwDice limit second sides mid = (.ok b, after))
    (hsize : after.faces.size ≤ 9223372036854775807) :
    throwDice limit (BinaryOp.add.apply first second) sides tray =
      (.ok (BinaryOp.add.apply a b), after) := by
  have hmid := size_of_throwDice_eq_ok hfirst
  have hafter := size_of_throwDice_eq_ok hsecond
  obtain ⟨hm, hsides, -, hroll⟩ := throwDice_eq_ok_iff.mp hfirst
  obtain ⟨hn, -, hfits, hroll'⟩ := throwDice_eq_ok_iff.mp hsecond
  have h₁ := pos_iff_toInt_pos.mp hm
  have h₂ := pos_iff_toInt_pos.mp hn
  have hsum := BinaryOp.toInt_add_apply (Int.le_of_lt h₁) (Int.le_of_lt h₂)
  have hcount : (BinaryOp.add.apply first second).toInt.toNat =
      first.toInt.toNat + second.toInt.toNat := by omega
  refine throwDice_eq_ok_iff.mpr ⟨BinaryOp.add_apply_pos hm hn, hsides, ?_, ?_⟩
  · rw [Tray.sizeWith] at hfits ⊢
    omega
  · rw [hcount, Tray.rollDice_two_throws hsides, hroll, hroll']

namespace Expr

/-! ## Sums that become one roll -/

/-- If the node is a sum that simplification makes one roll, nothing is rolled for the side
count. -/
def SteadySum : Expr → Prop
  | .binary .add left right => ∀ a b sides, left.simplify = .roll (.literal a) sides →
      right.simplify = .roll (.literal b) sides → sides.Avoids [.loneDie, .dice]
  | _ => True

/-- What is not in an expression is not in a side count that simplification leaves of it. -/
theorem avoids_sides_of_simplify {e count sides : Expr}
    (hkinds : e.Avoids [.token, .modifier, .reference]) (h : e.simplify = .roll count sides) :
    sides.Avoids [.token, .modifier, .reference] := by
  have hkept := avoids_simplify (by decide) (by decide) hkinds
  rw [h] at hkept
  exact Avoids.subset hkept.2.1 (by decide)

/-- Where no sum that becomes one roll has a side count that is rolled, a roll that succeeds is
the same after simplification. -/
theorem evaluate_simplify_eq_ok [LawfulDiceSource δ] {e : Expr}
    (hkinds : e.Avoids [.token, .modifier, .reference]) (hsums : e.Everywhere SteadySum)
    {n : Int64} {tray after : Tray δ} (h : e.evaluate limit tray = (.ok n, after))
    (hsize : after.faces.size ≤ 9223372036854775807) :
    e.simplify.evaluate limit tray = (.ok n, after) := by
  induction e generalizing n tray after with
  | literal m => exact h
  | group inner ih => exact ih hkinds.1 hsums.1 h hsize
  | rollOne sides ih =>
    obtain ⟨s, mid, hs, hthrow⟩ := run_bind_eq_ok_iff.mp h
    have hmid := size_of_throwDice_eq_ok hthrow
    show (sides.simplify.evaluate limit >>= fun s => throwDice limit 1 s) tray = _
    exact run_bind_eq_ok_iff.mpr ⟨s, mid, ih hkinds.1 hsums.1 hs (by omega), hthrow⟩
  | roll count sides ihc ihs =>
    obtain ⟨c, mid, hc, hrest⟩ := run_bind_eq_ok_iff.mp h
    obtain ⟨s, mid', hs, hthrow⟩ := run_bind_eq_ok_iff.mp hrest
    have hmid' := size_of_throwDice_eq_ok hthrow
    have hmid : mid.faces.size ≤ mid'.faces.size := by
      simpa [hs] using (sides.evaluate_onlyDraws limit).size_le mid
    exact run_bind_eq_ok_iff.mpr ⟨c, mid, ihc hkinds.1 hsums.1 hc (by omega),
      run_bind_eq_ok_iff.mpr ⟨s, mid', ihs hkinds.2.1 hsums.2.1 hs (by omega), hthrow⟩⟩
  | binary op left right ihl ihr =>
    obtain ⟨a, mid, hl, hrest⟩ := run_bind_eq_ok_iff.mp h
    obtain ⟨b, after', hr, heq⟩ := run_bind_eq_ok_iff.mp hrest
    obtain ⟨hn, rfl⟩ := Prod.mk.inj heq
    obtain rfl := Except.ok.inj hn
    have hmid : mid.faces.size ≤ after'.faces.size := by
      simpa [hr] using (right.evaluate_onlyDraws limit).size_le mid
    have hleft := ihl hkinds.1 hsums.1 hl (by omega)
    have hright := ihr hkinds.2.1 hsums.2.1 hr hsize
    have hoperands : (binary op left.simplify right.simplify).evaluate limit tray =
        (.ok (op.apply a b), after') :=
      run_bind_eq_ok_iff.mpr ⟨a, mid, hleft, run_bind_eq_ok_iff.mpr ⟨b, after', hright, rfl⟩⟩
    by_cases hop : op = .add
    · subst hop
      rcases simplify_add left right with ⟨c, d, sides, hl', hr', heq'⟩ | ⟨-, heq'⟩
      · -- The side count is one number, so that both throws are of one kind.
        have hsides := avoids_sides_of_simplify hkinds.1 hl'
        obtain ⟨s, hs⟩ := evaluate_eq_pure (δ := δ) limit (hsums.2.2 c d sides hl' hr') hsides
        rw [hl', evaluate_roll_literal hs] at hleft
        rw [hr', evaluate_roll_literal hs] at hright
        rw [heq', evaluate_roll_literal hs]
        exact throwDice_add_eq_ok hleft hright hsize
      · rw [heq']
        exact hoperands
    · rw [simplify_binary hop]
      exact hoperands
  | integer | namedDie | weapon | spell => simp [Avoids, kind] at hkinds
  | critical | advantage | disadvantage | spellAt => simp [Avoids, kind] at hkinds

/-! ## Known counts -/

/-- If the node rolls dice, their count is known, perhaps in groups, and positive. -/
def KnownCount : Expr → Prop
  | .roll count _ => ∃ n, count.ungroup = .literal n ∧ 0 < n
  | _ => True

/-- How many dice the expression throws when all its counts are known. -/
def throwCount : Expr → Nat
  | .binary _ left right => left.throwCount + right.throwCount
  | .rollOne sides => sides.throwCount + 1
  | .roll count sides =>
    match count.ungroup with
    | .literal n => sides.throwCount + n.toInt.toNat
    | _ => sides.throwCount
  | .group inner => inner.throwCount
  | _ => 0

theorem throwCount_roll {count : Expr} {n : Int64} (h : count.ungroup = .literal n)
    (sides : Expr) : (roll count sides).throwCount = sides.throwCount + n.toInt.toNat := by
  rw [throwCount, h]

theorem throwCount_of_ungroup {e : Expr} {n : Int64} (h : e.ungroup = .literal n) :
    e.throwCount = 0 := by
  induction e with
  | group inner ih => exact ih h
  | literal m => rfl
  | _ => cases h

theorem evaluate_of_ungroup {e : Expr} {n : Int64} (h : e.ungroup = .literal n) :
    e.evaluate limit = (pure n : Rolling δ Int64) := by
  induction e with
  | group inner ih => exact ih h
  | literal m =>
    obtain rfl := literal.inj h
    rfl
  | _ => cases h

/-- What is rolled with known counts are these dice, whatever they show. -/
theorem size_of_evaluate_eq_ok {e : Expr} (hcounts : e.Everywhere KnownCount) {n : Int64}
    {tray after : Tray δ} (h : e.evaluate limit tray = (.ok n, after)) :
    after.faces.size = tray.faces.size + e.throwCount := by
  induction e generalizing n tray after with
  | literal m =>
    obtain ⟨-, rfl⟩ := Prod.mk.inj h
    rfl
  | group inner ih => exact ih hcounts.1 h
  | binary op left right ihl ihr =>
    obtain ⟨a, mid, hl, hrest⟩ := run_bind_eq_ok_iff.mp h
    obtain ⟨b, after', hr, heq⟩ := run_bind_eq_ok_iff.mp hrest
    obtain ⟨-, rfl⟩ := Prod.mk.inj heq
    have hleft := ihl hcounts.1 hl
    have hright := ihr hcounts.2.1 hr
    rw [throwCount]
    omega
  | rollOne sides ih =>
    obtain ⟨s, mid, hs, hthrow⟩ := run_bind_eq_ok_iff.mp h
    rw [size_of_throwDice_eq_ok hthrow, ih hcounts.1 hs]
    rfl
  | roll count sides ihc ihs =>
    obtain ⟨m, hm, -⟩ := hcounts.2.2
    rw [evaluate, evaluate_of_ungroup hm, pure_bind] at h
    obtain ⟨s, mid, hs, hthrow⟩ := run_bind_eq_ok_iff.mp h
    rw [size_of_throwDice_eq_ok hthrow, ihs hcounts.2.1 hs, throwCount_roll hm]
    omega
  | integer | namedDie | weapon | spell => cases (Prod.mk.inj h).1
  | critical | advantage | disadvantage | spellAt => cases (Prod.mk.inj h).1

theorem knownCount_roll {n : Int64} {sides : Expr}
    (h : (roll (.literal n) sides).Everywhere KnownCount) :
    0 < n ∧ sides.Everywhere KnownCount := by
  obtain ⟨-, hsides, m, hm, hpos⟩ := h
  obtain rfl := literal.inj hm
  exact ⟨hpos, hsides⟩

theorem everywhere_knownCount_simplify {e : Expr} (h : e.Everywhere KnownCount) :
    e.simplify.Everywhere KnownCount := by
  induction e with
  | integer | namedDie | literal | weapon | spell => trivial
  | group inner ih => exact ih h.1
  | rollOne sides ih => exact ⟨trivial, ih h.1, 1, rfl, by decide⟩
  | critical inner ih | advantage inner ih | disadvantage inner ih => exact ⟨ih h.1, trivial⟩
  | spellAt name level ih => exact ⟨ih h.1, trivial⟩
  | roll count sides ihc ihs =>
    obtain ⟨n, hn, hpos⟩ := h.2.2
    refine ⟨ihc h.1, ihs h.2.1, n, ?_, hpos⟩
    show count.simplify.ungroup = .literal n
    rw [simplify_eq_literal_iff.mpr hn]
    rfl
  | binary op left right ihl ihr =>
    by_cases hop : op = .add
    · subst hop
      rcases simplify_add left right with ⟨a, b, sides, hl, hr, heq⟩ | ⟨-, heq⟩
      · have hleft := ihl h.1
        have hright := ihr h.2.1
        rw [hl] at hleft
        rw [hr] at hright
        obtain ⟨ha, hsides⟩ := knownCount_roll hleft
        obtain ⟨hb, -⟩ := knownCount_roll hright
        rw [heq]
        exact ⟨trivial, hsides, _, rfl, BinaryOp.add_apply_pos ha hb⟩
      · rw [heq]
        exact ⟨ihl h.1, ihr h.2.1, trivial⟩
    · rw [simplify_binary hop]
      exact ⟨ihl h.1, ihr h.2.1, trivial⟩

/-! ## Dice that are never rolled -/

/-- How many dice simplification drops at the node: those of the side count that two rolls share
once they are one. -/
def sharedAt : Expr → Nat
  | .binary .add left right =>
    match left.simplify, right.simplify with
    | .roll (.literal _) s, .roll (.literal _) t => if s = t then s.throwCount else 0
    | _, _ => 0
  | _ => 0

/-- How many dice simplification drops, when all counts are known. -/
def sharedDice (e : Expr) : Nat :=
  (e.postorder.map sharedAt).sum

theorem sharedDice_binary (op : BinaryOp) (left right : Expr) :
    (binary op left right).sharedDice =
      left.sharedDice + right.sharedDice + (binary op left right).sharedAt := by
  simp [sharedDice, postorder, Nat.add_assoc]

theorem sharedDice_roll (count sides : Expr) :
    (roll count sides).sharedDice = count.sharedDice + sides.sharedDice := by
  simp [sharedDice, postorder, sharedAt]

theorem sharedDice_rollOne (sides : Expr) : (rollOne sides).sharedDice = sides.sharedDice := by
  simp [sharedDice, postorder, sharedAt]

theorem sharedDice_group (inner : Expr) : (group inner).sharedDice = inner.sharedDice := by
  simp [sharedDice, postorder, sharedAt]

theorem sharedAt_of_merged {left right sides : Expr} {a b : Int64}
    (hl : left.simplify = .roll (.literal a) sides)
    (hr : right.simplify = .roll (.literal b) sides) :
    (binary .add left right).sharedAt = sides.throwCount := by
  rw [sharedAt, hl, hr]
  exact if_pos rfl

theorem sharedAt_of_kept {left right : Expr}
    (h : ∀ a b sides, left.simplify = .roll (.literal a) sides →
      right.simplify ≠ .roll (.literal b) sides) : (binary .add left right).sharedAt = 0 := by
  rw [sharedAt]
  split
  · rename_i a s b t hl hr
    refine if_neg ?_
    rintro rfl
    exact h a b s hl hr
  · rfl

/-- What has no dice throws none. -/
theorem throwCount_eq_zero_iff {e : Expr} (hkinds : e.Avoids [.token, .modifier, .reference])
    (hcounts : e.Everywhere KnownCount) : e.throwCount = 0 ↔ e.Avoids [.loneDie, .dice] := by
  induction e with
  | literal n => simp [throwCount, Avoids, kind]
  | group inner ih => simpa [throwCount, Avoids, kind] using ih hkinds.1 hcounts.1
  | binary op left right ihl ihr =>
    have hl := ihl hkinds.1 hcounts.1
    have hr := ihr hkinds.2.1 hcounts.2.1
    simpa [throwCount, Avoids, kind] using and_congr hl hr
  | rollOne sides ih => simp [throwCount, Avoids, kind]
  | roll count sides ihc ihs =>
    obtain ⟨n, hn, hpos⟩ := hcounts.2.2
    have hthrown := pos_iff_toInt_pos.mp hpos
    rw [throwCount_roll hn]
    constructor
    · omega
    · simp [Avoids, kind]
  | integer | namedDie | weapon | spell => simp [Avoids, kind] at hkinds
  | critical | advantage | disadvantage | spellAt => simp [Avoids, kind] at hkinds

/-- The dice of an expression are those that its simplified form throws, and those that it
drops. -/
theorem throwCount_eq {e : Expr} (hkinds : e.Avoids [.token, .modifier, .reference])
    (hcounts : e.Everywhere KnownCount) (hsize : e.throwCount ≤ 9223372036854775807) :
    e.throwCount = e.simplify.throwCount + e.sharedDice := by
  induction e with
  | literal n => rfl
  | group inner ih =>
    rw [sharedDice_group]
    exact ih hkinds.1 hcounts.1 hsize
  | rollOne sides ih =>
    rw [throwCount] at hsize ⊢
    have hsides := ih hkinds.1 hcounts.1 (by omega)
    rw [simplify_rollOne, throwCount_roll rfl, sharedDice_rollOne, hsides]
    show _ = _ + 1 + _
    omega
  | roll count sides ihc ihs =>
    obtain ⟨n, hn, -⟩ := hcounts.2.2
    rw [throwCount_roll hn] at hsize ⊢
    have hcount := throwCount_of_ungroup hn
    have hcount' := ihc hkinds.1 hcounts.1 (by omega)
    have hsides := ihs hkinds.2.1 hcounts.2.1 (by omega)
    have hn' : count.simplify.ungroup = .literal n := by
      rw [simplify_eq_literal_iff.mpr hn]
      rfl
    rw [simplify_roll, throwCount_roll hn', sharedDice_roll]
    omega
  | binary op left right ihl ihr =>
    rw [throwCount] at hsize ⊢
    have hleft := ihl hkinds.1 hcounts.1 (by omega)
    have hright := ihr hkinds.2.1 hcounts.2.1 (by omega)
    rw [sharedDice_binary]
    by_cases hop : op = .add
    · subst hop
      rcases simplify_add left right with ⟨a, b, sides, hl, hr, heq⟩ | ⟨hkept, heq⟩
      · -- The two rolls throw the dice of their side counts twice, and the one roll once.
        obtain ⟨hapos, -⟩ := knownCount_roll (hl ▸ everywhere_knownCount_simplify hcounts.1)
        obtain ⟨hbpos, -⟩ := knownCount_roll (hr ▸ everywhere_knownCount_simplify hcounts.2.1)
        have ha := pos_iff_toInt_pos.mp hapos
        have hb := pos_iff_toInt_pos.mp hbpos
        have hsum := BinaryOp.toInt_add_apply (Int.le_of_lt ha) (Int.le_of_lt hb)
        rw [hl, throwCount_roll rfl] at hleft
        rw [hr, throwCount_roll rfl] at hright
        rw [heq, throwCount_roll rfl, sharedAt_of_merged hl hr]
        omega
      · rw [heq, sharedAt_of_kept hkept, throwCount]
        omega
    · rw [simplify_binary hop, throwCount]
      have hnone : (binary op left right).sharedAt = 0 := by
        cases op <;> first | rfl | exact absurd rfl hop
      omega
  | integer | namedDie | weapon | spell => simp [Avoids, kind] at hkinds
  | critical | advantage | disadvantage | spellAt => simp [Avoids, kind] at hkinds

/-- A sum drops no dice exactly when nothing is rolled for the side count its operands share. -/
theorem sharedAt_eq_zero_iff {left right : Expr}
    (hkinds : (binary .add left right).Avoids [.token, .modifier, .reference])
    (hcounts : (binary .add left right).Everywhere KnownCount) :
    (binary .add left right).sharedAt = 0 ↔ (binary .add left right).SteadySum := by
  rcases simplify_add left right with ⟨a, b, sides, hl, hr, -⟩ | ⟨hkept, -⟩
  · have hsides := avoids_sides_of_simplify hkinds.1 hl
    obtain ⟨-, hknown⟩ := knownCount_roll (hl ▸ everywhere_knownCount_simplify hcounts.1)
    rw [sharedAt_of_merged hl hr, throwCount_eq_zero_iff hsides hknown]
    constructor
    · rintro h a' b' sides' hl' -
      obtain ⟨-, rfl⟩ := roll.inj (hl.symm.trans hl')
      exact h
    · intro h
      exact h a b sides hl hr
  · rw [sharedAt_of_kept hkept]
    exact iff_of_true rfl fun a b sides hl hr => absurd hr (hkept a b sides hl)

theorem sharedDice_eq_zero_iff {e : Expr} (hkinds : e.Avoids [.token, .modifier, .reference])
    (hcounts : e.Everywhere KnownCount) : e.sharedDice = 0 ↔ e.Everywhere SteadySum := by
  induction e with
  | literal n => exact iff_of_true rfl trivial
  | group inner ih => simpa [sharedDice_group, SteadySum] using ih hkinds.1 hcounts.1
  | rollOne sides ih => simpa [sharedDice_rollOne, SteadySum] using ih hkinds.1 hcounts.1
  | roll count sides ihc ihs =>
    have hcount := ihc hkinds.1 hcounts.1
    have hsides := ihs hkinds.2.1 hcounts.2.1
    simpa [sharedDice_roll, SteadySum] using and_congr hcount hsides
  | binary op left right ihl ihr =>
    have hleft := ihl hkinds.1 hcounts.1
    have hright := ihr hkinds.2.1 hcounts.2.1
    have hnode : (binary op left right).sharedAt = 0 ↔ (binary op left right).SteadySum := by
      cases op with
      | add => exact sharedAt_eq_zero_iff hkinds hcounts
      | _ => exact iff_of_true rfl trivial
    simpa [sharedDice_binary, and_assoc] using and_congr hleft (and_congr hright hnode)
  | integer | namedDie | weapon | spell => simp [Avoids, kind] at hkinds
  | critical | advantage | disadvantage | spellAt => simp [Avoids, kind] at hkinds

/-! ## The number of dice -/

/-- How many dice a simplified expression rolls, when both it and the expression can be rolled.
Where no sum that becomes one roll has a side count that is rolled, they are as many, and they show
the same faces. When all counts are known, the dice that are missing are those that simplification
drops, whatever the dice show, and some are missing unless there is no such sum. -/
theorem faces_of_simplify [LawfulDiceSource δ] {e : Expr}
    (hkinds : e.Avoids [.token, .modifier, .reference]) {n n' : Int64} {tray after after' : Tray δ}
    (h : e.evaluate limit tray = (.ok n, after))
    (h' : e.simplify.evaluate limit tray = (.ok n', after'))
    (hsize : after.faces.size ≤ 9223372036854775807) :
    (e.Everywhere SteadySum → n' = n ∧ after' = after) ∧
      (e.Everywhere KnownCount →
        after.faces.size = after'.faces.size + e.sharedDice ∧
          (e.sharedDice = 0 ↔ e.Everywhere SteadySum)) := by
  constructor
  · intro hsums
    have hsame := evaluate_simplify_eq_ok hkinds hsums h hsize
    obtain ⟨hn, rfl⟩ := Prod.mk.inj (h'.symm.trans hsame)
    exact ⟨Except.ok.inj hn, rfl⟩
  · intro hcounts
    have hthrown := size_of_evaluate_eq_ok hcounts h
    have hthrown' := size_of_evaluate_eq_ok (everywhere_knownCount_simplify hcounts) h'
    have hdropped := throwCount_eq hkinds hcounts (by omega)
    exact ⟨by omega, sharedDice_eq_zero_iff hkinds hcounts⟩

/-- Two dice, each of which has as many sides as a six-sided die shows. -/
def twoRolledDice : Expr :=
  .binary .add (.rollOne (.rollOne (.literal 6))) (.rollOne (.rollOne (.literal 6)))

/-- Four dice are needed for the two, and simplification drops one of them. -/
theorem faces_of_simplify_two_dice :
    (twoRolledDice.evaluate 10 ⟨Script.ofFaces [4, 3, 2, 1], #[]⟩).2.faces.size =
        (twoRolledDice.simplify.evaluate 10 ⟨Script.ofFaces [4, 3, 2, 1], #[]⟩).2.faces.size + 1 ∧
      ¬ twoRolledDice.Everywhere SteadySum := by
  have hkinds : twoRolledDice.Avoids [.token, .modifier, .reference] := by
    simp [twoRolledDice, Avoids, kind]
  have h : twoRolledDice.evaluate 10 ⟨Script.ofFaces [4, 3, 2, 1], #[]⟩ = (.ok 4, _) :=
    Prod.ext (eq_ok_of_toOption_eq_some (by decide)) rfl
  have h' : twoRolledDice.simplify.evaluate 10 ⟨Script.ofFaces [4, 3, 2, 1], #[]⟩ = (.ok 5, _) :=
    Prod.ext (eq_ok_of_toOption_eq_some (by decide)) rfl
  obtain ⟨hfaces, hzero⟩ := (faces_of_simplify hkinds h h' (by decide)).2
    (by simp [twoRolledDice, KnownCount])
  have hshared : twoRolledDice.sharedDice = 1 := by decide
  rw [hshared] at hfaces hzero
  exact ⟨hfaces, fun hsums => absurd (hzero.mpr hsums) (by decide)⟩

/-- The second die does not roll its own side count: it gets that of the first one. -/
theorem side_count_not_rolled :
    (twoRolledDice.evaluate 10 ⟨Script.ofFaces [4, 3, 2, 1], #[]⟩).1 = .ok 4 ∧
      (twoRolledDice.evaluate 10 ⟨Script.ofFaces [4, 3, 2, 1], #[]⟩).2.dice.requested =
        #[6, 4, 6, 2] ∧
      (twoRolledDice.simplify.evaluate 10 ⟨Script.ofFaces [4, 3, 2, 1], #[]⟩).1 = .ok 5 ∧
      (twoRolledDice.simplify.evaluate 10 ⟨Script.ofFaces [4, 3, 2, 1], #[]⟩).2.dice.requested =
        #[6, 4, 4] :=
  ⟨eq_ok_of_toOption_eq_some (by decide), by decide, eq_ok_of_toOption_eq_some (by decide),
    by decide⟩

end Expr

end SpokenDice
