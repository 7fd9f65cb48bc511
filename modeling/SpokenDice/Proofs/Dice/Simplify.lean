import SpokenDice.Proofs.Dice.Lawful
import SpokenDice.Proofs.Expr.Pools

/-!
# Rolling simplified expressions

A simplified expression rolls the same dice as the expression itself. Where two throws became one,
the sum of their faces saturates once instead of three times and the limit is looked at once
instead of twice, but the outcome agrees: the faces only add up, and a count that saturates is above
the limit. A roll that fails may have thrown some of its dice first, so failures agree only in kind.

- `SameOutcome`: two rolls give the same value, faces and dice, or neither can be rolled.
- `throwDice_add_agrees`: one throw agrees with two.
- `evaluate_simplify`: simplification keeps the outcome when counts are positive where they are
  known, and side counts are not rolled.
-/

namespace SpokenDice

variable {δ : Type} {α β : Type}

/-- The two rolls give the same value and leave the same tray, or both fail because their dice
cannot be rolled. -/
inductive SameOutcome : Except RollError α × Tray δ → Except RollError α × Tray δ → Prop
  | ok (a : α) (tray : Tray δ) : SameOutcome (.ok a, tray) (.ok a, tray)
  | error {cause cause' : RollError} (h : DiceImpossible cause) (h' : DiceImpossible cause')
      (tray tray' : Tray δ) : SameOutcome (.error cause, tray) (.error cause', tray')

theorem SameOutcome.of_refused {r r' : Except RollError α × Tray δ} (h : Refused r)
    (h' : Refused r') : SameOutcome r r' := by
  obtain ⟨cause, tray, rfl, hcause⟩ := h
  obtain ⟨cause', tray', rfl, hcause'⟩ := h'
  exact .error hcause hcause' tray tray'

/-- Whatever lies on the tray, the two computations have the same outcome. -/
def Agrees (x y : Rolling δ α) : Prop :=
  ∀ tray, SameOutcome (x tray) (y tray)

namespace Agrees

theorem refl {x : Rolling δ α} (hx : FailsOnly DiceImpossible x) : Agrees x x := by
  intro tray
  rcases hrun : x tray with ⟨a | cause, tray'⟩
  · exact .error (hx _ _ _ hrun) (hx _ _ _ hrun) _ _
  · exact .ok _ _

theorem trans {x y z : Rolling δ α} (hxy : Agrees x y) (hyz : Agrees y z) : Agrees x z := by
  intro tray
  have h₁ := hxy tray
  have h₂ := hyz tray
  generalize x tray = r at h₁
  generalize y tray = r' at h₁ h₂
  generalize z tray = r'' at h₂
  cases h₁ with
  | ok a tray' => exact h₂
  | error h h' =>
    cases h₂ with
    | error _ h'' => exact .error h h'' _ _

theorem bind {x y : Rolling δ α} {f g : α → Rolling δ β} (hxy : Agrees x y)
    (hfg : ∀ a, Agrees (f a) (g a)) : Agrees (x >>= f) (y >>= g) := by
  intro tray
  have h := hxy tray
  rw [run_bind, run_bind]
  generalize x tray = r at h
  generalize y tray = r' at h
  cases h with
  | ok a tray' => exact hfg a tray'
  | error h h' => exact .error h h' _ _

/-- A computation that agrees with one value is that value. -/
theorem eq_pure {y : Rolling δ α} {a : α} (h : Agrees (pure a) y) : y = pure a := by
  funext tray
  have htray := h tray
  generalize hy : y tray = r at htray
  cases htray with
  | ok => rfl

end Agrees

/-! ## One throw for two -/

/-- A throw is above the limit when it is in two throws, also where the count of its dice
saturates. -/
theorem lt_sizeWith_add_iff {limit : Nat} {first second : Int64} (hfirst : 0 < first)
    (hsecond : 0 < second) (hlimit : limit < 9223372036854775807) (tray tray' : Tray δ)
    (hsize : tray'.faces.size = tray.faces.size + first.toInt.toNat) :
    limit < tray.sizeWith (BinaryOp.add.apply first second) ↔
      limit < tray.sizeWith first ∨ limit < tray'.sizeWith second := by
  have h₁ := pos_iff_toInt_pos.mp hfirst
  have h₂ := pos_iff_toInt_pos.mp hsecond
  have hsum := BinaryOp.toInt_add_apply (Int.le_of_lt h₁) (Int.le_of_lt h₂)
  simp only [Tray.sizeWith, hsize, hsum]
  omega

/-- Within the limit no count saturates. -/
theorem toNat_add_apply_of_fits {limit : Nat} {first second : Int64} {tray : Tray δ}
    (hfirst : 0 < first) (hsecond : 0 < second) (hlimit : limit < 9223372036854775807)
    (hfits : ¬ limit < tray.sizeWith (BinaryOp.add.apply first second)) :
    (BinaryOp.add.apply first second).toInt.toNat =
      first.toInt.toNat + second.toInt.toNat := by
  have h₁ := pos_iff_toInt_pos.mp hfirst
  have h₂ := pos_iff_toInt_pos.mp hsecond
  have hsum := BinaryOp.toInt_add_apply (Int.le_of_lt h₁) (Int.le_of_lt h₂)
  rw [Tray.sizeWith] at hfits
  omega

variable [DiceSource δ]

/-- Two throws of one kind that are added up agree with one throw of all their dice. -/
theorem throwDice_add_agrees [LawfulDiceSource δ] {limit : UInt64} {first second : Int64}
    (hfirst : 0 < first) (hsecond : 0 < second) (hlimit : limit.toNat < 9223372036854775807)
    (sides : Int64) :
    Agrees (δ := δ)
      (do
        let a ← throwDice limit first sides
        let b ← throwDice limit second sides
        pure (BinaryOp.add.apply a b))
      (throwDice limit (BinaryOp.add.apply first second) sides) := by
  intro tray
  by_cases hsides : sides ≤ 0
  · exact .of_refused ((throwDice_refused limit first sides tray (.inl hsides)).bind _)
      (throwDice_refused limit _ sides tray (.inl hsides))
  have hpos : 0 < sides := Int64.not_le.mp hsides
  have hover := lt_sizeWith_add_iff hfirst hsecond hlimit tray
    (tray.rollDice sides first.toInt.toNat 0).2 (Tray.size_rollDice ..)
  by_cases hover₁ : limit.toNat < tray.sizeWith first
  · exact .of_refused ((throwDice_refused limit first sides tray (.inr hover₁)).bind _)
      (throwDice_refused limit _ sides tray (.inr (hover.mpr (.inl hover₁))))
  rw [run_bind, throwDice_eq_rollDice hfirst hpos hover₁]
  show SameOutcome ((throwDice limit second sides >>= _) _) _
  by_cases hover₂ : limit.toNat < (tray.rollDice sides first.toInt.toNat 0).2.sizeWith second
  · -- The first dice have been thrown when the second throw is refused.
    exact .of_refused ((throwDice_refused limit second sides _ (.inr hover₂)).bind _)
      (throwDice_refused limit _ sides tray (.inr (hover.mpr (.inr hover₂))))
  · -- Nothing saturates within the limit, and the same dice show the same faces.
    have hfits : ¬ limit.toNat < tray.sizeWith (BinaryOp.add.apply first second) :=
      fun h => (hover.mp h).elim hover₁ hover₂
    have hcount := toNat_add_apply_of_fits hfirst hsecond hlimit hfits
    have hsum := BinaryOp.add_apply_pos hfirst hsecond
    rw [run_bind, throwDice_eq_rollDice hsecond hpos hover₂,
      throwDice_eq_rollDice hsum hpos hfits, hcount, Tray.rollDice_two_throws hpos]
    exact .ok _ _

/-! ## Side counts that are not rolled -/

namespace Expr

/-- If the node rolls dice, their count is positive where it is known, and nothing is rolled for
their side count. -/
def SteadyDice : Expr → Prop
  | .rollOne sides => sides.Avoids [.loneDie, .dice]
  | .roll count sides =>
    (∀ n, count.ungroup = .literal n → 0 < n) ∧ sides.Avoids [.loneDie, .dice]
  | _ => True

/-- What rolls nothing has one value. -/
theorem evaluate_eq_pure (limit : UInt64) {e : Expr} (hdice : e.Avoids [.loneDie, .dice])
    (hkinds : e.Avoids [.token, .modifier, .reference]) :
    ∃ n, e.evaluate limit = (pure n : Rolling δ Int64) := by
  induction e with
  | literal n => exact ⟨n, rfl⟩
  | binary op left right ihl ihr =>
    obtain ⟨a, ha⟩ := ihl hdice.1 hkinds.1
    obtain ⟨b, hb⟩ := ihr hdice.2.1 hkinds.2.1
    refine ⟨op.apply a b, ?_⟩
    rw [evaluate, ha, hb]
    rfl
  | group inner ih => exact ih hdice.1 hkinds.1
  | rollOne | roll => simp [Avoids, kind] at hdice
  | integer | namedDie | weapon | spell => simp [Avoids, kind] at hkinds
  | critical | advantage | disadvantage | spellAt => simp [Avoids, kind] at hkinds

end Expr

/-! ## Simplified expressions -/

namespace Expr

variable {limit : UInt64}

/-- What a simplified expression does, and what is known of it when it is a roll of a known
count. -/
structure Simplifies (δ : Type) [DiceSource δ] (limit : UInt64) (e : Expr) : Prop where
  agrees : Agrees (δ := δ) (e.evaluate limit) (e.simplify.evaluate limit)
  count_pos : ∀ n sides, e.simplify = .roll (.literal n) sides → 0 < n
  sides_pure : ∀ n sides, e.simplify = .roll (.literal n) sides →
    ∃ s, sides.evaluate limit = (pure s : Rolling δ Int64)

/-- Nothing more is to be known of what does not become a roll of a known count. -/
theorem Simplifies.of_ne {e : Expr}
    (hagrees : Agrees (δ := δ) (e.evaluate limit) (e.simplify.evaluate limit))
    (hne : ∀ n sides, e.simplify ≠ .roll (.literal n) sides) : Simplifies δ limit e :=
  ⟨hagrees, fun n sides h => absurd h (hne n sides), fun n sides h => absurd h (hne n sides)⟩

theorem evaluate_binary (op : BinaryOp) (left right : Expr) :
    (binary op left right).evaluate limit = (do
      let a ← left.evaluate limit
      let b ← right.evaluate limit
      pure (op.apply a b) : Rolling δ Int64) := rfl

theorem evaluate_roll_literal {n s : Int64} {sides : Expr}
    (hsides : sides.evaluate limit = (pure s : Rolling δ Int64)) :
    (roll (.literal n) sides).evaluate limit = (throwDice limit n s : Rolling δ Int64) := by
  show (sides.evaluate limit >>= fun sides => throwDice limit n sides) = _
  rw [hsides]
  rfl

/-- Sums agree also where they become one roll. -/
theorem simplifies_add [LawfulDiceSource δ] (hlimit : limit.toNat < 9223372036854775807)
    {left right : Expr} (hleft : Simplifies δ limit left)
    (hright : Simplifies δ limit right) : Simplifies δ limit (binary .add left right) := by
  have hoperands : Agrees (δ := δ) ((binary .add left right).evaluate limit)
      ((binary .add left.simplify right.simplify).evaluate limit) :=
    hleft.agrees.bind fun a => hright.agrees.bind fun b => .refl (failsOnly_pure _)
  rcases simplify_add left right with ⟨m, n, sides, hl, hr, heq⟩ | ⟨-, heq⟩
  · -- Both operands are throws with the same sides, which are computed without rolling.
    have hm := hleft.count_pos m sides hl
    have hn := hright.count_pos n sides hr
    obtain ⟨s, hs⟩ := hleft.sides_pure m sides hl
    have hsum := BinaryOp.add_apply_pos hm hn
    rw [hl, hr, evaluate_binary .add (.roll _ _), evaluate_roll_literal hs,
      evaluate_roll_literal hs] at hoperands
    constructor
    · rw [heq, evaluate_roll_literal hs]
      exact hoperands.trans (throwDice_add_agrees hm hn hlimit s)
    · rintro n' sides' h
      obtain ⟨hcount, -⟩ := roll.inj (heq.symm.trans h)
      exact literal.inj hcount ▸ hsum
    · rintro n' sides' h
      obtain ⟨-, rfl⟩ := roll.inj (heq.symm.trans h)
      exact ⟨s, hs⟩
  · refine .of_ne (heq ▸ hoperands) fun n sides h => ?_
    rw [heq] at h
    cases h

/-- The simplified side count is not rolled either. -/
theorem sides_pure_of_agrees {sides : Expr} (hdice : sides.Avoids [.loneDie, .dice])
    (hkinds : sides.Avoids [.token, .modifier, .reference])
    (h : Agrees (δ := δ) (sides.evaluate limit) (sides.simplify.evaluate limit)) :
    ∃ s, sides.simplify.evaluate limit = (pure s : Rolling δ Int64) := by
  obtain ⟨s, hs⟩ := evaluate_eq_pure (δ := δ) limit hdice hkinds
  rw [hs] at h
  exact ⟨s, h.eq_pure⟩

theorem throwDice_agrees (limit : UInt64) (count sides : Int64) :
    Agrees (δ := δ) (throwDice limit count sides) (throwDice limit count sides) :=
  .refl (throwDice_failsOnly (fun _ => rfl) (fun _ => rfl) (fun _ => rfl))

theorem simplifies [LawfulDiceSource δ] (hlimit : limit.toNat < 9223372036854775807) {e : Expr}
    (hkinds : e.Avoids [.token, .modifier, .reference]) (hdice : e.Everywhere SteadyDice) :
    Simplifies δ limit e := by
  -- The invariant of the induction says, besides the agreement, what a roll of a known count is
  -- made of, since a sum looks into its simplified operands.
  induction e with
  | literal n => exact .of_ne (.refl (failsOnly_pure n)) nofun
  | group inner ih =>
    obtain ⟨hagrees, hcount, hsides⟩ := ih hkinds.1 hdice.1
    exact ⟨hagrees, hcount, hsides⟩
  | rollOne sides ih =>
    have hsides := (ih hkinds.1 hdice.1).agrees
    constructor
    · exact hsides.bind fun s => throwDice_agrees limit 1 s
    · intro n sides' h
      obtain ⟨hcount, -⟩ := roll.inj h
      exact literal.inj hcount ▸ (by decide : (0 : Int64) < 1)
    · intro n sides' h
      obtain ⟨-, rfl⟩ := roll.inj h
      exact sides_pure_of_agrees hdice.2 hkinds.1 hsides
  | roll count sides ihc ihs =>
    have hcount := (ihc hkinds.1 hdice.1).agrees
    have hsides := (ihs hkinds.2.1 hdice.2.1).agrees
    constructor
    · exact hcount.bind fun c => hsides.bind fun s => throwDice_agrees limit c s
    · intro n sides' h
      obtain ⟨hliteral, -⟩ := roll.inj h
      exact hdice.2.2.1 n (simplify_eq_literal_iff.mp hliteral)
    · intro n sides' h
      obtain ⟨-, rfl⟩ := roll.inj h
      exact sides_pure_of_agrees hdice.2.2.2 hkinds.2.1 hsides
  | binary op left right ihl ihr =>
    have hleft := ihl hkinds.1 hdice.1
    have hright := ihr hkinds.2.1 hdice.2.1
    by_cases hop : op = .add
    · subst hop
      exact simplifies_add hlimit hleft hright
    · have heq := simplify_binary hop left right
      refine .of_ne ?_ fun n sides h => ?_
      · rw [heq]
        exact hleft.agrees.bind fun a => hright.agrees.bind fun b => .refl (failsOnly_pure _)
      · rw [heq] at h
        cases h
  | integer | namedDie | weapon | spell => simp [Avoids, kind] at hkinds
  | critical | advantage | disadvantage | spellAt => simp [Avoids, kind] at hkinds

/-- Simplification keeps the outcome of a roll: the value, the faces in order, and the dice that
the source was asked for in order. A roll that fails still does, as its dice cannot be rolled. The
counts that are known are positive and no side count is rolled, as otherwise a throw might hide in
another one; and the limit is below the greatest count, to which counts saturate. -/
theorem evaluate_simplify [LawfulDiceSource δ] (hlimit : limit.toNat < 9223372036854775807)
    {e : Expr} (hkinds : e.Avoids [.token, .modifier, .reference])
    (hdice : e.Everywhere SteadyDice) (tray : Tray (Logged δ)) :
    SameOutcome (e.evaluate limit tray) (e.simplify.evaluate limit tray) :=
  (simplifies hlimit hkinds hdice).agrees tray

/-- A die in a group and two dice beside it, which are thrown as three. -/
theorem evaluate_simplify_three_dice :
    SameOutcome
      ((binary .add (.group (.rollOne (.literal 6))) (.roll (.literal 2) (.literal 6))).evaluate 10
        (Logged.emptyTray (Script.ofFaces [6, 1, 5])))
      ((binary .add (.group (.rollOne (.literal 6)))
        (.roll (.literal 2) (.literal 6))).simplify.evaluate 10
          (Logged.emptyTray (Script.ofFaces [6, 1, 5]))) :=
  evaluate_simplify (by decide) (by simp [Avoids, kind]) (by simp [SteadyDice, Avoids, kind]) _

end Expr

end SpokenDice
