import SpokenDice.Proofs.Expr.Pools
import SpokenDice.Proofs.Roller.Compile

/-!
# Requests for no dice

Dice whose count is not positive cannot be rolled, but the count is looked at only once a request
is compiled, and by then dice of one kind that are added up have become one roll. So `0d6 + 1d8`
fails and `0d6 + 1d6` does not.

- `thrownPools`: the pools that become the rolls of the compiled expression.
- `nonpositive_count_reported`: a request fails for a count that is not positive when one of these
  pools holds no die, and no count is missed in any other way.
-/

namespace SpokenDice

/-- The pools that become the rolls of an expression when it is compiled from here on. Modifiers
come between the two simplifications, so they are pools of the simplified expression. -/
def Expr.thrownPools (e : Expr) : List Pool :=
  e.simplify.unmodified.pools

namespace Roller

variable {roller : Roller} {text : String} {t : Expr}

theorem everywhere_countedRoll (ht : roller.compileBy [.numbers, .references] text = .ok t) :
    t.Everywhere Expr.CountedRoll :=
  countedRoll_of_damage ((roller.compileBy_references_ends text).of_eq_ok ht)

/-- The counts that are left to be looked at are positive when each pool holds a die. -/
theorem everywhere_thrown_compiled_iff
    (ht : roller.compileBy [.numbers, .references] text = .ok t) :
    t.simplify.unmodified.simplify.Everywhere Expr.Thrown ↔ ∀ p ∈ t.thrownPools, p.Filled := by
  have hsimple := (Expr.keepsCounts_simplify t (everywhere_countedRoll ht)).1
  exact Expr.everywhere_thrown_simplify_iff (Expr.keepsCounts_unmodified _ hsimple).1

/-- Without modifiers, the pools that become rolls are the pools of the request itself, as far as
it matters whether they hold dice. -/
theorem filled_thrownPools_iff (ht : roller.compileBy [.numbers, .references] text = .ok t)
    (hmodifiers : t.Avoids [.modifier]) :
    (∀ p ∈ t.thrownPools, p.Filled) ↔ ∀ p ∈ t.pools, p.Filled := by
  have hkept : t.simplify.Avoids [.modifier] :=
    (Expr.avoids_simplify (by decide) (by decide) hmodifiers).subset (by decide)
  rw [← everywhere_thrown_compiled_iff ht, Expr.unmodified_eq_self hkept, Expr.simplify_simplify]
  exact Expr.everywhere_thrown_simplify_iff (everywhere_countedRoll ht)

/-- A pool without dice stops the roll, whatever the dice. -/
theorem roll_fails_of_empty_pool (ht : roller.compileBy [.numbers, .references] text = .ok t)
    (hempty : ∃ p ∈ t.thrownPools, ¬ p.Filled) {δ : Type} [DiceSource δ] (dice : δ) :
    ∃ cause, (roller.roll text dice).1 = .error cause ∧ cause.kind = .impossibleDice := by
  have hnot : ¬ t.simplify.unmodified.simplify.Everywhere Expr.Thrown := by
    rw [everywhere_thrown_compiled_iff ht]
    simpa using hempty
  rcases compile_of_resolved ht with hcompile | hcompile
  · have hends := roll_ends_of_compile_eq_ok hcompile dice
    cases hroll : (roller.roll text dice).1 with
    | ok outcome =>
      -- A roll that succeeds has thrown dice wherever the compiled expression says how many.
      obtain ⟨tray, hvalue⟩ := hends.of_eq_ok hroll
      exact absurd (Expr.everywhere_thrown_of_evaluate_eq_ok hvalue) hnot
    | error cause => exact ⟨cause, rfl, hends.of_eq_error hroll⟩
  · exact ⟨_, congrArg Prod.fst (roll_of_compile_eq_error hcompile dice), rfl⟩

theorem everywhere_thrown_of_filled (ht : roller.compileBy [.numbers, .references] text = .ok t)
    (hfilled : ∀ p ∈ t.thrownPools, p.Filled) {c : Expr} (hc : roller.compile text = .ok c) :
    c.Everywhere Expr.Thrown := by
  rcases compile_of_resolved ht with hcompile | hcompile
  · obtain rfl := Except.ok.inj (hc.symm.trans hcompile)
    exact (everywhere_thrown_compiled_iff ht).mpr hfilled
  · cases hc.symm.trans hcompile

/-- Known dice within the limit are rolled when each pool holds a die. -/
theorem roll_eq_ok_of_filled (ht : roller.compileBy [.numbers, .references] text = .ok t)
    (hfilled : ∀ p ∈ t.thrownPools, p.Filled) {c : Expr} (hc : roller.compile text = .ok c)
    (hknown : c.Everywhere Expr.KnownDice)
    (hlimit : c.diceCount ≤ roller.limits.diceCount.toNat) {δ : Type} [DiceSource δ] (dice : δ) :
    ∃ outcome, (roller.roll text dice).1 = .ok outcome := by
  have hthrown := everywhere_thrown_of_filled ht hfilled hc
  obtain ⟨n, tray, hvalue, -⟩ :=
    Expr.evaluate_eq_ok hknown hthrown ⟨dice, #[]⟩ (by simpa using hlimit)
  rw [roll_of_compile_eq_ok hc, Expr.rollWith, hvalue]
  exact ⟨_, rfl⟩

/-- When a count of dice that is not positive stops a request. It does when some pool holds no die,
whatever the ruleset, the limits and the dice: either the count is met when the dice are rolled, or
the roll has failed before for another fault of its dice. When every pool holds a die, no count
that is not positive is left to be met, although the expression may hold some. So where nothing
else can stop the roll, because all dice are known and within the limit, it succeeds exactly then.
Without modifiers, this can be read off the pools of the request. -/
theorem nonpositive_count_reported (ht : roller.compileBy [.numbers, .references] text = .ok t) :
    ((∃ p ∈ t.thrownPools, ¬ p.Filled) → ∀ (δ : Type) [DiceSource δ] (dice : δ),
      ∃ cause, (roller.roll text dice).1 = .error cause ∧ cause.kind = .impossibleDice) ∧
    ((∀ p ∈ t.thrownPools, p.Filled) → ∀ c, roller.compile text = .ok c →
      ∀ n sides, .roll (.literal n) sides ∈ c.postorder → 0 < n) ∧
    (∀ c, roller.compile text = .ok c → c.Everywhere Expr.KnownDice →
      c.diceCount ≤ roller.limits.diceCount.toNat → ∀ (δ : Type) [DiceSource δ] (dice : δ),
        ((∃ outcome, (roller.roll text dice).1 = .ok outcome) ↔
          ∀ p ∈ t.thrownPools, p.Filled)) ∧
    (t.Avoids [.modifier] →
      ((∀ p ∈ t.thrownPools, p.Filled) ↔ ∀ p ∈ t.pools, p.Filled)) := by
  refine ⟨fun hempty δ _ dice => roll_fails_of_empty_pool ht hempty dice,
    fun hfilled c hc n sides hmem => ?_, fun c hc hknown hlimit δ _ dice => ⟨?_, ?_⟩,
    filled_thrownPools_iff ht⟩
  · exact Expr.everywhere_iff.mp (everywhere_thrown_of_filled ht hfilled hc) _ hmem
  · rintro ⟨outcome, hroll⟩ p hp
    refine Classical.byContradiction fun hempty => ?_
    obtain ⟨cause, hfails, -⟩ := roll_fails_of_empty_pool ht ⟨p, hp, hempty⟩ dice
    cases hroll.symm.trans hfails
  · intro hfilled
    exact roll_eq_ok_of_filled ht hfilled hc hknown hlimit dice

/-- Beside dice of another kind, no dice are a pool of their own. -/
theorem no_dice_reported :
    ∃ cause, (standard.roll "0d6 + 1d8" (Script.ofFaces [1])).1 = .error cause ∧
      cause.kind = .impossibleDice := by
  have ht : standard.compileBy [.numbers, .references] "0d6 + 1d8" = .ok
      (.binary .add (.roll (.literal 0) (.literal 6)) (.roll (.literal 1) (.literal 8))) :=
    eq_ok_of_toOption_eq_some (by decide +kernel)
  have hempty : ¬ Pool.Filled ⟨[0], .literal 6⟩ := by simp [Pool.Filled]
  exact (nonpositive_count_reported ht).1 ⟨_, .head _, hempty⟩ _ _

/-- Beside dice of their own kind, no dice are rolled with them. -/
theorem no_dice_unreported :
    standard.compileBy [.numbers, .references] "0d6 + 1d6" = .ok
        (.binary .add (.roll (.literal 0) (.literal 6)) (.roll (.literal 1) (.literal 6))) ∧
      (standard.roll "0d6 + 1d6" (Script.ofFaces [1])).1 = .ok ⟨1, [1]⟩ :=
  ⟨eq_ok_of_toOption_eq_some (by decide +kernel), eq_ok_of_toOption_eq_some (by decide +kernel)⟩

end Roller

end SpokenDice
