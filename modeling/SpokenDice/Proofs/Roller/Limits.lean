import SpokenDice.Proofs.Dice.Evaluate
import SpokenDice.Proofs.Roller.Compile
import SpokenDice.Proofs.Ruleset.Limits

/-!
# Rolling under stricter limits

The limits of a roller only stop requests. Under stricter limits a request fails because of one of
them, or it is rolled as under the others: the same dice are asked for and the same comes out.

- `evaluate_rollsLess`: so it is for the limit on dice, wherever in a roll it is looked at.
- `roll_refines`: so it is for whole requests and all three limits.
- `roll_limits_gate`: two rollers that differ in their limits never disagree, whether or not their
  limits can be compared.
-/

namespace SpokenDice

/-- The failure is due to a limit of the roller. -/
def RollError.OfLimit : RollError → Prop
  | .tooDeep _ => True
  | .aboveLevelLimit _ _ => True
  | .tooManyDice _ => True
  | _ => False

open RollError (OfLimit)

/-- Every one of the limits is at most the other. -/
structure Limits.AtMost (strict loose : Limits) : Prop where
  diceCount : strict.diceCount ≤ loose.diceCount
  expansionDepth : strict.expansionDepth ≤ loose.expansionDepth
  spellLevel : strict.spellLevel ≤ loose.spellLevel

/-- Any two rollers' limits are at most some third ones. -/
theorem Limits.exists_atMost (first second : Limits) :
    ∃ loose : Limits, first.AtMost loose ∧ second.AtMost loose := by
  have hdice : ∃ n, first.diceCount ≤ n ∧ second.diceCount ≤ n := by
    rcases UInt64.le_total first.diceCount second.diceCount with h | h
    · exact ⟨_, h, UInt64.le_refl _⟩
    · exact ⟨_, UInt64.le_refl _, h⟩
  have hdepth : ∃ n, first.expansionDepth ≤ n ∧ second.expansionDepth ≤ n := by
    rcases UInt32.le_total first.expansionDepth second.expansionDepth with h | h
    · exact ⟨_, h, UInt32.le_refl _⟩
    · exact ⟨_, UInt32.le_refl _, h⟩
  have hlevel : ∃ n, first.spellLevel ≤ n ∧ second.spellLevel ≤ n := by
    rcases Int64.le_total first.spellLevel second.spellLevel with h | h
    · exact ⟨_, h, Int64.le_refl _⟩
    · exact ⟨_, Int64.le_refl _, h⟩
  obtain ⟨dice, hdice₁, hdice₂⟩ := hdice
  obtain ⟨depth, hdepth₁, hdepth₂⟩ := hdepth
  obtain ⟨level, hlevel₁, hlevel₂⟩ := hlevel
  exact ⟨⟨dice, depth, level⟩, ⟨hdice₁, hdepth₁, hlevel₁⟩, ⟨hdice₂, hdepth₂, hlevel₂⟩⟩

/-! ## The limit on dice -/

section Dice

variable {δ α β : Type}

/-- Whatever lies on the tray, the first roll fails because of a limit, or does what the second one
does. -/
def RollsLess (x y : Rolling δ α) : Prop :=
  ∀ tray, (∃ cause tray', x tray = (.error cause, tray') ∧ OfLimit cause) ∨ x tray = y tray

theorem RollsLess.refl (x : Rolling δ α) : RollsLess x x :=
  fun _ => .inr rfl

theorem RollsLess.bind {x y : Rolling δ α} {f g : α → Rolling δ β} (hxy : RollsLess x y)
    (hfg : ∀ a, RollsLess (f a) (g a)) : RollsLess (x >>= f) (y >>= g) := by
  intro tray
  rw [run_bind, run_bind]
  rcases hxy tray with ⟨cause, tray', hx, hcause⟩ | heq
  · rw [hx]
    exact .inl ⟨cause, tray', rfl, hcause⟩
  · rw [heq]
    rcases y tray with ⟨a | cause, tray'⟩
    · exact .inr rfl
    · exact hfg _ tray'

variable [DiceSource δ] {limit limit' : UInt64}

theorem throwDice_rollsLess (hlimit : limit ≤ limit') (count sides : Int64) :
    RollsLess (throwDice limit count sides : Rolling δ Int64) (throwDice limit' count sides) := by
  intro tray
  have hle := UInt64.le_iff_toNat_le.mp hlimit
  rw [throwDice_apply, throwDice_apply]
  -- The two look at the limit in the same place, and only the stricter one may refuse there.
  by_cases hcount : count ≤ 0
  · rw [if_pos hcount, if_pos hcount]
    exact .inr rfl
  by_cases hsides : sides ≤ 0
  · rw [if_neg hcount, if_neg hcount, if_pos hsides, if_pos hsides]
    exact .inr rfl
  rw [if_neg hcount, if_neg hcount, if_neg hsides, if_neg hsides]
  by_cases hover : limit.toNat < tray.sizeWith count
  · rw [if_pos hover]
    exact .inl ⟨_, _, rfl, trivial⟩
  · have hwithin : ¬ limit'.toNat < tray.sizeWith count := by omega
    rw [if_neg hover, if_neg hwithin]
    exact .inr rfl

/-- A lower limit on dice stops a roll, or has no part in it. -/
theorem evaluate_rollsLess (hlimit : limit ≤ limit') (e : Expr) :
    RollsLess (e.evaluate limit : Rolling δ Int64) (e.evaluate limit') := by
  induction e with
  | binary op left right ihl ihr => exact ihl.bind fun _ => ihr.bind fun _ => .refl _
  | rollOne sides ih => exact ih.bind fun _ => throwDice_rollsLess hlimit 1 _
  | roll count sides ihc ihs =>
    exact ihc.bind fun _ => ihs.bind fun _ => throwDice_rollsLess hlimit _ _
  | group inner ih => exact ih
  | _ => exact .refl _

theorem rollWith_refines (hlimit : limit ≤ limit') (e : Expr) (dice : δ) :
    (∃ cause, (e.rollWith limit dice).1 = .error cause ∧ OfLimit cause) ∨
      e.rollWith limit dice = e.rollWith limit' dice := by
  unfold Expr.rollWith
  rcases evaluate_rollsLess hlimit e ⟨dice, #[]⟩ with ⟨cause, tray, hfails, hcause⟩ | heq
  · rw [hfails]
    exact .inl ⟨cause, rfl, hcause⟩
  · rw [heq]
    exact .inr rfl

end Dice

/-! ## Requests -/

namespace Roller

variable (rules : Ruleset) {strict loose : Limits}

theorem compile_refines (h : strict.AtMost loose) (text : String) :
    Refines OfLimit (compile ⟨rules, strict⟩ text) (compile ⟨rules, loose⟩ text) := by
  rw [compile_eq, compile_eq]
  refine Refines.bind (.refl _) fun e => Refines.bind (.refl _) fun e => ?_
  have hcheck := Ruleset.checkCastable_refines (Q := OfLimit) h.spellLevel fun _ => trivial
  have hdepth := UInt32.le_iff_toNat_le.mp h.expansionDepth
  have hreferences : Refines OfLimit
      (rules.resolveReferences strict.spellLevel strict.expansionDepth.toNat e)
      (rules.resolveReferences loose.spellLevel loose.expansionDepth.toNat e) :=
    Ruleset.resolveReferences_refines (fun _ => trivial) hcheck hdepth e
  exact hreferences.bind fun e => .refl _

variable {δ : Type} [DiceSource δ]

/-- Under stricter limits a request fails because of one of them, or nothing is different. -/
theorem roll_refines (h : strict.AtMost loose) (text : String) (dice : δ) :
    (∃ cause, (roll ⟨rules, strict⟩ text dice).1 = .error cause ∧ OfLimit cause) ∨
      roll ⟨rules, strict⟩ text dice = roll ⟨rules, loose⟩ text dice := by
  rcases compile_refines rules h text with ⟨cause, hfails, hcause⟩ | heq
  · rw [roll_of_compile_eq_error hfails]
    exact .inl ⟨cause, rfl, hcause⟩
  · cases hcompile : compile ⟨rules, loose⟩ text with
    | error cause =>
      rw [roll_of_compile_eq_error (heq.trans hcompile), roll_of_compile_eq_error hcompile]
      exact .inr rfl
    | ok e =>
      rw [roll_of_compile_eq_ok (heq.trans hcompile), roll_of_compile_eq_ok hcompile]
      exact rollWith_refines h.diceCount e dice

variable {rules} in
/-- Looser limits keep the outcome of a request. -/
theorem roll_eq_ok_of_atMost (h : strict.AtMost loose) {text : String} {dice : δ}
    {outcome : Outcome} (hroll : (roll ⟨rules, strict⟩ text dice).1 = .ok outcome) :
    (roll ⟨rules, loose⟩ text dice).1 = .ok outcome := by
  rcases roll_refines rules h text dice with ⟨cause, hfails, -⟩ | heq
  · cases hfails.symm.trans hroll
  · rw [← heq]
    exact hroll

/-- The limits of a roller decide whether a request is rolled, and not what comes out. Whatever the
ruleset, the request, the dice and the limits of two rollers: if both roll the request with the
same dice, the outcomes have the same total and the same faces; and if one rolls it, so does the
other when each of its limits is at least that of the first. -/
theorem roll_limits_gate (rules : Ruleset) (text : String) (dice : δ) (first second : Limits) :
    (∀ outcome outcome', (roll ⟨rules, first⟩ text dice).1 = .ok outcome →
      (roll ⟨rules, second⟩ text dice).1 = .ok outcome' →
        outcome.total = outcome'.total ∧ outcome.faces = outcome'.faces) ∧
    (first.diceCount ≤ second.diceCount → first.expansionDepth ≤ second.expansionDepth →
      first.spellLevel ≤ second.spellLevel → ∀ outcome,
        (roll ⟨rules, first⟩ text dice).1 = .ok outcome →
          (roll ⟨rules, second⟩ text dice).1 = .ok outcome) := by
  constructor
  · intro outcome outcome' hfirst hsecond
    -- Limits that are at least both of them roll the request as well, and as each of the two does.
    obtain ⟨loose, hle, hle'⟩ := Limits.exists_atMost first second
    have hsame := (roll_eq_ok_of_atMost hle hfirst).symm.trans (roll_eq_ok_of_atMost hle' hsecond)
    obtain rfl := Except.ok.inj hsame
    exact ⟨rfl, rfl⟩
  · intro hdice hdepth hlevel outcome hfirst
    exact roll_eq_ok_of_atMost ⟨hdice, hdepth, hlevel⟩ hfirst

end Roller

end SpokenDice
