import SpokenDice.Dice.Evaluate
import SpokenDice.Proofs.Expr.Nodes

/-!
# When a roll succeeds

For which causes a roll can fail, what a roll that succeeds says of the counts in its tree, and
which rolls do succeed.

- `evaluate_failsOnly`: an expression in which nothing is left to be resolved fails only when its
  dice cannot be rolled as asked.
- `everywhere_thrown_of_evaluate_eq_ok` and `count_le_of_evaluate_eq_ok`: an expression that has a
  value throws at least one die wherever it says how many, and no more than the limit.
- `evaluate_eq_ok`: an expression whose dice are known has a value when the limit allows them.
-/

namespace SpokenDice

variable {δ α β : Type}

/-! ## Causes -/

/-- Whatever lies on the tray, the roll fails only for causes that have the property. -/
def FailsOnly (Q : RollError → Prop) (x : Rolling δ α) : Prop :=
  ∀ tray cause tray', x tray = (.error cause, tray') → Q cause

theorem failsOnly_pure {Q : RollError → Prop} (a : α) : FailsOnly Q (pure a : Rolling δ α) := by
  intro tray cause tray' h
  cases h

theorem FailsOnly.bind {Q : RollError → Prop} {x : Rolling δ α} {next : α → Rolling δ β}
    (hx : FailsOnly Q x) (hnext : ∀ a, FailsOnly Q (next a)) : FailsOnly Q (x >>= next) := by
  intro tray cause tray' h
  rw [run_bind] at h
  split at h
  · rename_i a tray'' _
    exact hnext a tray'' cause tray' h
  · rename_i cause' tray'' hcause
    obtain ⟨hc, -⟩ := Prod.mk.inj h
    obtain rfl := Except.error.inj hc
    exact hx tray cause' tray'' hcause

/-- The dice of the roll cannot be rolled as asked. -/
abbrev DiceImpossible (cause : RollError) : Prop :=
  cause.kind = .impossibleDice

/-- The roll has failed because its dice cannot be rolled as asked. -/
def Refused (outcome : Except RollError α × Tray δ) : Prop :=
  ∃ cause tray, outcome = (.error cause, tray) ∧ DiceImpossible cause

theorem Refused.bind {x : Rolling δ α} {tray : Tray δ} (h : Refused (x tray))
    (next : α → Rolling δ β) : Refused ((x >>= next) tray) := by
  obtain ⟨cause, tray', hx, hcause⟩ := h
  rw [run_bind, hx]
  exact ⟨cause, tray', rfl, hcause⟩

variable [DiceSource δ]

theorem throwDice_failsOnly {Q : RollError → Prop} {limit : UInt64} {count sides : Int64}
    (hcount : count ≤ 0 → Q (.noDice count)) (hsides : sides ≤ 0 → Q (.noSides sides))
    (htotal : ∀ total, Q (.tooManyDice total)) :
    FailsOnly Q (throwDice limit count sides : Rolling δ Int64) := by
  intro tray cause tray' h
  rw [throwDice_apply] at h
  split at h
  · obtain rfl := Except.error.inj (Prod.mk.inj h).1
    exact hcount ‹_›
  · split at h
    · obtain rfl := Except.error.inj (Prod.mk.inj h).1
      exact hsides ‹_›
    · split at h
      · obtain rfl := Except.error.inj (Prod.mk.inj h).1
        exact htotal _
      · cases (Prod.mk.inj h).1

/-! ## Throws -/

/-- A throw that succeeds is one of at least one die. -/
theorem lt_of_throwDice_eq_ok {limit : UInt64} {count sides n : Int64} {tray tray' : Tray δ}
    (h : throwDice limit count sides tray = (.ok n, tray')) : 0 < count := by
  rw [throwDice_apply] at h
  split at h
  · cases (Prod.mk.inj h).1
  · rename_i hcount
    exact Int64.not_le.mp hcount

/-- A throw that succeeds is one of no more dice than the limit allows. -/
theorem le_of_throwDice_eq_ok {limit : UInt64} {count sides n : Int64} {tray tray' : Tray δ}
    (h : throwDice limit count sides tray = (.ok n, tray')) : count.toInt ≤ limit.toNat := by
  have hhigh := (inRange_toInt count).2
  rw [throwDice_apply] at h
  split at h
  · cases (Prod.mk.inj h).1
  · split at h
    · cases (Prod.mk.inj h).1
    · split at h
      · cases (Prod.mk.inj h).1
      · rename_i hfits
        rw [Tray.sizeWith] at hfits
        omega

/-- A throw of dice without sides, or of more dice than the limit allows, is refused. -/
theorem throwDice_refused (limit : UInt64) (count sides : Int64) (tray : Tray δ)
    (h : sides ≤ 0 ∨ limit.toNat < tray.sizeWith count) :
    Refused (throwDice limit count sides tray) := by
  rw [throwDice_apply]
  by_cases hcount : count ≤ 0
  · rw [if_pos hcount]
    exact ⟨_, _, rfl, rfl⟩
  by_cases hsides : sides ≤ 0
  · rw [if_neg hcount, if_pos hsides]
    exact ⟨_, _, rfl, rfl⟩
  rw [if_neg hcount, if_neg hsides, if_pos (h.resolve_left hsides)]
  exact ⟨_, _, rfl, rfl⟩

/-- Any other throw of at least one die is rolled. -/
theorem throwDice_eq_rollDice {limit : UInt64} {count sides : Int64} {tray : Tray δ}
    (hcount : 0 < count) (hsides : 0 < sides) (hlimit : ¬ limit.toNat < tray.sizeWith count) :
    throwDice limit count sides tray =
      (.ok (tray.rollDice sides count.toInt.toNat 0).1,
        (tray.rollDice sides count.toInt.toNat 0).2) := by
  rw [throwDice_apply, if_neg (Int64.not_le.mpr hcount), if_neg (Int64.not_le.mpr hsides),
    if_neg hlimit]

theorem throwDice_eq_ok {limit : UInt64} {count sides : Int64} {tray : Tray δ} (hcount : 0 < count)
    (hsides : 0 < sides) (hlimit : tray.faces.size + count.toInt.toNat ≤ limit.toNat) :
    ∃ n tray', throwDice limit count sides tray = (.ok n, tray') ∧
      tray'.faces.size = tray.faces.size + count.toInt.toNat := by
  have hfits : ¬ limit.toNat < tray.sizeWith count := by
    rw [Tray.sizeWith]
    omega
  exact ⟨_, _, throwDice_eq_rollDice hcount hsides hfits, Tray.size_rollDice ..⟩

namespace Expr

/-- Where nothing is left to be resolved, a roll fails only for its dice. -/
theorem evaluate_failsOnly (limit : UInt64) {e : Expr}
    (h : e.Avoids [.token, .modifier, .reference]) :
    FailsOnly DiceImpossible (e.evaluate limit : Rolling δ Int64) := by
  have hthrow (count sides : Int64) :
      FailsOnly DiceImpossible (throwDice limit count sides : Rolling δ Int64) :=
    throwDice_failsOnly (fun _ => rfl) (fun _ => rfl) (fun _ => rfl)
  induction e with
  | literal n => exact failsOnly_pure n
  | binary op left right ihl ihr =>
    exact (ihl h.1).bind fun a => (ihr h.2.1).bind fun b => failsOnly_pure _
  | rollOne sides ih => exact (ih h.1).bind fun s => hthrow 1 s
  | roll count sides ihc ihs => exact (ihc h.1).bind fun c => (ihs h.2.1).bind fun s => hthrow c s
  | group inner ih => exact ih h.1
  | integer | namedDie | weapon | spell => simp [Avoids, kind] at h
  | critical | advantage | disadvantage | spellAt => simp [Avoids, kind] at h

/-! ## Counts -/

/-- The node does not say that no dice, or fewer, are to be rolled. -/
def Thrown : Expr → Prop
  | .roll (.literal n) _ => 0 < n
  | _ => True

/-- What has a value has thrown the dice of each count that it knows. -/
theorem everywhere_of_evaluate_eq_ok {p : Expr → Prop} {limit : UInt64} {e : Expr} {n : Int64}
    {tray tray' : Tray δ} (h : e.evaluate limit tray = (.ok n, tray'))
    (hthrown : ∀ count sides s (before after : Tray δ) total,
      throwDice limit count s before = (.ok total, after) → p (.roll (.literal count) sides))
    (hother : ∀ node, (∀ count sides, node ≠ .roll (.literal count) sides) → p node) :
    e.Everywhere p := by
  induction e generalizing n tray tray' with
  | literal n => exact hother _ nofun
  | binary op left right ihl ihr =>
    obtain ⟨a, tray₁, hl, h⟩ := run_bind_eq_ok_iff.mp h
    obtain ⟨b, tray₂, hr, -⟩ := run_bind_eq_ok_iff.mp h
    exact ⟨ihl hl, ihr hr, hother _ nofun⟩
  | rollOne sides ih =>
    obtain ⟨s, tray₁, hs, -⟩ := run_bind_eq_ok_iff.mp h
    exact ⟨ih hs, hother _ nofun⟩
  | roll count sides ihc ihs =>
    obtain ⟨c, tray₁, hc, hrest⟩ := run_bind_eq_ok_iff.mp h
    obtain ⟨s, tray₂, hs, hthrow⟩ := run_bind_eq_ok_iff.mp hrest
    refine ⟨ihc hc, ihs hs, ?_⟩
    -- A count that is known is the count that was thrown.
    cases count with
    | literal m =>
      obtain rfl := Except.ok.inj (Prod.mk.inj hc).1
      exact hthrown _ sides _ _ _ _ hthrow
    | _ => exact hother _ nofun
  | group inner ih => exact ⟨ih h, hother _ nofun⟩
  | integer | namedDie | weapon | spell => cases (Prod.mk.inj h).1
  | critical | advantage | disadvantage | spellAt => cases (Prod.mk.inj h).1

/-- What has a value throws dice wherever it says how many. -/
theorem everywhere_thrown_of_evaluate_eq_ok {limit : UInt64} {e : Expr} {n : Int64}
    {tray tray' : Tray δ} (h : e.evaluate limit tray = (.ok n, tray')) : e.Everywhere Thrown := by
  refine everywhere_of_evaluate_eq_ok h (fun _ _ _ _ _ _ => lt_of_throwDice_eq_ok)
    fun node hnot => ?_
  unfold Thrown
  split
  · exact absurd rfl (hnot _ _)
  · trivial

/-- What has a value throws no more dice at once than the limit allows. -/
theorem count_le_of_evaluate_eq_ok {limit : UInt64} {e : Expr} {n : Int64} {tray tray' : Tray δ}
    (h : e.evaluate limit tray = (.ok n, tray')) {count : Int64} {sides : Expr}
    (hmem : .roll (.literal count) sides ∈ e.postorder) : count.toInt ≤ limit.toNat := by
  have hall : e.Everywhere fun node =>
      ∀ count sides, node = .roll (.literal count) sides → count.toInt ≤ limit.toNat := by
    refine everywhere_of_evaluate_eq_ok h ?_ fun node hnot count sides hnode =>
      absurd hnode (hnot count sides)
    rintro count sides s before after total hthrow _ _ ⟨⟩
    exact le_of_throwDice_eq_ok hthrow
  exact everywhere_iff.mp hall _ hmem count sides rfl

/-! ## Known dice -/

/-- How many dice the expression throws where its counts are known. -/
def diceCount : Expr → Nat
  | .binary _ left right => left.diceCount + right.diceCount
  | .rollOne sides => sides.diceCount + 1
  | .roll (.literal n) sides => sides.diceCount + n.toInt.toNat
  | .roll count sides => count.diceCount + sides.diceCount
  | .group inner => inner.diceCount
  | _ => 0

/-- The node has no names or modifiers, and if it rolls dice, their count and side count are known
and they have sides. -/
def KnownDice : Expr → Prop
  | .roll (.literal _) (.literal sides) => 0 < sides
  | .rollOne (.literal sides) => 0 < sides
  | node => node.kind ∈ [.literal, .arithmetic, .group]

/-- Known dice within the limit are rolled, when there are some wherever the expression says how
many. -/
theorem evaluate_eq_ok {limit : UInt64} {e : Expr} (hknown : e.Everywhere KnownDice)
    (hthrown : e.Everywhere Thrown) (tray : Tray δ)
    (hlimit : tray.faces.size + e.diceCount ≤ limit.toNat) :
    ∃ n tray', e.evaluate limit tray = (.ok n, tray') ∧
      tray'.faces.size = tray.faces.size + e.diceCount := by
  induction e generalizing tray with
  | literal n => exact ⟨n, tray, rfl, rfl⟩
  | group inner ih => exact ih hknown.1 hthrown.1 tray hlimit
  | binary op left right ihl ihr =>
    -- The left operand leaves its dice on the tray, and the rest of the limit to the right one.
    rw [diceCount] at hlimit ⊢
    obtain ⟨a, tray₁, hl, hsize₁⟩ := ihl hknown.1 hthrown.1 tray (by omega)
    obtain ⟨b, tray₂, hr, hsize₂⟩ := ihr hknown.2.1 hthrown.2.1 tray₁ (by omega)
    refine ⟨op.apply a b, tray₂, ?_, by omega⟩
    exact run_bind_eq_ok_iff.mpr ⟨a, tray₁, hl, run_bind_eq_ok_iff.mpr ⟨b, tray₂, hr, rfl⟩⟩
  | rollOne sides =>
    cases sides with
    | literal s => exact throwDice_eq_ok (by decide : (0 : Int64) < 1) hknown.2 hlimit
    | _ => simp [KnownDice, kind] at hknown
  | roll count sides =>
    cases count with
    | literal n =>
      cases sides with
      | literal s =>
        have hcount : (roll (.literal n) (.literal s)).diceCount = n.toInt.toNat := by
          simp [diceCount]
        rw [hcount] at hlimit ⊢
        exact throwDice_eq_ok hthrown.2.2 hknown.2.2 hlimit
      | _ => simp [KnownDice, kind] at hknown
    | _ => simp [KnownDice, kind] at hknown
  | integer | namedDie | weapon | spell => simp [KnownDice, kind] at hknown
  | critical | advantage | disadvantage | spellAt => simp [KnownDice, kind] at hknown

end Expr

end SpokenDice
