import SpokenDice.Error

/-!
# Computations that may fail

Two kinds of them run through this library: those that only fail or not, and those that also
change a state, which stays changed when they fail.

- `Ends` is a postcondition for both outcomes of the first kind, and `Ends.bind` composes it.
- `Refines` compares two of the first kind: one may fail where the other goes on.
- `run_bind` runs a sequence of the second kind, and `run_bind_eq_ok_iff` says when it succeeds.
- `RollError.Apologetic` are the failures that are told to the person who asked.
-/

namespace SpokenDice

variable {ε σ α β : Type}

/-- The computation ends with a result that has the one property, or fails for a cause that has
the other. -/
def Ends (R : α → Prop) (Q : ε → Prop) : Except ε α → Prop
  | .ok a => R a
  | .error cause => Q cause

@[simp] theorem ends_pure {R : α → Prop} {Q : ε → Prop} {a : α} :
    Ends R Q (pure a) ↔ R a := Iff.rfl

@[simp] theorem ends_throw {R : α → Prop} {Q : ε → Prop} {cause : ε} :
    Ends R Q (throw cause) ↔ Q cause := Iff.rfl

theorem eq_ok_of_toOption_eq_some {x : Except ε α} {a : α} (h : x.toOption = some a) :
    x = .ok a := by
  cases x with
  | ok b => exact congrArg Except.ok (Option.some.inj h)
  | error cause => cases h

theorem Ends.of_eq_ok {R : α → Prop} {Q : ε → Prop} {x : Except ε α} {a : α} (h : Ends R Q x)
    (heq : x = .ok a) : R a := by
  rw [heq] at h
  exact h

theorem Ends.of_eq_error {R : α → Prop} {Q : ε → Prop} {x : Except ε α} {cause : ε}
    (h : Ends R Q x) (heq : x = .error cause) : Q cause := by
  rw [heq] at h
  exact h

theorem Ends.mono {R R' : α → Prop} {Q : ε → Prop} {x : Except ε α} (h : Ends R Q x)
    (hR : ∀ a, R a → R' a) : Ends R' Q x := by
  cases x with
  | ok a => exact hR a h
  | error cause => exact h

theorem Ends.bind {P : α → Prop} {R : β → Prop} {Q : ε → Prop} {x : Except ε α}
    {f : α → Except ε β} (hx : Ends P Q x) (hf : ∀ a, P a → Ends R Q (f a)) :
    Ends R Q (x >>= f) := by
  cases x with
  | ok a => exact hf a hx
  | error cause => exact hx

/-! ## Two computations -/

/-- The first computation fails for a cause that has the property, or it does what the second
one does. -/
def Refines (Q : ε → Prop) (x y : Except ε α) : Prop :=
  (∃ cause, x = .error cause ∧ Q cause) ∨ x = y

theorem Refines.refl {Q : ε → Prop} (x : Except ε α) : Refines Q x x :=
  .inr rfl

theorem refines_throw {Q : ε → Prop} {cause : ε} (h : Q cause) (y : Except ε α) :
    Refines Q (throw cause) y :=
  .inl ⟨cause, rfl, h⟩

theorem Refines.bind {Q : ε → Prop} {x y : Except ε α} {f g : α → Except ε β}
    (hxy : Refines Q x y) (hfg : ∀ a, Refines Q (f a) (g a)) :
    Refines Q (x >>= f) (y >>= g) := by
  rcases hxy with ⟨cause, rfl, hcause⟩ | rfl
  · exact .inl ⟨cause, rfl, hcause⟩
  · cases x with
    | ok a => exact hfg a
    | error cause => exact .inr rfl

/-- What the first computation achieves, the second one does as well. -/
theorem Refines.eq_ok {Q : ε → Prop} {x y : Except ε α} {a : α} (h : Refines Q x y)
    (hx : x = .ok a) : y = .ok a := by
  rcases h with ⟨cause, hcause, -⟩ | rfl
  · cases hcause.symm.trans hx
  · exact hx

/-- Where the first part of two sequences is the same, they only have to go on alike with what it
gives. -/
theorem bind_congr_of_eq_ok {x : Except ε α} {f g : α → Except ε β}
    (h : ∀ a, x = .ok a → f a = g a) : x >>= f = x >>= g := by
  cases x with
  | ok a => exact h a rfl
  | error cause => rfl

/-! ## Computations with a state -/

/-- A sequence stops where its first part fails, and keeps the state that this part leaves. -/
theorem run_bind (x : ExceptT ε (StateM σ) α) (next : α → ExceptT ε (StateM σ) β) (s : σ) :
    (x >>= next) s =
      match x s with
      | (.ok a, s) => next a s
      | (.error cause, s) => (.error cause, s) := by
  show (match x s with | (r, s) => ExceptT.bindCont next r s) = _
  cases x s with
  | mk r s => cases r <;> rfl

/-- A sequence succeeds when both of its parts do. -/
theorem run_bind_eq_ok_iff {x : ExceptT ε (StateM σ) α} {next : α → ExceptT ε (StateM σ) β}
    {s s' : σ} {b : β} :
    (x >>= next) s = (.ok b, s') ↔ ∃ a t, x s = (.ok a, t) ∧ next a t = (.ok b, s') := by
  rw [run_bind]
  constructor
  · intro h
    split at h
    · rename_i a t hx
      exact ⟨a, t, hx, h⟩
    · cases (Prod.mk.inj h).1
  · rintro ⟨a, t, hx, h⟩
    rw [hx]
    exact h

/-! ## Apologies -/

namespace RollError

/-- The failure is an apology. -/
abbrev Apologetic (cause : RollError) : Prop :=
  cause.kind ≠ .internal

/-- How an apology begins. -/
def opening : List Char := "Sorry, ".toList

theorem opening_isPrefix_append {s : String} (h : opening <+: s.toList) (t : String) :
    opening <+: (s ++ t).toList := by
  rw [String.toList_append]
  exact h.trans (List.prefix_append ..)

/-- Every apology begins in the same way. -/
theorem opening_isPrefix_message {cause : RollError} (h : cause.Apologetic) :
    opening <+: cause.message.toList := by
  have happend {s : String} (hs : opening <+: s.toList) (t : String) :=
    opening_isPrefix_append hs t
  cases cause with
  | notUnderstood =>
    exact (by decide : opening <+: "Sorry, I couldn't understand your request".toList)
  | tooLarge =>
    exact (by decide : opening <+: "Sorry, that request is too long or nested too deeply".toList)
  | tooManyCopies =>
    exact (by decide : opening <+: "Sorry, I couldn't roll that many dice.".toList)
  | noDamageDice | noScalingDice => exact happend (by decide) _
  | diceNotUnderstood | unknownName | tooDeep | noDice | noSides | tooManyDice =>
    exact happend (happend (by decide) _) _
  | aboveLevelLimit => exact happend (happend (happend (by decide) _) _) _
  | belowOwnLevel =>
    exact happend (happend (happend (happend (happend (by decide) _) _) _) _) _
  | unresolvedLevel | unresolved => exact absurd rfl h

end RollError

end SpokenDice
