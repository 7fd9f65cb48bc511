import SpokenDice.Command
import SpokenDice.Proofs.Dice.Evaluate
import SpokenDice.Proofs.Expr.Modifiers
import SpokenDice.Proofs.Expr.Simplify
import SpokenDice.Proofs.Ruleset.Resolution

/-!
# Compiled requests

What each pass leaves of a request, whatever the ruleset, the limits and the text. One invariant
goes from pass to pass, so that a compiled tree holds nothing but literals, arithmetic and dice,
and no failure on the way is internal.

- `compileBy` runs some of the passes, and `compileBy_append` one pass more.
- `compileBy_references_ends` to `compile_ends`: the trees between the passes.
- `compile_resolves_everything`: what follows for requests, rolls and the command.
-/

namespace SpokenDice

open RollError (Apologetic)

namespace Roller

/-- Reads a request and runs these passes, in order. -/
def compileBy (roller : Roller) (passes : List Pass) (text : String) : Except RollError Expr := do
  let e ← roller.read text
  passes.foldlM (fun e pass => roller.runPass pass e) e

variable (roller : Roller) (text : String)

theorem compile_eq_compileBy : roller.compile text = roller.compileBy passes text := rfl

/-- The passes one after the other. -/
theorem compile_eq :
    roller.compile text = (do
      let e ← roller.read text
      let e ← roller.ruleset.resolveNumbers e
      let e ← roller.ruleset.resolveReferences roller.limits.spellLevel
        roller.limits.expansionDepth.toNat e
      let e ← e.simplify.withoutModifiers
      pure e.simplify) := rfl

/-- One pass more goes on with the tree that the passes before it leave. -/
theorem compileBy_append (before : List Pass) (pass : Pass) :
    roller.compileBy (before ++ [pass]) text =
      roller.compileBy before text >>= roller.runPass pass := by
  simp [compileBy]

/-! ## The trees between the passes -/

theorem read_ends :
    Ends (Request.Derives roller.ruleset text.toList .sum) Apologetic (roller.read text) :=
  Ruleset.readOr_ends (by simp [RollError.kind]) text

theorem compileBy_numbers_ends :
    Ends (fun e => e.Everywhere Expr.Numbered ∧ e.Counted) Apologetic
      (roller.compileBy [.numbers] text) := by
  refine (roller.read_ends text).bind fun e he => ?_
  exact (Ruleset.resolveNumbers_ends he).bind fun r hr => hr

/-- Numbers and references are resolved. -/
theorem compileBy_references_ends :
    Ends Ruleset.Damage Apologetic (roller.compileBy [.numbers, .references] text) := by
  rw [show [Pass.numbers, .references] = [.numbers] ++ [.references] from rfl, compileBy_append]
  refine (roller.compileBy_numbers_ends text).bind fun e he => ?_
  exact (Ruleset.resolveReferences_ends _ _ _ he.1).mono fun r h => ⟨h.1, h.2.1 he.2⟩

theorem avoids_of_damage {e : Expr} (h : Ruleset.Damage e) : e.Avoids [.token, .reference] :=
  h.1.imp fun node hnode => by simpa using ⟨hnode.1.kind_ne_token, hnode.2⟩

theorem countedRoll_of_damage {e : Expr} (h : Ruleset.Damage e) : e.Everywhere Expr.CountedRoll :=
  h.1.imp fun _ hnode => hnode.1.countedRoll

/-- Groups and lone dice are gone. -/
theorem compileBy_simplify_ends :
    Ends (Expr.Avoids [.group, .loneDie, .token, .reference]) Apologetic
      (roller.compileBy [.numbers, .references, .simplify] text) := by
  rw [show [Pass.numbers, .references, .simplify] = [.numbers, .references] ++ [.simplify] from rfl,
    compileBy_append]
  exact (roller.compileBy_references_ends text).bind fun e he =>
    Expr.avoids_simplify (by decide) (by decide) (avoids_of_damage he)

/-- Modifiers are gone, or their copies are too many. -/
theorem compileBy_modifiers_ends :
    Ends (Expr.Avoids [.modifier, .group, .loneDie, .token, .reference]) Apologetic
      (roller.compileBy [.numbers, .references, .simplify, .modifiers] text) := by
  rw [show [Pass.numbers, .references, .simplify, .modifiers] =
    [.numbers, .references, .simplify] ++ [.modifiers] from rfl, compileBy_append]
  refine (roller.compileBy_simplify_ends text).bind fun e he => ?_
  -- The budget decides between the two outcomes, and neither is an internal failure.
  show Ends _ _ e.withoutModifiers
  rcases e.withoutModifiers_eq with h | h
  · rw [h]
    exact Expr.avoids_unmodified (by decide) (by decide) (by decide) he
  · rw [h]
    simp [Ends, RollError.kind]

/-- Nothing is left but literals, arithmetic and dice. -/
theorem compile_ends :
    Ends (Expr.Everywhere fun node => node.kind ∈ [.literal, .arithmetic, .dice]) Apologetic
      (roller.compile text) := by
  rw [compile_eq_compileBy, show passes =
    [.numbers, .references, .simplify, .modifiers] ++ [.simplify] from rfl, compileBy_append]
  refine (roller.compileBy_modifiers_ends text).bind fun e he => ?_
  have h := Expr.avoids_simplify (by decide) (by decide) he
  refine h.imp fun node hnode => ?_
  cases hkind : node.kind <;> simp_all

variable {roller text}

/-- From the tree whose references are resolved, compiling goes on to one tree, whatever the
roller, unless the copies are too many. -/
theorem compile_of_resolved {t : Expr}
    (ht : roller.compileBy [.numbers, .references] text = .ok t) :
    roller.compile text = .ok t.simplify.unmodified.simplify ∨
      roller.compile text = .error .tooManyCopies := by
  have hcompile : roller.compile text =
      t.simplify.withoutModifiers >>= fun e => pure e.simplify := by
    rw [compile_eq_compileBy, show passes =
      [.numbers, .references] ++ [.simplify] ++ [.modifiers] ++ [.simplify] from rfl,
      compileBy_append, compileBy_append, compileBy_append, ht]
    rfl
  rw [hcompile]
  rcases t.simplify.withoutModifiers_eq with h | h
  · rw [h]
    exact .inl rfl
  · rw [h]
    exact .inr rfl

/-! ## Rolls and the command -/

variable {δ : Type} [DiceSource δ]

theorem roll_eq (roller : Roller) (text : String) (dice : δ) :
    roller.roll text dice =
      match roller.compile text with
      | .ok e => e.rollWith roller.limits.diceCount dice
      | .error cause => (.error cause, dice) := rfl

theorem roll_of_compile_eq_ok {e : Expr} (h : roller.compile text = .ok e) (dice : δ) :
    roller.roll text dice = e.rollWith roller.limits.diceCount dice := by
  rw [roll_eq, h]

/-- Once a request is compiled, nothing is left to be resolved, and only its dice can fail. -/
theorem roll_ends_of_compile_eq_ok {e : Expr} (h : roller.compile text = .ok e) (dice : δ) :
    Ends (fun outcome => ∃ tray, e.evaluate roller.limits.diceCount ⟨dice, #[]⟩ =
      (.ok outcome.total, tray)) DiceImpossible (roller.roll text dice).1 := by
  have havoids : e.Avoids [.token, .modifier, .reference] :=
    Expr.Everywhere.imp (fun node hnode => by cases hkind : node.kind <;> simp_all)
      ((roller.compile_ends text).of_eq_ok h)
  rw [roll_of_compile_eq_ok h, Expr.rollWith]
  split
  · rename_i total tray hvalue
    exact ⟨tray, hvalue⟩
  · rename_i cause tray hfails
    exact Expr.evaluate_failsOnly _ havoids _ _ _ hfails

theorem roll_of_compile_eq_error {cause : RollError} (h : roller.compile text = .error cause)
    (dice : δ) : roller.roll text dice = (.error cause, dice) := by
  rw [roll_eq, h]

variable (roller text)

/-- A roll fails with an apology, or not at all. -/
theorem roll_ends (dice : δ) : Ends (fun _ => True) Apologetic (roller.roll text dice).1 := by
  cases hresult : roller.compile text with
  | error cause =>
    rw [roll_of_compile_eq_error hresult]
    exact (roller.compile_ends text).of_eq_error hresult
  | ok e =>
    have hends := roll_ends_of_compile_eq_ok hresult dice
    cases hroll : (roller.roll text dice).1 with
    | ok outcome => trivial
    | error cause =>
      have himpossible : DiceImpossible cause := hends.of_eq_error hroll
      simp [Ends, himpossible]

end Roller

/-- The command gives up exactly when there is no request, or no ruleset to explain it. -/
theorem Command.exitCode_eq_two_iff {δ : Type} [DiceSource δ] (arguments : List String)
    (lookup : String → Option String) (file? : String → String → Option String) (dice : δ) :
    (run arguments lookup file? dice).exitCode = 2 ↔
      Text.isBlankText (request arguments).toList = true ∨
        ∃ cause, ruleset lookup file? = .error cause := by
  by_cases hblank : Text.isBlankText (request arguments).toList = true
  · simp [run, hblank]
  rw [run, if_neg hblank]
  cases hrules : ruleset lookup file? with
  | error cause => simp
  | ok rules =>
    have hends := Roller.roll_ends ⟨rules, Limits.ofVariables lookup⟩ (request arguments) dice
    cases hroll : (Roller.roll ⟨rules, Limits.ofVariables lookup⟩ (request arguments) dice).1 with
    | ok outcome => simp [hblank, hroll, tell]
    | error cause =>
      -- A roll only fails with an apology, which is told.
      rw [hroll] at hends
      have happology : cause.isApology = true := decide_eq_true hends
      simp [hblank, hroll, tell, happology]

/-- What the passes leave, whatever the ruleset, the limits and the text: the numbers of a tree
that was read are always resolved, and with the references resolved no name is left; then no group
and no lone die; then no modifier; and in the end nothing but literals, arithmetic and dice. So no
failure of a request is internal, each is told as an apology, and the command gives up only when
there is no request or no ruleset. -/
theorem Roller.compile_resolves_everything (roller : Roller) (text : String) :
    (∀ otherwise e, Request.readOr otherwise (.ofRuleset roller.ruleset) text = .ok e →
      ∃ r, roller.ruleset.resolveNumbers e = .ok r) ∧
    (∀ e, roller.compileBy [.numbers, .references] text = .ok e →
      e.Avoids [.token, .reference]) ∧
    (∀ e, roller.compileBy [.numbers, .references, .simplify] text = .ok e →
      e.Avoids [.group, .loneDie, .token, .reference]) ∧
    (∀ e, roller.compileBy [.numbers, .references, .simplify, .modifiers] text = .ok e →
      e.Avoids [.modifier, .group, .loneDie, .token, .reference]) ∧
    (∀ e, roller.compile text = .ok e →
      e.Everywhere fun node => node.kind ∈ [.literal, .arithmetic, .dice]) ∧
    (∀ cause, roller.compile text = .error cause →
      cause.kind ≠ .internal ∧ "Sorry, ".toList <+: cause.message.toList) ∧
    (∀ (δ : Type) [DiceSource δ] (dice : δ) cause, (roller.roll text dice).1 = .error cause →
      cause.kind ≠ .internal ∧ "Sorry, ".toList <+: cause.message.toList) ∧
    ∀ (δ : Type) [DiceSource δ] (dice : δ) arguments lookup file?,
      (Command.run arguments lookup file? dice).exitCode = 2 →
        Text.isBlankText (Command.request arguments).toList = true ∨
          ∃ cause, Command.ruleset lookup file? = .error cause := by
  have happology {cause : RollError} (h : Apologetic cause) :
      cause.kind ≠ .internal ∧ "Sorry, ".toList <+: cause.message.toList :=
    ⟨h, RollError.opening_isPrefix_message h⟩
  refine ⟨fun otherwise e he => ?_, fun e he => ?_, fun e he => ?_, fun e he => ?_, fun e he => ?_,
    fun cause hcause => ?_, fun δ _ dice cause hcause => ?_, fun δ _ dice _ _ _ => ?_⟩
  · obtain ⟨r, hr, -⟩ := Ruleset.resolveNumbers_of_derives (Request.derives_of_readOr_eq_ok he)
    exact ⟨r, hr⟩
  · exact avoids_of_damage ((roller.compileBy_references_ends text).of_eq_ok he)
  · exact (roller.compileBy_simplify_ends text).of_eq_ok he
  · exact (roller.compileBy_modifiers_ends text).of_eq_ok he
  · exact (roller.compile_ends text).of_eq_ok he
  · exact happology ((roller.compile_ends text).of_eq_error hcause)
  · exact happology ((roller.roll_ends text dice).of_eq_error hcause)
  · exact (Command.exitCode_eq_two_iff _ _ _ _).mp

end SpokenDice
