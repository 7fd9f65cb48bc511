import SpokenDice.Proofs.Expr.Doubling
import SpokenDice.Proofs.Roller.Compile

/-!
# Critical hits

A critical hit compiles to the ordinary damage with its dice doubled. The two compilations simplify
at different moments: the critical hit doubles dice that were simplified once, with their own
modifiers already removed, and simplifies the doubles; the ordinary damage simplifies dice that were
never doubled.

- `compile_critical_eq`: up to the last simplification, the two compile the same tree, and the
  critical hit doubles it.
- `compileBy_modifiers_counted`: no known count of that tree is negative, so that only large counts
  could make a difference.
- `compile_critical`: they do not, unless doubling them saturates.
-/

namespace SpokenDice.Roller

open RollError (Apologetic)

variable {roller : Roller} {text : String} {r : Expr}

/-- The critical hit fails where the damage fails, and otherwise doubles what the damage compiles to
before its last simplification. -/
theorem compile_critical_eq (hread : roller.read text = .ok (.group r))
    (hcritical : roller.read ("critical " ++ text) = .ok (.critical r)) :
    roller.compile ("critical " ++ text) = (do
      let e ← roller.compileBy [.numbers, .references, .simplify, .modifiers] text
      pure e.double.simplify) := by
  have hsimplify (e : Expr) : (Expr.critical e).simplify = .critical e.simplify := rfl
  have hread' : roller.read text = pure (.group r) := hread
  have hcritical' : roller.read ("critical " ++ text) = pure (.critical r) := hcritical
  rw [compile_eq, hcritical', compileBy, hread']
  -- Neither the group nor the critical hit is touched before the modifiers are removed.
  simp only [List.foldlM_cons, List.foldlM_nil, runPass, Ruleset.resolveNumbers,
    Ruleset.resolveReferences, Expr.mapNodesM, Ruleset.resolveNumber, Ruleset.resolveReference,
    bind_assoc, pure_bind, bind_pure]
  simp only [hsimplify, Expr.simplify_group, Expr.withoutModifiers_critical, bind_assoc, pure_bind]

/-- No known count is negative when only the last simplification is left. -/
theorem compileBy_modifiers_counted (roller : Roller) (text : String) :
    Ends (Expr.Everywhere Expr.CountedRoll) Apologetic
      (roller.compileBy [.numbers, .references, .simplify, .modifiers] text) := by
  rw [show [Pass.numbers, .references, .simplify, .modifiers] =
    [.numbers, .references] ++ [.simplify] ++ [.modifiers] from rfl, compileBy_append,
    compileBy_append, bind_assoc]
  refine (roller.compileBy_references_ends text).bind fun e he => ?_
  have hsimple := (Expr.keepsCounts_simplify e (countedRoll_of_damage he)).1
  show Ends _ _ e.simplify.withoutModifiers
  rcases e.simplify.withoutModifiers_eq with h | h
  · rw [h]
    exact (Expr.keepsCounts_unmodified _ hsimple).1
  · rw [h]
    simp [Ends, RollError.kind]

/-- A critical hit compiles to the ordinary damage with every dice count doubled, whatever the
ruleset, the limits and the text: it fails where the damage fails, and for the same cause, and
otherwise doubles the dice that the damage compiles to, as long as twice each known count is a
number of 64 bits. -/
theorem compile_critical (hread : roller.read text = .ok (.group r))
    (hcritical : roller.read ("critical " ++ text) = .ok (.critical r)) :
    (∃ cause, roller.compile text = .error cause ∧
      roller.compile ("critical " ++ text) = .error cause) ∨
    ∃ t, roller.compile text = .ok t ∧
      ((∀ n sides, .roll (.literal n) sides ∈ t.postorder → n.toInt ≤ 2 ^ 62 - 1) →
        ∃ t', roller.compile ("critical " ++ text) = .ok t' ∧ Expr.Doubled t t') := by
  have hplain : roller.compile text = (do
      let e ← roller.compileBy [.numbers, .references, .simplify, .modifiers] text
      pure e.simplify) :=
    compileBy_append roller text [.numbers, .references, .simplify, .modifiers] .simplify
  rw [hplain, compile_critical_eq hread hcritical]
  cases he : roller.compileBy [.numbers, .references, .simplify, .modifiers] text with
  | error cause => exact .inl ⟨cause, rfl, rfl⟩
  | ok e =>
    refine .inr ⟨e.simplify, rfl, fun hbound => ⟨e.double.simplify, rfl, ?_⟩⟩
    have hcompiled : e.Everywhere Expr.Compiled :=
      Expr.everywhere_compiled_iff.mpr
        (((roller.compileBy_modifiers_ends text).of_eq_ok he).subset (by decide))
    have hcounted : e.Everywhere Expr.CountedRoll :=
      (compileBy_modifiers_counted roller text).of_eq_ok he
    -- The bound is on the compiled damage, where counts are at their largest.
    have hcounts := Expr.everywhere_doublable (Expr.keepsCounts_simplify e hcounted).1 hbound
    rw [Expr.simplify_double hcompiled hcounted hcounts]
    exact Expr.doubled_double (Expr.everywhere_compiled_simplify hcompiled) hcounts

/-- A roller of one weapon, with dice that are added up and dice that are counted by dice. -/
def flailRoller : Roller :=
  ⟨⟨[], [⟨"Flail", "1d8 + 1d8 + 2d4d6"⟩], []⟩, {}⟩

/-- Known counts and computed counts are doubled. -/
theorem compile_critical_flail :
    ∃ t', flailRoller.compile "critical flail" = .ok t' ∧
      Expr.Doubled (.binary .add (.roll (.literal 2) (.literal 8))
        (.roll (.roll (.literal 2) (.literal 4)) (.literal 6))) t' := by
  have hread : flailRoller.read "flail" =
      .ok (.group (.weapon "flail")) := eq_ok_of_toOption_eq_some (by decide +kernel)
  have hcritical : flailRoller.read ("critical " ++ "flail") =
      .ok (.critical (.weapon "flail")) := eq_ok_of_toOption_eq_some (by decide +kernel)
  have hcompile : flailRoller.compile "flail" =
      .ok (.binary .add (.roll (.literal 2) (.literal 8))
        (.roll (.roll (.literal 2) (.literal 4)) (.literal 6))) :=
    eq_ok_of_toOption_eq_some (by decide +kernel)
  rcases compile_critical hread hcritical with ⟨cause, hfails, -⟩ | ⟨t, ht, hdouble⟩
  · cases hfails.symm.trans hcompile
  · obtain rfl := Except.ok.inj (ht.symm.trans hcompile)
    refine hdouble fun n sides hmem => ?_
    simp only [Expr.postorder, List.cons_append, List.nil_append, List.mem_cons, Expr.roll.injEq,
      Expr.literal.injEq, List.not_mem_nil, reduceCtorEq, false_and, false_or, or_false] at hmem
    rcases hmem with ⟨rfl, -⟩ | ⟨rfl, -⟩ <;> decide

end SpokenDice.Roller
