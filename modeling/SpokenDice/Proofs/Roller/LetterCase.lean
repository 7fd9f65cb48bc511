import SpokenDice.Proofs.Roller.Compile
import SpokenDice.Proofs.Ruleset.Names

/-!
# The case of letters in requests

Two requests that differ only in the case of letters of ASCII are the same request. They are read
as trees that differ only in the case of names, and a roller compiles such trees alike, because it
finds all their names.

- `compileTree_lowerNames`: the passes ignore the case of known names.
- `compile_ignores_case`: what follows for requests and rolls.
-/

namespace SpokenDice.Roller

open Request (Derives Lexicon)

variable {roller : Roller}

/-- Compiles an expression that was read. -/
def compileTree (roller : Roller) (e : Expr) : Except RollError Expr :=
  passes.foldlM (fun e pass => roller.runPass pass e) e

/-- The passes one after the other. -/
theorem compileTree_eq (e : Expr) :
    roller.compileTree e = (do
      let e ← roller.ruleset.resolveNumbers e
      let e ← roller.ruleset.resolveReferences roller.limits.spellLevel
        roller.limits.expansionDepth.toNat e
      let e ← e.simplify.withoutModifiers
      pure e.simplify) := rfl

/-- Names in lower case are compiled as the names they are of. -/
theorem compileTree_lowerNames {e : Expr} (h : e.Everywhere roller.ruleset.Known) :
    roller.compileTree e.lowerNames = roller.compileTree e := by
  rw [compileTree_eq, compileTree_eq, Ruleset.resolveNumbers_lowerNames h]
  cases hr : roller.ruleset.resolveNumbers e with
  | error cause => rfl
  | ok r =>
    have hknown := Ruleset.knownReference_of_resolveNumbers h hr
    have hreferences := Ruleset.resolveReferences_lowerNames roller.limits.spellLevel
      roller.limits.expansionDepth.toNat hknown
    show (roller.ruleset.resolveReferences _ _ r.lowerNames >>= _) = _
    rw [hreferences]
    rfl

/-- What compiles does so from the names in lower case. -/
theorem compile_eq_lowerNames (text : String) :
    roller.compile text = (roller.read text).map Expr.lowerNames >>= roller.compileTree := by
  have hends := roller.read_ends text
  show roller.read text >>= roller.compileTree = _
  cases hread : roller.read text with
  | error cause => rfl
  | ok e =>
    have hderives : Derives roller.ruleset text.toList .sum e := hends.of_eq_ok hread
    exact (compileTree_lowerNames (Ruleset.everywhere_known_of_derives hderives)).symm

/-- Texts that differ at most in the case of letters of ASCII are read as trees that differ at most
in the case of names, are compiled to the same tree or fail for the same cause, and so roll the
same with the same dice. -/
theorem compile_ignores_case {text text' : String}
    (htext : Text.sameLetters text.toList text'.toList = true) (roller : Roller) :
    (roller.read text).map Expr.lowerNames = (roller.read text').map Expr.lowerNames ∧
      roller.compile text = roller.compile text' ∧
      ∀ {δ : Type} [DiceSource δ] (dice : δ), roller.roll text dice = roller.roll text' dice := by
  have hread : (roller.read text).map Expr.lowerNames = (roller.read text').map Expr.lowerNames :=
    (Request.inStep_sameLetters (Lexicon.ofRuleset roller.ruleset)).mapNames_readOr
      (Text.sameLetters_iff.mp htext) .notUnderstood
  have hcompile : roller.compile text = roller.compile text' := by
    rw [compile_eq_lowerNames, hread, ← compile_eq_lowerNames]
  refine ⟨hread, hcompile, fun dice => ?_⟩
  cases hresult : roller.compile text' with
  | ok e => rw [roll_of_compile_eq_ok hresult, roll_of_compile_eq_ok (hcompile.trans hresult)]
  | error cause =>
    rw [roll_of_compile_eq_error hresult, roll_of_compile_eq_error (hcompile.trans hresult)]

/-- A roller of one name of each kind. -/
def tableRoller : Roller :=
  ⟨Request.tableRules, {}⟩

/-- A request in capitals compiles to what it does without them. -/
theorem compile_ignores_case_flail :
    tableRoller.compile "CRITICAL Hit WITH a FLAIL Plus 2D6" =
      .ok (.binary .add (.roll (.literal 2) (.literal 8)) (.roll (.literal 2) (.literal 6))) := by
  have hcompile : tableRoller.compile "critical hit with a flail plus 2d6" =
      .ok (.binary .add (.roll (.literal 2) (.literal 8)) (.roll (.literal 2) (.literal 6))) :=
    eq_ok_of_toOption_eq_some (by decide +kernel)
  exact (compile_ignores_case (by decide +kernel) tableRoller).2.1.trans hcompile

end SpokenDice.Roller
