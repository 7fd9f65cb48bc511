import SpokenDice.Proofs.Request.Lexicons
import SpokenDice.Proofs.Roller.LetterCase

/-!
# Weapons and their damage texts

A weapon stands for its damage text. A request for the weapon alone goes into its record for that
text, which takes up one level of references, and keeps the damage in a group. A request for the
text itself does neither, and the passes that follow do not see a group.

- `resolveReferences_weapon`: what a weapon in a group is resolved to.
- `compile_weapon`: asking for a weapon is asking for its damage, with one level of references less.
-/

namespace SpokenDice

variable {rules : Ruleset} {name : String} {weapon : Weapon} {e : Expr}

/-- A weapon in a group is resolved to the group of what its damage text is resolved to, where
references may go one level less deep. -/
theorem Ruleset.resolveReferences_weapon (hweapon : rules.weapon? name = some weapon)
    (limit : Int64) (levels : Nat) :
    rules.resolveReferences limit (levels + 1) (.group (.weapon name)) = (do
      let e ← Request.readDice (.ofRuleset rules) weapon.damage
      let e ← rules.resolveNumbers e
      let e ← rules.resolveReferences limit levels e
      pure (.group e)) := by
  have hdamage : rules.resolveReferences limit (levels + 1) (.weapon name) = (do
      let e ← Request.readDice (.ofRuleset rules) weapon.damage
      let e ← rules.resolveNumbers e
      rules.resolveReferences limit levels e) := by
    show rules.weaponDamage (rules.expander limit (levels + 1)) name = _
    rw [weaponDamage, hweapon]
    rfl
  show (rules.resolveReferences limit (levels + 1) (.weapon name) >>= fun e =>
    pure (Expr.group e)) = _
  rw [hdamage]
  simp only [bind_assoc]

namespace Roller

/-- A weapon that was read compiles to what its damage text does, where references may go one level
less deep. -/
theorem compileTree_weapon {limits : Limits} (hweapon : rules.weapon? name = some weapon)
    (hdamage : Request.readDice (.ofRuleset rules) weapon.damage = .ok e)
    (hdepth : 1 ≤ limits.expansionDepth) :
    (Roller.mk rules limits).compileTree (.group (.weapon name)) =
      (Roller.mk rules
        { limits with expansionDepth := limits.expansionDepth - 1 }).compileTree e := by
  have hlevels : limits.expansionDepth.toNat = (limits.expansionDepth - 1).toNat + 1 := by
    have hpos : 1 ≤ limits.expansionDepth.toNat := UInt32.le_iff_toNat_le.mp hdepth
    rw [UInt32.toNat_sub_of_le _ _ hdepth, UInt32.toNat_one]
    omega
  have hnumbers : rules.resolveNumbers (.group (.weapon name)) = pure (.group (.weapon name)) := rfl
  have hdamage' : Request.readDice (.ofRuleset rules) weapon.damage = pure e := hdamage
  rw [compileTree_eq, compileTree_eq, hnumbers, pure_bind, hlevels,
    Ruleset.resolveReferences_weapon hweapon, hdamage']
  -- The group is gone once the damage is simplified.
  simp only [bind_assoc, pure_bind, Expr.simplify_group]

/-- Asking for a weapon is asking for its damage text, if that can be read as a request, with one
level of references less: whatever else the text refers to, both compile to the same tree or fail
for the same cause. -/
theorem compile_weapon {limits : Limits} {text : String}
    (hread : (Roller.mk rules limits).read text = .ok (.group (.weapon name)))
    (hweapon : rules.weapon? name = some weapon)
    (hdamage : (Roller.mk rules limits).read weapon.damage = .ok e)
    (hdepth : 1 ≤ limits.expansionDepth) :
    (Roller.mk rules limits).compile text =
      (Roller.mk rules
        { limits with expansionDepth := limits.expansionDepth - 1 }).compile weapon.damage := by
  have hdice : Request.readDice (.ofRuleset rules) weapon.damage = .ok e :=
    Request.readOr_eq_ok_congr hdamage
  show (Roller.mk rules limits).read text >>= (Roller.mk rules limits).compileTree =
    (Roller.mk rules limits).read weapon.damage >>= (Roller.mk rules _).compileTree
  rw [hread, hdamage]
  exact compileTree_weapon hweapon hdice hdepth

/-- A roller of a weapon whose damage refers to a weapon and a spell, and that lets references go
just as deep. -/
def greataxeRoller : Roller where
  ruleset := ⟨[], [⟨"Axe", "1d6"⟩, ⟨"Greataxe", "critical axe + hail"⟩],
    [⟨"Hail", 1, "deals 2d8", "1d8"⟩]⟩
  limits := { expansionDepth := 2 }

/-- The weapon goes as deep as its damage text does with one level of references less. -/
theorem compile_weapon_greataxe :
    greataxeRoller.compile "GREATAXE" =
      .ok (.binary .add (.roll (.literal 2) (.literal 6)) (.roll (.literal 2) (.literal 8))) := by
  have hread : greataxeRoller.read "GREATAXE" = .ok (.group (.weapon "GREATAXE")) :=
    eq_ok_of_toOption_eq_some (by decide +kernel)
  have hweapon : greataxeRoller.ruleset.weapon? "GREATAXE" =
      some ⟨"Greataxe", "critical axe + hail"⟩ := by decide +kernel
  have hdamage : greataxeRoller.read "critical axe + hail" =
      .ok (.binary .add (.critical (.weapon "axe")) (.group (.spell "hail"))) :=
    eq_ok_of_toOption_eq_some (by decide +kernel)
  have hcompile : (Roller.mk greataxeRoller.ruleset { expansionDepth := 1 }).compile
      "critical axe + hail" =
        .ok (.binary .add (.roll (.literal 2) (.literal 6)) (.roll (.literal 2) (.literal 8))) :=
    eq_ok_of_toOption_eq_some (by decide +kernel)
  exact (compile_weapon hread hweapon hdamage (by decide)).trans hcompile

end Roller

end SpokenDice
