import SpokenDice.Proofs.Expr.Nodes
import SpokenDice.Ruleset.Resolve

/-!
# Resolving names under stricter limits

Two limits bound how names are resolved: how deep references may go, and the highest level at which
a spell may be cast. Neither has a part in the result. Under stricter limits either the same is
done, or it fails because of a limit.

- `checkCastable_refines`: a lower limit on levels is a stricter check.
- `resolveReferences_refines`: so it is for whole expressions, where references may go less deep and
  levels are checked more strictly.
-/

namespace SpokenDice.Ruleset

variable {rules : Ruleset} {Q : RollError → Prop} {limit limit' : Int64}
  {expand? expand'? : Option Expander}

/-- A level below the spell's own is the first fault, and one above the limit the second. -/
theorem checkCastable_eq (limit : Int64) (spell : Spell) (level : Int64) :
    checkCastable limit spell level =
      if level < spell.level then throw (.belowOwnLevel spell.name spell.level level)
      else if limit < level then throw (.aboveLevelLimit spell.name limit)
      else pure () := by
  unfold checkCastable
  split
  · rfl
  · split
    · rfl
    · rfl

theorem checkCastable_refines (hlimit : limit ≤ limit')
    (habove : ∀ spell, Q (.aboveLevelLimit spell limit)) (spell : Spell) (level : Int64) :
    Refines Q (checkCastable limit spell level) (checkCastable limit' spell level) := by
  rw [checkCastable_eq, checkCastable_eq]
  by_cases hown : level < spell.level
  · rw [if_pos hown, if_pos hown]
    exact .refl _
  · rw [if_neg hown, if_neg hown]
    by_cases hover : limit < level
    · rw [if_pos hover]
      exact refines_throw (habove spell.name) _
    · have hwithin : ¬ limit' < level := by
        rw [Int64.lt_iff_toInt_lt] at hover ⊢
        rw [Int64.le_iff_toInt_le] at hlimit
        omega
      rw [if_neg hover, if_neg hwithin]
      exact .refl _

/-- Where the first expander may be entered, the second one may be too, and it refines that. -/
def ExpandsLess (Q : RollError → Prop) (expand? expand'? : Option Expander) : Prop :=
  ∀ expand, expand? = some expand →
    ∃ expand', expand'? = some expand' ∧ ∀ text, Refines Q (expand text) (expand' text)

/-! ## References -/

section References

variable (hdeep : ∀ name, Q (.tooDeep name)) (hless : ExpandsLess Q expand? expand'?)
  (hcheck : ∀ spell level,
    Refines Q (checkCastable limit spell level) (checkCastable limit' spell level))

include hdeep hless

theorem enter_refines (name : String) {next next' : Expander → Except RollError Expr}
    (hnext : ∀ expand expand' : Expander, (∀ text, Refines Q (expand text) (expand' text)) →
      Refines Q (next expand) (next' expand')) :
    Refines Q (enter expand? name >>= next) (enter expand'? name >>= next') := by
  cases hexpand : expand? with
  | none => exact refines_throw (hdeep name) _
  | some expand =>
    obtain ⟨expand', hexpand', hrefines⟩ := hless expand hexpand
    rw [hexpand']
    exact hnext expand expand' hrefines

theorem weaponDamage_refines (name : String) :
    Refines Q (rules.weaponDamage expand? name) (rules.weaponDamage expand'? name) := by
  unfold weaponDamage
  split
  · exact .refl _
  · exact enter_refines hdeep hless _ fun expand expand' hexpand => hexpand _

include hcheck

theorem spellDamage_refines (name : String) :
    Refines Q (rules.spellDamage limit expand? name) (rules.spellDamage limit' expand'? name) := by
  unfold spellDamage
  split
  · exact .refl _
  · refine enter_refines hdeep hless _ fun expand expand' hexpand => ?_
    refine Refines.bind (.refl _) fun dice => ?_
    exact (hcheck _ _).bind fun _ => hexpand dice

theorem spellDamageAt_refines (name : String) (level : Expr) :
    Refines Q (rules.spellDamageAt limit expand? name level)
      (rules.spellDamageAt limit' expand'? name level) := by
  unfold spellDamageAt
  split
  · exact .refl _
  · refine enter_refines hdeep hless _ fun expand expand' hexpand => ?_
    refine Refines.bind (.refl _) fun level => ?_
    refine Refines.bind (.refl _) fun dice => ?_
    refine (hcheck _ _).bind fun _ => ?_
    refine (hexpand dice).bind fun base => ?_
    refine Refines.bind (.refl _) fun extraDice => ?_
    exact (hexpand extraDice).bind fun extra => .refl _

theorem resolveReference_refines (node : Expr) :
    Refines Q (rules.resolveReference limit expand? node)
      (rules.resolveReference limit' expand'? node) := by
  cases node with
  | weapon name => exact weaponDamage_refines hdeep hless name
  | spell name => exact spellDamage_refines hdeep hless hcheck name
  | spellAt name level => exact spellDamageAt_refines hdeep hless hcheck name level
  | _ => exact .refl _

omit hless in
/-- An expander that may go less deep expands less. -/
theorem expander_expandsLess {levels levels' : Nat} (hlevels : levels ≤ levels') :
    ExpandsLess Q (rules.expander limit levels) (rules.expander limit' levels') := by
  induction levels generalizing levels' with
  | zero => exact nofun
  | succ levels ih =>
    obtain ⟨further, rfl⟩ := Nat.exists_eq_add_of_le' hlevels
    rintro _ ⟨⟩
    refine ⟨_, rfl, fun text => ?_⟩
    -- Reading a text and resolving its numbers knows no limits; its references go one level deeper.
    refine Refines.bind (.refl _) fun e => Refines.bind (.refl _) fun r => ?_
    have hinner := ih (Nat.le_add_left levels further)
    exact Expr.mapNodesM_both Refines.bind (resolveReference_refines hdeep hinner hcheck) r

omit hless in
/-- Where references may go less deep and levels are checked more strictly, the same comes out, or
it fails because of that. -/
theorem resolveReferences_refines {levels levels' : Nat} (hlevels : levels ≤ levels') (e : Expr) :
    Refines Q (rules.resolveReferences limit levels e)
      (rules.resolveReferences limit' levels' e) :=
  Expr.mapNodesM_both Refines.bind
    (resolveReference_refines hdeep (expander_expandsLess hdeep hcheck hlevels) hcheck) e

end References

end SpokenDice.Ruleset
