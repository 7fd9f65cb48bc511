import SpokenDice.Proofs.Expr.Names
import SpokenDice.Proofs.Request.LetterCase
import SpokenDice.Proofs.Request.Shape
import SpokenDice.Ruleset.Resolve

/-!
# The case of letters in names

The records of a ruleset are found by names without their case. So a tree whose names are known is
resolved as the tree with all names in lower case is: what a name stands for does not depend on its
case, and no name is left to be told in an apology.

- `Known`: a node whose name has a record, and `everywhere_known_of_derives`: requests name nothing
  else.
- `resolveNumbers_lowerNames` and `resolveReferences_lowerNames`: the two passes ignore case.
-/

namespace SpokenDice

theorem sameName_lowerName (a b : String) : sameName a (lowerName b) = sameName a b := by
  simp [sameName, Text.sameLetters, lowerName]

namespace Expr

/-- The expression with its names in lower case. -/
abbrev lowerNames (e : Expr) : Expr :=
  e.mapNames lowerName

/-- A node over children with changed names has changed names once its own is changed. -/
theorem Rebuilt.mapName_eq {f : String → String} {a b : Expr}
    (h : Rebuilt (fun a b => a = b.mapNames f) a b) : a.mapName f = b.mapNames f := by
  cases h with
  | integer | namedDie | literal | weapon | spell => rfl
  | binary op hl hr =>
    rw [hl, hr]
    rfl
  | roll hc hs =>
    rw [hc, hs]
    rfl
  | rollOne hi | critical hi | advantage hi | disadvantage hi | spellAt _ hi | group hi =>
    rw [hi]
    rfl

end Expr

namespace Ruleset

open Request (Derives Phrase)
open Request.Scanner (Spelled)

variable {rules : Ruleset}

/-! ## Records -/

@[simp] theorem namedDie?_lowerName (name : String) :
    rules.namedDie? (lowerName name) = rules.namedDie? name := by
  simp [namedDie?, sameName_lowerName]

@[simp] theorem weapon?_lowerName (name : String) :
    rules.weapon? (lowerName name) = rules.weapon? name := by
  simp [weapon?, sameName_lowerName]

@[simp] theorem spell?_lowerName (name : String) :
    rules.spell? (lowerName name) = rules.spell? name := by
  simp [spell?, sameName_lowerName]

/-- A node that names something with a record, or that names nothing. -/
def Known (rules : Ruleset) : Expr → Prop
  | .namedDie name => (rules.namedDie? name).isSome
  | .weapon name => (rules.weapon? name).isSome
  | .spell name => (rules.spell? name).isSome
  | .spellAt name _ => (rules.spell? name).isSome
  | _ => True

/-- Whether a node is known lies in its root. -/
theorem known_of_rebuilt {R : Expr → Expr → Prop} {e node : Expr} (he : rules.Known e)
    (h : Expr.Rebuilt R e node) : rules.Known node := by
  cases h <;> exact he

/-- A name that was spelled is that of a record. -/
theorem find?_isSome_of_spelled {α : Type} {records : List α} {nameOf : α → String}
    {whole : List Char} {name : String} (h : Spelled whole (records.map nameOf) name) :
    (records.find? fun record => sameName (nameOf record) name).isSome := by
  obtain ⟨-, known, hknown, hsame⟩ := h
  obtain ⟨record, hrecord, rfl⟩ := List.mem_map.mp hknown
  exact List.find?_isSome.mpr ⟨record, hrecord, hsame⟩

/-- A request names nothing but what has a record. -/
theorem everywhere_known_of_derives {whole : List Char} {phrase : Phrase} {e : Expr}
    (h : Derives rules whole phrase e) : e.Everywhere rules.Known := by
  refine (Request.everywhere_derives h).imp fun node hnode => ?_
  obtain ⟨phrase, hnode⟩ := hnode
  have hparts := Request.derives_parts hnode
  cases node with
  | namedDie name | weapon name | spell name => exact find?_isSome_of_spelled hparts
  | spellAt name level => exact find?_isSome_of_spelled hparts.1
  | _ => trivial

/-! ## Resolving -/

theorem resolveNumber_lowerNames {node : Expr} (h : rules.Known node) :
    rules.resolveNumber node.lowerNames = (rules.resolveNumber node).map Expr.lowerNames := by
  cases node with
  | namedDie name =>
    obtain ⟨die, hdie⟩ := Option.isSome_iff_exists.mp h
    simp [resolveNumber, hdie]
    rfl
  | _ => rfl

/-- Numbers are resolved alike, and the names that are left stay in lower case. -/
theorem resolveNumbers_lowerNames {e : Expr} (h : e.Everywhere rules.Known) :
    rules.resolveNumbers e.lowerNames = (rules.resolveNumbers e).map Expr.lowerNames := by
  refine (Expr.mapNodesM_mapNames lowerName _ e).trans ?_
  refine Expr.mapNodesM_related (S := fun a b => a = b.lowerNames)
    (R := fun (x y : Except RollError Expr) => x = y.map Expr.lowerNames)
    (g := rules.resolveNumber) ?_ (fun e a b he hea hab => ?_) h
  · rintro _ y next next' rfl hnext
    cases y with
    | ok b => exact hnext _ b rfl
    | error cause => rfl
  · rw [hab.mapName_eq]
    exact resolveNumber_lowerNames (known_of_rebuilt (known_of_rebuilt he hea) hab)

/-- A node whose numbers are resolved, and whose name is that of a record. -/
def KnownReference (rules : Ruleset) (node : Expr) : Prop :=
  rules.Known node ∧ node.kind ≠ .token

/-- What holds of literals, and carries over from a node to the same node over other children, holds
of a tree whose numbers are resolved. -/
theorem everywhere_of_resolveNumbers {p q : Expr → Prop} (hliteral : ∀ n, q (.literal n))
    (hkept : ∀ {R : Expr → Expr → Prop} {e node : Expr}, p e → Expr.Rebuilt R e node →
      node.kind ≠ .token → q node)
    {e r : Expr} (h : e.Everywhere p) (hr : rules.resolveNumbers e = .ok r) : r.Everywhere q := by
  have hstep : ∀ e node, p e →
      Expr.Rebuilt (fun a b => a.Everywhere p → b.Everywhere q) e node →
      Ends (fun r => e.Everywhere p → r.Everywhere q) (fun _ => True)
        (rules.resolveNumber node) := by
    intro e node he hnode
    have hroot (hkind : node.kind ≠ .token) (heverywhere : e.Everywhere p) : node.Everywhere q :=
      hnode.everywhere heverywhere (hkept he hnode hkind)
    cases node with
    | integer n => exact fun _ => hliteral n
    | namedDie name =>
      rw [resolveNumber]
      split
      · exact fun _ => hliteral _
      · trivial
    | _ => exact hroot (by simp [Expr.kind])
  exact (Expr.mapNodesM_ends hstep h).of_eq_ok hr h

/-- Of known names, those of weapons and spells are left. -/
theorem knownReference_of_resolveNumbers {e r : Expr} (h : e.Everywhere rules.Known)
    (hr : rules.resolveNumbers e = .ok r) : r.Everywhere rules.KnownReference :=
  everywhere_of_resolveNumbers (fun _ => ⟨trivial, by simp [Expr.kind]⟩)
    (fun he hnode hkind => ⟨known_of_rebuilt he hnode, hkind⟩) h hr

variable {limit : Int64} {expand? : Option Expander}

theorem resolveReference_mapName {node : Expr} (h : rules.KnownReference node) :
    rules.resolveReference limit expand? (node.mapName lowerName) =
      rules.resolveReference limit expand? node := by
  cases node with
  | namedDie name => exact absurd rfl h.2
  | weapon name =>
    obtain ⟨weapon, hweapon⟩ := Option.isSome_iff_exists.mp h.1
    simp only [Expr.mapName, resolveReference, weaponDamage, weapon?_lowerName, hweapon]
  | spell name =>
    obtain ⟨spell, hspell⟩ := Option.isSome_iff_exists.mp h.1
    simp only [Expr.mapName, resolveReference, spellDamage, spell?_lowerName, hspell]
  | spellAt name level =>
    obtain ⟨spell, hspell⟩ := Option.isSome_iff_exists.mp h.1
    simp only [Expr.mapName, resolveReference, spellDamageAt, spell?_lowerName, hspell]
  | _ => rfl

/-- References are resolved alike, and no name is left. -/
theorem resolveReferences_lowerNames (limit : Int64) (levels : Nat) {e : Expr}
    (h : e.Everywhere rules.KnownReference) :
    rules.resolveReferences limit levels e.lowerNames =
      rules.resolveReferences limit levels e := by
  refine (Expr.mapNodesM_mapNames lowerName _ e).trans (Expr.mapNodesM_congr ?_ h)
  intro e node he hnode
  exact resolveReference_mapName ⟨known_of_rebuilt he.1 hnode, hnode.kind_eq ▸ he.2⟩

end Ruleset

end SpokenDice
