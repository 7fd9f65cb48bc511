import Mathlib.Logic.Relation
import SpokenDice.Proofs.Expr.Nodes
import SpokenDice.Ruleset.Resolve

/-!
# References between records

A weapon or spell in an expression refers to its record, and the record's damage texts are read as
requests are, so they may refer to further records. This is the graph of such references, said
without resolving any of them.

- `Expr.references`: the references of an expression.
- `Chain`: a chain of references, each in a damage text of the one before it.
- `LongestChain`: how long the chains get that start in an expression.
- `Mentions`: a weapon names another one in its damage text; `chain_of_mentions_self`: a weapon that
  leads back to itself starts chains of every length.
-/

namespace SpokenDice

/-- What an expression says of a weapon or spell whose damage it deals. -/
inductive Reference where
  | weapon (name : String)
  | spell (name : String)
  /-- A spell whose level is stated. -/
  | spellAt (name : String)
  deriving DecidableEq

namespace Expr

/-- The reference that the node is, if it is one. -/
def reference? : Expr → Option Reference
  | .weapon name => some (.weapon name)
  | .spell name => some (.spell name)
  | .spellAt name _ => some (.spellAt name)
  | _ => none

/-- The references of the expression, in the order of its nodes. -/
def references (e : Expr) : List Reference :=
  e.postorder.filterMap reference?

/-- Over children with the references of the old ones, the node has its old references. -/
theorem Rebuilt.references_eq {e node : Expr}
    (h : Rebuilt (fun a b => b.references = a.references) e node) :
    node.references = e.references := by
  cases h <;> simp_all [references, postorder, reference?, List.filterMap_cons]

end Expr

namespace Ruleset

variable (rules : Ruleset)

/-- Numbers are no references. -/
theorem references_of_resolveNumbers_eq_ok {rules : Ruleset} {e r : Expr}
    (h : rules.resolveNumbers e = .ok r) : r.references = e.references := by
  have hstep : ∀ e node, True → Expr.Rebuilt (fun a b => b.references = a.references) e node →
      Ends (fun r => r.references = e.references) (fun _ => True) (rules.resolveNumber node) := by
    intro e node _ hnode
    have hkept := hnode.references_eq
    unfold resolveNumber
    split
    · exact hkept
    · split
      · exact hkept
      · trivial
    · exact hkept
  exact (Expr.mapNodesM_ends hstep (Expr.everywhere_iff.mpr fun _ _ => trivial)).of_eq_ok h

/-! ## Damage texts -/

/-- The first dice of a text, if there are some. -/
def firstDice (text : String) : List String :=
  (findDice? text.toList).toList.map String.ofList

/-- The texts in the record of a reference that say its damage, in the order in which they are
read. There is none for a spell that does not say its dice, and no list for an unknown name. -/
def damageTexts? : Reference → Option (List String)
  | .weapon name => (rules.weapon? name).map fun weapon => [weapon.damage]
  | .spell name => (rules.spell? name).map fun spell => firstDice spell.description
  | .spellAt name =>
    (rules.spell? name).map fun spell =>
      firstDice spell.description ++ firstDice spell.higherLevels

/-- Reads a damage text. -/
def readDamage (text : String) : Except RollError Expr :=
  Request.readDice (.ofRuleset rules) text

/-- The first record has a damage text that refers to the second one. -/
def RefersTo (ref next : Reference) : Prop :=
  ∃ texts text inner, rules.damageTexts? ref = some texts ∧ text ∈ texts ∧
    rules.readDamage text = .ok inner ∧ next ∈ inner.references

/-! ## Chains -/

/-- A chain of `n` references begins here: each stands in a damage text of the one before it, and
each has a record. -/
inductive Chain : Reference → Nat → Prop
  | last {ref : Reference} (h : (rules.damageTexts? ref).isSome) : Chain ref 1
  | cons {ref next : Reference} {n : Nat} (h : rules.RefersTo ref next) (hnext : Chain next n) :
      Chain ref (n + 1)

/-- The longest chain that starts in the expression has `n` references; `n` is 0 when none does. -/
def LongestChain (e : Expr) (n : Nat) : Prop :=
  (∀ ref ∈ e.references, ∀ m, rules.Chain ref m → m ≤ n) ∧
    (n = 0 ∨ ∃ ref ∈ e.references, rules.Chain ref n)

variable {rules}

theorem RefersTo.isSome {ref next : Reference} (h : rules.RefersTo ref next) :
    (rules.damageTexts? ref).isSome := by
  obtain ⟨texts, -, -, htexts, -⟩ := h
  exact Option.isSome_of_eq_some htexts

theorem Chain.isSome {ref : Reference} {n : Nat} (h : rules.Chain ref n) :
    (rules.damageTexts? ref).isSome := by
  cases h with
  | last h => exact h
  | cons h _ => exact h.isSome

/-- A chain may end one reference earlier, unless it is a single one. -/
theorem Chain.shorten {ref : Reference} {n : Nat} (h : rules.Chain ref (n + 2)) :
    rules.Chain ref (n + 1) := by
  induction n generalizing ref with
  | zero => exact .last h.isSome
  | succ n ih =>
    cases h with
    | cons href hnext => exact .cons href (ih hnext)

/-! ## Weapons that lead back to themselves -/

variable (rules) in
/-- The damage text of the first weapon names the second one. -/
def Mentions (weapon next : Weapon) : Prop :=
  ∃ inner name, rules.readDamage weapon.damage = .ok inner ∧
    .weapon name ∈ inner.postorder ∧ rules.weapon? name = some next

theorem weapon_mem_references {e : Expr} {name : String} (h : .weapon name ∈ e.postorder) :
    .weapon name ∈ e.references :=
  List.mem_filterMap.mpr ⟨_, h, rfl⟩

/-- What a weapon mentions, any name of it refers to. -/
theorem Mentions.refersTo {weapon next : Weapon} (h : rules.Mentions weapon next) {name : String}
    (hname : rules.weapon? name = some weapon) :
    ∃ name', rules.weapon? name' = some next ∧ rules.RefersTo (.weapon name) (.weapon name') := by
  obtain ⟨inner, name', hread, hmem, hname'⟩ := h
  have htexts : rules.damageTexts? (.weapon name) = some [weapon.damage] := by
    simp [damageTexts?, hname]
  exact ⟨name', hname', _, _, inner, htexts, List.mem_singleton_self _, hread,
    weapon_mem_references hmem⟩

/-- Chains get longer on the way from one weapon to another. -/
theorem chain_of_transGen_mentions {n : Nat} {weapon next : Weapon}
    (h : Relation.TransGen rules.Mentions weapon next)
    (hnext : ∀ name, rules.weapon? name = some next → rules.Chain (.weapon name) (n + 1)) :
    ∀ name, rules.weapon? name = some weapon → rules.Chain (.weapon name) (n + 2) := by
  induction h using Relation.TransGen.head_induction_on with
  | single h =>
    intro name hname
    obtain ⟨name', hname', href⟩ := h.refersTo hname
    exact .cons href (hnext name' hname')
  | head h _ ih =>
    intro name hname
    obtain ⟨name', hname', href⟩ := h.refersTo hname
    exact (Chain.cons href (ih name' hname')).shorten

/-- A weapon that leads back to itself starts chains of every length. -/
theorem chain_of_mentions_self {weapon : Weapon}
    (h : Relation.TransGen rules.Mentions weapon weapon) (n : Nat) :
    ∀ name, rules.weapon? name = some weapon → rules.Chain (.weapon name) (n + 1) := by
  induction n with
  | zero =>
    intro name hname
    refine .last ?_
    simp [damageTexts?, hname]
  | succ n ih => exact chain_of_transGen_mentions h ih

end Ruleset

end SpokenDice
