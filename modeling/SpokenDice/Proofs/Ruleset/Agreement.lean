import SpokenDice.Proofs.Request.Lexicons
import SpokenDice.Proofs.Ruleset.Names

/-!
# Rulesets that agree on some texts

Two rulesets may differ in much and still resolve an expression alike. It is enough that they read
the texts alike that are read on the way, and find the same records for the names in these texts.
Such texts are closed under taking parts, as names and the dice of a description are, and under
going into the records that are found.

- `AgreesOn`: the two rulesets agree on the texts that have a property.
- `resolveNumbers_eq` and `resolveReferences_eq`: they resolve the names of such texts alike, the
  references in records included.
-/

namespace SpokenDice

/-- If the node has a name, the name has the property. -/
def Expr.NameIn (T : String → Prop) : Expr → Prop
  | .namedDie name => T name
  | .weapon name => T name
  | .spell name => T name
  | .spellAt name _ => T name
  | _ => True

/-- A node keeps its name over other children. -/
theorem Expr.nameIn_of_rebuilt {T : String → Prop} {R : Expr → Expr → Prop} {e node : Expr}
    (he : e.NameIn T) (h : Rebuilt R e node) : node.NameIn T := by
  cases h <;> exact he

namespace Ruleset

/-- On texts with the property, the two rulesets agree: they read them alike, and find the same
records for them as for names. Parts of such texts are such texts, and so are the texts of the
records that the first ruleset has. -/
structure AgreesOn (T : String → Prop) (rules rules' : Ruleset) : Prop where
  readDice : ∀ text, T text →
    Request.readDice (.ofRuleset rules) text = Request.readDice (.ofRuleset rules') text
  namedDie? : ∀ name, T name → rules.namedDie? name = rules'.namedDie? name
  weapon? : ∀ name, T name → rules.weapon? name = rules'.weapon? name
  spell? : ∀ name, T name → rules.spell? name = rules'.spell? name
  part : ∀ text part, T text → part.toList <:+: text.toList → T part
  damage : ∀ weapon ∈ rules.weapons, T weapon.damage
  description : ∀ spell ∈ rules.spells, T spell.description
  higherLevels : ∀ spell ∈ rules.spells, T spell.higherLevels

namespace AgreesOn

variable {T : String → Prop} {rules rules' : Ruleset} (h : AgreesOn T rules rules')

include h

/-! ## Names -/

/-- The names in what is read are parts of the text. -/
theorem nameIn_of_readOr {otherwise : RollError} {text : String} {e : Expr} (htext : T text)
    (hread : Request.readOr otherwise (.ofRuleset rules) text = .ok e) :
    e.Everywhere (Expr.NameIn T) := by
  refine (Request.everywhere_derives (Request.derives_of_readOr_eq_ok hread)).imp ?_
  rintro node ⟨phrase, hnode⟩
  have hparts := Request.derives_parts hnode
  cases node with
  | namedDie name | weapon name | spell name => exact h.part _ _ htext hparts.1
  | spellAt name level => exact h.part _ _ htext hparts.1.1
  | _ => trivial

theorem resolveNumbers_eq {e : Expr} (he : e.Everywhere (Expr.NameIn T)) :
    rules.resolveNumbers e = rules'.resolveNumbers e := by
  refine Expr.mapNodesM_congr (fun e node he hnode => ?_) he
  have hname := Expr.nameIn_of_rebuilt he hnode
  cases node with
  | namedDie name => rw [resolveNumber, resolveNumber, h.namedDie? name hname]
  | _ => rfl

omit h in
/-- No name comes in when numbers are resolved. -/
theorem nameIn_of_resolveNumbers {e r : Expr} (he : e.Everywhere (Expr.NameIn T))
    (hr : rules.resolveNumbers e = .ok r) : r.Everywhere (Expr.NameIn T) :=
  everywhere_of_resolveNumbers (fun _ => trivial)
    (fun he hnode _ => Expr.nameIn_of_rebuilt he hnode) he hr

/-! ## References -/

/-- Either of the expanders may be entered where the other may, and what they make of texts with
the property is the same. -/
abbrev SameExpander (T : String → Prop) : Option Expander → Option Expander → Prop :=
  Option.Rel fun expand expand' => ∀ text, T text → expand text = expand' text

variable {limit : Int64} {expand? expand'? : Option Expander}
  (hexpand : SameExpander T expand? expand'?)

/-- What goes on alike with the dice of a text goes on alike with the text. -/
theorem diceOf_bind {otherwise : RollError} {text : String} {next next' : Expander}
    (htext : T text) (hnext : ∀ dice, T dice → next dice = next' dice) :
    diceOf otherwise text >>= next = diceOf otherwise text >>= next' := by
  unfold diceOf
  cases hdice : findDice? text.toList with
  | none => rfl
  | some dice =>
    obtain ⟨before, after, hpart⟩ := append_of_findDice?_eq_some hdice
    refine hnext _ (h.part text _ htext ?_)
    rw [String.toList_ofList]
    exact ⟨before, after, hpart.symm⟩

include hexpand

omit h in
/-- What goes on alike with expanders that agree goes on alike after entering a record. -/
theorem enter_bind {name : String} {next next' : Expander → Except RollError Expr}
    (hnext : ∀ expand expand', (∀ text, T text → expand text = expand' text) →
      next expand = next' expand') :
    enter expand? name >>= next = enter expand'? name >>= next' := by
  cases hexpand with
  | none => rfl
  | some hsame => exact hnext _ _ hsame

theorem weaponDamage_eq {name : String} (hname : T name) :
    rules.weaponDamage expand? name = rules'.weaponDamage expand'? name := by
  rw [weaponDamage, weaponDamage, ← h.weapon? name hname]
  cases hweapon : rules.weapon? name with
  | none => rfl
  | some weapon =>
    have hdamage := h.damage weapon (List.mem_of_find?_eq_some hweapon)
    exact enter_bind hexpand fun expand expand' hsame => hsame _ hdamage

theorem spellDamage_eq {name : String} (hname : T name) :
    rules.spellDamage limit expand? name = rules'.spellDamage limit expand'? name := by
  rw [spellDamage, spellDamage, ← h.spell? name hname]
  cases hspell : rules.spell? name with
  | none => rfl
  | some spell =>
    have hdescription := h.description spell (List.mem_of_find?_eq_some hspell)
    refine enter_bind hexpand fun expand expand' hsame => ?_
    refine h.diceOf_bind hdescription fun dice hdice => ?_
    rw [hsame dice hdice]

theorem spellDamageAt_eq {name : String} (hname : T name) (level : Expr) :
    rules.spellDamageAt limit expand? name level =
      rules'.spellDamageAt limit expand'? name level := by
  rw [spellDamageAt, spellDamageAt, ← h.spell? name hname]
  cases hspell : rules.spell? name with
  | none => rfl
  | some spell =>
    have hmem := List.mem_of_find?_eq_some hspell
    refine enter_bind hexpand fun expand expand' hsame => ?_
    refine bind_congr fun level => h.diceOf_bind (h.description spell hmem) fun dice hdice => ?_
    rw [hsame dice hdice]
    refine bind_congr fun _ => bind_congr fun base => ?_
    refine h.diceOf_bind (h.higherLevels spell hmem) fun extraDice hextraDice => ?_
    rw [hsame extraDice hextraDice]

theorem resolveReference_eq {node : Expr} (hnode : node.NameIn T) :
    rules.resolveReference limit expand? node = rules'.resolveReference limit expand'? node := by
  cases node with
  | weapon name => exact h.weaponDamage_eq hexpand hnode
  | spell name => exact h.spellDamage_eq hexpand hnode
  | spellAt name level => exact h.spellDamageAt_eq hexpand hnode level
  | _ => rfl

theorem mapNodesM_resolveReference_eq {e : Expr} (he : e.Everywhere (Expr.NameIn T)) :
    e.mapNodesM (rules.resolveReference limit expand?) =
      e.mapNodesM (rules'.resolveReference limit expand'?) :=
  Expr.mapNodesM_congr
    (fun _ _ he hnode => h.resolveReference_eq hexpand (Expr.nameIn_of_rebuilt he hnode)) he

omit hexpand in
/-- However deep references may go, the texts of records are expanded alike. -/
theorem expander_same (limit : Int64) (levels : Nat) :
    SameExpander T (rules.expander limit levels) (rules'.expander limit levels) := by
  induction levels with
  | zero => exact .none
  | succ levels ih =>
    refine .some fun text htext => ?_
    show (Request.readDice (.ofRuleset rules) text >>= fun e => rules.resolveNumbers e >>= _) =
      (Request.readDice (.ofRuleset rules') text >>= fun e => rules'.resolveNumbers e >>= _)
    rw [← h.readDice text htext]
    refine bind_congr_of_eq_ok fun e hread => ?_
    have hnames := h.nameIn_of_readOr htext hread
    rw [← h.resolveNumbers_eq hnames]
    refine bind_congr_of_eq_ok fun r hr => ?_
    exact h.mapNodesM_resolveReference_eq ih (nameIn_of_resolveNumbers hnames hr)

omit hexpand in
theorem resolveReferences_eq (limit : Int64) (levels : Nat) {e : Expr}
    (he : e.Everywhere (Expr.NameIn T)) :
    rules.resolveReferences limit levels e = rules'.resolveReferences limit levels e :=
  h.mapNodesM_resolveReference_eq (h.expander_same limit levels) he

end AgreesOn

end Ruleset

end SpokenDice
