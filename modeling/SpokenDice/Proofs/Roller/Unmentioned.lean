import Mathlib.Data.List.InsertIdx
import SpokenDice.Proofs.Roller.LetterCase
import SpokenDice.Proofs.Ruleset.Agreement

/-!
# Records that nothing mentions

A name is read only where it stands, and a record is looked up only by a name that was read. So a
record makes no difference to a request when its name stands neither in the request nor in the texts
of the other records, and this does not depend on its place in the table.

- `Occurs`: a name stands in a text, whatever the case of its letters.
- `agreesOn_insert`: with and without the record, rulesets agree on the texts in which its name does
  not stand.
- `compile_insert`: requests in which it does not stand are compiled alike.
-/

namespace SpokenDice

/-- The name stands somewhere in the text, whatever the case of the letters. -/
def Occurs (name text : String) : Prop :=
  Text.lowerCase name.toList <:+: Text.lowerCase text.toList

instance (name text : String) : Decidable (Occurs name text) :=
  inferInstanceAs (Decidable (_ <:+: _))

/-- What stands in a part of a text stands in the text. -/
theorem Occurs.of_part {name part text : String} (h : Occurs name part)
    (hpart : part.toList <:+: text.toList) : Occurs name text :=
  h.trans (hpart.map _)

/-- A name is not the same as one in which it does not stand. -/
theorem sameName_eq_false {name other : String} (h : ¬ Occurs name other) :
    sameName name other = false := by
  refine Bool.eq_false_iff.mpr fun hsame => h ?_
  rw [Occurs, Text.sameLetters_iff.mp hsame]

/-! ## Insertion -/

section Insertion

variable {α : Type} {p : α → Bool} {a : α}

/-- Where an element is inserted that a filter drops, the filter keeps what it kept before. -/
theorem filter_insertIdx (ha : p a = false) (position : Nat) (l : List α) :
    (l.insertIdx position a).filter p = l.filter p := by
  induction l generalizing position with
  | nil => cases position <;> simp [ha]
  | cons b l ih => cases position <;> simp [List.filter_cons, ha, ih]

/-- A record whose name does not stand in the name that is looked up is not found. -/
theorem find?_insertIdx (nameOf : α → String) {name : String} (h : ¬ Occurs (nameOf a) name)
    (position : Nat) (records : List α) :
    ((records.insertIdx position a).find? fun record => sameName (nameOf record) name) =
      records.find? fun record => sameName (nameOf record) name := by
  rw [← List.head?_filter, filter_insertIdx (p := fun record => sameName (nameOf record) name)
    (sameName_eq_false h), List.head?_filter]

end Insertion

/-- A record of a ruleset. -/
inductive Record where
  | namedDie (record : NamedDie)
  | weapon (record : Weapon)
  | spell (record : Spell)

/-- The name of a record. -/
def Record.name : Record → String
  | .namedDie record => record.name
  | .weapon record => record.name
  | .spell record => record.name

namespace Ruleset

/-- The ruleset with one more record, at this position of its table. -/
def insert (rules : Ruleset) (position : Nat) : Record → Ruleset
  | .namedDie added => { rules with namedDice := rules.namedDice.insertIdx position added }
  | .weapon added => { rules with weapons := rules.weapons.insertIdx position added }
  | .spell added => { rules with spells := rules.spells.insertIdx position added }

/-- The name stands in no text of a record. -/
structure Silent (rules : Ruleset) (name : String) : Prop where
  damage : ∀ weapon ∈ rules.weapons, ¬ Occurs name weapon.damage
  description : ∀ spell ∈ rules.spells, ¬ Occurs name spell.description
  higherLevels : ∀ spell ∈ rules.spells, ¬ Occurs name spell.higherLevels

end Ruleset

/-! ## Reading -/

namespace Request

/-- A name that does not stand in a text matches nowhere in it. -/
theorem matchesName_eq_false {name whole : String} {text : List Char} (h : ¬ Occurs name whole)
    (htext : text <:+ whole.toList) : matchesName text name.toList = false := by
  refine Bool.eq_false_iff.mpr fun hmatch => h ?_
  obtain ⟨rest, hrest⟩ := Option.isSome_iff_exists.mp hmatch
  obtain ⟨head, rfl, hsame, -⟩ := afterWord_eq_some_iff.mp hrest
  rw [Occurs, ← Text.sameLetters_iff.mp hsame]
  exact ((List.prefix_append head rest).isInfix.trans htext.isInfix).map _

/-- The longest name is the same with a record more whose name does not match. -/
theorem longestName_insertIdx {α : Type} (nameOf : α → String) {a : α} {text : List Char}
    (h : matchesName text (nameOf a).toList = false) (position : Nat) (records : List α) :
    longestName (usableNames ((records.insertIdx position a).map nameOf)) text =
      longestName (usableNames (records.map nameOf)) text := by
  -- One filter does for the usable names and those that match, and it drops the record's name.
  rw [longestName, longestName, usableNames, usableNames, List.filter_filter, List.filter_filter,
    List.map_insertIdx, List.map_insertIdx, filter_insertIdx]
  rw [h, Bool.false_and]

theorem findsAlike_insert {rules : Ruleset} {record : Record} {whole : String}
    (h : ¬ Occurs record.name whole) (position : Nat) :
    (Lexicon.ofRuleset (rules.insert position record)).FindsAlike (Lexicon.ofRuleset rules)
      whole.toList where
  namedDice text htext := by
    cases record with
    | namedDie added =>
      exact longestName_insertIdx NamedDie.name (matchesName_eq_false h htext) position _
    | _ => rfl
  weapons text htext := by
    cases record with
    | weapon added =>
      exact longestName_insertIdx Weapon.name (matchesName_eq_false h htext) position _
    | _ => rfl
  spells text htext := by
    cases record with
    | spell added =>
      exact longestName_insertIdx Spell.name (matchesName_eq_false h htext) position _
    | _ => rfl

theorem readOr_insert {rules : Ruleset} {record : Record} {text : String}
    (h : ¬ Occurs record.name text) (position : Nat) (otherwise : RollError) :
    readOr otherwise (.ofRuleset (rules.insert position record)) text =
      readOr otherwise (.ofRuleset rules) text :=
  readOr_congr (findsAlike_insert h position) otherwise

end Request

/-! ## Resolving and compiling -/

/-- A record whose name stands in no text of a record makes no difference on the texts in which its
name does not stand. -/
theorem Ruleset.agreesOn_insert {rules : Ruleset} {record : Record} (h : rules.Silent record.name)
    (position : Nat) :
    AgreesOn (fun text => ¬ Occurs record.name text) rules (rules.insert position record) where
  readDice text htext := (Request.readOr_insert htext position _).symm
  namedDie? name hname := by
    cases record with
    | namedDie added => exact (find?_insertIdx NamedDie.name hname position _).symm
    | _ => rfl
  weapon? name hname := by
    cases record with
    | weapon added => exact (find?_insertIdx Weapon.name hname position _).symm
    | _ => rfl
  spell? name hname := by
    cases record with
    | spell added => exact (find?_insertIdx Spell.name hname position _).symm
    | _ => rfl
  part text part htext hpart hoccurs := htext (hoccurs.of_part hpart)
  damage := h.damage
  description := h.description
  higherLevels := h.higherLevels

namespace Roller

/-- A text on which two rulesets agree is compiled alike, if it is also read alike as a request,
which may fail for another cause than as a text of dice. -/
theorem compile_of_agreesOn {T : String → Prop} {rules rules' : Ruleset} {text : String}
    (h : rules.AgreesOn T rules') (htext : T text)
    (hread : Request.read (.ofRuleset rules) text = Request.read (.ofRuleset rules') text)
    (limits : Limits) :
    (Roller.mk rules limits).compile text = (Roller.mk rules' limits).compile text := by
  show Request.read (.ofRuleset rules) text >>= (Roller.mk rules limits).compileTree =
    Request.read (.ofRuleset rules') text >>= (Roller.mk rules' limits).compileTree
  rw [← hread]
  refine bind_congr_of_eq_ok fun e he => ?_
  have hnames := h.nameIn_of_readOr htext he
  rw [compileTree_eq, compileTree_eq, ← h.resolveNumbers_eq hnames]
  refine bind_congr_of_eq_ok fun r hr => ?_
  rw [h.resolveReferences_eq _ _ (Ruleset.AgreesOn.nameIn_of_resolveNumbers hnames hr)]

/-- A named die, weapon or spell whose name stands neither in a request nor in a text of any other
record, whatever the case of its letters, makes no difference to the request: wherever the record is
inserted into its table, the request is compiled to the same tree or fails for the same cause. -/
theorem compile_insert {rules : Ruleset} {record : Record} {text : String}
    (htext : ¬ Occurs record.name text) (hrules : rules.Silent record.name) (position : Nat)
    (limits : Limits) :
    (Roller.mk (rules.insert position record) limits).compile text =
      (Roller.mk rules limits).compile text := by
  have hread : Request.read (.ofRuleset (rules.insert position record)) text =
      Request.read (.ofRuleset rules) text := Request.readOr_insert htext position .notUnderstood
  exact (compile_of_agreesOn (rules.agreesOn_insert hrules position) htext hread.symm limits).symm

/-- A ruleset with a weapon whose damage names another one. -/
def axes : Ruleset :=
  ⟨[⟨"coin", 2⟩], [⟨"Axe", "1d6"⟩, ⟨"Battle axe", "AXE + 1"⟩], [⟨"Hail", 1, "deals 2d8", "1d8"⟩]⟩

/-- A spell whose name goes on where that of a weapon ends. -/
def axeStorm : Spell :=
  ⟨"Axe storm", 2, "deals 9d6", "1d6"⟩

/-- The spell in front of all others leaves a request for the weapon as it is. -/
theorem compile_insert_axe_storm :
    ¬ Occurs (Record.spell axeStorm).name "battle axe + hail" ∧
      axes.Silent (Record.spell axeStorm).name ∧
        (Roller.mk (axes.insert 0 (.spell axeStorm)) {}).compile "battle axe + hail" =
          .ok (.binary .add (.binary .add (.roll (.literal 1) (.literal 6)) (.literal 1))
            (.roll (.literal 2) (.literal 8))) := by
  have htext : ¬ Occurs (Record.spell axeStorm).name "battle axe + hail" := by decide +kernel
  have hrules : axes.Silent (Record.spell axeStorm).name :=
    ⟨by decide +kernel, by decide +kernel, by decide +kernel⟩
  have hcompile : (Roller.mk axes {}).compile "battle axe + hail" =
      .ok (.binary .add (.binary .add (.roll (.literal 1) (.literal 6)) (.literal 1))
        (.roll (.literal 2) (.literal 8))) :=
    eq_ok_of_toOption_eq_some (by decide +kernel)
  exact ⟨htext, hrules, (compile_insert htext hrules 0 {}).trans hcompile⟩

end Roller

end SpokenDice
