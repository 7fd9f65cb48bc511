import Mathlib.Data.List.Find
import SpokenDice.Proofs.Roller.LetterCase
import SpokenDice.Proofs.Ruleset.Agreement

/-!
# The order of the records of a ruleset

Of the names that match, the longest is read, wherever its record stands, so that requests are read
alike when the tables of a ruleset are put in another order. Which record a name stands for depends
on the order only where several records of a table have the name; where no two do, nothing that a
roller does depends on it.

- `Ruleset.Reordered`: the same records in another order.
- `findsAlike_reordered`: the names match alike, with and without duplicates.
- `compile_reordered`: what follows for requests.
-/

namespace SpokenDice

/-- The two rulesets have the same records, each table in an order of its own. -/
structure Ruleset.Reordered (rules rules' : Ruleset) : Prop where
  namedDice : rules.namedDice.Perm rules'.namedDice
  weapons : rules.weapons.Perm rules'.weapons
  spells : rules.spells.Perm rules'.spells

/-- No two records of a table have the same name, whatever the case of their letters. -/
structure Ruleset.NamesDistinct (rules : Ruleset) : Prop where
  namedDice : rules.namedDice.Pairwise fun a b => sameName a.name b.name = false
  weapons : rules.weapons.Pairwise fun a b => sameName a.name b.name = false
  spells : rules.spells.Pairwise fun a b => sameName a.name b.name = false

/-- Two names that are the same as a third one are the same. -/
theorem sameName_of_common {a b c : String} (hab : sameName a c = true)
    (hbc : sameName b c = true) : sameName a b = true := by
  simp only [sameName, Text.sameLetters_iff] at *
  rw [hab, hbc]

theorem sameName_comm (a b : String) : sameName a b = sameName b a := by
  simp only [sameName, Text.sameLetters, Bool.beq_comm]

/-! ## Reading -/

namespace Request

theorem longestName_perm {names names' : List (List Char)} (h : names.Perm names')
    (text : List Char) : longestName names text = longestName names' text := by
  cases hlength : longestName names' text with
  | none =>
    rw [longestName_eq_none_iff] at hlength ⊢
    exact fun name hname => hlength name (h.mem_iff.mp hname)
  | some n =>
    rw [longestName_eq_some_iff] at hlength ⊢
    obtain ⟨⟨name, hname, hmatch⟩, hmax⟩ := hlength
    exact ⟨⟨name, h.mem_iff.mpr hname, hmatch⟩,
      fun other hother => hmax other (h.mem_iff.mp hother)⟩

theorem usableNames_perm {α : Type} {nameOf : α → String} {records records' : List α}
    (h : records.Perm records') :
    (usableNames (records.map nameOf)).Perm (usableNames (records'.map nameOf)) :=
  ((h.map nameOf).map String.toList).filter _

/-- The order of names makes no difference to which is found. -/
theorem findsAlike_reordered {rules rules' : Ruleset} (h : rules.Reordered rules')
    (whole : List Char) :
    (Lexicon.ofRuleset rules).FindsAlike (Lexicon.ofRuleset rules') whole where
  namedDice text _ := longestName_perm (usableNames_perm h.namedDice) text
  weapons text _ := longestName_perm (usableNames_perm h.weapons) text
  spells text _ := longestName_perm (usableNames_perm h.spells) text

theorem readOr_reordered {rules rules' : Ruleset} (h : rules.Reordered rules')
    (otherwise : RollError) (text : String) :
    readOr otherwise (Lexicon.ofRuleset rules) text =
      readOr otherwise (Lexicon.ofRuleset rules') text :=
  readOr_congr (findsAlike_reordered h text.toList) otherwise

end Request

/-! ## Resolving -/

namespace Ruleset

/-- Where no two records have the same name, a name finds its record in any order. -/
theorem find?_reordered {α : Type} {nameOf : α → String} {records records' : List α}
    (h : records.Perm records')
    (hdistinct : records.Pairwise fun a b => sameName (nameOf a) (nameOf b) = false)
    (name : String) :
    (records.find? fun record => sameName (nameOf record) name) =
      records'.find? fun record => sameName (nameOf record) name := by
  refine List.find?_eq_find?_of_perm h fun a ha b hb => ?_
  have : Std.Symm fun a b => sameName (nameOf a) (nameOf b) = false :=
    ⟨fun a b hab => by rwa [sameName_comm]⟩
  refine Classical.byContradiction fun hne => ?_
  have hnot := hdistinct.forall ha.1 hb.1 hne
  rw [sameName_of_common ha.2 hb.2] at hnot
  cases hnot

/-- The two rulesets find the same records and read the dice texts of records alike. -/
structure Alike (rules rules' : Ruleset) : Prop where
  namedDie? : rules.namedDie? = rules'.namedDie?
  weapon? : rules.weapon? = rules'.weapon?
  spell? : rules.spell? = rules'.spell?
  readDice : Request.readDice (Request.Lexicon.ofRuleset rules) =
    Request.readDice (Request.Lexicon.ofRuleset rules')

theorem Reordered.alike {rules rules' : Ruleset} (h : rules.Reordered rules')
    (hdistinct : rules.NamesDistinct) : rules.Alike rules' where
  namedDie? := funext (find?_reordered h.namedDice hdistinct.namedDice)
  weapon? := funext (find?_reordered h.weapons hdistinct.weapons)
  spell? := funext (find?_reordered h.spells hdistinct.spells)
  readDice := funext fun text => Request.readOr_reordered h (.diceNotUnderstood text) text

namespace Alike

variable {rules rules' : Ruleset} (h : rules.Alike rules')

include h

/-- What holds of all texts holds of some. -/
theorem agreesOn : AgreesOn (fun _ => True) rules rules' where
  readDice text _ := congrFun h.readDice text
  namedDie? name _ := congrFun h.namedDie? name
  weapon? name _ := congrFun h.weapon? name
  spell? name _ := congrFun h.spell? name
  part _ _ _ _ := trivial
  damage _ _ := trivial
  description _ _ := trivial
  higherLevels _ _ := trivial

omit h in
theorem everywhere_nameIn (e : Expr) : e.Everywhere (Expr.NameIn fun _ => True) :=
  Expr.everywhere_iff.mpr fun node _ => by cases node <;> trivial

theorem resolveNumbers : rules.resolveNumbers = rules'.resolveNumbers :=
  funext fun e => h.agreesOn.resolveNumbers_eq (everywhere_nameIn e)

/-- The texts of records are resolved alike, to any depth. -/
theorem resolveReferences (limit : Int64) (levels : Nat) :
    rules.resolveReferences limit levels = rules'.resolveReferences limit levels :=
  funext fun e => h.agreesOn.resolveReferences_eq limit levels (everywhere_nameIn e)

end Alike

end Ruleset

namespace Roller

/-- The order of the records of a ruleset does not matter for what a request is read as, duplicates
and overlapping names included. Where no two records of a table have the same name, it does not
matter either for what the request is compiled to, or for the cause of its failure. -/
theorem compile_reordered {rules rules' : Ruleset} (h : rules.Reordered rules') :
    (∀ text, Request.read (Request.Lexicon.ofRuleset rules) text =
        Request.read (Request.Lexicon.ofRuleset rules') text) ∧
      (rules.NamesDistinct → ∀ limits text,
        (Roller.mk rules limits).compile text = (Roller.mk rules' limits).compile text) := by
  refine ⟨Request.readOr_reordered h .notUnderstood, fun hdistinct limits text => ?_⟩
  have halike := h.alike hdistinct
  have htree (e : Expr) :
      (Roller.mk rules limits).compileTree e = (Roller.mk rules' limits).compileTree e := by
    rw [compileTree_eq, compileTree_eq, halike.resolveNumbers, halike.resolveReferences]
  show (Request.read (Request.Lexicon.ofRuleset rules) text >>= Roller.compileTree _) =
    (Request.read (Request.Lexicon.ofRuleset rules') text >>= Roller.compileTree _)
  rw [Request.read, Request.read, Request.readOr_reordered h, funext htree]

/-- A ruleset whose names overlap: an axe, and a battle axe whose damage names the axe. -/
def armory : Ruleset where
  namedDice := [⟨"coin", 2⟩, ⟨"coin toss", 3⟩]
  weapons := [⟨"Battle", "1d4"⟩, ⟨"Axe", "1d6"⟩, ⟨"Battle axe", "Axe + 1"⟩]
  spells := [⟨"Hail", 1, "takes 2d8 cold damage", "1d8 more"⟩, ⟨"Axe storm", 2, "2d6", "1d6"⟩]

/-- The same records the other way round. -/
def armoryReversed : Ruleset :=
  ⟨armory.namedDice.reverse, armory.weapons.reverse, armory.spells.reverse⟩

/-- The battle axe is found in either order. -/
theorem compile_reordered_battle_axe :
    armory.NamesDistinct ∧ armory.Reordered armoryReversed ∧
      (Roller.mk armoryReversed {}).compile "battle axe + coin toss" =
        .ok (.binary .add (.binary .add (.roll (.literal 1) (.literal 6)) (.literal 1))
          (.roll (.literal 1) (.literal 3))) := by
  have hdistinct : armory.NamesDistinct := ⟨by decide, by decide, by decide⟩
  have hreordered : armory.Reordered armoryReversed :=
    ⟨(List.reverse_perm _).symm, (List.reverse_perm _).symm, (List.reverse_perm _).symm⟩
  have hcompile : (Roller.mk armory {}).compile "battle axe + coin toss" =
      .ok (.binary .add (.binary .add (.roll (.literal 1) (.literal 6)) (.literal 1))
        (.roll (.literal 1) (.literal 3))) :=
    eq_ok_of_toOption_eq_some (by decide +kernel)
  exact ⟨hdistinct, hreordered,
    ((compile_reordered hreordered).2 hdistinct {} _).symm.trans hcompile⟩

end Roller

end SpokenDice
