import SpokenDice.Proofs.Expr.Counts
import SpokenDice.Proofs.Request.Grammar
import SpokenDice.Ruleset.Resolve

/-!
# Resolved expressions

What the two passes that resolve names leave of a tree that was read. The first never fails on
such a tree, and the second fails only with an apology. No count of dice is negative then: the side
counts of named dice may be, but they never stand where dice are counted.

- `resolveNumbers_ends`: numbers and named dice are gone.
- `resolveReferences_ends`: weapons and spells are gone as well.
-/

namespace SpokenDice

namespace Expr

/-- A node of a tree whose numbers are resolved: no token is left, the levels of spells are
literals, and counts of dice are not negative numbers. -/
def Numbered : Expr → Prop
  | .integer _ => False
  | .namedDie _ => False
  | .spellAt _ level => ∃ n, level = .literal n
  | .roll count _ => count.Counted
  | _ => True

/-- A node of a tree whose references are resolved as well. -/
def Resolved (node : Expr) : Prop :=
  node.Numbered ∧ node.kind ≠ .reference

theorem Numbered.countedRoll {node : Expr} (h : node.Numbered) : node.CountedRoll := by
  cases node <;> first | exact h | trivial

theorem Numbered.kind_ne_token {node : Expr} (h : node.Numbered) : node.kind ≠ .token := by
  cases node <;> simp_all [Numbered, kind]

end Expr

namespace Ruleset

open Request (Derives Phrase Lexicon)
open RollError (Apologetic)

variable {rules : Ruleset} {whole : List Char}

/-! ## Numbers -/

/-- The dice of a name that was spelled are found. -/
theorem namedDie?_of_spelled {name : String}
    (h : Request.Scanner.Spelled whole (rules.namedDice.map NamedDie.name) name) :
    ∃ die, rules.namedDie? name = some die := by
  obtain ⟨-, known, hknown, hsame⟩ := h
  obtain ⟨die, hdie, rfl⟩ := List.mem_map.mp hknown
  exact Option.isSome_iff_exists.mp (List.find?_isSome.mpr ⟨die, hdie, hsame⟩)

/-- A traversal gives a tree over one child when it gives the child. -/
theorem resolveNumbers_bind {e r : Expr} {next : Expr → Except RollError Expr}
    (h : rules.resolveNumbers e = .ok r) : rules.resolveNumbers e >>= next = next r := by
  rw [h]
  rfl

/-- Every phrase of a request gets its numbers resolved. -/
theorem resolveNumbers_of_derives {phrase : Phrase} {e : Expr} (h : Derives rules whole phrase e) :
    ∃ r, rules.resolveNumbers e = .ok r ∧ r.Everywhere Expr.Numbered ∧
      (phrase ≠ .sides → r.Counted) := by
  induction h with
  | weapon | spell => exact ⟨_, rfl, by simp [Expr.Numbered], by simp [Expr.Counted]⟩
  | spellAt => exact ⟨_, rfl, by simp [Expr.Numbered], by simp [Expr.Counted]⟩
  | integer hn => exact ⟨_, rfl, by simp [Expr.Numbered], by simpa [Expr.Counted] using hn⟩
  | @namedDie name h =>
    -- The literal may be negative, but it only stands where sides are said.
    obtain ⟨die, hdie⟩ := namedDie?_of_spelled h
    refine ⟨.literal die.sides, ?_, by simp [Expr.Numbered], by simp⟩
    show rules.resolveNumber (.namedDie name) = _
    rw [resolveNumber, hdie]
    rfl
  | parentheses _ ih | damageGroup _ ih =>
    obtain ⟨r, hr, hnum, hcount⟩ := ih
    exact ⟨.group r, resolveNumbers_bind hr, ⟨hnum, trivial⟩,
      fun _ => hcount (by simp)⟩
  | critical _ ih =>
    obtain ⟨r, hr, hnum, hcount⟩ := ih
    exact ⟨.critical r, resolveNumbers_bind hr, ⟨hnum, trivial⟩, fun _ => hcount (by simp)⟩
  | rolledSides _ ih | loneDie _ ih =>
    obtain ⟨r, hr, hnum, -⟩ := ih
    exact ⟨.rollOne r, resolveNumbers_bind hr, ⟨hnum, trivial⟩, by simp [Expr.Counted]⟩
  | dice _ _ ihc ihs =>
    obtain ⟨c, hc, hcnum, hccount⟩ := ihc
    obtain ⟨s, hs, hsnum, -⟩ := ihs
    exact ⟨.roll c s, (resolveNumbers_bind hc).trans (resolveNumbers_bind hs),
      ⟨hcnum, hsnum, hccount (by simp)⟩, by simp [Expr.Counted]⟩
  | advantage _ _ ih =>
    obtain ⟨r, hr, hnum, hcount⟩ := ih
    exact ⟨.advantage r, resolveNumbers_bind hr, ⟨hnum, trivial⟩, fun _ => hcount (by simp)⟩
  | disadvantage _ _ ih =>
    obtain ⟨r, hr, hnum, hcount⟩ := ih
    exact ⟨.disadvantage r, resolveNumbers_bind hr, ⟨hnum, trivial⟩, fun _ => hcount (by simp)⟩
  | times _ _ ihl ihr | plus _ _ ihl ihr | minus _ _ ihl ihr =>
    obtain ⟨l, hl, hlnum, -⟩ := ihl
    obtain ⟨r, hr, hrnum, -⟩ := ihr
    exact ⟨.binary _ l r, (resolveNumbers_bind hl).trans (resolveNumbers_bind hr),
      ⟨hlnum, hrnum, trivial⟩, by simp [Expr.Counted]⟩
  | primarySides _ ih =>
    obtain ⟨r, hr, hnum, -⟩ := ih
    exact ⟨r, hr, hnum, by simp⟩
  | primaryValue _ ih | valueProduct _ ih | productSum _ ih =>
    obtain ⟨r, hr, hnum, hcount⟩ := ih
    exact ⟨r, hr, hnum, fun _ => hcount (by simp)⟩

/-! ## References -/

/-- The dice that a name stands for: nothing in them is left to be resolved, and they are no
negative number. -/
def Damage (e : Expr) : Prop :=
  e.Everywhere Expr.Resolved ∧ e.Counted

/-- Texts are expanded into damage, if references may go deeper at all. -/
def Expands (expand? : Option Expander) : Prop :=
  ∀ expand, expand? = some expand → ∀ text, Ends Damage Apologetic (expand text)

/-- A text is read as a sum, or it is no request, which is an apology. -/
theorem readOr_ends {otherwise : RollError} (h : Apologetic otherwise) (text : String) :
    Ends (Derives rules text.toList .sum) Apologetic
      (Request.readOr otherwise (Lexicon.ofRuleset rules) text) := by
  cases hread : Request.readOr otherwise (Lexicon.ofRuleset rules) text with
  | ok e => exact Request.derives_of_readOr_eq_ok hread
  | error cause =>
    rw [Request.readOr] at hread
    split at hread
    · split at hread
      · cases hread
      · obtain rfl := Except.error.inj hread
        exact h
    · obtain rfl := Except.error.inj hread
      exact h
    · obtain rfl := Except.error.inj hread
      simp [Ends, RollError.kind]

/-- The numbers of a request are resolved without fail. -/
theorem resolveNumbers_ends {e : Expr} (h : Derives rules whole .sum e) :
    Ends (fun r => r.Everywhere Expr.Numbered ∧ r.Counted) Apologetic (rules.resolveNumbers e) := by
  obtain ⟨r, hr, hnum, hcount⟩ := resolveNumbers_of_derives h
  rw [hr]
  exact ⟨hnum, hcount (by simp)⟩

variable {limit : Int64} {expand? : Option Expander}

theorem enter_ends (hexpand : Expands expand?) (name : String) :
    Ends (fun expand => ∀ text, Ends Damage Apologetic (expand text)) Apologetic
      (enter expand? name) := by
  cases expand? with
  | none => simp [enter, RollError.kind]
  | some expand => exact hexpand expand rfl

theorem weaponDamage_ends (hexpand : Expands expand?) (name : String) :
    Ends Damage Apologetic (rules.weaponDamage expand? name) := by
  rw [weaponDamage]
  split
  · simp [RollError.kind]
  · exact (enter_ends hexpand _).bind fun expand h => h _

theorem diceOf_ends {otherwise : RollError} (h : Apologetic otherwise) (text : String) :
    Ends (fun _ => True) Apologetic (diceOf otherwise text) := by
  rw [diceOf]
  split
  · trivial
  · exact h

theorem checkCastable_ends (spell : Spell) (level : Int64) :
    Ends (fun _ => True) Apologetic (checkCastable limit spell level) := by
  have hbelow : Apologetic (.belowOwnLevel spell.name spell.level level) := by simp [RollError.kind]
  have habove : Apologetic (.aboveLevelLimit spell.name limit) := by simp [RollError.kind]
  rw [checkCastable]
  split
  · exact hbelow
  · split
    · exact habove
    · trivial

theorem spellDamage_ends (hexpand : Expands expand?) (name : String) :
    Ends Damage Apologetic (rules.spellDamage limit expand? name) := by
  rw [spellDamage]
  split
  · simp [RollError.kind]
  · refine (enter_ends hexpand _).bind fun expand h => ?_
    refine (diceOf_ends (by simp [RollError.kind]) _).bind fun dice _ => ?_
    exact (checkCastable_ends _ _).bind fun _ _ => h dice

/-- A sum of damage is damage. -/
theorem damage_scaled {base extra : Expr} (own level : Int64) (hbase : Damage base)
    (hextra : Damage extra) : Damage (scaled own level base extra) := by
  rw [scaled]
  -- One sum for each level above the spell's own.
  induction (level.toInt - own.toInt).toNat with
  | zero => exact hbase
  | succ times ih =>
    exact ⟨⟨ih.1, hextra.1, by simp [Expr.Resolved, Expr.Numbered, Expr.kind]⟩,
      by simp [Nat.repeat, Expr.Counted]⟩

theorem spellDamageAt_ends (hexpand : Expands expand?) (name : String) (level : Int64) :
    Ends Damage Apologetic (rules.spellDamageAt limit expand? name (.literal level)) := by
  rw [spellDamageAt]
  split
  · simp [RollError.kind]
  · refine (enter_ends hexpand _).bind fun expand h => ?_
    show Ends Damage Apologetic (_ >>= _)
    refine (diceOf_ends (by simp [RollError.kind]) _).bind fun dice _ => ?_
    refine (checkCastable_ends _ _).bind fun _ _ => ?_
    refine (h dice).bind fun base hbase => ?_
    refine (diceOf_ends (by simp [RollError.kind]) _).bind fun extraDice _ => ?_
    exact (h extraDice).bind fun extra hextra => damage_scaled _ _ hbase hextra

/-- What becomes of a node whose references are resolved: literals stay, and a number that is
not negative does not become negative. -/
def Replaces (e r : Expr) : Prop :=
  r.Everywhere Expr.Resolved ∧ (e.Counted → r.Counted) ∧ ∀ n, e = .literal n → r = .literal n

theorem Damage.replaces {e r : Expr} (h : Damage r) (he : ∀ n, e ≠ .literal n) : Replaces e r :=
  ⟨h.1, fun _ => h.2, fun n hn => absurd hn (he n)⟩

theorem resolveReference_ends (hexpand : Expands expand?) {e node : Expr} (he : e.Numbered)
    (hnode : Expr.Rebuilt Replaces e node) :
    Ends (Replaces e) Apologetic (rules.resolveReference limit expand? node) := by
  -- Only references are replaced; every other node keeps the properties of its new children.
  cases hnode with
  | integer | namedDie => exact he.elim
  | weapon name =>
    exact (weaponDamage_ends hexpand name).mono fun r h => h.replaces (by simp)
  | spell name =>
    exact (spellDamage_ends hexpand name).mono fun r h => h.replaces (by simp)
  | spellAt name hlevel =>
    -- The level is a literal, which the traversal left as it is.
    obtain ⟨n, rfl⟩ := he
    obtain rfl := hlevel.2.2 n rfl
    exact (spellDamageAt_ends hexpand name n).mono fun r h => h.replaces (by simp)
  | literal n => simp [resolveReference, Replaces, Expr.Resolved, Expr.Numbered, Expr.kind]
  | roll hc hs =>
    exact ⟨⟨hc.1, hs.1, hc.2.1 he, by simp [Expr.kind]⟩, by simp [Expr.Counted], by simp⟩
  | binary op hl hr =>
    exact ⟨⟨hl.1, hr.1, trivial, by simp [Expr.kind]⟩, by simp [Expr.Counted], by simp⟩
  | group hi | critical hi | advantage hi | disadvantage hi =>
    exact ⟨⟨hi.1, trivial, by simp [Expr.kind]⟩, hi.2.1, by simp⟩
  | rollOne hi =>
    exact ⟨⟨hi.1, trivial, by simp [Expr.kind]⟩, by simp [Expr.Counted], by simp⟩

/-- However deep references may go, a text expands into damage or fails with an apology. -/
theorem expands_expander (rules : Ruleset) (limit : Int64) (levels : Nat) :
    Expands (rules.expander limit levels) := by
  induction levels with
  | zero =>
    intro expand h
    cases h
  | succ levels ih =>
    -- A text is read, its numbers are resolved, and its references go one level deeper.
    rintro _ ⟨⟩ text
    refine (readOr_ends (by simp [RollError.kind]) text).bind fun e he => ?_
    refine (resolveNumbers_ends he).bind fun r hr => ?_
    refine (Expr.mapNodesM_ends (fun _ _ => resolveReference_ends ih) hr.1).mono fun r' h => ?_
    exact ⟨h.1, h.2.1 hr.2⟩

/-- A tree whose numbers are resolved gets its references resolved, or fails with an apology. -/
theorem resolveReferences_ends (rules : Ruleset) (limit : Int64) (levels : Nat) {e : Expr}
    (he : e.Everywhere Expr.Numbered) :
    Ends (Replaces e) Apologetic (rules.resolveReferences limit levels e) :=
  Expr.mapNodesM_ends (fun _ _ => resolveReference_ends (expands_expander rules limit levels)) he

end Ruleset

end SpokenDice
