import Mathlib.Data.List.Basic
import SpokenDice.Proofs.Expr.Nodes
import SpokenDice.Proofs.Request.Grammar

/-!
# The shape of requests

The tree of a request has the shape that the grammar gives it. Products bind tighter than sums and
both group to the left, advantage is taken of dice only, and a name stands only where it means
something: the name of a die as a side count, and a weapon or spell in a group or a critical hit.

- `DerivedParts`: the parts of a derived tree, by its root, and `derives_parts`.
- `Phrase.Roots`: what can stand at the root of a phrase, and `roots_of_derives`.
- `everywhere_wellPlaced_of_read`: what stands below each node of a request.
-/

namespace SpokenDice

namespace Expr

/-- The nodes directly below the node, from left to right. -/
def children : Expr → List Expr
  | .binary _ left right => [left, right]
  | .rollOne sides => [sides]
  | .roll count sides => [count, sides]
  | .critical inner => [inner]
  | .advantage inner => [inner]
  | .disadvantage inner => [inner]
  | .spellAt _ level => [level]
  | .group inner => [inner]
  | _ => []

/-- The side count of the dice that the node rolls. -/
def sides? : Expr → Option Expr
  | .rollOne sides => some sides
  | .roll _ sides => some sides
  | _ => none

/-- Whether the node adds or subtracts. -/
def isSum : Expr → Bool
  | .binary .add _ _ => true
  | .binary .sub _ _ => true
  | _ => false

/-- Whether the node is a number, a group or a critical hit. -/
def isPrimary : Expr → Bool
  | .integer _ => true
  | .group _ => true
  | .critical _ => true
  | _ => false

/-- Whether the node can say how many sides a die has. -/
def isSideCount : Expr → Bool
  | .namedDie _ => true
  | .rollOne _ => true
  | e => e.isPrimary

/-- Whether the node can be an operand without parentheses. -/
def isOperand : Expr → Bool
  | .rollOne _ => true
  | .roll _ _ => true
  | .advantage _ => true
  | .disadvantage _ => true
  | e => e.isPrimary

end Expr

namespace Request

open Scanner (Spelled)

variable {rules : Ruleset} {whole : List Char} {phrase : Phrase} {e : Expr}

/-! ## Parts and roots of derived trees -/

/-- What the grammar has derived below the root of a tree, by the shape of the root. -/
def DerivedParts (rules : Ruleset) (whole : List Char) : Expr → Prop
  | .integer n => 0 ≤ n.toInt
  | .namedDie name => Spelled whole (rules.namedDice.map NamedDie.name) name
  | .literal _ => False
  | .binary .add l r => Derives rules whole .sum l ∧ Derives rules whole .product r
  | .binary .sub l r => Derives rules whole .sum l ∧ Derives rules whole .product r
  | .binary .mul l r => Derives rules whole .product l ∧ Derives rules whole .value r
  | .binary _ _ _ => False
  | .rollOne s => Derives rules whole .sides s
  | .roll c s => Derives rules whole .value c ∧ Derives rules whole .sides s
  | .critical inner => Derives rules whole .damage inner
  | .advantage inner => Derives rules whole .value inner ∧ inner.isDice = true
  | .disadvantage inner => Derives rules whole .value inner ∧ inner.isDice = true
  | .weapon name => Spelled whole (rules.weapons.map Weapon.name) name
  | .spell name => Spelled whole (rules.spells.map Spell.name) name
  | .spellAt name level =>
    Spelled whole (rules.spells.map Spell.name) name ∧ ∃ n, level = .integer n ∧ 0 ≤ n.toInt
  | .group inner => Derives rules whole .sum inner ∨ Derives rules whole .damage inner

theorem derives_parts (h : Derives rules whole phrase e) : DerivedParts rules whole e := by
  induction h with
  | weapon h | spell h | namedDie h => exact h
  | spellAt h hlevel => exact ⟨h, _, rfl, hlevel⟩
  | integer hn => exact hn
  | parentheses h => exact .inl h
  | damageGroup h => exact .inr h
  | critical h => exact h
  | rolledSides h => exact h
  | loneDie h => exact h
  | dice hc hs => exact ⟨hc, hs⟩
  | advantage h hdice | disadvantage h hdice => exact ⟨h, hdice⟩
  | times hl hr | plus hl hr | minus hl hr => exact ⟨hl, hr⟩
  -- A phrase that is another phrase as a whole has that phrase's root.
  | primarySides _ ih | primaryValue _ ih | valueProduct _ ih | productSum _ ih => exact ih

/-- Every node of a derived tree is derived itself. -/
theorem everywhere_derives (h : Derives rules whole phrase e) :
    e.Everywhere fun node => ∃ phrase, Derives rules whole phrase node := by
  induction h with
  | weapon h => exact ⟨_, .weapon h⟩
  | spell h => exact ⟨_, .spell h⟩
  | spellAt h hlevel => exact ⟨⟨_, .integer hlevel⟩, _, .spellAt h hlevel⟩
  | integer hn => exact ⟨_, .integer hn⟩
  | namedDie h => exact ⟨_, .namedDie h⟩
  | parentheses h ih => exact ⟨ih, _, .parentheses h⟩
  | damageGroup h ih => exact ⟨ih, _, .damageGroup h⟩
  | critical h ih => exact ⟨ih, _, .critical h⟩
  | rolledSides h ih => exact ⟨ih, _, .rolledSides h⟩
  | loneDie h ih => exact ⟨ih, _, .loneDie h⟩
  | dice hc hs ihc ihs => exact ⟨ihc, ihs, _, .dice hc hs⟩
  | advantage h hdice ih => exact ⟨ih, _, .advantage h hdice⟩
  | disadvantage h hdice ih => exact ⟨ih, _, .disadvantage h hdice⟩
  | times hl hr ihl ihr => exact ⟨ihl, ihr, _, .times hl hr⟩
  | plus hl hr ihl ihr => exact ⟨ihl, ihr, _, .plus hl hr⟩
  | minus hl hr ihl ihr => exact ⟨ihl, ihr, _, .minus hl hr⟩
  | primarySides _ ih | primaryValue _ ih | valueProduct _ ih | productSum _ ih => exact ih

/-- What can stand at the root of a phrase. -/
def Phrase.Roots : Phrase → Expr → Prop
  | .damage, e => e.kind = .reference
  | .primary, e => e.isPrimary = true
  | .sides, e => e.isSideCount = true
  | .value, e => e.isOperand = true
  | .product, e => e.isOperand = true ∨ ∃ l r, e = .binary .mul l r
  | .sum, e => e.isOperand = true ∨ e.kind = .arithmetic

theorem isSideCount_of_isPrimary (h : e.isPrimary = true) : e.isSideCount = true := by
  cases e <;> simp_all [Expr.isPrimary, Expr.isSideCount]

theorem isOperand_of_isPrimary (h : e.isPrimary = true) : e.isOperand = true := by
  cases e <;> simp_all [Expr.isPrimary, Expr.isOperand]

theorem roots_of_derives (h : Derives rules whole phrase e) : phrase.Roots e := by
  induction h with
  | weapon | spell | spellAt | integer | parentheses | damageGroup | critical => rfl
  | namedDie | rolledSides | loneDie | dice | advantage | disadvantage => rfl
  | primarySides _ ih => exact isSideCount_of_isPrimary ih
  | primaryValue _ ih => exact isOperand_of_isPrimary ih
  | valueProduct _ ih => exact .inl ih
  | times => exact .inr ⟨_, _, rfl⟩
  | productSum _ ih =>
    rcases ih with h | ⟨l, r, rfl⟩
    · exact .inl h
    · exact .inr rfl
  | plus | minus => exact .inr rfl

theorem kind_eq_of_damage (h : Derives rules whole .damage e) : e.kind = .reference :=
  roots_of_derives h

theorem kind_ne_arithmetic_of_value (h : Derives rules whole .value e) : e.kind ≠ .arithmetic := by
  have hroots : e.isOperand = true := roots_of_derives h
  cases e <;> simp_all [Expr.isOperand, Expr.isPrimary, Expr.kind]

theorem isSum_of_product (h : Derives rules whole .product e) : e.isSum = false := by
  rcases roots_of_derives h with hroot | ⟨l, r, rfl⟩
  · cases e <;> simp_all [Expr.isOperand, Expr.isPrimary, Expr.isSum]
  · rfl

/-- A sum is no bare name. -/
theorem not_name_of_sum (h : Derives rules whole .sum e) :
    e.kind ≠ .reference ∧ ∀ name, e ≠ .namedDie name := by
  rcases roots_of_derives h with hroot | hroot
  · cases e <;> simp_all [Expr.isOperand, Expr.isPrimary, Expr.kind]
  · cases e <;> simp_all [Expr.kind]

theorem kind_ne_reference_of_sides (h : Derives rules whole .sides e) : e.kind ≠ .reference := by
  have hroots : e.isSideCount = true := roots_of_derives h
  cases e <;> simp_all [Expr.isSideCount, Expr.isPrimary, Expr.kind]

/-! ## What stands below a node -/

/-- What the grammar allows of a node of a request and of the nodes directly below it. -/
structure WellPlaced (rules : Ruleset) (whole : List Char) (node : Expr) : Prop where
  /-- Numbers stand as they were spoken. -/
  literal : ∀ n, node ≠ .literal n
  /-- No one asks for the greater or lesser of two values by an operator. -/
  operator : ∀ op left right, node = .binary op left right → op ≠ .max ∧ op ≠ .min
  /-- Sums and differences group to the left. -/
  sum : ∀ op left right, node = .binary op left right → op = .add ∨ op = .sub → right.isSum = false
  /-- Products bind tighter, and group to the left as well. -/
  product : ∀ left right, node = .binary .mul left right →
    left.isSum = false ∧ right.kind ≠ .arithmetic
  /-- Advantage and disadvantage are taken of dice only. -/
  advantage : ∀ inner, node = .advantage inner ∨ node = .disadvantage inner → inner.isDice = true
  /-- A critical hit is one with a weapon or spell. -/
  critical : ∀ inner, node = .critical inner → inner.kind = .reference
  /-- Weapons and spells stand in critical hits and groups only. -/
  reference : ∀ child ∈ node.children, child.kind = .reference →
    node = .critical child ∨ node = .group child
  /-- The level of a spell is a number that was spoken. -/
  level : ∀ name level, node = .spellAt name level → ∃ n, level = .integer n ∧ 0 ≤ n.toInt
  /-- No arithmetic counts dice without parentheses, and no name of a die does. -/
  count : ∀ count sides, node = .roll count sides →
    count.kind ≠ .arithmetic ∧ ∀ name, count ≠ .namedDie name
  /-- Side counts are names of dice, numbers, groups, critical hits and lone dice. -/
  sides : ∀ sides, node.sides? = some sides → sides.isSideCount = true
  /-- Names of dice stand as side counts only. -/
  namedDie : ∀ name, .namedDie name ∈ node.children → node.sides? = some (.namedDie name)
  /-- The name of a die stands in the text and, but for its case, in the ruleset. -/
  dieName : ∀ name, node = .namedDie name → Spelled whole (rules.namedDice.map NamedDie.name) name
  /-- So does the name of a weapon. -/
  weaponName : ∀ name, node = .weapon name → Spelled whole (rules.weapons.map Weapon.name) name
  /-- So does the name of a spell. -/
  spellName : ∀ name, node = .spell name ∨ (∃ level, node = .spellAt name level) →
    Spelled whole (rules.spells.map Spell.name) name

theorem operands_of_derives {op : BinaryOp} {l r : Expr}
    (h : Derives rules whole phrase (.binary op l r)) :
    Derives rules whole .sum l ∧ Derives rules whole .sum r := by
  have hparts := derives_parts h
  cases op with
  | add | sub => exact ⟨hparts.1, .productSum hparts.2⟩
  | mul => exact ⟨.productSum hparts.1, .productSum (.valueProduct hparts.2)⟩
  | max | min => exact hparts.elim

/-- A weapon or spell stands in a critical hit or a group. -/
theorem reference_below {child : Expr} (h : Derives rules whole phrase e)
    (hchild : child ∈ e.children) (hkind : child.kind = .reference) :
    e = .critical child ∨ e = .group child := by
  have hsum (hc : Derives rules whole .sum child) : False := (not_name_of_sum hc).1 hkind
  have hsides (hc : Derives rules whole .sides child) : False :=
    kind_ne_reference_of_sides hc hkind
  have hparts := derives_parts h
  cases e with
  | integer | namedDie | literal | weapon | spell => cases hchild
  | binary op l r =>
    obtain ⟨hl, hr⟩ := operands_of_derives h
    rcases List.mem_pair.mp hchild with rfl | rfl
    · exact (hsum hl).elim
    · exact (hsum hr).elim
  | rollOne s =>
    obtain rfl := List.mem_singleton.mp hchild
    exact (hsides hparts).elim
  | roll c s =>
    rcases List.mem_pair.mp hchild with rfl | rfl
    · exact (hsum (.productSum (.valueProduct hparts.1))).elim
    · exact (hsides hparts.2).elim
  | advantage inner | disadvantage inner =>
    obtain rfl := List.mem_singleton.mp hchild
    exact (hsum (.productSum (.valueProduct hparts.1))).elim
  | spellAt name level =>
    obtain rfl := List.mem_singleton.mp hchild
    obtain ⟨-, n, rfl, -⟩ := hparts
    cases hkind
  | critical inner =>
    obtain rfl := List.mem_singleton.mp hchild
    exact .inl rfl
  | group inner =>
    obtain rfl := List.mem_singleton.mp hchild
    exact .inr rfl

/-- The name of a die stands as a side count. -/
theorem namedDie_below {name : String} (h : Derives rules whole phrase e)
    (hchild : .namedDie name ∈ e.children) : e.sides? = some (.namedDie name) := by
  have hsum (hc : Derives rules whole .sum (.namedDie name)) : False :=
    (not_name_of_sum hc).2 name rfl
  have hdamage (hc : Derives rules whole .damage (.namedDie name)) : False := by
    cases kind_eq_of_damage hc
  have hparts := derives_parts h
  cases e with
  | integer | namedDie | literal | weapon | spell => cases hchild
  | binary op l r =>
    obtain ⟨hl, hr⟩ := operands_of_derives h
    rcases List.mem_pair.mp hchild with rfl | rfl
    · exact (hsum hl).elim
    · exact (hsum hr).elim
  | rollOne s =>
    obtain rfl := List.mem_singleton.mp hchild
    rfl
  | roll c s =>
    rcases List.mem_pair.mp hchild with rfl | rfl
    · exact (hsum (.productSum (.valueProduct hparts.1))).elim
    · rfl
  | critical inner =>
    obtain rfl := List.mem_singleton.mp hchild
    exact (hdamage hparts).elim
  | advantage inner | disadvantage inner =>
    obtain rfl := List.mem_singleton.mp hchild
    exact (hsum (.productSum (.valueProduct hparts.1))).elim
  | spellAt spell level =>
    obtain rfl := List.mem_singleton.mp hchild
    obtain ⟨-, n, hlevel, -⟩ := hparts
    cases hlevel
  | group inner =>
    obtain rfl := List.mem_singleton.mp hchild
    rcases hparts with hparts | hparts
    · exact (hsum hparts).elim
    · exact (hdamage hparts).elim

theorem wellPlaced_of_derives (h : Derives rules whole phrase e) : WellPlaced rules whole e where
  literal := by
    rintro n rfl
    exact derives_parts h
  operator := by
    rintro op l r rfl
    constructor <;> rintro rfl <;> exact derives_parts h
  sum := by
    rintro op l r rfl (rfl | rfl) <;> exact isSum_of_product (derives_parts h).2
  product := by
    rintro l r rfl
    obtain ⟨hl, hr⟩ := derives_parts h
    exact ⟨isSum_of_product hl, kind_ne_arithmetic_of_value hr⟩
  advantage := by
    rintro inner (rfl | rfl) <;> exact (derives_parts h).2
  critical := by
    rintro inner rfl
    exact kind_eq_of_damage (derives_parts h)
  reference _ hchild hkind := reference_below h hchild hkind
  level := by
    rintro name level rfl
    exact (derives_parts h).2
  count := by
    rintro count sides rfl
    obtain ⟨hc, -⟩ := derives_parts h
    exact ⟨kind_ne_arithmetic_of_value hc,
      (not_name_of_sum (.productSum (.valueProduct hc))).2⟩
  sides := by
    intro sides hsides
    have hroots {s : Expr} (hs : Derives rules whole .sides s) : s.isSideCount = true :=
      roots_of_derives hs
    cases e with
    | rollOne s =>
      obtain rfl := Option.some.inj hsides
      exact hroots (derives_parts h)
    | roll c s =>
      obtain rfl := Option.some.inj hsides
      exact hroots (derives_parts h).2
    | _ => cases hsides
  namedDie _ hchild := namedDie_below h hchild
  dieName := by
    rintro name rfl
    exact derives_parts h
  weaponName := by
    rintro name rfl
    exact derives_parts h
  spellName := by
    rintro name (rfl | ⟨level, rfl⟩)
    · exact derives_parts h
    · exact (derives_parts h).1

/-- Every node of a request stands over nodes that the grammar allows there, and the request as a
whole is no bare name. -/
theorem everywhere_wellPlaced_of_read {text : String}
    (h : read (.ofRuleset rules) text = .ok e) :
    e.Everywhere (WellPlaced rules text.toList) ∧ e.kind ≠ .reference ∧
      ∀ name, e ≠ .namedDie name := by
  have hderives : Derives rules text.toList .sum e := derives_of_readOr_eq_ok h
  refine ⟨(everywhere_derives hderives).imp ?_, not_name_of_sum hderives⟩
  rintro node ⟨phrase, hnode⟩
  exact wellPlaced_of_derives hnode

/-- A ruleset of one name of each kind. -/
def tableRules : Ruleset :=
  ⟨[⟨"Coin", 2⟩], [⟨"Flail", "1d8"⟩], [⟨"Hail", 2, "2d6", "1d6"⟩]⟩

/-- A product on the right of a difference, advantage of two coins, and a name of each kind. -/
theorem everywhere_wellPlaced_hit_and_hail :
    (Expr.binary .add (.binary .sub (.critical (.weapon "flail"))
      (.binary .mul (.integer 3) (.advantage (.roll (.integer 2) (.namedDie "coin")))))
      (.group (.spellAt "HAIL" (.integer 5)))).Everywhere (WellPlaced tableRules
        "critical hit with a flail - 3 * 2 coin with advantage + 5th level HAIL".toList) := by
  have hread : read (.ofRuleset tableRules)
      "critical hit with a flail - 3 * 2 coin with advantage + 5th level HAIL" =
        .ok (.binary .add (.binary .sub (.critical (.weapon "flail"))
          (.binary .mul (.integer 3) (.advantage (.roll (.integer 2) (.namedDie "coin")))))
          (.group (.spellAt "HAIL" (.integer 5)))) := eq_ok_of_toOption_eq_some (by decide +kernel)
  exact (everywhere_wellPlaced_of_read hread).1

end Request

end SpokenDice
