import SpokenDice.Request.Parser
import SpokenDice.Ruleset.DiceText

/-!
# Resolving names

A tree that was just read holds numbers and names as they were spoken. Two passes resolve them.

- `resolveNumbers` turns numbers and dice that go by a name into literals.
- `resolveReferences` turns weapons and spells into the dice of their records. A record's text is
  read as a request is, so it may name weapons and spells itself; `expander` reads such a text
  and resolves it, as long as references may go deeper.

A spell deals the first dice of its description. Cast at a stated level, it deals in addition the
first dice of the text on higher levels, once for each level above its own.
-/

namespace SpokenDice.Ruleset

/-! ## Numbers -/

/-- The literal of a number or named die. -/
def resolveNumber (rules : Ruleset) : Expr → Except RollError Expr
  | .integer n => pure (.literal n)
  | .namedDie name =>
    match rules.namedDie? name with
    | some die => pure (.literal die.sides)
    | none => throw (.unknownName name)
  | e => pure e

/-- The expression with literals for its numbers and named dice. -/
def resolveNumbers (rules : Ruleset) (e : Expr) : Except RollError Expr :=
  e.mapNodesM rules.resolveNumber

/-! ## Weapons and spells -/

/-- Reads the dice text of a record and resolves the names in it. -/
abbrev Expander := String → Except RollError Expr

/-- Goes into the record of a name, if references may go deeper. -/
def enter (expand? : Option Expander) (name : String) : Except RollError Expander :=
  match expand? with
  | some expand => pure expand
  | none => throw (.tooDeep name)

/-- The damage of a weapon. -/
def weaponDamage (rules : Ruleset) (expand? : Option Expander) (name : String) :
    Except RollError Expr := do
  match rules.weapon? name with
  | none => throw (.unknownName name)
  | some weapon => do
    let expand ← enter expand? weapon.name
    expand weapon.damage

/-- The level of a spell, if it is stated as a literal. -/
def statedLevel : Expr → Except RollError Int64
  | .literal level => pure level
  | e => throw (.unresolvedLevel e)

/-- Checks that the spell can be cast at the level. -/
def checkCastable (limit : Int64) (spell : Spell) (level : Int64) : Except RollError Unit := do
  if level < spell.level then throw (.belowOwnLevel spell.name spell.level level)
  if limit < level then throw (.aboveLevelLimit spell.name limit)

/-- The first dice of a description, which fails as told when there are none. -/
def diceOf (otherwise : RollError) (text : String) : Except RollError String :=
  match findDice? text.toList with
  | some dice => pure (String.ofList dice)
  | none => throw otherwise

/-- The sum of `base` and of `extra`, taken once for each level from `own` up to `level`. -/
def scaled (own level : Int64) (base extra : Expr) : Expr :=
  Nat.repeat (fun sum => .binary .add sum extra) (level.toInt - own.toInt).toNat base

/-- The damage of a spell at its own level. -/
def spellDamage (rules : Ruleset) (limit : Int64) (expand? : Option Expander) (name : String) :
    Except RollError Expr := do
  match rules.spell? name with
  | none => throw (.unknownName name)
  | some spell => do
    let expand ← enter expand? spell.name
    let dice ← diceOf (.noDamageDice spell.name) spell.description
    checkCastable limit spell spell.level
    expand dice

/-- The damage of a spell at a stated level. -/
def spellDamageAt (rules : Ruleset) (limit : Int64) (expand? : Option Expander) (name : String)
    (level : Expr) : Except RollError Expr := do
  match rules.spell? name with
  | none => throw (.unknownName name)
  | some spell => do
    let expand ← enter expand? spell.name
    let level ← statedLevel level
    let dice ← diceOf (.noDamageDice spell.name) spell.description
    checkCastable limit spell level
    let base ← expand dice
    let extraDice ← diceOf (.noScalingDice spell.name) spell.higherLevels
    let extra ← expand extraDice
    pure (scaled spell.level level base extra)

/-- The damage of a weapon or spell, and any other node as it is. -/
def resolveReference (rules : Ruleset) (limit : Int64) (expand? : Option Expander) :
    Expr → Except RollError Expr
  | .weapon name => rules.weaponDamage expand? name
  | .spell name => rules.spellDamage limit expand? name
  | .spellAt name level => rules.spellDamageAt limit expand? name level
  | e => pure e

/-- The expander of texts in which references may go `levels` deep, the text's own included. -/
def expander (rules : Ruleset) (limit : Int64) : Nat → Option Expander
  | 0 => none
  | levels + 1 => some fun text => do
    let e ← Request.readDice (Request.Lexicon.ofRuleset rules) text
    let e ← rules.resolveNumbers e
    e.mapNodesM (rules.resolveReference limit (rules.expander limit levels))

/-- The expression with the damage of its weapons and spells, where references go at most `levels`
deep. -/
def resolveReferences (rules : Ruleset) (limit : Int64) (levels : Nat) (e : Expr) :
    Except RollError Expr :=
  e.mapNodesM (rules.resolveReference limit (rules.expander limit levels))

end SpokenDice.Ruleset
