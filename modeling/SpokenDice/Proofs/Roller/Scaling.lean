import SpokenDice.Proofs.Dice.Draw
import SpokenDice.Proofs.Expr.Doubling
import SpokenDice.Proofs.Request.DiceText
import SpokenDice.Proofs.Roller.Compile
import SpokenDice.Proofs.Ruleset.Limits

/-!
# Spells at higher levels

A spell that is cast above its own level deals the dice of its description and, once for each level
more, the dice of its text on higher levels. What is compiled depends on whether the two are of one
kind and whether they have a bonus, but what is rolled does not.

- `BonusDice.throws_expr` and `throws_scaledDice`: the dice that the damage throws, before it is
  simplified, by induction on the levels.
- `resolveReferences_spellAt`: the spell becomes that damage.
- `finish_of_resolved` and `finish_critical`: what is left of it once it is compiled.
- `rolls_spellAt`: the dice that are rolled in the end, and their total; a critical hit rolls twice
  the dice, with the same bonus.
-/

namespace SpokenDice

/-! ## Dice with a bonus -/

namespace BonusDice

variable {limit : UInt64} {dice base extra : BonusDice} {own level : Int64}

/-- What is added to the faces of the dice. -/
def constant (dice : BonusDice) : Int :=
  (dice.bonus?.getD 0).toInt

/-- The side counts of the dice, thrown so many times. -/
def requests (times : Nat) (dice : BonusDice) : List Int64 :=
  List.replicate (times * dice.count.toInt.toNat) dice.sides

/-- Twice the dice, with the bonus once. -/
def twice (dice : BonusDice) : BonusDice :=
  { dice with count := BinaryOp.mul.apply 2 dice.count }

/-- There is a die, it has a side, and the bonus is not negative. -/
structure Rollable (dice : BonusDice) : Prop where
  count_pos : 0 < dice.count
  sides_pos : 0 < dice.sides
  constant_nonneg : 0 ≤ dice.constant

theorem Writes.constant_nonneg {text : List Char} (h : dice.Writes text) : 0 ≤ dice.constant := by
  cases h with
  | plain => exact Int.le_refl 0
  | bonus _ _ hbonus => exact hbonus.nonneg

theorem Rollable.twice (h : dice.Rollable) : dice.twice.Rollable := by
  refine ⟨?_, h.sides_pos, h.constant_nonneg⟩
  have hcount := pos_iff_toInt_pos.mp h.count_pos
  have htwo : Int64.toInt 2 = 2 := rfl
  rw [pos_iff_toInt_pos]
  simp only [BonusDice.twice, BinaryOp.apply, BinaryOp.exact, toInt_saturate, htwo]
  omega

/-- Twice the dice are thrown as the dice are in twice as many throws. -/
theorem requests_twice (h : dice.Rollable) (times : Nat)
    (hlength : (dice.requests times).length ≤ 4611686018427387903) :
    dice.twice.requests times = dice.requests (2 * times) := by
  have hpos := pos_iff_toInt_pos.mp h.count_pos
  rw [requests, List.length_replicate] at hlength
  rw [requests, requests]
  rcases Nat.eq_zero_or_pos times with rfl | htimes
  · rw [Nat.mul_zero, Nat.zero_mul, Nat.zero_mul]
    rfl
  · -- A count that is thrown at all is within the bound, so that it does not saturate.
    have hle := Nat.le_mul_of_pos_left dice.count.toInt.toNat htimes
    have htwice : dice.twice.count.toInt = 2 * dice.count.toInt :=
      Expr.toInt_twice (by omega) (by omega)
    have hcount : dice.twice.count.toInt.toNat = 2 * dice.count.toInt.toNat := by omega
    rw [hcount, Nat.mul_left_comm, ← Nat.mul_assoc]
    rfl

theorem double_expr (dice : BonusDice) :
    (dice.expr .literal).double = dice.twice.expr .literal := by
  rcases dice with ⟨count, sides, _ | bonus⟩ <;> rfl

/-- The expression of the dice throws them and adds their bonus. -/
theorem throws_expr (h : dice.Rollable) :
    (dice.expr .literal).Throws limit (dice.requests 1) dice.constant := by
  have hroll : (Expr.roll (.literal dice.count) (.literal dice.sides)).Throws limit
      (dice.requests 1) 0 := by
    rw [requests, Nat.one_mul]
    exact Expr.throws_roll h.count_pos h.sides_pos
  rcases dice with ⟨count, sides, _ | bonus⟩
  · exact hroll
  · have hsum := hroll.add (Expr.throws_literal h.constant_nonneg)
    rwa [List.append_nil, Int.zero_add] at hsum

/-! ## One summand for each level -/

/-- How many levels there are from one level up to another. -/
def levelsBetween (own level : Int64) : Nat :=
  (level.toInt - own.toInt).toNat

/-- The damage of a spell: its dice, and more dice for each level above its own. -/
def scaledDice (own level : Int64) (base extra : BonusDice) : Expr :=
  Ruleset.scaled own level (base.expr .literal) (extra.expr .literal)

/-- What holds of the base and is kept when the dice of one more level are added. -/
theorem scaledDice_induction {P : Nat → Expr → Prop} (own level : Int64)
    (hbase : P 0 (base.expr .literal))
    (hextra : ∀ k sum, P k sum → P (k + 1) (.binary .add sum (extra.expr .literal))) :
    P (levelsBetween own level) (scaledDice own level base extra) := by
  rw [scaledDice, Ruleset.scaled, levelsBetween]
  generalize (level.toInt - own.toInt).toNat = k
  induction k with
  | zero => exact hbase
  | succ k ih => exact hextra k _ ih

theorem requests_append (first second : Nat) (dice : BonusDice) :
    dice.requests first ++ dice.requests second = dice.requests (first + second) := by
  rw [requests, requests, requests, List.replicate_append_replicate, Nat.add_mul]

theorem throws_scaledDice (hbase : base.Rollable) (hextra : extra.Rollable) :
    (scaledDice own level base extra).Throws limit
      (base.requests 1 ++ extra.requests (levelsBetween own level))
      (base.constant + levelsBetween own level * extra.constant) := by
  refine scaledDice_induction (P := fun k e => e.Throws limit
    (base.requests 1 ++ extra.requests k) (base.constant + k * extra.constant)) own level ?_
    fun k sum hsum => ?_
  · simpa [requests] using throws_expr hbase
  · have hlevels :
        ((k + 1 : Nat) : Int) * extra.constant = k * extra.constant + extra.constant := by
      rw [Int.natCast_succ, Int.add_mul, Int.one_mul]
    have hnext := hsum.add (throws_expr hextra)
    rw [List.append_assoc, requests_append, Int.add_assoc] at hnext
    rwa [hlevels]

/-- What holds of the few nodes in such damage. -/
theorem everywhere_scaledDice {p : Expr → Prop} (hliteral : ∀ n, p (.literal n))
    (hadd : ∀ left right, p (.binary .add left right))
    (hbase : p (.roll (.literal base.count) (.literal base.sides)))
    (hextra : p (.roll (.literal extra.count) (.literal extra.sides))) :
    (scaledDice own level base extra).Everywhere p := by
  have hexpr {dice : BonusDice} (hroll : p (.roll (.literal dice.count) (.literal dice.sides))) :
      (dice.expr .literal).Everywhere p := by
    rcases dice with ⟨count, sides, _ | bonus⟩
    · exact ⟨hliteral _, hliteral _, hroll⟩
    · exact ⟨⟨hliteral _, hliteral _, hroll⟩, hliteral _, hadd _ _⟩
  exact scaledDice_induction (P := fun _ e => e.Everywhere p) own level (hexpr hbase)
    fun _ _ hsum => ⟨hsum, hexpr hextra, hadd _ _⟩

theorem double_scaledDice (own level : Int64) (base extra : BonusDice) :
    (scaledDice own level base extra).double = scaledDice own level base.twice extra.twice := by
  refine scaledDice_induction (P := fun k e => e.double = Nat.repeat
    (fun sum => .binary .add sum (extra.twice.expr .literal)) k (base.twice.expr .literal))
    own level (double_expr base) fun k sum hsum => ?_
  rw [Expr.double_binary, hsum, double_expr, Nat.repeat]

/-! ## The damage, simplified and doubled -/

section Damage

variable (own level : Int64) (hbase : base.Rollable) (hextra : extra.Rollable)

theorem avoids_scaledDice {kinds : List NodeKind} (hliteral : .literal ∉ kinds)
    (harithmetic : .arithmetic ∉ kinds) (hdice : .dice ∉ kinds) :
    (scaledDice own level base extra).Avoids kinds :=
  everywhere_scaledDice (fun _ => hliteral) (fun _ _ => harithmetic) hdice hdice

include hbase hextra

theorem everywhere_countedRoll_scaledDice :
    (scaledDice own level base extra).Everywhere Expr.CountedRoll := by
  have hcounted {dice : BonusDice} (h : dice.Rollable) :
      Expr.CountedRoll (.roll (.literal dice.count) (.literal dice.sides)) :=
    Expr.counted_literal (Int.le_of_lt (pos_iff_toInt_pos.mp h.count_pos))
  exact everywhere_scaledDice (fun _ => trivial) (fun _ _ => trivial) (hcounted hbase)
    (hcounted hextra)

theorem throws_simplify_scaledDice (hlimit : limit.toNat < 9223372036854775807) :
    (scaledDice own level base extra).simplify.Throws limit
      (base.requests 1 ++ extra.requests (levelsBetween own level))
      (base.constant + levelsBetween own level * extra.constant) := by
  have hsteady {dice : BonusDice} (h : dice.Rollable) :
      Expr.SteadyDice (.roll (.literal dice.count) (.literal dice.sides)) := by
    refine ⟨fun n hn => ?_, by simp [Expr.Avoids, Expr.kind]⟩
    exact Expr.literal.inj hn ▸ h.count_pos
  exact (throws_scaledDice hbase hextra).simplify hlimit
    (avoids_scaledDice own level (by decide) (by decide) (by decide))
    (everywhere_scaledDice (fun _ => trivial) (fun _ _ => trivial) (hsteady hbase) (hsteady hextra))

/-- The counts of the simplified damage are at most the number of its dice. -/
theorem everywhere_doublable_scaledDice
    (hlength : (base.requests 1 ++ extra.requests (levelsBetween own level)).length ≤
      4611686018427387903) :
    (scaledDice own level base extra).simplify.Everywhere Expr.Doublable := by
  have hcounted := everywhere_countedRoll_scaledDice own level hbase hextra
  have hthrows := throws_simplify_scaledDice own level hbase hextra
    (by decide : UInt64.toNat 4611686018427387903 < 9223372036854775807)
  -- Within a limit as high as that, any dice may be rolled to see that no count is above it.
  obtain ⟨total, heval, -⟩ := hthrows.evaluate_eq_ok ⟨Script.ofFaces [], #[]⟩ (by
    rwa [Array.size_empty, Nat.zero_add])
  exact Expr.everywhere_doublable (Expr.keepsCounts_simplify _ hcounted).1 fun n sides hmem =>
    Expr.count_le_of_evaluate_eq_ok heval hmem

/-- The doubled damage throws twice the dice, and its bonuses are the same. -/
theorem throws_double_scaledDice (hlimit : limit.toNat < 9223372036854775807)
    (hlength : (base.requests 1 ++ extra.requests (levelsBetween own level)).length ≤
      4611686018427387903) :
    (scaledDice own level base extra).simplify.double.simplify.Throws limit
      (base.requests 2 ++ extra.requests (2 * levelsBetween own level))
      (base.constant + levelsBetween own level * extra.constant) := by
  have hcompiled : (scaledDice own level base extra).Everywhere Expr.Compiled :=
    everywhere_scaledDice (by simp [Expr.Compiled, Expr.kind]) (by simp [Expr.Compiled, Expr.kind])
      (by simp [Expr.Compiled, Expr.kind]) (by simp [Expr.Compiled, Expr.kind])
  have hcounted := everywhere_countedRoll_scaledDice own level hbase hextra
  have hcounts := everywhere_doublable_scaledDice own level hbase hextra hlength
  have hthrows := throws_simplify_scaledDice own level hbase.twice hextra.twice hlimit
  rw [List.length_append] at hlength
  rw [requests_twice hbase 1 (by omega), requests_twice hextra _ (by omega)] at hthrows
  rwa [Expr.simplify_double_simplify hcompiled hcounted hcounts, double_scaledDice]

end Damage

end BonusDice

/-! ## Resolving the spell -/

/-- The two texts of the spell write these dice: the ones that it deals at its own level, and the
ones that each higher level adds. -/
structure Spell.Deals (spell : Spell) (base extra : BonusDice) : Prop where
  base : ∃ text, findDice? spell.description.toList = some text ∧ base.Writes text
  extra : ∃ text, findDice? spell.higherLevels.toList = some text ∧ extra.Writes text

namespace Ruleset

variable {rules : Ruleset} {limit : Int64} {name : String} {spell : Spell}
variable {base extra : BonusDice} {level : Int64}

/-- An expander makes of the text of dice what the text says. -/
theorem exists_expander (hworded : rules.Worded) (limit : Int64) (levels : Nat) :
    ∃ expand, rules.expander limit (levels + 1) = some expand ∧
      ∀ dice text, BonusDice.Writes dice text →
        expand (String.ofList text) = .ok (dice.expr .literal) := by
  refine ⟨_, rfl, fun dice text hwrites => ?_⟩
  rw [Request.readDice_of_writes (Request.Lexicon.worded_ofRuleset hworded) hwrites]
  rcases dice with ⟨count, sides, _ | bonus⟩ <;> rfl

theorem diceOf_eq_ok {otherwise : RollError} {text : String} {dice : List Char}
    (h : findDice? text.toList = some dice) : diceOf otherwise text = .ok (String.ofList dice) := by
  rw [diceOf, h]
  rfl

/-- A spell at a level that is neither too low nor too high becomes its damage. -/
theorem resolveReferences_spellAt (hworded : rules.Worded) (hspell : rules.spell? name = some spell)
    (hdeals : spell.Deals base extra) (hlow : spell.level ≤ level) (hhigh : level ≤ limit)
    (levels : Nat) :
    rules.resolveReferences limit (levels + 1) (.spellAt name (.literal level)) =
      .ok (BonusDice.scaledDice spell.level level base extra) := by
  obtain ⟨baseText, hbaseText, hbase⟩ := hdeals.base
  obtain ⟨extraText, hextraText, hextra⟩ := hdeals.extra
  obtain ⟨expand, hexpand, hdice⟩ := exists_expander hworded limit levels
  have hcastable : checkCastable limit spell level = .ok () := by
    rw [checkCastable_eq, if_neg (Int64.not_lt.mpr hlow), if_neg (Int64.not_lt.mpr hhigh)]
    rfl
  show rules.spellDamageAt limit (rules.expander limit (levels + 1)) name (.literal level) = _
  rw [spellDamageAt, hspell, hexpand]
  show (do
    let dice ← diceOf (.noDamageDice spell.name) spell.description
    checkCastable limit spell level
    let base ← expand dice
    let extraDice ← diceOf (.noScalingDice spell.name) spell.higherLevels
    let extra ← expand extraDice
    pure (scaled spell.level level base extra)) = _
  rw [diceOf_eq_ok hbaseText, hcastable, diceOf_eq_ok hextraText]
  show (do
    let base ← expand (String.ofList baseText)
    let extra ← expand (String.ofList extraText)
    pure (scaled spell.level level base extra)) = _
  rw [hdice base baseText hbase, hdice extra extraText hextra]
  rfl

end Ruleset

/-! ## Compiling and rolling it -/

namespace Roller

open BonusDice (scaledDice levelsBetween)
open DiceSource (draw)

variable {roller : Roller} {e t : Expr} {requests : List Int64} {constant : Int}

/-- Runs the passes that are left when the numbers of an expression are resolved. -/
def finish (roller : Roller) (e : Expr) : Except RollError Expr :=
  [Pass.references, .simplify, .modifiers, .simplify].foldlM (fun e pass => roller.runPass pass e) e

/-- Within the limit on dice, the rest of the passes compile the expression, and whatever lawful
source it is then rolled with, it asks for dice of these side counts in this order, shows their
faces, and as long as their sum with the constant is a number of 64 bits, that is the total. -/
def Rolls (roller : Roller) (e : Expr) (requests : List Int64) (constant : Int) : Prop :=
  requests.length ≤ roller.limits.diceCount.toNat →
    ∃ c, roller.finish e = .ok c ∧
      ∀ {δ : Type} [DiceSource δ] [LawfulDiceSource δ] (dice : δ),
        faceSum (draw dice requests).1 + constant ≤ 2 ^ 63 - 1 →
          ∃ total, c.rollWith roller.limits.diceCount (Logged.mk dice []) =
              (.ok ⟨total, (draw dice requests).1⟩, ⟨(draw dice requests).2, requests⟩) ∧
            total.toInt = faceSum (draw dice requests).1 + constant

theorem rolls_of_throws
    (h : requests.length ≤ roller.limits.diceCount.toNat →
      ∃ c, roller.finish e = .ok c ∧ c.Throws roller.limits.diceCount requests constant) :
    roller.Rolls e requests constant := by
  intro hlimit
  obtain ⟨c, hfinish, hthrows⟩ := h hlimit
  refine ⟨c, hfinish, fun dice hrange => ?_⟩
  have hempty : (Logged.emptyTray dice).faces.size + requests.length ≤
      roller.limits.diceCount.toNat := by simpa [Logged.emptyTray] using hlimit
  obtain ⟨total, heval, htotal⟩ := hthrows.evaluate_eq_ok (Logged.emptyTray dice) hempty
  have hfaces : (draw (Logged.emptyTray dice).dice requests).1 = (draw dice requests).1 := by
    rw [Logged.emptyTray, Logged.draw_eq]
  have htray : (Logged.emptyTray dice).draw requests =
      ⟨⟨(draw dice requests).2, requests⟩, (draw dice requests).1.toArray⟩ := by
    simp [Tray.draw, Logged.emptyTray, Logged.draw_eq]
  rw [htray, Logged.emptyTray] at heval
  refine ⟨total, ?_, ?_⟩
  · rw [Expr.rollWith, heval]
  · rw [htotal, hfaces]
    omega

theorem finish_eq (roller : Roller) (e : Expr) :
    roller.finish e = (do
      let e ← roller.ruleset.resolveReferences roller.limits.spellLevel
        roller.limits.expansionDepth.toNat e
      let e ← e.simplify.withoutModifiers
      pure e.simplify) := rfl

/-- Nothing is left to do at damage without modifiers but to simplify it. -/
theorem finish_of_resolved (ht : roller.ruleset.resolveReferences roller.limits.spellLevel
      roller.limits.expansionDepth.toNat e = .ok t) (havoids : t.Avoids [.modifier]) :
    roller.finish e = .ok t.simplify := by
  have hsimple : t.simplify.Avoids [.modifier] :=
    (Expr.avoids_simplify (by decide) (by decide) havoids).subset (by decide)
  rw [finish_eq, ht]
  show (t.simplify.withoutModifiers >>= fun e => pure e.simplify) = _
  rw [Expr.withoutModifiers_eq_self hsimple]
  exact congrArg Except.ok t.simplify_simplify

/-- A critical hit doubles such damage, once it is simplified. -/
theorem finish_critical (ht : roller.ruleset.resolveReferences roller.limits.spellLevel
      roller.limits.expansionDepth.toNat e = .ok t) (havoids : t.Avoids [.modifier]) :
    roller.finish (.critical e) = .ok t.simplify.double.simplify := by
  have hsimple : t.simplify.Avoids [.modifier] :=
    (Expr.avoids_simplify (by decide) (by decide) havoids).subset (by decide)
  have hcritical : roller.ruleset.resolveReferences roller.limits.spellLevel
      roller.limits.expansionDepth.toNat (.critical e) = .ok (.critical t) := by
    show (roller.ruleset.resolveReferences roller.limits.spellLevel
      roller.limits.expansionDepth.toNat e >>= _) = _
    rw [ht]
    rfl
  rw [finish_eq, hcritical]
  show ((Expr.critical t.simplify).withoutModifiers >>= fun e => pure e.simplify) = _
  rw [Expr.withoutModifiers_critical, Expr.withoutModifiers_eq_self hsimple]
  rfl

/-- A spell rolls, at a level from its own up to the limit, the dice of its description and after
them those of its text on higher levels, once for each level above its own, and adds their bonuses
as many times. A critical hit with it rolls twice as many dice of each kind, and the bonuses stay as
they are. -/
theorem rolls_spellAt {name : String} {spell : Spell} {base extra : BonusDice} {level : Int64}
    (hworded : roller.ruleset.Worded) (hspell : roller.ruleset.spell? name = some spell)
    (hdeals : spell.Deals base extra) (hbase : 0 < base.count ∧ 0 < base.sides)
    (hextra : 0 < extra.count ∧ 0 < extra.sides) (hlow : spell.level ≤ level)
    (hhigh : level ≤ roller.limits.spellLevel) (hdepth : 1 ≤ roller.limits.expansionDepth)
    (hlimit : roller.limits.diceCount.toNat < 2 ^ 63 - 1) :
    roller.Rolls (.spellAt name (.literal level))
      (base.requests 1 ++ extra.requests (levelsBetween spell.level level))
      (base.constant + levelsBetween spell.level level * extra.constant) ∧
    roller.Rolls (.critical (.spellAt name (.literal level)))
      (base.requests 2 ++ extra.requests (2 * levelsBetween spell.level level))
      (base.constant + levelsBetween spell.level level * extra.constant) := by
  obtain ⟨baseText, -, hbaseText⟩ := hdeals.base
  obtain ⟨extraText, -, hextraText⟩ := hdeals.extra
  have hbase' : base.Rollable := ⟨hbase.1, hbase.2, hbaseText.constant_nonneg⟩
  have hextra' : extra.Rollable := ⟨hextra.1, hextra.2, hextraText.constant_nonneg⟩
  have ht : roller.ruleset.resolveReferences roller.limits.spellLevel
      roller.limits.expansionDepth.toNat (.spellAt name (.literal level)) =
        .ok (scaledDice spell.level level base extra) := by
    obtain ⟨levels, hlevels⟩ := Nat.exists_eq_add_of_le (UInt32.le_iff_toNat_le.mp hdepth)
    rw [hlevels, Nat.add_comm]
    exact Ruleset.resolveReferences_spellAt hworded hspell hdeals hlow hhigh levels
  have havoids : (scaledDice spell.level level base extra).Avoids [.modifier] :=
    BonusDice.avoids_scaledDice _ _ (by decide) (by decide) (by decide)
  constructor
  · exact rolls_of_throws fun _ => ⟨_, finish_of_resolved ht havoids,
      BonusDice.throws_simplify_scaledDice _ _ hbase' hextra' hlimit⟩
  · refine rolls_of_throws fun hlength => ⟨_, finish_critical ht havoids,
      BonusDice.throws_double_scaledDice _ _ hbase' hextra' hlimit ?_⟩
    simp only [List.length_append, BonusDice.requests, List.length_replicate, Nat.mul_assoc]
      at hlength ⊢
    omega

/-- A roller of one spell, whose two kinds of dice differ and both have a bonus. -/
def hailRoller : Roller :=
  ⟨⟨[], [], [⟨"Hail", 2, "The storm deals 2d6 + 1 cold damage.", "It adds 1d8 +3 a level."⟩]⟩, {}⟩

/-- Two levels above its own, the spell adds two dice and two bonuses. -/
theorem rolls_hail :
    hailRoller.Rolls (.spellAt "hail" (.literal 4)) [6, 6, 8, 8] 7 ∧
      hailRoller.Rolls (.critical (.spellAt "hail" (.literal 4))) [6, 6, 6, 6, 8, 8, 8, 8] 7 := by
  have hone : Request.Numeral ['1'] 1 := ⟨1, by decide, by decide⟩
  have htwo : Request.Numeral ['2'] 2 := ⟨2, by decide, by decide⟩
  have hthree : Request.Numeral ['3'] 3 := ⟨3, by decide, by decide⟩
  have hsix : Request.Numeral ['6'] 6 := ⟨6, by decide, by decide⟩
  have height : Request.Numeral ['8'] 8 := ⟨8, by decide, by decide⟩
  have hworded : hailRoller.ruleset.Worded := by
    intro name hname
    obtain rfl := List.mem_singleton.mp hname
    decide
  have hspell : hailRoller.ruleset.spell? "hail" = some ⟨"Hail", 2,
      "The storm deals 2d6 + 1 cold damage.", "It adds 1d8 +3 a level."⟩ := by decide +kernel
  exact rolls_spellAt hworded hspell
    ⟨⟨_, by decide +kernel, .bonus htwo hsix hone 1 1⟩,
      ⟨_, by decide +kernel, .bonus hone height hthree 1 0⟩⟩
    (by decide) (by decide) (by decide) (by decide) (by decide) (by decide)

end Roller

end SpokenDice
