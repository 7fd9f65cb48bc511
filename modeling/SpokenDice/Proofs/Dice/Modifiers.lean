import SpokenDice.Proofs.Dice.Lawful
import SpokenDice.Proofs.Expr.Modifiers

/-!
# Rolling under modifiers

What modifiers mean, said without changing the expression. A modifier chooses how the dice below it
are thrown, and an expression is rolled in that mode. Removing the modifiers comes to the same as
rolling directly, dice by dice, since what is copied and what is doubled is evaluated where it
stands.

- `DiceMode` and `DiceMode.throw`: how dice are thrown below a modifier.
- `evaluateUnder`: rolls an expression in a mode, and its modifiers choose the mode below them.
- `evaluate_double` and `evaluate_twice`: changing the dice comes to the same as the mode.
- `evaluate_withoutModifiers`: so does removing the modifiers of an expression, none of which
  stands below another one.
-/

namespace SpokenDice

variable {δ : Type} [DiceSource δ]

/-- How dice are thrown. -/
inductive DiceMode where
  /-- As they are. -/
  | plain
  /-- Twice as many of them. -/
  | doubled
  /-- All over again, and the two sums are combined. -/
  | twice (op : BinaryOp)

/-- Throws as many dice as the one computation says, with the sides that the other one says. Both
are computed anew for every throw, the count before the sides. -/
def DiceMode.throw (limit : UInt64) (count sides : Rolling δ Int64) : DiceMode → Rolling δ Int64
  | .plain => do
    let c ← count
    let s ← sides
    throwDice limit c s
  | .doubled => do
    let c ← count
    let s ← sides
    throwDice limit (BinaryOp.mul.apply 2 c) s
  | .twice op => do
    let c ← count
    let s ← sides
    let a ← throwDice limit c s
    let c ← count
    let s ← sides
    let b ← throwDice limit c s
    pure (op.apply a b)

namespace Expr

/-- Rolls the dice of an expression in a mode and gives its value. A modifier has the dice below it
rolled in its own mode. -/
def evaluateUnder (limit : UInt64) : DiceMode → Expr → Rolling δ Int64
  | _, .literal n => pure n
  | mode, .binary op left right => do
    let a ← left.evaluateUnder limit mode
    let b ← right.evaluateUnder limit mode
    pure (op.apply a b)
  | mode, .rollOne sides => mode.throw limit (pure 1) (sides.evaluateUnder limit mode)
  | mode, .roll count sides =>
    mode.throw limit (count.evaluateUnder limit mode) (sides.evaluateUnder limit mode)
  | mode, .group inner => inner.evaluateUnder limit mode
  | _, .critical inner => inner.evaluateUnder limit .doubled
  | _, .advantage inner => inner.evaluateUnder limit (.twice .max)
  | _, .disadvantage inner => inner.evaluateUnder limit (.twice .min)
  | _, e => throw (.unresolved e)

variable (limit : UInt64)

/-! ## Doubled dice -/

/-- A roll with its count doubled throws twice as many dice, whether the count is known or
computed. -/
theorem evaluate_doubleNode_roll (count sides : Expr) :
    (doubleNode (.roll count sides)).evaluate limit =
      DiceMode.doubled.throw limit (count.evaluate limit)
        (sides.evaluate limit : Rolling δ Int64) := by
  have hcomputed : (roll (.binary .mul (.literal 2) count) sides).evaluate limit =
      DiceMode.doubled.throw limit (count.evaluate limit)
        (sides.evaluate limit : Rolling δ Int64) := by
    simp only [evaluate, DiceMode.throw, pure_bind, bind_assoc]
  cases count with
  | literal n => simp only [doubleNode, evaluate, DiceMode.throw, pure_bind]
  | _ => exact hcomputed

theorem two_mul_one : BinaryOp.mul.apply 2 1 = 2 := by
  decide

/-- Doubling all dice comes to the same as throwing them doubled. -/
theorem evaluate_double {e : Expr} (h : e.Avoids [.token, .modifier, .reference]) :
    e.double.evaluate limit = (e.evaluateUnder limit .doubled : Rolling δ Int64) := by
  induction e with
  | literal n => rfl
  | group inner ih => exact ih h.1
  | binary op left right ihl ihr =>
    show (left.double.evaluate limit >>= fun a => right.double.evaluate limit >>= fun b => _) = _
    rw [ihl h.1, ihr h.2.1]
    rfl
  | rollOne sides ih =>
    show evaluate limit (.roll (.literal 2) sides.double) = _
    simp only [evaluate, ih h.1, evaluateUnder, DiceMode.throw, pure_bind, two_mul_one]
  | roll count sides ihc ihs =>
    show (doubleNode (.roll count.double sides.double)).evaluate limit = _
    rw [evaluate_doubleNode_roll, ihc h.1, ihs h.2.1]
    rfl
  | integer | namedDie | weapon | spell => simp [Avoids, kind] at h
  | critical | advantage | disadvantage | spellAt => simp [Avoids, kind] at h

/-! ## Dice rolled twice -/

/-- Rolling all dice twice comes to the same as throwing them twice. -/
theorem evaluate_twice (op : BinaryOp) {e : Expr} (h : e.Avoids [.token, .modifier, .reference]) :
    (e.twice op).evaluate limit = (e.evaluateUnder limit (.twice op) : Rolling δ Int64) := by
  induction e with
  | literal n => rfl
  | group inner ih => exact ih h.1
  | binary op' left right ihl ihr =>
    show ((left.twice op).evaluate limit >>= fun a =>
      (right.twice op).evaluate limit >>= fun b => _) = _
    rw [ihl h.1, ihr h.2.1]
    rfl
  | rollOne sides ih =>
    show evaluate limit (.binary op (.rollOne (sides.twice op)) (.rollOne (sides.twice op))) = _
    simp only [evaluate, ih h.1, evaluateUnder, DiceMode.throw, bind_assoc, pure_bind]
  | roll count sides ihc ihs =>
    -- Each copy computes its count and its sides anew, as the mode does.
    show evaluate limit (.binary op (.roll (count.twice op) (sides.twice op))
      (.roll (count.twice op) (sides.twice op))) = _
    simp only [evaluate, ihc h.1, ihs h.2.1, evaluateUnder, DiceMode.throw, bind_assoc]
  | integer | namedDie | weapon | spell => simp [Avoids, kind] at h
  | critical | advantage | disadvantage | spellAt => simp [Avoids, kind] at h

/-! ## Modifiers -/

/-- No modifier stands below the node if it is one. -/
def LoneModifier : Expr → Prop
  | .critical inner => inner.Avoids [.modifier]
  | .advantage inner => inner.Avoids [.modifier]
  | .disadvantage inner => inner.Avoids [.modifier]
  | _ => True

/-- Removing the modifiers comes to the same as rolling under them. -/
theorem evaluate_unmodified {e : Expr} (hkinds : e.Avoids [.token, .reference])
    (hlone : e.Everywhere LoneModifier) :
    e.unmodified.evaluate limit = (e.evaluateUnder limit .plain : Rolling δ Int64) := by
  -- Below a modifier nothing is removed, and the dice are changed once.
  have hbelow {inner : Expr} (hkinds : inner.Avoids [.token, .reference])
      (hlone : inner.Avoids [.modifier]) :
      inner.unmodified = inner ∧ inner.Avoids [.token, .modifier, .reference] := by
    refine ⟨unmodified_eq_self hlone, ?_⟩
    rw [Avoids, everywhere_iff] at hkinds hlone ⊢
    intro node hnode
    have htoken := hkinds node hnode
    have hmodifier := hlone node hnode
    simp_all
  induction e with
  | literal n => rfl
  | group inner ih => exact ih hkinds.1 hlone.1
  | binary op left right ihl ihr =>
    show (left.unmodified.evaluate limit >>= fun a =>
      right.unmodified.evaluate limit >>= fun b => _) = _
    rw [ihl hkinds.1 hlone.1, ihr hkinds.2.1 hlone.2.1]
    rfl
  | rollOne sides ih =>
    show DiceMode.plain.throw limit (pure 1) (sides.unmodified.evaluate limit) = _
    rw [ih hkinds.1 hlone.1]
    rfl
  | roll count sides ihc ihs =>
    show DiceMode.plain.throw limit (count.unmodified.evaluate limit)
      (sides.unmodified.evaluate limit) = _
    rw [ihc hkinds.1 hlone.1, ihs hkinds.2.1 hlone.2.1]
    rfl
  | critical inner =>
    obtain ⟨hself, havoids⟩ := hbelow hkinds.1 hlone.2
    show inner.unmodified.double.evaluate limit = _
    rw [hself, evaluate_double limit havoids]
    rfl
  | advantage inner =>
    obtain ⟨hself, havoids⟩ := hbelow hkinds.1 hlone.2
    show (inner.unmodified.twice .max).evaluate limit = _
    rw [hself, evaluate_twice limit .max havoids]
    rfl
  | disadvantage inner =>
    obtain ⟨hself, havoids⟩ := hbelow hkinds.1 hlone.2
    show (inner.unmodified.twice .min).evaluate limit = _
    rw [hself, evaluate_twice limit .min havoids]
    rfl
  | integer | namedDie | weapon | spell | spellAt => simp [Avoids, kind] at hkinds

/-- Where there are no modifiers, the plain mode rolls as `evaluate` does. -/
theorem evaluateUnder_plain {e : Expr} (h : e.Avoids [.token, .modifier, .reference]) :
    e.evaluateUnder limit .plain = (e.evaluate limit : Rolling δ Int64) := by
  have hkinds : e.Avoids [.token, .reference] := h.imp fun node hnode => by simp_all
  have hmodifier : e.Avoids [.modifier] := h.imp fun node hnode => by simp_all
  have hlone : e.Everywhere LoneModifier :=
    hmodifier.imp fun node hnode => by cases node <;> simp_all [LoneModifier, kind]
  rw [← evaluate_unmodified limit hkinds hlone, unmodified_eq_self hmodifier]

/-- Rolling an expression without its modifiers, none of which stands below another one, gives the
same result or failure, the same faces and the same requests for dice as rolling it under them. -/
theorem evaluate_withoutModifiers {e r : Expr} (hkinds : e.Avoids [.token, .reference])
    (hlone : e.Everywhere LoneModifier) (hremoved : e.withoutModifiers = .ok r)
    (tray : Tray (Logged δ)) :
    r.evaluate limit tray = e.evaluateUnder limit .plain tray := by
  obtain rfl := eq_unmodified_of_withoutModifiers_eq_ok hremoved
  rw [evaluate_unmodified limit hkinds hlone]

/-- Two dice that a critical hit makes four, and a die with advantage. -/
theorem evaluate_critical_and_advantage :
    (binary .add (.roll (.literal 4) (.literal 6))
        (.binary .max (.rollOne (.literal 20)) (.rollOne (.literal 20)))).evaluate 10
          (Logged.emptyTray (Script.ofFaces [6, 1, 5])) =
      (binary .add (.critical (.roll (.literal 2) (.literal 6)))
        (.advantage (.rollOne (.literal 20)))).evaluateUnder 10 .plain
          (Logged.emptyTray (Script.ofFaces [6, 1, 5])) :=
  evaluate_withoutModifiers 10 (by simp [Avoids, kind]) (by simp [LoneModifier, Avoids, kind])
    (eq_ok_of_toOption_eq_some (by decide +kernel)) _

end Expr

end SpokenDice
