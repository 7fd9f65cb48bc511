import SpokenDice.Proofs.Dice.Draw

/-!
# Replaying a roll

The faces on the tray justify a total: whoever goes through the expression again, in the order in
which its dice were rolled, and takes the faces from the tray instead of rolling, needs all of them
and comes to the same total. How many faces a throw takes may depend on the faces of its count, so
that the expression alone does not say which faces belong to which dice.

- `Expr.replay`: goes through an expression with given faces, and keeps the exact value of every
  part beside the one that saturates.
- `Replays.binary`, `Replays.rollOne`, `Replays.roll` and `Replays.group`: how replays compose.
- `replays_of_evaluate_eq_ok`: what a part of a roll draws, a replay of that part takes.
- `replay_of_evaluate_eq_ok`: the faces of a roll justify its total.
-/

namespace SpokenDice

/-! ## Replays -/

/-- What a replay of an expression comes to. -/
structure Replay where
  /-- The value where every step saturates. -/
  value : Int64
  /-- The value among unbounded integers. -/
  exact : Int
  /-- The unbounded values of all parts of the expression, its own at the end. -/
  parts : List Int
  /-- The faces that were not taken. -/
  rest : List Int64

/-- Takes this many faces, after parts of these unbounded values. -/
def takeFaces (count : Int64) (parts : List Int) (faces : List Int64) : Option Replay :=
  let dice := faces.take count.toInt.toNat
  if dice.length = count.toInt.toNat then
    some ⟨dice.foldl BinaryOp.add.apply 0, faceSum dice, parts ++ [faceSum dice],
      faces.drop count.toInt.toNat⟩
  else none

/-- A throw of `count` dice with these faces has this value, which is exact in the 64-bit range. -/
structure IsThrow (count : Int64) (faces : List Int64) (value : Int64) : Prop where
  length_eq : faces.length = count.toInt.toNat
  foldl_eq : faces.foldl BinaryOp.add.apply 0 = value
  exact : InRange (faceSum faces) → value.toInt = faceSum faces

/-- A throw takes as many faces as it has dice. -/
theorem IsThrow.takeFaces_append {count value : Int64} {faces : List Int64}
    (h : IsThrow count faces value) (parts : List Int) (more : List Int64) :
    takeFaces count parts (faces ++ more) =
      some ⟨value, faceSum faces, parts ++ [faceSum faces], more⟩ := by
  rw [takeFaces, ← h.length_eq, List.take_left, List.drop_left, if_pos rfl, h.foldl_eq]

namespace Expr

/-- Goes through the expression as rolling it does, and takes the faces from a list. -/
def replay : Expr → List Int64 → Option Replay
  | .literal n, faces => some ⟨n, n.toInt, [n.toInt], faces⟩
  | .binary op left right, faces => do
    let a ← left.replay faces
    let b ← right.replay a.rest
    let exact := op.exact a.exact b.exact
    some ⟨op.apply a.value b.value, exact, a.parts ++ b.parts ++ [exact], b.rest⟩
  | .rollOne sides, faces => do
    let s ← sides.replay faces
    takeFaces 1 s.parts s.rest
  | .roll count sides, faces => do
    let c ← count.replay faces
    let s ← sides.replay c.rest
    takeFaces c.value (c.parts ++ s.parts) s.rest
  | .group inner, faces => do
    let a ← inner.replay faces
    some { a with parts := a.parts ++ [a.exact] }
  | _, _ => none

/-- The expression takes just these faces from the front of any list, and has this value then. If
all its parts lie in the 64-bit range, the value is exact. -/
def Replays (e : Expr) (faces : List Int64) (value : Int64) : Prop :=
  ∃ exact parts, (∀ more, e.replay (faces ++ more) = some ⟨value, exact, parts, more⟩) ∧
    ((∀ part ∈ parts, InRange part) → value.toInt = exact)

namespace Replays

variable {left right count sides inner : Expr} {first second faces : List Int64}
  {a b n s value : Int64}

theorem literal (n : Int64) : Replays (.literal n) [] n :=
  ⟨n.toInt, [n.toInt], fun _ => rfl, fun _ => rfl⟩

theorem group (h : Replays inner faces value) : Replays (.group inner) faces value := by
  obtain ⟨exact, parts, hreplay, hexact⟩ := h
  refine ⟨exact, parts ++ [exact], fun more => ?_, fun hparts => hexact fun part hpart => ?_⟩
  · rw [replay, hreplay]
    rfl
  · exact hparts part (List.mem_append_left _ hpart)

/-- The right operand goes on with the faces that the left one leaves. -/
theorem binary (op : BinaryOp) (hleft : Replays left first a) (hright : Replays right second b) :
    Replays (.binary op left right) (first ++ second) (op.apply a b) := by
  obtain ⟨exact, parts, hreplay, hexact⟩ := hleft
  obtain ⟨exact', parts', hreplay', hexact'⟩ := hright
  refine ⟨op.exact exact exact', parts ++ parts' ++ [op.exact exact exact'], fun more => ?_,
    fun hparts => ?_⟩
  · rw [replay, List.append_assoc, hreplay, Option.bind_eq_bind, Option.bind_some, hreplay']
    rfl
  · rw [List.forall_mem_append, List.forall_mem_append, List.forall_mem_singleton] at hparts
    obtain ⟨⟨hfirst, hsecond⟩, hrange⟩ := hparts
    -- Both operands are exact, so that the operation saturates no more than they did.
    rw [← hexact hfirst, ← hexact' hsecond] at hrange ⊢
    exact BinaryOp.toInt_apply_of_inRange hrange

/-- A lone die takes its face after those of its side count. -/
theorem rollOne (hsides : Replays sides first s) (hthrow : IsThrow 1 faces value) :
    Replays (.rollOne sides) (first ++ faces) value := by
  obtain ⟨exact, parts, hreplay, -⟩ := hsides
  refine ⟨faceSum faces, parts ++ [faceSum faces], fun more => ?_, fun hparts => ?_⟩
  · rw [replay, List.append_assoc, hreplay, Option.bind_eq_bind, Option.bind_some]
    exact hthrow.takeFaces_append parts more
  · exact hthrow.exact (hparts _ (List.mem_append_right _ (List.mem_singleton_self _)))

/-- Dice take their faces after those of their count and those of their side count. -/
theorem roll (hcount : Replays count first n) (hsides : Replays sides second s)
    (hthrow : IsThrow n faces value) :
    Replays (.roll count sides) (first ++ (second ++ faces)) value := by
  obtain ⟨exact, parts, hreplay, -⟩ := hcount
  obtain ⟨exact', parts', hreplay', -⟩ := hsides
  refine ⟨faceSum faces, parts ++ parts' ++ [faceSum faces], fun more => ?_, fun hparts => ?_⟩
  · rw [replay, List.append_assoc, hreplay, Option.bind_eq_bind, Option.bind_some,
      List.append_assoc, hreplay', Option.bind_some]
    exact hthrow.takeFaces_append (parts ++ parts') more
  · exact hthrow.exact (hparts _ (List.mem_append_right _ (List.mem_singleton_self _)))

end Replays

end Expr

/-! ## Rolls -/

variable {δ : Type} [DiceSource δ]

/-- The value of a throw is the saturating sum of the faces that it draws. -/
theorem Tray.rollDice_value (sides : Int64) (count : Nat) (sum : Int64) (tray : Tray δ) :
    (tray.rollDice sides count sum).1 =
      (DiceSource.draw tray.dice (List.replicate count sides)).1.foldl BinaryOp.add.apply sum := by
  induction count generalizing sum tray with
  | zero => rfl
  | succ count ih => exact ih _ _

variable [LawfulDiceSource δ]

/-- What a throw puts on the tray adds up to its value, exactly where it does not saturate: faces
are not negative, so that their sums only grow. -/
theorem isThrow_of_throwDice_eq_ok {limit : UInt64} {count sides total : Int64}
    {tray tray' : Tray δ} (h : throwDice limit count sides tray = (.ok total, tray')) :
    ∃ drawn, tray'.faces.toList = tray.faces.toList ++ drawn ∧ IsThrow count drawn total := by
  rw [throwDice_apply] at h
  split at h
  · cases (Prod.mk.inj h).1
  split at h
  · cases (Prod.mk.inj h).1
  rename_i hsides
  split at h
  · cases (Prod.mk.inj h).1
  obtain ⟨hvalue, htray⟩ := Prod.mk.inj h
  obtain rfl := Except.ok.inj hvalue
  obtain ⟨hdraw, hsum⟩ := Tray.rollDice_eq (Int64.not_le.mp hsides) count.toInt.toNat 0
    (Int.le_refl 0) tray
  refine ⟨(DiceSource.draw tray.dice (List.replicate count.toInt.toNat sides)).1, ?_, ?_, ?_, ?_⟩
  · rw [← htray, hdraw, Tray.draw]
    simp
  · rw [length_draw, List.length_replicate]
  · exact (Tray.rollDice_value ..).symm
  · intro hrange
    have hhigh := hrange.2
    rw [hsum, Int64.toInt_zero]
    omega

namespace Expr

/-- A part of a roll that has a value draws faces, and a replay of that part takes just these. -/
theorem replays_of_evaluate_eq_ok {limit : UInt64} {e : Expr} {total : Int64}
    {tray tray' : Tray δ} (h : e.evaluate limit tray = (.ok total, tray')) :
    ∃ drawn, tray'.faces.toList = tray.faces.toList ++ drawn ∧ Replays e drawn total := by
  induction e generalizing total tray tray' with
  | literal n =>
    obtain ⟨hvalue, htray⟩ := Prod.mk.inj h
    obtain rfl := Except.ok.inj hvalue
    exact ⟨[], by rw [← htray, List.append_nil], .literal n⟩
  | binary op left right ihl ihr =>
    obtain ⟨a, tray₁, hl, hrest⟩ := run_bind_eq_ok_iff.mp h
    obtain ⟨b, tray₂, hr, hvalue⟩ := run_bind_eq_ok_iff.mp hrest
    obtain ⟨first, hfirst, hleft⟩ := ihl hl
    obtain ⟨second, hsecond, hright⟩ := ihr hr
    cases hvalue
    refine ⟨first ++ second, ?_, hleft.binary op hright⟩
    rw [hsecond, hfirst, List.append_assoc]
  | rollOne sides ih =>
    obtain ⟨s, tray₁, hs, hthrow⟩ := run_bind_eq_ok_iff.mp h
    obtain ⟨first, hfirst, hsides⟩ := ih hs
    obtain ⟨faces, hfaces, hthrow⟩ := isThrow_of_throwDice_eq_ok hthrow
    refine ⟨first ++ faces, ?_, hsides.rollOne hthrow⟩
    rw [hfaces, hfirst, List.append_assoc]
  | roll count sides ihc ihs =>
    obtain ⟨n, tray₁, hc, hrest⟩ := run_bind_eq_ok_iff.mp h
    obtain ⟨s, tray₂, hs, hthrow⟩ := run_bind_eq_ok_iff.mp hrest
    obtain ⟨first, hfirst, hcount⟩ := ihc hc
    obtain ⟨second, hsecond, hsides⟩ := ihs hs
    obtain ⟨faces, hfaces, hthrow⟩ := isThrow_of_throwDice_eq_ok hthrow
    refine ⟨first ++ (second ++ faces), ?_, hcount.roll hsides hthrow⟩
    rw [hfaces, hsecond, hfirst, List.append_assoc, List.append_assoc]
  | group inner ih =>
    obtain ⟨drawn, hdrawn, hinner⟩ := ih h
    exact ⟨drawn, hdrawn, hinner.group⟩
  | integer | namedDie | weapon | spell => cases (Prod.mk.inj h).1
  | critical | advantage | disadvantage | spellAt => cases (Prod.mk.inj h).1

/-- The faces of a roll justify its total: a replay takes all of them and comes to the same value,
and this value is exact where no part of the expression leaves the 64-bit range. -/
theorem replay_of_evaluate_eq_ok {limit : UInt64} {e : Expr} {dice : δ} {total : Int64}
    {tray : Tray δ} (h : e.evaluate limit ⟨dice, #[]⟩ = (.ok total, tray)) :
    ∃ exact parts, e.replay tray.faces.toList = some ⟨total, exact, parts, []⟩ ∧
      ((∀ part ∈ parts, InRange part) → total.toInt = exact) := by
  obtain ⟨drawn, hdrawn, exact, parts, hreplay, hexact⟩ := replays_of_evaluate_eq_ok h
  have htake := hreplay []
  rw [List.append_nil] at htake
  exact ⟨exact, parts, by rw [hdrawn]; exact htake, hexact⟩

/-- The count of these dice is itself rolled, and shows 3: of the four faces, the first one says
that the other three belong to the dice. -/
theorem replay_of_evaluate_rolled_count :
    (roll (.rollOne (.literal 4)) (.literal 6)).replay [3, 6, 1, 5] =
      some ⟨12, 12, [4, 3, 6, 12], []⟩ ∧ (12 : Int64).toInt = 12 := by
  have heval : (roll (.rollOne (.literal 4)) (.literal 6)).evaluate 10
      (⟨Script.ofFaces [3, 6, 1, 5], #[]⟩ : Tray Script) =
        (.ok 12, ⟨⟨#[3, 6, 1, 5], 4, #[4, 6, 6, 6]⟩, #[3, 6, 1, 5]⟩) := rfl
  obtain ⟨exact, parts, hreplay, hexact⟩ := replay_of_evaluate_eq_ok heval
  have hwalk : (roll (.rollOne (.literal 4)) (.literal 6)).replay [3, 6, 1, 5] =
      some ⟨12, 12, [4, 3, 6, 12], []⟩ := rfl
  cases hreplay.symm.trans hwalk
  exact ⟨hreplay, hexact (by decide)⟩

end Expr

end SpokenDice
