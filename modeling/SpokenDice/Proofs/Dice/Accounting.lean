import SpokenDice.Proofs.Dice.Draw

/-!
# Accounts of the dice that are drawn

Rolling an expression does nothing to the tray but draw dice, one after the other, whatever the
expression is and whether it has a value or fails: every die has sides, and there is place for it
within the limit. So the account of a tray is right at every point of a session in which one
expression after the other is rolled.

- `evaluate_onlyDraws`: what a roll does to a tray, and `evaluate_staysWithin`: that it keeps the
  limit.
- `Accounted`: the faces on a tray are those that its script shows for the dice it was asked for.
- `accounted_session`: the account is right at every point, and faces are only added to it.
-/

namespace SpokenDice

/-! ## Drawing and nothing else -/

section Drawing

variable {δ α β : Type} [DiceSource δ] {limit : UInt64}

/-- Whatever lies on the tray, the computation draws some dice that have sides, one after the other,
and does nothing else to it. -/
def OnlyDraws (x : Rolling δ α) : Prop :=
  ∀ tray, ∃ requests, (x tray).2 = tray.draw requests ∧ ∀ sides ∈ requests, 0 < sides

theorem onlyDraws_of_same {x : Rolling δ α} (h : ∀ tray, (x tray).2 = tray) : OnlyDraws x :=
  fun tray => ⟨[], (h tray).trans tray.draw_nil.symm, nofun⟩

theorem onlyDraws_pure (a : α) : OnlyDraws (pure a : Rolling δ α) :=
  onlyDraws_of_same fun _ => rfl

theorem OnlyDraws.bind {x : Rolling δ α} {next : α → Rolling δ β} (hx : OnlyDraws x)
    (hnext : ∀ a, OnlyDraws (next a)) : OnlyDraws (x >>= next) := by
  intro tray
  obtain ⟨first, htray, hsides⟩ := hx tray
  rw [run_bind]
  generalize x tray = r at htray
  obtain ⟨cause | a, tray'⟩ := r
  · -- A failure keeps the dice that were drawn before it.
    exact ⟨first, htray, hsides⟩
  · obtain ⟨second, htray', hsides'⟩ := hnext a tray'
    obtain rfl : tray' = tray.draw first := htray
    refine ⟨first ++ second, ?_, List.forall_mem_append.mpr ⟨hsides, hsides'⟩⟩
    rw [Tray.draw_append]
    exact htray'

/-- Faces are only added to a tray. -/
theorem OnlyDraws.size_le {x : Rolling δ α} (hx : OnlyDraws x) (tray : Tray δ) :
    tray.faces.size ≤ (x tray).2.faces.size := by
  obtain ⟨requests, htray, -⟩ := hx tray
  rw [htray, Tray.size_draw]
  exact Nat.le_add_right ..

theorem throwDice_onlyDraws (limit : UInt64) (count sides : Int64) :
    OnlyDraws (throwDice limit count sides : Rolling δ Int64) := by
  intro tray
  rw [throwDice_apply]
  split
  · exact ⟨[], tray.draw_nil.symm, nofun⟩
  · split
    · exact ⟨[], tray.draw_nil.symm, nofun⟩
    · split
      · exact ⟨[], tray.draw_nil.symm, nofun⟩
      · rename_i hsides _
        exact ⟨List.replicate count.toInt.toNat sides, Tray.rollDice_tray ..,
          fun s hs => List.eq_of_mem_replicate hs ▸ Int64.not_le.mp hsides⟩

/-- Rolling an expression draws dice and does nothing else to the tray, also where it fails. -/
theorem Expr.evaluate_onlyDraws (limit : UInt64) (e : Expr) :
    OnlyDraws (e.evaluate limit : Rolling δ Int64) := by
  induction e with
  | literal n => exact onlyDraws_pure n
  | binary op left right ihl ihr => exact ihl.bind fun a => ihr.bind fun b => onlyDraws_pure _
  | rollOne sides ih => exact ih.bind fun s => throwDice_onlyDraws limit 1 s
  | roll count sides ihc ihs =>
    exact ihc.bind fun c => ihs.bind fun s => throwDice_onlyDraws limit c s
  | group inner ih => exact ih
  | integer | namedDie | weapon | spell => exact onlyDraws_of_same fun _ => rfl
  | critical | advantage | disadvantage | spellAt => exact onlyDraws_of_same fun _ => rfl

/-! ## Staying within the limit -/

/-- A tray within the limit is left within the limit. -/
def StaysWithin (limit : UInt64) (x : Rolling δ α) : Prop :=
  ∀ tray, tray.faces.size ≤ limit.toNat → (x tray).2.faces.size ≤ limit.toNat

omit [DiceSource δ] in
theorem StaysWithin.bind {x : Rolling δ α} {next : α → Rolling δ β} (hx : StaysWithin limit x)
    (hnext : ∀ a, StaysWithin limit (next a)) : StaysWithin limit (x >>= next) := by
  intro tray htray
  have hsize := hx tray htray
  rw [run_bind]
  generalize x tray = r at hsize
  obtain ⟨cause | a, tray'⟩ := r
  · exact hsize
  · exact hnext a tray' hsize

/-- A throw that is not refused has place within the limit. The greatest limit is none, as the
number of dice saturates there. -/
theorem throwDice_staysWithin (hlimit : limit.toNat < 18446744073709551615) (count sides : Int64) :
    StaysWithin limit (throwDice limit count sides : Rolling δ Int64) := by
  intro tray htray
  rw [throwDice_apply]
  split
  · exact htray
  · split
    · exact htray
    · split
      · exact htray
      · rename_i hfits
        rw [Tray.sizeWith] at hfits
        show (tray.rollDice sides count.toInt.toNat 0).2.faces.size ≤ limit.toNat
        rw [Tray.size_rollDice]
        omega

theorem Expr.evaluate_staysWithin (hlimit : limit.toNat < 18446744073709551615) (e : Expr) :
    StaysWithin limit (e.evaluate limit : Rolling δ Int64) := by
  have hthrow (count sides : Int64) :
      StaysWithin limit (throwDice limit count sides : Rolling δ Int64) :=
    throwDice_staysWithin hlimit count sides
  induction e with
  | literal n => exact fun _ => id
  | binary op left right ihl ihr => exact ihl.bind fun a => ihr.bind fun b => fun _ => id
  | rollOne sides ih => exact ih.bind fun s => hthrow 1 s
  | roll count sides ihc ihs => exact ihc.bind fun c => ihs.bind fun s => hthrow c s
  | group inner ih => exact ih
  | integer | namedDie | weapon | spell => exact fun _ => id
  | critical | advantage | disadvantage | spellAt => exact fun _ => id

/-! ## Sessions -/

/-- The tray after expressions were rolled on it in turn, whether they had a value or failed. -/
def Tray.rollAll (limit : UInt64) (tray : Tray δ) (trees : List Expr) : Tray δ :=
  trees.foldl (fun tray e => (e.evaluate limit tray).2) tray

end Drawing

/-- The tray after a session: expressions were rolled in turn with a fresh script of these faces. -/
def session (limit : UInt64) (faces : List Int64) (trees : List Expr) : Tray Script :=
  Tray.rollAll limit ⟨Script.ofFaces faces, #[]⟩ trees

/-- A script remembers the dice that are drawn, in order. -/
theorem requested_draw (tray : Tray Script) (requests : List Int64) :
    (tray.draw requests).dice.requested.toList = tray.dice.requested.toList ++ requests := by
  induction requests generalizing tray with
  | nil => rw [Tray.draw_nil, List.append_nil]
  | cons sides requests ih =>
    have hrolled : (tray.rollDie sides).2.dice.requested.toList =
        tray.dice.requested.toList ++ [sides] := Script.requested_rollDie sides tray.dice
    rw [Tray.draw_cons, ih, hrolled, List.append_assoc, List.singleton_append]

/-! ## Accounts -/

/-- The account of a tray beside a script of these faces: the tray holds one face for each die that
the script was asked for, and no more than the limit; all these dice have sides; and the faces are
those of the script in their order, from the start again when they are used up, each brought to the
nearest one that its die has, and 1 throughout when there are none. -/
structure Accounted (limit : UInt64) (faces : List Int64) (tray : Tray Script) : Prop where
  script_faces : tray.dice.faces = faces.toArray
  script_rolled : tray.dice.rolled = tray.faces.size
  size_le : tray.faces.size ≤ limit.toNat
  size_requested : tray.dice.requested.size = tray.faces.size
  one_le_sides : ∀ sides ∈ tray.dice.requested, 1 ≤ sides
  face_of_script : ∀ (k : Nat) (face sides scripted : Int64), tray.faces[k]? = some face →
    tray.dice.requested[k]? = some sides → faces[k % faces.length]? = some scripted →
      face.toInt = max 1 (min sides.toInt scripted.toInt)
  face_without_script : faces = [] → ∀ face ∈ tray.faces, face = 1

namespace Accounted

variable {limit : UInt64} {faces : List Int64} {tray : Tray Script}

/-- Before the first die there is nothing to account for. -/
theorem ofFaces (limit : UInt64) (faces : List Int64) :
    Accounted limit faces ⟨Script.ofFaces faces, #[]⟩ := by
  constructor <;> simp [Script.ofFaces]

/-- One more die keeps the account right. -/
theorem rollDie (h : Accounted limit faces tray) {sides : Int64} (hsides : 0 < sides)
    (hlimit : tray.faces.size < limit.toNat) : Accounted limit faces (tray.rollDie sides).2 := by
  have hrolled : (tray.rollDie sides).2 = ⟨(tray.dice.rollDie sides).2,
      tray.faces.push (tray.dice.nextFace sides)⟩ := rfl
  rw [hrolled]
  have hnext : tray.dice.nextFace sides =
      Script.nearestFace sides ((faces[tray.faces.size % faces.length]?).getD 1) := by
    simp [Script.nextFace, h.script_faces, h.script_rolled]
  refine ⟨h.script_faces, ?_, ?_, ?_, ?_, ?_, ?_⟩
  · simp [Script.rollDie, h.script_rolled]
  · rw [Array.size_push]
    exact hlimit
  · simp [Script.rollDie, h.size_requested]
  · intro s hs
    rcases Array.mem_push.mp hs with hs | rfl
    · exact h.one_le_sides s hs
    · exact one_le_of_pos hsides
  · -- The new face is the last one, and the die that was asked for last is its die.
    intro k face s scripted hface hs hscripted
    simp only [Script.rollDie, Array.getElem?_push, h.size_requested] at hface hs
    by_cases hk : k = tray.faces.size
    · rw [if_pos hk] at hface hs
      obtain rfl := Option.some.inj hface
      obtain rfl := Option.some.inj hs
      rw [hnext, ← hk, hscripted, Option.getD_some, Script.toInt_nearestFace]
    · rw [if_neg hk] at hface hs
      exact h.face_of_script k face s scripted hface hs hscripted
  · intro hnil face hface
    rcases Array.mem_push.mp hface with hface | rfl
    · exact h.face_without_script hnil face hface
    · rw [hnext, hnil]
      exact Script.nearestFace_eq_self (Int64.le_refl 1) (one_le_of_pos hsides)

/-- Dice that have sides, and place within the limit, keep the account right. -/
theorem draw (h : Accounted limit faces tray) {requests : List Int64}
    (hsides : ∀ sides ∈ requests, 0 < sides)
    (hlimit : tray.faces.size + requests.length ≤ limit.toNat) :
    Accounted limit faces (tray.draw requests) := by
  induction requests generalizing tray with
  | nil => rwa [Tray.draw_nil]
  | cons sides requests ih =>
    obtain ⟨hfirst, hrest⟩ := List.forall_mem_cons.mp hsides
    rw [List.length_cons] at hlimit
    rw [Tray.draw_cons]
    refine ih (h.rollDie hfirst (by omega)) hrest ?_
    show (tray.faces.push _).size + requests.length ≤ limit.toNat
    rw [Array.size_push]
    omega

/-- Rolling an expression keeps the account right. -/
theorem evaluate (hlimit : limit.toNat < 18446744073709551615) (h : Accounted limit faces tray)
    (e : Expr) : Accounted limit faces (e.evaluate limit tray).2 := by
  obtain ⟨requests, htray, hsides⟩ := e.evaluate_onlyDraws limit tray
  have hfits := e.evaluate_staysWithin hlimit tray h.size_le
  rw [htray, Tray.size_draw] at hfits
  rw [htray]
  exact h.draw hsides hfits

/-- Rolling expressions in turn keeps the account right. -/
theorem rollAll (hlimit : limit.toNat < 18446744073709551615) (trees : List Expr)
    (h : Accounted limit faces tray) : Accounted limit faces (tray.rollAll limit trees) := by
  induction trees generalizing tray with
  | nil => exact h
  | cons e trees ih => exact ih (h.evaluate hlimit e)

end Accounted

/-- In a session the account is right at every point, whatever the expressions are and whether they
have values or fail. The next roll draws its dice one after the other, also when it fails: after
each of them the account is right, the faces that lay on the tray before stay there as they were,
and the script was asked for just these dice besides. -/
theorem accounted_session {limit : UInt64} (hlimit : limit.toNat < 18446744073709551615)
    (faces : List Int64) (trees : List Expr) (e : Expr) :
    Accounted limit faces (session limit faces trees) ∧
      ∃ requests,
        (e.evaluate limit (session limit faces trees)).2 =
          (session limit faces trees).draw requests ∧
        (session limit faces trees).faces.toList <+:
          (e.evaluate limit (session limit faces trees)).2.faces.toList ∧
        (e.evaluate limit (session limit faces trees)).2.dice.requested.toList =
          (session limit faces trees).dice.requested.toList ++ requests ∧
        ∀ k, Accounted limit faces ((session limit faces trees).draw (requests.take k)) := by
  have hbefore : Accounted limit faces (session limit faces trees) :=
    (Accounted.ofFaces limit faces).rollAll hlimit trees
  generalize session limit faces trees = before at hbefore ⊢
  obtain ⟨requests, htray, hsides⟩ := e.evaluate_onlyDraws limit before
  refine ⟨hbefore, requests, htray, ?_, ?_, fun k => ?_⟩
  · rw [htray, Tray.draw, Array.toList_append]
    exact List.prefix_append ..
  · rw [htray, requested_draw]
  · have htake := List.length_take_le' k requests
    have hfits := e.evaluate_staysWithin hlimit before hbefore.size_le
    rw [htray, Tray.size_draw] at hfits
    exact hbefore.draw (fun sides hmem => hsides sides (List.mem_of_mem_take hmem)) (by omega)

/-- A die, and then no dice, for which the roll fails. -/
def brokenRoll : Expr :=
  .binary .add (.roll (.literal 1) (.literal 4)) (.roll (.literal 0) (.literal 6))

/-- Dice whose count is rolled as well. -/
def rolledCount : Expr :=
  .roll (.rollOne (.literal 4)) (.literal 6)

/-- The die of a roll that failed stays on the tray, and the next roll adds its five dice. -/
theorem accounted_session_broken_roll :
    (session 10 [3, 9] [brokenRoll]).faces = #[3] ∧
      (rolledCount.evaluate 10 (session 10 [3, 9] [brokenRoll])).2.faces = #[3, 4, 3, 6, 3, 6] ∧
      ∃ requests,
        (rolledCount.evaluate 10 (session 10 [3, 9] [brokenRoll])).2.dice.requested.toList =
          (session 10 [3, 9] [brokenRoll]).dice.requested.toList ++ requests ∧
        ∀ k, Accounted 10 [3, 9] ((session 10 [3, 9] [brokenRoll]).draw (requests.take k)) := by
  obtain ⟨-, requests, -, -, hrequested, haccounted⟩ :=
    accounted_session (by decide : (10 : UInt64).toNat < 18446744073709551615) [3, 9] [brokenRoll]
      rolledCount
  exact ⟨by decide, by decide, requests, hrequested, haccounted⟩

end SpokenDice
