import SpokenDice.Outcome

/-!
# What a narration tells

A narration can be heard in one way only: the numbers in it end where something else begins, so that
the total and the faces can be told from it again. Only a single face is not told, so that one face
and none sound alike.

- `decimal_append_inj`: where no number goes on, the first number of a text is known.
- `listFaces_inj`: so are the faces of a list.
- `narration_eq_iff`: which outcomes are told alike.
-/

namespace SpokenDice

/-! ## Numbers in a text -/

/-- Whether the character may stand in a decimal text. -/
def isNumeric (c : Char) : Bool :=
  c.isDigit || c == '-'

theorem isNumeric_of_mem_decimal {n : Int} {c : Char} (h : c ∈ (decimal n).toList) :
    isNumeric c = true := by
  cases n with
  | ofNat k => simp [isNumeric, isDigit_of_mem_toString h]
  | negSucc k =>
    rw [decimal, String.toList_append] at h
    rcases List.mem_append.mp h with hsign | hdigit
    · obtain rfl := List.mem_singleton.mp hsign
      rfl
    · simp [isNumeric, isDigit_of_mem_toString hdigit]

theorem decimal_inj {m n : Int} (h : decimal m = decimal n) : m = n := by
  have hread := signed?_decimal m
  rw [h, signed?_decimal] at hread
  exact (Option.some.inj hread).symm

/-- No number goes on with the text. -/
def Delimits (text : String) : Prop :=
  text.toList.head?.any isNumeric = false

theorem takeWhile_decimal_append (n : Int) {text : String} (htext : Delimits text) :
    (decimal n ++ text).toList.takeWhile isNumeric = (decimal n).toList := by
  have hstop : text.toList.takeWhile isNumeric = [] := by
    rw [Delimits] at htext
    cases hletters : text.toList with
    | nil => rfl
    | cons c rest =>
      rw [hletters, List.head?_cons, Option.any_some] at htext
      exact List.takeWhile_cons_of_neg (by simp [htext])
  rw [String.toList_append, List.takeWhile_append_of_pos fun c => isNumeric_of_mem_decimal, hstop,
    List.append_nil]

/-- Texts that begin with a number, with which no number goes on, are the same only when the numbers
are and what follows them is. -/
theorem decimal_append_inj {m n : Int} {text text' : String} (htext : Delimits text)
    (htext' : Delimits text') (h : decimal m ++ text = decimal n ++ text') :
    m = n ∧ text = text' := by
  have hnumber : (decimal m).toList = (decimal n).toList := by
    rw [← takeWhile_decimal_append m htext, h, takeWhile_decimal_append n htext']
  obtain rfl := decimal_inj (String.toList_inj.mp hnumber)
  exact ⟨rfl, (String.append_right_inj _).mp h⟩

/-- A face that is told before such a text is known from it. -/
theorem face_append_inj {a b : Int64} {text text' : String} (htext : Delimits text)
    (htext' : Delimits text') (h : decimal a.toInt ++ text = decimal b.toInt ++ text') :
    a = b ∧ text = text' := by
  obtain ⟨hface, hrest⟩ := decimal_append_inj htext htext' h
  exact ⟨Int64.toInt_inj.mp hface, hrest⟩

/-! ## Lists of faces -/

theorem listFaces_eq (told : String) (faces : List Int64) :
    listFaces told faces = told ++ listFaces "" faces := by
  rw [← listFaces_append, String.append_empty]

theorem listFaces_last (last : Int64) :
    listFaces "" [last] = " and " ++ (decimal last.toInt ++ "") := by
  rw [listFaces, String.empty_append, String.append_empty]

theorem listFaces_cons (face next : Int64) (rest : List Int64) :
    listFaces "" (face :: next :: rest) =
      ", " ++ (decimal face.toInt ++ listFaces "" (next :: rest)) := by
  rw [listFaces, listFaces_eq, String.empty_append, String.append_assoc]
  exact List.cons_ne_nil next rest

/-- What a list of faces begins with. -/
def opening : List Int64 → Option Char
  | [] => none
  | [_] => some ' '
  | _ => some ','

theorem head?_listFaces (faces : List Int64) :
    (listFaces "" faces).toList.head? = opening faces := by
  match faces with
  | [] => rfl
  | [last] =>
    rw [listFaces_last, String.toList_append]
    rfl
  | face :: next :: rest =>
    rw [listFaces_cons, String.toList_append]
    rfl

theorem listFaces_delimits (faces : List Int64) : Delimits (listFaces "" faces) := by
  rw [Delimits, head?_listFaces]
  match faces with
  | [] => rfl
  | [last] => rfl
  | face :: next :: rest => rfl

theorem opening_eq {faces faces' : List Int64} (h : listFaces "" faces = listFaces "" faces') :
    opening faces = opening faces' := by
  rw [← head?_listFaces, h, head?_listFaces]

/-- A list of faces tells each of them, and where it ends. -/
theorem listFaces_inj {faces faces' : List Int64} (h : listFaces "" faces = listFaces "" faces') :
    faces = faces' := by
  match faces, faces' with
  | [], [] => rfl
  | [last], [last'] =>
    rw [listFaces_last, listFaces_last, String.append_right_inj] at h
    obtain ⟨rfl, -⟩ := face_append_inj (listFaces_delimits []) (listFaces_delimits []) h
    rfl
  | face :: next :: rest, face' :: next' :: rest' =>
    rw [listFaces_cons, listFaces_cons, String.append_right_inj] at h
    obtain ⟨rfl, hrest⟩ := face_append_inj (listFaces_delimits _) (listFaces_delimits _) h
    rw [listFaces_inj hrest]
  -- Lists of other lengths do not begin alike.
  | [], [_] | [], _ :: _ :: _ | [_], [] | [_], _ :: _ :: _ | _ :: _ :: _, [] | _ :: _ :: _, [_] =>
    nomatch opening_eq h

/-! ## Narrations -/

theorem describeFaces_cons (face next : Int64) (rest : List Int64) :
    describeFaces (face :: next :: rest) =
      " from " ++ (decimal face.toInt ++ listFaces "" (next :: rest)) := by
  rw [describeFaces, listFaces_eq, String.append_assoc]
  exact List.cons_ne_nil next rest

theorem describeFaces_eq_empty_iff {faces : List Int64} :
    describeFaces faces = "" ↔ faces.length < 2 := by
  match faces with
  | [] => simp [describeFaces]
  | [_] => simp [describeFaces]
  | face :: next :: rest => simp [describeFaces_cons]

/-- Faces are told alike when they are the same, or when there are too few to be told. -/
theorem describeFaces_eq_iff {faces faces' : List Int64} :
    describeFaces faces = describeFaces faces' ↔
      faces = faces' ∨ faces.length < 2 ∧ faces'.length < 2 := by
  constructor
  · intro h
    by_cases hshort : faces.length < 2
    · rw [describeFaces_eq_empty_iff.mpr hshort] at h
      exact .inr ⟨hshort, describeFaces_eq_empty_iff.mp h.symm⟩
    · have hlong : ¬ faces'.length < 2 := by
        rwa [← describeFaces_eq_empty_iff, ← h, describeFaces_eq_empty_iff]
      match faces, faces' with
      | face :: next :: rest, face' :: next' :: rest' =>
        rw [describeFaces_cons, describeFaces_cons, String.append_right_inj] at h
        obtain ⟨rfl, hrest⟩ := face_append_inj (listFaces_delimits _) (listFaces_delimits _) h
        rw [listFaces_inj hrest]
        exact .inl rfl
      | [], _ | [_], _ => exact absurd (by simp) hshort
      | _, [] | _, [_] => exact absurd (by simp) hlong
  · rintro (rfl | ⟨hshort, hshort'⟩)
    · rfl
    · rw [describeFaces_eq_empty_iff.mpr hshort, describeFaces_eq_empty_iff.mpr hshort']

theorem describeFaces_delimits (faces : List Int64) : Delimits (describeFaces faces) := by
  match faces with
  | [] => rfl
  | [_] => rfl
  | face :: next :: rest =>
    rw [describeFaces_cons, Delimits, String.toList_append]
    rfl

theorem Outcome.narration_eq (outcome : Outcome) :
    outcome.narration = "You rolled a total of " ++
      (decimal outcome.total.toInt ++ describeFaces outcome.faces) :=
  String.append_assoc ..

/-- Narrations lose nothing. Two outcomes that are told alike have the same total, and the same
faces too, unless there are fewer than two on both sides, which are not told. -/
theorem narration_eq_iff {outcome outcome' : Outcome} :
    outcome.narration = outcome'.narration ↔
      outcome.total = outcome'.total ∧ (outcome.faces = outcome'.faces ∨
        outcome.faces.length < 2 ∧ outcome'.faces.length < 2) := by
  rw [← describeFaces_eq_iff, outcome.narration_eq, outcome'.narration_eq, String.append_right_inj]
  constructor
  · exact face_append_inj (describeFaces_delimits _) (describeFaces_delimits _)
  · rintro ⟨htotal, hfaces⟩
    rw [htotal, hfaces]

end SpokenDice
