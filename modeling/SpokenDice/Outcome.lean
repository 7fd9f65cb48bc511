import SpokenDice.Integer

/-!
# Outcomes

The outcome of a roll is its total with the faces behind it, and `Outcome.narration` tells it in
a sentence. A single face is the total already and is not told again.
-/

namespace SpokenDice

/-- The total of a roll and its faces, in the order drawn. -/
structure Outcome where
  total : Int64
  faces : List Int64
  deriving DecidableEq

/-- Continues a list of faces: commas between them, and "and" before the last. -/
def listFaces (told : String) : List Int64 → String
  | [] => told
  | [last] => told ++ " and " ++ decimal last.toInt
  | face :: rest => listFaces (told ++ ", " ++ decimal face.toInt) rest

theorem listFaces_append (before told : String) (faces : List Int64) :
    listFaces (before ++ told) faces = before ++ listFaces told faces := by
  fun_induction listFaces told faces with
  | case1 told => rfl
  | case2 told last => simp [listFaces, String.append_assoc]
  | case3 told face rest hrest ih =>
    rw [listFaces, ← ih]
    · simp [String.append_assoc]
    · exact hrest

/-- The faces behind a total, when there are at least two. -/
def describeFaces : List Int64 → String
  | [] => ""
  | [_] => ""
  | face :: rest => listFaces (" from " ++ decimal face.toInt) rest

/-- The outcome in a sentence. -/
def Outcome.narration (outcome : Outcome) : String :=
  "You rolled a total of " ++ decimal outcome.total.toInt ++ describeFaces outcome.faces

end SpokenDice
