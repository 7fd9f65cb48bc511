import SpokenDice.Request.Scanner

/-!
# Readings

A parser makes a reading of the text before it: it parses something and leaves the rest, it does
not match, or the request is too large. It counts the terms of the request along the way. Where a
parser does not match, another may be tried on the same text, but the terms that were met stay
counted; a request that is too large is given up at once.

- `Parser.repeatStep` goes on while a step finds more, at most a given number of times.
- `Parser.term` counts a term, and `Parser.optional` and `<|>` try and go back.
-/

namespace SpokenDice.Request

/-- What a parser makes of a text, with the number of terms met so far. -/
inductive Reading (α : Type) where
  | parsed (value : α) (rest : List Char) (terms : Nat)
  | unmatched (terms : Nat)
  | tooLarge

/-- Makes a reading of a text, given the number of terms met before it. -/
def Parser (α : Type) : Type :=
  List Char → Nat → Reading α

/-- The most terms that a request may have. -/
def maxTerms : Nat := 1000

namespace Parser

variable {α β : Type}

/-- Reads nothing. -/
protected def pure (a : α) : Parser α :=
  fun text terms => .parsed a text terms

/-- Reads one thing after the other. -/
protected def bind (p : Parser α) (next : α → Parser β) : Parser β :=
  fun text terms =>
    match p text terms with
    | .parsed a rest terms => next a rest terms
    | .unmatched terms => .unmatched terms
    | .tooLarge => .tooLarge

instance : Monad Parser where
  pure := Parser.pure
  bind := Parser.bind

/-- Reads one thing or, where it does not match, the other. -/
protected def orElse (p : Parser α) (q : Unit → Parser α) : Parser α :=
  fun text terms =>
    match p text terms with
    | .parsed a rest terms => .parsed a rest terms
    | .unmatched terms => q () text terms
    | .tooLarge => .tooLarge

instance : OrElse (Parser α) := ⟨Parser.orElse⟩

/-- Does not match. -/
def unmatched : Parser α :=
  fun _ terms => .unmatched terms

/-- Gives the request up. -/
def tooLarge : Parser α :=
  fun _ _ => .tooLarge

/-- Reads what a scanner reads. -/
def ofScanner (scanner : Scanner α) : Parser α :=
  fun text terms =>
    match scanner text with
    | some (a, rest) => .parsed a rest terms
    | none => .unmatched terms

/-- Counts a term. -/
def term : Parser Unit :=
  fun text terms => if terms < maxTerms then .parsed () text (terms + 1) else .tooLarge

/-- Reads something if it is there. -/
def optional (p : Parser α) : Parser (Option α) :=
  (do let a ← p; pure (some a)) <|> pure none

/-- Goes on from `a` while the step finds more, at most `bound` times. -/
def repeatStep (step : α → Parser (Option α)) : Nat → α → Parser α
  | 0, a => do
    match ← step a with
    | none => pure a
    | some _ => tooLarge
  | bound + 1, a => do
    match ← step a with
    | none => pure a
    | some next => repeatStep step bound next

/-! ## What the combinators read -/

@[simp] theorem pure_apply (a : α) (text : List Char) (terms : Nat) :
    (pure a : Parser α) text terms = .parsed a text terms := rfl

theorem bind_apply (p : Parser α) (next : α → Parser β) (text : List Char) (terms : Nat) :
    (p >>= next) text terms =
      match p text terms with
      | .parsed a rest terms => next a rest terms
      | .unmatched terms => .unmatched terms
      | .tooLarge => .tooLarge := rfl

theorem orElse_apply (p q : Parser α) (text : List Char) (terms : Nat) :
    (p <|> q) text terms =
      match p text terms with
      | .parsed a rest terms => .parsed a rest terms
      | .unmatched terms => q text terms
      | .tooLarge => .tooLarge := rfl

instance : LawfulMonad Parser :=
  LawfulMonad.mk' Parser
    (fun p => by
      funext text terms
      show (p >>= fun a => pure (id a)) text terms = p text terms
      rw [bind_apply]
      cases p text terms <;> rfl)
    (fun _ _ => rfl)
    (fun p f g => by
      funext text terms
      rw [bind_apply, bind_apply, bind_apply]
      cases p text terms <;> rfl)

end Parser

end SpokenDice.Request
