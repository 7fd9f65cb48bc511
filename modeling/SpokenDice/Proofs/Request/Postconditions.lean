import SpokenDice.Proofs.Request.DiceText

/-!
# What holds of a reading

A postcondition of a reading says something of what is parsed, of the terms that were counted where
nothing matches, and of whether the request may be too large. There is one rule for each combinator.

- `Reading.Holds`: the postcondition.
- `Holds.bind`, `Holds.orElse`, `Holds.scan_bind` and `Holds.term_bind`: how readings go on.
- `Holds.repeatStep`: what each step keeps, a repetition keeps that may be too long.
-/

namespace SpokenDice.Request

variable {α β : Type}

/-- What is parsed has the first property, and where nothing matches the terms have the second one;
the request is too large only if it may be. -/
def Reading.Holds (P : α → List Char → Nat → Prop) (U : Nat → Prop) (L : Prop) : Reading α → Prop
  | .parsed a rest terms => P a rest terms
  | .unmatched terms => U terms
  | .tooLarge => L

namespace Reading.Holds

variable {P : β → List Char → Nat → Prop} {Q : α → List Char → Nat → Prop} {U V : Nat → Prop}
variable {L : Prop} {text : List Char} {terms : Nat}

theorem mono {Q' : α → List Char → Nat → Prop} {reading : Reading α} (h : reading.Holds Q V L)
    (hQ : ∀ a rest terms, Q a rest terms → Q' a rest terms) (hV : ∀ terms, V terms → U terms) :
    reading.Holds Q' U L := by
  cases reading with
  | parsed a rest terms => exact hQ a rest terms h
  | unmatched terms => exact hV terms h
  | tooLarge => exact h

theorem bind {p : Parser α} {next : α → Parser β} (hp : (p text terms).Holds Q V L)
    (hparsed : ∀ a rest terms, Q a rest terms → (next a rest terms).Holds P U L)
    (hunmatched : ∀ terms, V terms → U terms) : ((p >>= next) text terms).Holds P U L := by
  rw [Parser.bind_apply]
  cases hread : p text terms with
  | parsed a rest terms' =>
    rw [hread] at hp
    exact hparsed a rest terms' hp
  | unmatched terms' =>
    rw [hread] at hp
    exact hunmatched terms' hp
  | tooLarge =>
    rw [hread] at hp
    exact hp

theorem orElse {p q : Parser α} (hp : (p text terms).Holds Q V L)
    (hq : ∀ terms, V terms → (q text terms).Holds Q U L) :
    ((p <|> q) text terms).Holds Q U L := by
  rw [Parser.orElse_apply]
  cases hread : p text terms with
  | parsed a rest terms' =>
    rw [hread] at hp
    exact hp
  | unmatched terms' =>
    rw [hread] at hp
    exact hq terms' hp
  | tooLarge =>
    rw [hread] at hp
    exact hp

/-- What is parsed is only given another form. -/
theorem map {R : List Char → Nat → Prop} {p : Parser α}
    (hp : (p text terms).Holds (fun _ => R) U L) (f : α → β) :
    ((do let a ← p; pure (f a)) text terms).Holds (fun _ => R) U L :=
  hp.bind (fun _ _ _ h => h) fun _ => id

/-- A scanner counts no terms. -/
theorem scan {s : Scanner α} (hsome : ∀ a rest, s text = some (a, rest) → Q a rest terms)
    (hnone : U terms) : (Parser.ofScanner s text terms).Holds Q U L := by
  rw [Parser.ofScanner]
  cases hread : s text with
  | none => exact hnone
  | some read => exact hsome read.1 read.2 hread

theorem scan_bind {s : Scanner α} {next : α → Parser β}
    (hsome : ∀ a rest, s text = some (a, rest) → (next a rest terms).Holds P U L)
    (hnone : U terms) : ((Parser.ofScanner s >>= next) text terms).Holds P U L := by
  cases hread : s text with
  | none =>
    rw [Parser.bind_unmatched (Parser.ofScanner_none hread)]
    exact hnone
  | some read =>
    rw [Parser.bind_parsed (Parser.ofScanner_some hread)]
    exact hsome read.1 read.2 hread

theorem optional_scan_bind {s : Scanner α} {next : Option α → Parser β}
    (hsome : ∀ a rest, s text = some (a, rest) → (next (some a) rest terms).Holds P U L)
    (hnone : (next none text terms).Holds P U L) :
    (((Parser.ofScanner s).optional >>= next) text terms).Holds P U L := by
  cases hread : s text with
  | none =>
    rw [Parser.bind_parsed (Parser.optional_unmatched (Parser.ofScanner_none hread))]
    exact hnone
  | some read =>
    rw [Parser.bind_parsed (Parser.optional_parsed (Parser.ofScanner_some hread))]
    exact hsome read.1 read.2 hread

/-- A term is counted, or there are too many. -/
theorem term_bind {next : Unit → Parser β} (hlimit : maxTerms ≤ terms → L)
    (hnext : terms < maxTerms → (next () text (terms + 1)).Holds P U L) :
    ((Parser.term >>= next) text terms).Holds P U L := by
  by_cases h : terms < maxTerms
  · rw [Parser.bind_parsed (Parser.term_parsed h)]
    exact hnext h
  · rw [Parser.bind_apply, Parser.term, if_neg h]
    exact hlimit (Nat.not_lt.mp h)

/-- What holds before each step is the invariant, and when no step goes on, the postcondition of the
last one holds. The repetition may be too long. -/
theorem repeatStep {step : α → Parser (Option α)} {I R : α → List Char → Nat → Prop}
    (hstep : ∀ a text terms, I a text terms → (step a text terms).Holds
      (fun next rest terms => next.elim (R a rest terms) fun b => I b rest terms) U True)
    (bound : Nat) {a : α} (h : I a text terms) :
    (Parser.repeatStep step bound a text terms).Holds R U True := by
  induction bound generalizing text terms a with
  | zero =>
    refine (hstep a text terms h).bind (fun next rest terms' hnext => ?_) fun _ => id
    cases next with
    | none => exact hnext
    | some b => trivial
  | succ bound ih =>
    refine (hstep a text terms h).bind (fun next rest terms' hnext => ?_) fun _ => id
    cases next with
    | none => exact hnext
    | some b => exact ih hnext

end Reading.Holds

end SpokenDice.Request
