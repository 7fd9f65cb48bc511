import SpokenDice.Request.Parser

/-!
# What scanners and parsers yield

A postcondition of a reading, wherever in a text it starts: whatever is read has a property, and
what remains is again an end of that text. There is one lemma for each combinator, so that a
property of all trees of the grammar is shown rule by rule.

- `Scanner.Yields` and `Parser.Yields`: the two postconditions.
- `Scanner.nameOfLength_yieldsAt`: a name that is read stands in the text, and a known name has
  its letters.
- `Parser.yields_repeatStep`: what each step keeps, the repetition keeps.
-/

namespace SpokenDice.Request

variable {α β : Type} {whole : List Char}

/-! ## Scanners -/

namespace Scanner

/-- Whatever the scanner reads at the head of `text` has the property, and what it leaves is an
end of `whole`. -/
def YieldsAt (whole text : List Char) (s : Scanner α) (Q : α → Prop) : Prop :=
  ∀ a rest, s text = some (a, rest) → rest <:+ whole ∧ Q a

/-- Whatever the scanner reads in `whole` has the property, and what it leaves is an end of
`whole`. -/
def Yields (whole : List Char) (s : Scanner α) (Q : α → Prop) : Prop :=
  ∀ text, text <:+ whole → YieldsAt whole text s Q

theorem Yields.mono {s : Scanner α} {P Q : α → Prop} (h : Yields whole s P)
    (hPQ : ∀ a, P a → Q a) : Yields whole s Q :=
  fun text htext a rest hs => ⟨(h text htext a rest hs).1, hPQ a (h text htext a rest hs).2⟩

theorem yields_pure {a : α} {Q : α → Prop} (ha : Q a) : Yields whole (pure a) Q := by
  intro text htext b rest h
  obtain ⟨rfl, rfl⟩ := Prod.mk.inj (Option.some.inj h)
  exact ⟨htext, ha⟩

theorem YieldsAt.bind {text : List Char} {s : Scanner α} {next : α → Scanner β} {P : α → Prop}
    {Q : β → Prop} (hs : YieldsAt whole text s P) (hnext : ∀ a, P a → Yields whole (next a) Q) :
    YieldsAt whole text (s >>= next) Q := by
  intro b rest h
  obtain ⟨⟨a, middle⟩, ha, hb⟩ := Option.bind_eq_some_iff.mp h
  obtain ⟨hmiddle, hP⟩ := hs a middle ha
  exact hnext a hP middle hmiddle b rest hb

theorem Yields.bind {s : Scanner α} {next : α → Scanner β} {P : α → Prop} {Q : β → Prop}
    (hs : Yields whole s P) (hnext : ∀ a, P a → Yields whole (next a) Q) :
    Yields whole (s >>= next) Q :=
  fun text htext => (hs text htext).bind hnext

theorem Yields.orElse {s t : Scanner α} {Q : α → Prop} (hs : Yields whole s Q)
    (ht : Yields whole t Q) : Yields whole (s <|> t) Q := by
  intro text htext a rest h
  change (s text <|> t text) = some (a, rest) at h
  cases hs' : s text with
  | none =>
    rw [hs'] at h
    exact ht text htext a rest h
  | some result =>
    rw [hs'] at h
    exact hs text htext a rest (hs'.trans h)

theorem Yields.optional {s : Scanner α} {Q : α → Prop} (hs : Yields whole s Q) :
    Yields whole (optional s) (fun a => ∀ b, a = some b → Q b) := by
  refine Yields.orElse ?_ (yields_pure (by simp))
  show Yields whole (s >>= fun a => pure (some a)) _
  exact hs.bind fun a ha => yields_pure (by simpa using ha)

theorem yieldsAt_set {text rest : List Char} (h : rest <:+ whole) :
    YieldsAt whole text (set rest) (fun _ => True) := by
  intro a rest' hs
  obtain ⟨-, rfl⟩ := Prod.mk.inj (Option.some.inj hs)
  exact ⟨h, trivial⟩

theorem yieldsAt_failure {text : List Char} {Q : α → Prop} : YieldsAt whole text failure Q := by
  intro a rest h
  cases h

/-- An option that holds nothing does not match; what it holds is used where the text stands. -/
theorem yieldsAt_option {text : List Char} {o : Option α} {next : α → Scanner β} {Q : β → Prop}
    (h : ∀ a, o = some a → YieldsAt whole text (next a) Q) :
    YieldsAt whole text (liftM o >>= next) Q := by
  intro b rest hb
  cases ho : o with
  | none =>
    rw [ho] at hb
    cases hb
  | some a =>
    rw [ho] at hb
    exact h a ho b rest hb

/-! ### Tokens -/

/-- A token is looked for after the separators. -/
theorem yields_token {next : List Char → Scanner α} {Q : α → Prop}
    (h : ∀ text, text <:+ whole → YieldsAt whole text (next text) Q) :
    Yields whole (do separators; let text ← get; next text) Q :=
  fun text htext a rest hs =>
    h (skipSeparators text) ((List.dropWhile_suffix _).trans htext) a rest hs

theorem keyword_yields (word : String) : Yields whole (keyword word) (fun _ => True) := by
  refine yields_token fun text htext => yieldsAt_option fun rest h => yieldsAt_set ?_
  obtain ⟨head, rfl, -, -⟩ := afterWord_eq_some_iff.mp h
  exact (List.suffix_append head rest).trans htext

theorem sign_yields (c : Char) : Yields whole (sign c) (fun _ => True) := by
  refine yields_token fun text htext => ?_
  cases text with
  | nil => exact yieldsAt_failure
  | cons d rest =>
    by_cases hd : d = c
    · simp only [if_pos hd]
      exact yieldsAt_set ((List.suffix_cons d rest).trans htext)
    · simp only [if_neg hd]
      exact yieldsAt_failure

/-- The numbers of a request are not negative. -/
theorem integer_yields : Yields whole integer (fun n => 0 ≤ n.toInt) := by
  refine yields_token fun text htext => yieldsAt_option fun value _ => ?_
  refine (yieldsAt_set ((List.dropWhile_suffix _).trans htext)).bind fun _ _ => ?_
  -- The digits are behind, and what is left is to see that their value fits.
  intro text' htext'
  rw [← bind_pure (liftM (int64? (Int.ofNat value)))]
  refine yieldsAt_option fun n hn => yields_pure ?_ text' htext'
  rw [int64?_eq_some_iff.mp hn]
  exact Int.natCast_nonneg value

/-! ### Names -/

/-- The name stands in the text, and a name of the table has the same letters. -/
def Spelled (whole : List Char) (table : List String) (name : String) : Prop :=
  name.toList <:+: whole ∧ ∃ known ∈ table, sameName known name = true

/-- As many characters as the longest name has spell that name. -/
theorem nameOfLength_yieldsAt {table : List String} {text : List Char} {n : Nat}
    (hlength : longestName (usableNames table) text = some n) (htext : text <:+ whole) :
    YieldsAt whole text (nameOfLength n) (Spelled whole table) := by
  intro name rest h
  obtain ⟨rfl, rfl⟩ := Prod.mk.inj (Option.some.inj h)
  obtain ⟨⟨known, hmem, hmatch, rfl⟩, -⟩ := longestName_eq_some_iff.mp hlength
  obtain ⟨after, hafter⟩ := Option.isSome_iff_exists.mp hmatch
  obtain ⟨head, rfl, hsame, -⟩ := afterWord_eq_some_iff.mp hafter
  obtain ⟨record, hrecord, rfl⟩ := List.mem_map.mp (List.mem_filter.mp hmem).1
  -- The matched head is as long as the known name, so that taking its length gives the head.
  rw [← Text.length_eq_of_sameLetters hsame, List.take_left, List.drop_left]
  refine ⟨(List.suffix_append head after).trans htext, ?_, record, hrecord, ?_⟩
  · rw [String.toList_ofList]
    exact (List.prefix_append head after).isInfix.trans htext.isInfix
  · rw [sameName, String.toList_ofList, Text.sameLetters_iff]
    exact (Text.sameLetters_iff.mp hsame).symm

theorem nameAmong_yields (table : List String) :
    Yields whole (nameAmong (usableNames table)) (Spelled whole table) :=
  yields_token fun _ htext => yieldsAt_option fun _ hn => nameOfLength_yieldsAt hn htext

end Scanner

/-! ## Parsers -/

namespace Parser

/-- Whatever the parser reads in `whole` has the property, and what it leaves is an end of
`whole`. -/
def Yields (whole : List Char) (p : Parser α) (Q : α → Prop) : Prop :=
  ∀ text terms a rest terms', text <:+ whole → p text terms = .parsed a rest terms' →
    rest <:+ whole ∧ Q a

theorem Yields.mono {p : Parser α} {P Q : α → Prop} (h : Yields whole p P)
    (hPQ : ∀ a, P a → Q a) : Yields whole p Q :=
  fun text terms a rest terms' htext hp =>
    ⟨(h text terms a rest terms' htext hp).1, hPQ a (h text terms a rest terms' htext hp).2⟩

theorem yields_pure {a : α} {Q : α → Prop} (ha : Q a) : Yields whole (pure a) Q := by
  intro text terms b rest terms' htext h
  rw [pure_apply, Reading.parsed.injEq] at h
  obtain ⟨rfl, rfl, -⟩ := h
  exact ⟨htext, ha⟩

theorem yields_tooLarge {Q : α → Prop} : Yields whole tooLarge Q := by
  intro text terms a rest terms' _ h
  cases h

theorem Yields.bind {p : Parser α} {next : α → Parser β} {P : α → Prop} {Q : β → Prop}
    (hp : Yields whole p P) (hnext : ∀ a, P a → Yields whole (next a) Q) :
    Yields whole (p >>= next) Q := by
  intro text terms b rest terms' htext h
  rw [bind_apply] at h
  split at h
  · rename_i a middle terms'' ha
    obtain ⟨hmiddle, hP⟩ := hp text terms a middle terms'' htext ha
    exact hnext a hP middle terms'' b rest terms' hmiddle h
  · cases h
  · cases h

theorem Yields.orElse {p q : Parser α} {Q : α → Prop} (hp : Yields whole p Q)
    (hq : Yields whole q Q) : Yields whole (p <|> q) Q := by
  intro text terms a rest terms' htext h
  rw [orElse_apply] at h
  split at h
  · rename_i hparsed
    exact hp text terms a rest terms' htext (hparsed.trans h)
  · rename_i terms'' _
    exact hq text terms'' a rest terms' htext h
  · cases h

theorem yields_ofScanner {s : Scanner α} {Q : α → Prop} (hs : Scanner.Yields whole s Q) :
    Yields whole (ofScanner s) Q := by
  intro text terms a rest terms' htext h
  rw [ofScanner] at h
  split at h
  · rename_i hscan
    rw [Reading.parsed.injEq] at h
    obtain ⟨rfl, rfl, -⟩ := h
    exact hs text htext _ _ hscan
  · cases h

theorem term_yields : Yields whole term (fun _ => True) := by
  intro text terms a rest terms' htext h
  rw [term] at h
  split at h
  · rw [Reading.parsed.injEq] at h
    obtain ⟨-, rfl, -⟩ := h
    exact ⟨htext, trivial⟩
  · cases h

theorem Yields.optional {p : Parser α} {Q : α → Prop} (hp : Yields whole p Q) :
    Yields whole p.optional (fun a => ∀ b, a = some b → Q b) :=
  (hp.bind fun _ ha => yields_pure (by simpa using ha)).orElse (yields_pure (by simp))

/-- What each step keeps, the repetition keeps. -/
theorem yields_repeatStep {step : α → Parser (Option α)} {Q : α → Prop}
    (hstep : ∀ a, Q a → Yields whole (step a) (fun next => ∀ b, next = some b → Q b))
    (bound : Nat) {a : α} (ha : Q a) : Yields whole (repeatStep step bound a) Q := by
  induction bound generalizing a with
  | zero =>
    refine (hstep a ha).bind fun next _ => ?_
    cases next with
    | none => exact yields_pure ha
    | some _ => exact yields_tooLarge
  | succ bound ih =>
    -- The property is the invariant of the repetition: the step hands it on to the next tree.
    refine (hstep a ha).bind fun next hnext => ?_
    cases next with
    | none => exact yields_pure ha
    | some b => exact ih (hnext b rfl)

end Parser

end SpokenDice.Request
