import SpokenDice.Proofs.Request.Agreement
import SpokenDice.Proofs.Request.Grammar

/-!
# One text, two lexicons

A parser asks a lexicon for nothing but the length of the longest name at the place where it stands.
Two lexicons that give the same answer at every place of a text therefore read it alike, whatever
other names they hold.

- `Lexicon.FindsAlike`: the lexicons give the same answers in a text.
- `TokensAgree.readOr_eq`: texts in which tokens agree, and the names are the same, are read alike.
- `readOr_congr`: they read it as the same tree, or as none for the same cause.
- `readOr_eq_ok_congr`: what a text is read as does not depend on the cause it would fail for.
-/

namespace SpokenDice

/-- Names that are left alone are left as they are. -/
theorem Expr.mapNames_id (e : Expr) : e.mapNames id = e := by
  induction e with
  | integer | namedDie | literal | weapon | spell => rfl
  | _ => simp_all

namespace Request

variable {α : Type} {whole : List Char} {lexicon lexicon' : Lexicon}

/-- Wherever one looks in `whole`, the longest names of both lexicons have the same length. -/
structure Lexicon.FindsAlike (lexicon lexicon' : Lexicon) (whole : List Char) : Prop where
  namedDice : ∀ text, text <:+ whole →
    longestName lexicon.namedDice text = longestName lexicon'.namedDice text
  weapons : ∀ text, text <:+ whole →
    longestName lexicon.weapons text = longestName lexicon'.weapons text
  spells : ∀ text, text <:+ whole →
    longestName lexicon.spells text = longestName lexicon'.spells text

/-- Both texts are the same end of `whole`. -/
def SameEnd (whole text text' : List Char) : Prop :=
  text = text' ∧ text <:+ whole

namespace Scanner

/-- A scanner that stays within a text agrees with itself there. -/
theorem Yields.agree {s : Scanner α} {Q : α → Prop} (h : Yields whole s Q) {R : α → α → Prop}
    (hR : ∀ a, R a a) : Agree (SameEnd whole) R s s := by
  rintro text _ ⟨rfl, htext⟩
  cases hread : s text with
  | none => exact .none
  | some read => exact .some ⟨hR _, rfl, (h text htext _ _ hread).1⟩

theorem nameOfLength_yields (n : Nat) : Yields whole (nameOfLength n) (fun _ => True) := by
  intro text htext name rest h
  obtain ⟨-, rfl⟩ := Prod.mk.inj (Option.some.inj h)
  exact ⟨(List.drop_suffix n text).trans htext, trivial⟩

end Scanner

open Scanner in
/-- With lexicons that find names alike in it, a text is read in step with itself. -/
theorem inStep_of_findsAlike (h : lexicon.FindsAlike lexicon' whole) :
    InStep (SameEnd whole) id lexicon lexicon' where
  nil text text' htext := by rw [htext.1]
  skip text text' htext :=
    ⟨congrArg skipSeparators htext.1, (List.dropWhile_suffix _).trans htext.2⟩
  keyword word := (keyword_yields word).agree fun _ => rfl
  sign c _ := (sign_yields c).agree fun _ => rfl
  dieLetter := dieLetter_yields.agree fun _ => rfl
  integer := integer_yields.agree fun _ => rfl
  name n := (nameOfLength_yields n).agree fun _ => rfl
  namedDice text text' htext := htext.1 ▸ h.namedDice text htext.2
  weapons text text' htext := htext.1 ▸ h.weapons text htext.2
  spells text text' htext := htext.1 ▸ h.spells text htext.2

/-- Texts in which the tokens agree, and the names are the same, are read alike. -/
theorem TokensAgree.readOr_eq {Same : List Char → List Char → Prop}
    (h : TokensAgree Same id lexicon lexicon') {text text' : String}
    (htext : Same text.toList text'.toList) (otherwise : RollError) :
    readOr otherwise lexicon text = readOr otherwise lexicon' text' := by
  have hid : Except.map (ε := RollError) (Expr.mapNames id) = id := by
    funext reading
    cases reading with
    | ok e => exact congrArg Except.ok e.mapNames_id
    | error cause => rfl
  have hread := h.mapNames_readOr htext otherwise
  rwa [hid] at hread

/-- Lexicons that find names alike in a text read it alike. -/
theorem readOr_congr {text : String} (h : lexicon.FindsAlike lexicon' text.toList)
    (otherwise : RollError) : readOr otherwise lexicon text = readOr otherwise lexicon' text :=
  (inStep_of_findsAlike h).tokensAgree.readOr_eq ⟨rfl, List.suffix_rfl⟩ otherwise

/-- A text that is read as a tree is so whatever the cause it would otherwise fail for. -/
theorem readOr_eq_ok_congr {otherwise otherwise' : RollError} {text : String} {e : Expr}
    (h : readOr otherwise lexicon text = .ok e) : readOr otherwise' lexicon text = .ok e := by
  rw [readOr] at h ⊢
  split at h
  · split at h
    · rename_i hrest
      rw [if_pos hrest]
      exact h
    · cases h
  · cases h
  · cases h

end Request

end SpokenDice
