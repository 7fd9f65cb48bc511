import SpokenDice.Proofs.Request.Printed
import SpokenDice.Proofs.Request.Surroundings
import SpokenDice.Proofs.Request.Terms

/-!
# Requests composed of requests

Two requests in parentheses with a sign between them are a request of the arithmetic between the
two, or they are too large: because their terms are too many together, or because one of them needs
all levels that may be entered, so that there is none left for its parentheses.

- `UsesAllLevels`: a text that is too large with one level less.
- `parenthesized_within_of_read`: a request in parentheses, after other terms and with anything
  behind it.
- `value_within_of_read`: such a group is a value.
- `read_composed`: the composed request.
-/

namespace SpokenDice.Request

open SpokenDice.Request.Parser

variable {α : Type}

/-- With one level less that may be entered, the text is too large. Of a request, which is not too
large itself, this says that it enters the last level. -/
def UsesAllLevels (lexicon : Lexicon) (text : String) : Prop :=
  sum lexicon (nestedWithin lexicon (maxNesting - 1)) text.toList 0 = .tooLarge

instance (lexicon : Lexicon) (text : String) : Decidable (UsesAllLevels lexicon text) :=
  match h : sum lexicon (nestedWithin lexicon (maxNesting - 1)) text.toList 0 with
  | .tooLarge => isTrue h
  | .parsed _ _ _ | .unmatched _ => isFalse fun hlarge => by cases h.symm.trans hlarge

example :
    UsesAllLevels (.ofRuleset hailRules) (String.ofList (List.replicate 100 'd' ++ ['6'])) := by
  decide +kernel

/-! ## Surroundings of a request -/

namespace Surroundings

/-- Nothing stands around the text, but levels may be missing. -/
def alone : Surroundings where
  behind := []
  closes := .inl rfl
  before := 0
  Lost _ := True
  lost_of_lt _ := trivial
  lost_mono _ := id

/-- A parenthesis is closed behind the text. Levels may be missing, too. -/
def group (more : List Char) (before : Nat) (missing : Prop) : Surroundings where
  behind := ')' :: more
  closes := .inr ⟨more, rfl⟩
  before := before
  Lost terms := missing ∨ maxTerms < terms + before
  lost_of_lt := .inr
  lost_mono hle h := h.imp_right fun hlt => Nat.lt_of_lt_of_le hlt (Nat.add_le_add_right hle before)

end Surroundings

/-- Either the reading is this one, or it is given up for a reason. -/
theorem Reading.IsWithin.exists_of_or {reading other : Reading α} {reason : Prop}
    (h : reading = other ∨ reason ∧ reading = .tooLarge) :
    ∃ A, (¬ A → reason) ∧ reading.IsWithin A other := by
  rcases h with h | ⟨hreason, h⟩
  · exact ⟨True, fun hnot => absurd trivial hnot, .of_eq trivial h⟩
  · exact ⟨False, fun _ => hreason, .of_not id h⟩

/-- Where separators reach to the end of the text, there is no opening. -/
theorem not_opens_of_skip {text : List Char} (h : skipSeparators text = []) : ¬ Opens text := by
  rintro ⟨c, rest, hskip, -⟩
  cases h.symm.trans hskip

section Groups

variable {rules : Ruleset} (hfree : rules.ParenthesisFree) {text : String} {e : Expr}
  (hread : read (.ofRuleset rules) text = .ok e)

include hfree hread

/-- With the levels inside parentheses a request is read in the same way, if they are enough. -/
theorem exists_levels_of_read : ∃ levels rest,
    (maxNesting - 1 = levels ∨ maxNesting - 1 < levels ∧ UsesAllLevels (.ofRuleset rules) text) ∧
      levels ≤ maxNesting ∧ skipSeparators rest = [] ∧
        sum (.ofRuleset rules) (nestedWithin (.ofRuleset rules) levels) text.toList 0 =
          .parsed e rest e.terms := by
  have hrules := hfree.unparenthesized
  obtain ⟨rest, terms, hreading, hrest⟩ := exists_reading_of_read hread
  obtain rfl : terms = e.terms := terms_of_sum hrules hreading (not_opens_of_skip hrest)
  by_cases hlevels : UsesAllLevels (.ofRuleset rules) text
  · exact ⟨maxNesting, rest, .inr ⟨by decide, hlevels⟩, Nat.le_refl _, hrest, hreading⟩
  · refine ⟨maxNesting - 1, rest, .inl rfl, Nat.sub_le _ _, hrest, ?_⟩
    have hkeeps : Surroundings.alone.Keeps e.terms
        (sum (.ofRuleset rules) (nestedWithin (.ofRuleset rules) (maxNesting - 1))
          (text.toList ++ []) 0) (.parsed e (rest ++ []) e.terms) :=
      Surroundings.keeps_of_sum hrules (Lexicon.unclosed_ofRuleset hfree) (Nat.le_refl 100)
        (.inr ⟨by decide, fun _ => trivial⟩) (Nat.zero_le _) hreading (not_opens_of_skip hrest)
    rw [List.append_nil, List.append_nil] at hkeeps
    rcases hkeeps with ⟨-, hsum⟩ | ⟨-, hsum⟩
    · exact hsum
    · exact absurd hsum hlevels

/-- A request in parentheses is read as a group, after terms that were met before and with anything
behind it. It is too large only if terms or levels run out. -/
theorem parenthesized_within_of_read {before : Nat} (hbefore : before ≤ maxTerms)
    (more : List Char) :
    ∃ A, (¬ A → UsesAllLevels (.ofRuleset rules) text ∨ maxTerms < e.terms + before) ∧
      (parenthesized (nestedWithin (.ofRuleset rules) maxNesting)
        ('(' :: (text.toList ++ ')' :: more)) before).IsWithin A
          (.parsed (.group e) more (e.terms + before)) := by
  obtain ⟨levels, rest, hfewer, hlevels, hrest, hsum⟩ := exists_levels_of_read hfree hread
  let around := Surroundings.group more before (UsesAllLevels (.ofRuleset rules) text)
  have hkeeps : around.Keeps e.terms
      ((nestedWithin (.ofRuleset rules) maxNesting).sum (text.toList ++ ')' :: more) before)
      (.parsed e (rest ++ ')' :: more) (e.terms + before)) :=
    Surroundings.keeps_of_sum hfree.unparenthesized (Lexicon.unclosed_ofRuleset hfree) hlevels
      (hfewer.imp_right fun h => ⟨h.1, fun _ => Or.inl h.2⟩) hbefore hsum (not_opens_of_skip hrest)
  obtain ⟨A, hA, hwithin⟩ := Reading.IsWithin.exists_of_or (hkeeps.imp_left And.right)
  have hclose : skipSeparators (rest ++ ')' :: more) = ')' :: more := by
    rw [skipSeparators_append (.inr ⟨more, rfl⟩), hrest, List.nil_append]
  exact ⟨A, hA, parenthesized_within hwithin hclose⟩

/-- A request in parentheses is a value, where nothing goes on with it. -/
theorem value_within_of_read (hworded : rules.Worded) {more : List Char} (hidle : Idle more)
    (before : Nat) :
    ∃ A, (¬ A → UsesAllLevels (.ofRuleset rules) text ∨ maxTerms < e.terms + (before + 1)) ∧
      (value (.ofRuleset rules) (nestedWithin (.ofRuleset rules) maxNesting)
        ('(' :: (text.toList ++ ')' :: more)) before).IsWithin A
          (.parsed (.group e) more (e.terms + (before + 1))) := by
  by_cases hterms : before < maxTerms
  · obtain ⟨A, hA, hgroup⟩ := parenthesized_within_of_read hfree hread hterms more
    have hlexicon := Lexicon.worded_ofRuleset hworded
    have hgroupWord : Wordless ('(' :: (text.toList ++ ')' :: more)) :=
      Lacks.wordless (lacks_of_skip (skipSeparators_cons (by decide) _) (by decide))
    refine ⟨A, hA, ?_⟩
    rw [value, bind_parsed (term_parsed hterms)]
    refine (head_within_of_primary hlexicon hgroupWord hidle.wordless hgroup.orElse).bind_eq
      fun _ => ?_
    exact repeatStep_none (continuation_idle hlexicon hidle _) maxChain
  · refine ⟨False, fun _ => .inr (by omega), .of_not id ?_⟩
    rw [value, bind_apply, term, if_neg hterms]

end Groups

/-! ## Chains of two values -/

section Chains

variable {operand : Parser Expr} {operator : Scanner BinaryOp} {text rest rest' rest'' : List Char}
variable {left right : Expr} {op : BinaryOp} {terms terms' terms'' : Nat} {A B : Prop}

theorem chain_one_within (hleft : (operand text terms).IsWithin A (.parsed left rest terms'))
    (hend : operator rest = none) :
    (chain operand operator text terms).IsWithin A (.parsed left rest terms') := by
  rw [chain]
  exact hleft.bind_eq fun _ => repeatStep_none (link_none hend) maxChain

theorem chain_two_within (hleft : (operand text terms).IsWithin A (.parsed left rest terms'))
    (hoperator : operator rest = some (op, rest'))
    (hright : (operand rest' terms').IsWithin B (.parsed right rest'' terms''))
    (hend : operator rest'' = none) :
    (chain operand operator text terms).IsWithin (A ∧ B)
      (.parsed (.binary op left right) rest'' terms'') := by
  rw [chain]
  refine hleft.bind (fun _ => ?_) Iff.rfl
  exact (repeatStep_within (link_within hoperator hright left) 2000).trans_eq fun _ =>
    repeatStep_none (link_none hend) 2000

end Chains

/-- The arithmetic of two values is a request, whichever of its signs stands between them. -/
theorem sum_within_of_values {lexicon : Lexicon} {nested : Nested} {op : BinaryOp}
    (hop : op.isCall = false) {text rest : List Char} {left right : Expr}
    {terms terms' terms'' : Nat} {A B : Prop}
    (hleft : (value lexicon nested text terms).IsWithin A
      (.parsed left (op.symbol.toList ++ rest) terms'))
    (hright : (value lexicon nested rest terms').IsWithin B (.parsed right [] terms'')) :
    (sum lexicon nested text terms).IsWithin (A ∧ B)
      (.parsed (.binary op left right) [] terms'') := by
  have hskip {c : Char} (hc : isSeparator c = false) : skipSeparators (c :: rest) = c :: rest :=
    skipSeparators_cons hc rest
  have hproduct {c : Char} (hc : isSeparator c = false) (hstar : (c == '*') = false)
      (hletter : c.isAlpha = false) : productSign (c :: rest) = none :=
    productSign_eq_none (Lacks.wordless (lacks_of_skip (hskip hc) hletter))
      (lacks_of_skip (hskip hc) hstar)
  cases op with
  | max | min => cases hop
  | mul =>
    have hoperator : productSign ('*' :: rest) = some (.mul, rest) :=
      Scanner.orElse_some (Scanner.bind_some (sign_eq_some (hskip (by decide))))
    exact chain_one_within (chain_two_within hleft hoperator hright (by decide)) (by decide)
  | add =>
    exact chain_two_within (chain_one_within hleft (hproduct (by decide) (by decide) (by decide)))
      (additiveSign_plus rest) (chain_one_within hright (by decide)) (by decide)
  | sub =>
    exact chain_two_within (chain_one_within hleft (hproduct (by decide) (by decide) (by decide)))
      (additiveSign_minus rest) (chain_one_within hright (by decide)) (by decide)

/-! ## Composed requests -/

/-- Where names begin with two letters and hold no parenthesis, two requests in parentheses with a
sign between them are read as the arithmetic of their groups, or they are too large. They are too
large only if the terms of both and two are more than 1000, or one of them uses all levels. -/
theorem read_composed {rules : Ruleset} (hworded : rules.Worded) (hfree : rules.ParenthesisFree)
    {a b : String} {ta tb : Expr} (ha : read (.ofRuleset rules) a = .ok ta)
    (hb : read (.ofRuleset rules) b = .ok tb) {op : BinaryOp} (hop : op.isCall = false) :
    read (.ofRuleset rules) ("(" ++ a ++ ")" ++ op.symbol ++ "(" ++ b ++ ")") =
        .ok (.binary op (.group ta) (.group tb)) ∨
      read (.ofRuleset rules) ("(" ++ a ++ ")" ++ op.symbol ++ "(" ++ b ++ ")") =
          .error .tooLarge ∧
        (1000 < ta.terms + tb.terms + 2 ∨ UsesAllLevels (.ofRuleset rules) a ∨
          UsesAllLevels (.ofRuleset rules) b) := by
  have htext : ("(" ++ a ++ ")" ++ op.symbol ++ "(" ++ b ++ ")").toList =
      '(' :: (a.toList ++ ')' :: (op.symbol.toList ++ '(' :: (b.toList ++ [')']))) := by
    simp
  have hidle (rest : List Char) : Idle (op.symbol.toList ++ rest) := by
    cases op with
    | max | min => cases hop
    | add | sub | mul => exact lacks_of_skip (skipSeparators_cons (by decide) rest) (by decide)
  obtain ⟨A, hA, hleft⟩ := value_within_of_read hfree ha hworded (hidle _) 0
  obtain ⟨B, hB, hright⟩ := value_within_of_read hfree hb hworded lacks_nil (ta.terms + 1)
  have hsum := sum_within_of_values hop hleft hright
  rw [read, readOr, readingOf, htext]
  by_cases hAB : A ∧ B
  · rw [hsum.1 hAB]
    exact .inl rfl
  · rw [hsum.2 hAB]
    refine .inr ⟨rfl, ?_⟩
    rw [show maxTerms = 1000 from rfl] at hA hB
    by_cases h : A
    · rcases hB fun hb => hAB ⟨h, hb⟩ with hlevels | hterms
      · exact .inr (.inr hlevels)
      · exact .inl (by omega)
    · rcases hA h with hlevels | hterms
      · exact .inr (.inl hlevels)
      · exact .inl (by omega)

/-- Both texts end where a name or a phrase might have gone on. -/
theorem read_composed_hail :
    let hail := Expr.group (.spellAt "hail" (.integer 3))
    let dice := Expr.advantage (.roll (.integer 2) (.rollOne (.integer 6)))
    read (.ofRuleset hailRules) "hail at level 3" = .ok hail ∧
      read (.ofRuleset hailRules) "2dd6 with advantage " = .ok dice ∧
        read (.ofRuleset hailRules) "(hail at level 3)*(2dd6 with advantage )" =
          .ok (.binary .mul (.group hail) (.group dice)) := by
  intro hail dice
  have hworded : hailRules.Worded := by
    show ∀ name ∈ _, _ = true
    decide +kernel
  have hfree : hailRules.ParenthesisFree := by decide
  have hhail : read (.ofRuleset hailRules) "hail at level 3" = .ok hail :=
    eq_ok_of_toOption_eq_some (by decide +kernel)
  have hdice : read (.ofRuleset hailRules) "2dd6 with advantage " = .ok dice :=
    eq_ok_of_toOption_eq_some (by decide +kernel)
  refine ⟨hhail, hdice, ?_⟩
  rcases read_composed hworded hfree hhail hdice (rfl : BinaryOp.mul.isCall = false) with
    hread | ⟨-, hlarge⟩
  · exact hread
  · exact absurd hlarge (by decide +kernel)

end SpokenDice.Request
