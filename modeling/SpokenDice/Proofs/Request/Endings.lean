import SpokenDice.Proofs.Request.Openings
import SpokenDice.Proofs.Request.Printed

/-!
# Endings of a request

Where nothing but separators is left of a text, nothing is read, whatever names there are. So a
primary value that is read up to such an ending is all of the request.

- `Ended`: nothing is left of the text.
- `continuation_ended`: nothing goes on with a value there.
- `read_of_primary`: a request that is one primary value.
- `read_of_damage`: a request that is the damage of a weapon or spell.
-/

namespace SpokenDice.Request

/-- Nothing but separators is left. -/
def Ended (text : List Char) : Prop :=
  skipSeparators text = []

theorem ended_nil : Ended [] := rfl

theorem parenthesized_unmatched {nested : Nested} {text : List Char} (h : Lacks (· == '(') text)
    (terms : Nat) : parenthesized nested text terms = .unmatched terms :=
  Parser.bind_unmatched (Parser.ofScanner_none (sign_eq_none h))

theorem namedDie_of_matchesName {lexicon : Lexicon} {text : List Char}
    (h : ∀ name ∈ lexicon.namedDice, matchesName (skipSeparators text) name = false) :
    namedDie lexicon text = none := by
  refine Scanner.bind_none ?_
  rw [nameAmong_apply, longestName_eq_none_iff.mpr h, Option.bind_none]

section Ended

variable {rules : Ruleset} {nested : Nested} {text : List Char} {terms : Nat} (h : Ended text)

include h

theorem Ended.lacks {p : Char → Bool} : Lacks p text := by
  intro c rest hskip
  cases h.symm.trans hskip

theorem Ended.wordless : Wordless text :=
  Lacks.wordless h.lacks

theorem longestName_ended (table : List String) :
    longestName (usableNames table) (skipSeparators text) = none := by
  refine longestName_eq_none_iff.mpr fun name hname => ?_
  obtain ⟨c, tail, rfl⟩ := List.exists_cons_of_ne_nil (ne_nil_of_mem_usableNames hname)
  rw [h]
  rfl

theorem namedDie_ended : namedDie (.ofRuleset rules) text = none :=
  namedDie_of_matchesName (longestName_eq_none_iff.mp (longestName_ended h _))

theorem damageGroup_ended : damageGroup (.ofRuleset rules) text = none := by
  have hinteger : integer text = none := integer_eq_none h.lacks
  have hlevelled : levelledSpell (.ofRuleset rules) text = none :=
    levelledSpell_eq_none h.wordless (fun n rest hread => by cases hinteger.symm.trans hread) _
  have hnamed : namedDamage (.ofRuleset rules) text = none := by
    rw [namedDamage_apply, Lexicon.ofRuleset, longestName_ended h, longestName_ended h]
    rfl
  exact Scanner.bind_none ((Scanner.orElse_none hlevelled).trans hnamed)

theorem primary_ended : primary (.ofRuleset rules) nested text terms = .unmatched terms := by
  have hnumber : number text = none := Scanner.bind_none (integer_eq_none h.lacks)
  rw [primary, Parser.orElse_unmatched (parenthesized_unmatched h.lacks terms),
    Parser.orElse_unmatched (Parser.ofScanner_none (criticalHit_eq_none h.wordless _)),
    Parser.orElse_unmatched (Parser.ofScanner_none (damageGroup_ended h)),
    Parser.ofScanner_none hnumber]

theorem die_ended : die (.ofRuleset rules) nested text terms = .unmatched terms := by
  have hletter : dieLetter text = none := by
    rw [dieLetter, Scanner.orElse_none (sign_eq_none h.lacks), sign_eq_none h.lacks]
  rw [die, Parser.orElse_unmatched (Parser.ofScanner_none (namedDie_ended h)),
    Parser.orElse_unmatched (Parser.bind_unmatched (primary_ended h)),
    Parser.bind_unmatched (Parser.ofScanner_none hletter)]

theorem continuation_ended (value : Expr) :
    continuation (.ofRuleset rules) nested value text terms = .parsed none text terms := by
  have hphrase := dicePhrase_eq_none h.wordless value
  rw [continuation, Parser.orElse_unmatched (Parser.bind_unmatched (die_ended h))]
  split
  · exact Parser.optional_unmatched (Parser.ofScanner_none hphrase)
  · rfl

end Ended

section Whole

variable {rules : Ruleset} {text : String} {rest : List Char} {e : Expr}

/-- A primary value at the end of which nothing is left is all of the request, if it does not begin
with a named die. -/
theorem read_of_primary (hname : namedDie (.ofRuleset rules) text.toList = none)
    (hprimary : ∀ nested terms, primary (.ofRuleset rules) nested text.toList terms =
      .parsed e rest terms)
    (hrest : Ended rest) : read (.ofRuleset rules) text = .ok e := by
  have hsided : (Parser.ofScanner sidedDie).optional rest 1 = .parsed none rest 1 :=
    Parser.optional_unmatched (Parser.ofScanner_none (sidedDie_eq_none hrest.wordless))
  have hhead (nested : Nested) :
      head (.ofRuleset rules) nested text.toList 1 = .parsed e rest 1 := by
    rw [head, Parser.orElse_unmatched (Parser.bind_unmatched (Parser.ofScanner_none hname))]
    refine Parser.orElse_parsed ?_
    rw [Parser.bind_parsed (hprimary nested 1), Parser.bind_parsed hsided]
    rfl
  have hvalue (nested : Nested) :
      value (.ofRuleset rules) nested text.toList 0 = .parsed e rest 1 := by
    rw [value, Parser.bind_parsed (Parser.term_parsed (by decide)),
      Parser.bind_parsed (hhead nested)]
    exact Parser.repeatStep_none (continuation_ended hrest e) maxChain
  have hproduct := productSign_eq_none hrest.wordless hrest.lacks
  have hsum := additiveSign_eq_none hrest.wordless hrest.lacks hrest.lacks
  have hreading : readingOf (.ofRuleset rules) text.toList = .parsed e rest 1 :=
    chain_one (chain_one (hvalue _) hproduct) hsum
  rw [read, readOr, hreading]
  exact if_pos hrest

/-- A request that is the damage of a weapon or spell. -/
theorem read_of_damage (hname : namedDie (.ofRuleset rules) text.toList = none)
    (hparen : Lacks (· == '(') text.toList)
    (hcritical : criticalHit (.ofRuleset rules) text.toList = none)
    (hdamage : damage (.ofRuleset rules) text.toList = some (e, rest)) (hrest : Ended rest) :
    read (.ofRuleset rules) text = .ok (.group e) := by
  refine read_of_primary hname (fun nested terms => ?_) hrest
  have hgroup : damageGroup (.ofRuleset rules) text.toList = some (.group e, rest) :=
    Scanner.bind_some hdamage
  rw [primary, Parser.orElse_unmatched (parenthesized_unmatched hparen terms),
    Parser.orElse_unmatched (Parser.ofScanner_none hcritical)]
  exact Parser.orElse_parsed (Parser.ofScanner_some hgroup)

/-- A request that is a critical hit. -/
theorem read_of_criticalHit (hname : namedDie (.ofRuleset rules) text.toList = none)
    (hparen : Lacks (· == '(') text.toList)
    (hcritical : criticalHit (.ofRuleset rules) text.toList = some (e, rest))
    (hrest : Ended rest) : read (.ofRuleset rules) text = .ok e := by
  refine read_of_primary hname (fun nested terms => ?_) hrest
  rw [primary, Parser.orElse_unmatched (parenthesized_unmatched hparen terms)]
  exact Parser.orElse_parsed (Parser.ofScanner_some hcritical)

end Whole

end SpokenDice.Request
