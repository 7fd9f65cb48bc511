import SpokenDice.Proofs.Request.Closing
import SpokenDice.Proofs.Request.CriticalHits
import SpokenDice.Proofs.Request.Lexicons
import SpokenDice.Proofs.Request.SpellLevels

/-!
# Separators around a request

Separators in front of a request and behind it make no difference. Those in front are skipped,
because every token is looked for after separators. Those behind a text stay behind all that is read
of it: a separator is no digit and ends a word, and no keyword ends with one. A name might: were
"axe," a name, a comma would turn "axe" into it. Where no name ends with a separator, the text is
read as it would be by itself.

- `bounds_of_separators`: separators bound a word that does not end with one.
- `Enclosed`: how a text goes on when it stands between separators, and when it stands alone.
- `tokensAgree_enclosed`: the tokens of such texts agree.
- `read_between_separators`: what follows for whole requests.
-/

namespace SpokenDice.Request

open Scanner (AgreeAt Agree LeavesAt)

variable {α : Type} {behind : List Char}

/-! ## Texts between separators -/

/-- After separators, the first text goes on as the second one does with `behind` at its end. -/
def Enclosed (behind text text' : List Char) : Prop :=
  skipSeparators text = skipSeparators (text' ++ behind)

/-- What a scanner leaves of both texts is enclosed again. -/
theorem Scanner.LeavesAt.agreeAt {text : List Char} {s : Scanner α} (h : LeavesAt behind text s)
    {R : α → α → Prop} (hR : ∀ a, R a a) :
    AgreeAt (Enclosed behind) R (text ++ behind) text s s := by
  rw [LeavesAt] at h
  rw [AgreeAt, h]
  cases s text with
  | none => exact .none
  | some read => exact .some ⟨hR _, rfl⟩

/-- Where something else is left of the text, separators behind it are not skipped. -/
theorem skipSeparators_append_of_not_ended {text : List Char} (h : ¬ Ended text) :
    skipSeparators (text ++ behind) = skipSeparators text ++ behind :=
  List.dropWhile_append.trans (if_neg fun hempty => h (List.isEmpty_iff.mp hempty))

/-! ## Words and tokens -/

theorem isAlphanumeric_of_isSeparator {c : Char} (h : isSeparator c = true) :
    Text.isAlphanumeric c = false := by
  rcases Bool.or_eq_true_iff.mp h with hblank | hcomma
  · have htable : Text.alphanumericRanges.contains c = false :=
      Text.CodeRanges.contains_eq_false_of_apart (by decide +kernel) hblank
    have hletter : c.isAlpha = false := Bool.eq_false_iff.mpr fun hletter => by
      cases h.symm.trans (isSeparator_of_isAlpha hletter)
    rw [Text.isAlphanumeric, htable, Char.isAlphanum, hletter, isDigit_of_isSeparator h]
    rfl
  · rw [beq_iff_eq.mp hcomma]
    decide +kernel

section Separators

variable (hbehind : ∀ c ∈ behind, isSeparator c = true)

include hbehind

/-- A word that stands among separators is made of them. -/
theorem isSeparator_of_afterWord {word rest : List Char} (h : afterWord word behind = some rest) :
    ∀ c ∈ word, isSeparator c = true := by
  intro c hc
  obtain ⟨head, rfl, hsame, -⟩ := afterWord_eq_some_iff.mp h
  have hlower : c.toLower ∈ Text.lowerCase head :=
    Text.sameLetters_iff.mp hsame ▸ List.mem_map_of_mem hc
  obtain ⟨d, hd, hdc⟩ := List.mem_map.mp hlower
  rw [← isSeparator_toLower, ← hdc, isSeparator_toLower]
  exact hbehind d (List.mem_append_left rest hd)

/-- Separators end a word, and a word that ends with something else does not go on in them. -/
theorem bounds_of_separators {word : List Char} (hword : word.getLast?.any isSeparator = false) :
    Bounds behind word := by
  refine ⟨?_, fun tail htail hne => Option.eq_none_iff_forall_ne_some.mpr fun rest hrest => ?_⟩
  · cases behind with
    | nil => rfl
    | cons c more =>
      have hc := isAlphanumeric_of_isSeparator (hbehind c (List.mem_cons_self ..))
      rw [endsWord, hc, Bool.not_false]
  · obtain ⟨init, rfl⟩ := htail
    rw [List.getLast?_append_of_ne_nil init hne, List.getLast?_eq_some_getLast hne] at hword
    have hlast := isSeparator_of_afterWord hbehind hrest _ (List.getLast_mem hne)
    cases hword.symm.trans hlast

theorem ended_append_iff {text : List Char} : Ended (text ++ behind) ↔ Ended text := by
  simp only [Ended, skipSeparators, List.dropWhile_eq_nil_iff, List.forall_mem_append]
  exact and_iff_left hbehind

/-- A token is looked for after separators. So it agrees if it leaves what stands behind a text that
holds more than separators. -/
theorem agree_of_leaves {s : Scanner α} (hs : Scanner.Skips s) (hnil : s [] = none)
    (hleaves : ∀ text, ¬ Ended text → LeavesAt behind text s) :
    Agree (Enclosed behind) Eq s s := by
  intro text text' htext
  have hread : s text = s (text' ++ behind) := by rw [← hs text, htext, hs]
  rw [hread]
  by_cases hended : Ended text'
  · have hended' : Ended (text' ++ behind) := (ended_append_iff hbehind).mpr hended
    rw [← hs (text' ++ behind), hended', ← hs text', hended, hnil]
    exact .none
  · exact (hleaves text' hended).agreeAt fun _ => rfl

theorem keyword_enclosed {word : String} (hword : word.toList.getLast?.any Char.isAlpha = true) :
    Agree (Enclosed behind) Eq (keyword word) (keyword word) := by
  obtain ⟨c, hlast, hc⟩ := (Option.any_eq_true ..).mp hword
  refine agree_of_leaves hbehind (keyword_skips word) ?_ fun _ hended =>
    Scanner.keyword_leavesAt (skipSeparators_append_of_not_ended hended)
      (bounds_of_separators hbehind ?_)
  · obtain ⟨w, rest, hrest⟩ := List.exists_cons_of_ne_nil
      (List.ne_nil_of_mem (List.mem_of_getLast? hlast))
    rw [keyword_apply, hrest]
    rfl
  · rw [hlast]
    exact isSeparator_of_isAlpha hc

theorem sign_enclosed (c : Char) : Agree (Enclosed behind) Eq (sign c) (sign c) := by
  have hskips : Scanner.Skips (sign c) := by
    intro text
    rw [sign_apply, sign_apply, skipSeparators_skipSeparators]
  exact agree_of_leaves hbehind hskips rfl fun _ hended =>
    Scanner.sign_leavesAt (skipSeparators_append_of_not_ended hended) fun hnil => absurd hnil hended

theorem integer_enclosed : Agree (Enclosed behind) Eq integer integer :=
  agree_of_leaves hbehind integer_skips rfl fun _ hended =>
    Scanner.integer_leavesAt (skipSeparators_append_of_not_ended hended) fun c hc =>
      isDigit_of_isSeparator (hbehind c (List.mem_of_head? hc))

/-- The name that is found in the text is found with separators behind it. -/
theorem namesAgree_enclosed {table : List String}
    (htable : ∀ name ∈ table, name.toList.getLast?.any isSeparator = false) :
    NamesAgree (Enclosed behind) id (usableNames table) (usableNames table) := by
  have hnames : ∀ name ∈ usableNames table, Bounds behind name := by
    intro name hname
    obtain ⟨other, hother, rfl, -⟩ := exists_of_mem_usableNames hname
    exact bounds_of_separators hbehind (htable other hother)
  intro text text' htext
  rw [htext]
  by_cases hended : Ended text'
  · rw [longestName_ended ((ended_append_iff hbehind).mpr hended), longestName_ended hended]
    exact ⟨rfl, fun n hn => by cases hn⟩
  · rw [skipSeparators_append_of_not_ended hended, longestName_append_of_bounds hnames]
    exact ⟨rfl, fun n hn =>
      (Scanner.nameOfLength_leavesAt (length_le_of_longestName hn)).agreeAt fun _ => rfl⟩

/-- Where no name ends with a separator, the tokens of a text between separators agree with those
of the text by itself. -/
theorem tokensAgree_enclosed {rules : Ruleset}
    (hrules : ∀ name ∈ rules.names, name.toList.getLast?.any isSeparator = false) :
    TokensAgree (Enclosed behind) id (.ofRuleset rules) (.ofRuleset rules) where
  ended text text' htext := by
    rw [htext]
    exact ended_append_iff hbehind
  keyword _ := keyword_enclosed hbehind
  sign c _ := sign_enclosed hbehind c
  dieLetter := (sign_enclosed hbehind 'd').orElse (sign_enclosed hbehind 'D')
  integer := integer_enclosed hbehind
  namedDice := namesAgree_enclosed hbehind fun name hname =>
    hrules name (List.mem_append_left _ (List.mem_append_left _ hname))
  weapons := namesAgree_enclosed hbehind fun name hname =>
    hrules name (List.mem_append_left _ (List.mem_append_right _ hname))
  spells := namesAgree_enclosed hbehind fun name hname =>
    hrules name (List.mem_append_right _ hname)

end Separators

/-! ## Whole requests -/

/-- Where no name ends with a separator, a request between separators is read as the request by
itself: as the same tree, or as none for the same cause. -/
theorem read_between_separators {rules : Ruleset}
    (hrules : ∀ name ∈ rules.names, name.toList.getLast?.any isSeparator = false)
    {before behind : String} (hbefore : ∀ c ∈ before.toList, isSeparator c = true)
    (hbehind : ∀ c ∈ behind.toList, isSeparator c = true) (text : String) :
    read (.ofRuleset rules) (before ++ text ++ behind) = read (.ofRuleset rules) text := by
  refine (tokensAgree_enclosed hbehind hrules).readOr_eq ?_ .notUnderstood
  rw [Enclosed, String.toList_append, String.toList_append, List.append_assoc]
  exact List.dropWhile_append_of_pos hbefore

/-- A weapon with separators in its name, and a spell. -/
def crossbowRules : Ruleset where
  namedDice := []
  weapons := [⟨"Crossbow, light", "1d8"⟩]
  spells := [⟨"Hail", 1, "2d6", "1d6 more"⟩]

/-- The comma in the name is read, and those around the request are not. -/
theorem read_between_separators_crossbow :
    read (.ofRuleset crossbowRules) (" ,\t" ++ "crossbow, light + Hail at level 2" ++ ", ,") =
      .ok (.binary .add (.group (.weapon "crossbow, light"))
        (.group (.spellAt "Hail" (.integer 2)))) := by
  have hread : read (.ofRuleset crossbowRules) "crossbow, light + Hail at level 2" =
      .ok (.binary .add (.group (.weapon "crossbow, light"))
        (.group (.spellAt "Hail" (.integer 2)))) :=
    eq_ok_of_toOption_eq_some (by decide +kernel)
  have hrules : ∀ name ∈ crossbowRules.names, name.toList.getLast?.any isSeparator = false := by
    decide +kernel
  -- Deciding the quantifier itself would go through all characters there are.
  have hbefore : ∀ c ∈ " ,\t".toList, isSeparator c = true :=
    List.all_eq_true.mp (by decide)
  have hbehind : ∀ c ∈ ", ,".toList, isSeparator c = true :=
    List.all_eq_true.mp (by decide)
  exact (read_between_separators hrules hbefore hbehind _).trans hread

/-- A name that ends with a separator may take one that stands behind the request. -/
example : (read (.ofRuleset ⟨[], [⟨"Axe,", "1d6"⟩], []⟩) "axe").toOption = none ∧
    (read (.ofRuleset ⟨[], [⟨"Axe,", "1d6"⟩], []⟩) ("axe" ++ ",")).toOption =
      some (.group (.weapon "axe,")) := by
  decide +kernel

end SpokenDice.Request
