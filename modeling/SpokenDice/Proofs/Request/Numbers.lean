import SpokenDice.Proofs.Failure
import SpokenDice.Proofs.Request.Tokens

/-!
# The numbers of a request

A request says its numbers in digits, and where no name holds a digit, the numbers of the tree are
those of the text, in the order of the text. The numbers that a reading has met so far and those of
the text that is left always make up the numbers of the whole text, and every rule keeps it so.

- `numbersOf`: the numbers of a text, and `Expr.numbers`: those of a tree.
- `Scanner.Accounts` and `Parser.Accounts`: what is read holds the numbers of the text behind it.
- `numbers_of_read`: a tree has the numbers of its text.
-/

namespace SpokenDice

namespace Expr

/-- The numbers of the expression, from left to right. -/
def numbers (e : Expr) : List Int :=
  e.postorder.filterMap fun
    | .integer n => some n.toInt
    | _ => none

@[simp] theorem numbers_integer (n : Int64) : (integer n).numbers = [n.toInt] := rfl

@[simp] theorem numbers_namedDie (name : String) : (namedDie name).numbers = [] := rfl

@[simp] theorem numbers_binary (op : BinaryOp) (l r : Expr) :
    (binary op l r).numbers = l.numbers ++ r.numbers := by
  simp [numbers, postorder]

@[simp] theorem numbers_rollOne (s : Expr) : (rollOne s).numbers = s.numbers := by
  simp [numbers, postorder]

@[simp] theorem numbers_roll (c s : Expr) : (roll c s).numbers = c.numbers ++ s.numbers := by
  simp [numbers, postorder]

@[simp] theorem numbers_critical (e : Expr) : (critical e).numbers = e.numbers := by
  simp [numbers, postorder]

@[simp] theorem numbers_advantage (e : Expr) : (advantage e).numbers = e.numbers := by
  simp [numbers, postorder]

@[simp] theorem numbers_disadvantage (e : Expr) : (disadvantage e).numbers = e.numbers := by
  simp [numbers, postorder]

@[simp] theorem numbers_weapon (name : String) : (weapon name).numbers = [] := rfl

@[simp] theorem numbers_spell (name : String) : (spell name).numbers = [] := rfl

@[simp] theorem numbers_spellAt (name : String) (level : Expr) :
    (spellAt name level).numbers = level.numbers := by
  simp [numbers, postorder]

@[simp] theorem numbers_group (e : Expr) : (group e).numbers = e.numbers := by
  simp [numbers, postorder]

end Expr

/-- The text holds no digit. -/
abbrev Text.Digitless (text : List Char) : Prop :=
  text.any Char.isDigit = false

/-- No name of the ruleset holds a digit. -/
def Ruleset.Digitless (rules : Ruleset) : Prop :=
  ∀ name ∈ rules.namedDice.map NamedDie.name ++ rules.weapons.map Weapon.name ++
    rules.spells.map Spell.name, Text.Digitless name.toList

instance (rules : Ruleset) : Decidable rules.Digitless :=
  inferInstanceAs (Decidable (∀ name ∈ _, Text.Digitless _))

namespace Request

open Text (Digitless)

/-! ## The numbers of a text -/

/-- The runs of digits in a text, each as long as it gets, from left to right. -/
def digitRuns (text : List Char) : List (List Char) :=
  (text.splitOnP fun c => !c.isDigit).filter (· ≠ [])

/-- The numbers that the runs of digits write. -/
def numbersOf (text : List Char) : List Int :=
  (digitRuns text).map fun digits => Int.ofNat (Nat.ofDigitChars 10 digits 0)

@[simp] theorem numbersOf_nil : numbersOf [] = [] := by
  simp [numbersOf, digitRuns]

theorem numbersOf_cons {c : Char} (hc : c.isDigit = false) (rest : List Char) :
    numbersOf (c :: rest) = numbersOf rest := by
  simp [numbersOf, digitRuns, List.splitOnP_cons_eq_if_modifyHead, hc]

/-- What holds no digit adds no number. -/
theorem numbersOf_append {head : List Char} (hhead : Digitless head) (rest : List Char) :
    numbersOf (head ++ rest) = numbersOf rest := by
  induction head with
  | nil => rfl
  | cons c head ih =>
    rw [Digitless, List.any_cons, Bool.or_eq_false_iff] at hhead
    rw [List.cons_append, numbersOf_cons hhead.1]
    exact ih hhead.2

/-- A numeral that ends where something else follows is one number. -/
theorem numbersOf_numeral {digits rest : List Char} {n : Int64} (h : Numeral digits n)
    (hrest : ∀ c tail, rest = c :: tail → c.isDigit = false) :
    numbersOf (digits ++ rest) = n.toInt :: numbersOf rest := by
  obtain ⟨hne, hdigits⟩ := h.isDigit
  have hsplit : (digits.splitOnP fun c => !c.isDigit) = [digits] :=
    List.splitOnP_eq_singleton fun c hc => by simp [hdigits c hc]
  have hvalue : Int.ofNat (Nat.ofDigitChars 10 digits 0) = n.toInt := by
    obtain ⟨value, hvalue, hn⟩ := h
    rw [natural?, if_pos ⟨hne, List.all_eq_true.mpr hdigits⟩] at hvalue
    rw [Option.some.inj hvalue, int64?_eq_some_iff.mp hn]
  cases rest with
  | nil => simp [numbersOf, digitRuns, hsplit, hne, ← hvalue]
  | cons c tail =>
    have hc := hrest c tail rfl
    rw [numbersOf_cons hc]
    simp [numbersOf, digitRuns, List.splitOnP_append_cons, hc, hsplit, hne, ← hvalue]

/-- A number that was read stood there as a numeral, up to its end. -/
theorem exists_numeral_of_integer {text rest : List Char} {n : Int64}
    (h : integer text = some (n, rest)) :
    ∃ digits, Numeral digits n ∧ skipSeparators text = digits ++ rest ∧
      ∀ c tail, rest = c :: tail → c.isDigit = false := by
  rw [integer_apply] at h
  obtain ⟨value, hvalue, hread⟩ := Option.bind_eq_some_iff.mp h
  obtain ⟨m, hm, hrest⟩ := Option.map_eq_some_iff.mp hread
  obtain ⟨rfl, rfl⟩ := Prod.mk.inj hrest
  refine ⟨_, ⟨value, hvalue, hm⟩, List.takeWhile_append_dropWhile.symm, fun c tail hc => ?_⟩
  have hhead := List.head?_dropWhile_not Char.isDigit (skipSeparators text)
  simpa [hc] using hhead

theorem isDigit_of_isSeparator {c : Char} (h : isSeparator c = true) : c.isDigit = false := by
  refine Bool.eq_false_iff.mpr fun hdigit => ?_
  cases h.symm.trans (isSeparator_of_isDigit hdigit)

theorem numbersOf_skipSeparators (text : List Char) :
    numbersOf (skipSeparators text) = numbersOf text := by
  induction text with
  | nil => rfl
  | cons c rest ih =>
    by_cases hc : isSeparator c = true
    · rw [skipSeparators, List.dropWhile_cons_of_pos hc, numbersOf_cons (isDigit_of_isSeparator hc)]
      exact ih
    · rw [skipSeparators, List.dropWhile_cons_of_neg hc]

/-- A word without digits adds no number, in any case of its letters. -/
theorem numbersOf_of_afterWord {word text rest : List Char} (hword : Digitless word)
    (h : afterWord word text = some rest) : numbersOf text = numbersOf rest := by
  have hlower (text : List Char) :
      (Text.lowerCase text).any Char.isDigit = text.any Char.isDigit := by
    simp [Text.lowerCase, Function.comp_def, Text.isDigit_toLower]
  obtain ⟨head, rfl, hsame, -⟩ := afterWord_eq_some_iff.mp h
  have hhead : Digitless head := by
    rw [Digitless, ← hlower, Text.sameLetters_iff.mp hsame, hlower, hword]
  exact numbersOf_append hhead rest

variable {α β : Type} {before : List Int}

/-! ## Scanners -/

namespace Scanner

/-- Where `before` are the numbers met already, what the scanner reads at the head of `text` makes
them those that `after` says, and the text that it leaves has the other numbers. -/
def AccountsAt (text : List Char) (before : List Int) (s : Scanner α) (after : α → List Int) :
    Prop :=
  ∀ a rest, s text = some (a, rest) → before ++ numbersOf text = after a ++ numbersOf rest

/-- Wherever the scanner reads, it accounts for the numbers of the text behind it. -/
def Accounts (before : List Int) (s : Scanner α) (after : α → List Int) : Prop :=
  ∀ text, AccountsAt text before s after

theorem accounts_pure {a : α} {after : α → List Int} (h : before = after a) :
    Accounts before (pure a) after := by
  intro text b rest hs
  obtain ⟨rfl, rfl⟩ := Prod.mk.inj (Option.some.inj hs)
  rw [h]

theorem AccountsAt.bind {text : List Char} {s : Scanner α} {next : α → Scanner β}
    {middle : α → List Int} {after : β → List Int} (hs : AccountsAt text before s middle)
    (hnext : ∀ a, Accounts (middle a) (next a) after) :
    AccountsAt text before (s >>= next) after := by
  intro b rest h
  obtain ⟨⟨a, text'⟩, ha, hb⟩ := Option.bind_eq_some_iff.mp h
  exact (hs a text' ha).trans (hnext a text' b rest hb)

theorem Accounts.bind {s : Scanner α} {next : α → Scanner β} {middle : α → List Int}
    {after : β → List Int} (hs : Accounts before s middle)
    (hnext : ∀ a, Accounts (middle a) (next a) after) : Accounts before (s >>= next) after :=
  fun text => (hs text).bind hnext

theorem Accounts.orElse {s t : Scanner α} {after : α → List Int} (hs : Accounts before s after)
    (ht : Accounts before t after) : Accounts before (s <|> t) after := by
  intro text a rest h
  cases hread : s text with
  | none => exact ht text a rest ((orElse_none hread).symm.trans h)
  | some result => exact hs text a rest (hread.trans ((orElse_some hread).symm.trans h))

/-- What is read if it is there adds its numbers if it is there. -/
theorem Accounts.optional {s : Scanner α} {after : α → List Int} (hs : Accounts before s after) :
    Accounts before (optional s) (fun o => o.elim before after) := by
  refine Accounts.orElse ?_ (accounts_pure rfl)
  show Accounts before (s >>= fun a => pure (some a)) _
  exact hs.bind fun a => accounts_pure rfl

/-! ### Tokens -/

theorem keyword_accounts {word : String} (hword : Digitless word.toList) :
    Accounts before (keyword word) (fun _ => before) := by
  intro text a rest h
  rw [keyword_apply, Option.map_eq_some_iff] at h
  obtain ⟨rest', hafter, hrest⟩ := h
  obtain ⟨-, rfl⟩ := Prod.mk.inj hrest
  rw [← numbersOf_skipSeparators text, numbersOf_of_afterWord hword hafter]

theorem optional_keyword_accounts {word : String} (hword : Digitless word.toList) :
    Accounts before (optional (keyword word)) (fun _ => before) := by
  intro text a rest h
  rw [(keyword_accounts hword).optional text a rest h]
  cases a <;> rfl

theorem sign_accounts {c : Char} (hc : c.isDigit = false) :
    Accounts before (sign c) (fun _ => before) := by
  intro text a rest h
  rw [sign_apply] at h
  split at h
  · cases h
  · rename_i d rest' hskip
    split at h
    · rename_i hd
      obtain ⟨-, rfl⟩ := Prod.mk.inj (Option.some.inj h)
      rw [← numbersOf_skipSeparators text, hskip, numbersOf_cons (hd ▸ hc)]
    · cases h

theorem integer_accounts : Accounts before integer (fun n => before ++ [n.toInt]) := by
  intro text n rest h
  obtain ⟨digits, hdigits, htext, hrest⟩ := exists_numeral_of_integer h
  rw [← numbersOf_skipSeparators text, htext, numbersOf_numeral hdigits hrest, List.append_assoc,
    List.singleton_append]

/-! ### Names -/

/-- A token is looked for after the separators. -/
theorem accounts_token {next : List Char → Scanner α} {after : α → List Int}
    (h : ∀ text, AccountsAt text before (next text) after) :
    Accounts before (do separators; let text ← get; next text) after := by
  intro text a rest hs
  rw [← numbersOf_skipSeparators text]
  exact h (skipSeparators text) a rest hs

/-- A name without digits adds no number. -/
theorem nameOfLength_accountsAt {names : List (List Char)} {text : List Char} {n : Nat}
    (hnames : ∀ name ∈ names, Digitless name) (hlength : longestName names text = some n) :
    AccountsAt text before (nameOfLength n) (fun _ => before) := by
  intro name rest h
  obtain ⟨rfl, rfl⟩ := Prod.mk.inj (Option.some.inj h)
  obtain ⟨⟨known, hmem, hmatch, rfl⟩, -⟩ := longestName_eq_some_iff.mp hlength
  obtain ⟨rest, hafter⟩ := Option.isSome_iff_exists.mp hmatch
  obtain ⟨head, rfl, hsame, -⟩ := afterWord_eq_some_iff.mp hafter
  rw [numbersOf_of_afterWord (hnames known hmem) hafter, ← Text.length_eq_of_sameLetters hsame,
    List.drop_left]

theorem nameAmong_accounts {names : List (List Char)} (hnames : ∀ name ∈ names, Digitless name) :
    Accounts before (nameAmong names) (fun _ => before) := by
  intro text name rest h
  rw [nameAmong_apply] at h
  obtain ⟨n, hn, hname⟩ := Option.bind_eq_some_iff.mp h
  rw [← numbersOf_skipSeparators text]
  exact nameOfLength_accountsAt hnames hn name rest hname

end Scanner

/-! ## Parsers -/

namespace Parser

/-- Wherever the parser reads, it accounts for the numbers of the text behind it. -/
def Accounts (before : List Int) (p : Parser α) (after : α → List Int) : Prop :=
  ∀ text terms a rest terms', p text terms = .parsed a rest terms' →
    before ++ numbersOf text = after a ++ numbersOf rest

theorem accounts_pure {a : α} {after : α → List Int} (h : before = after a) :
    Accounts before (pure a) after := by
  intro text terms b rest terms' hp
  rw [pure_apply, Reading.parsed.injEq] at hp
  obtain ⟨rfl, rfl, -⟩ := hp
  rw [h]

theorem accounts_tooLarge {after : α → List Int} : Accounts before tooLarge after := by
  intro text terms a rest terms' h
  cases h

theorem Accounts.bind {p : Parser α} {next : α → Parser β} {middle : α → List Int}
    {after : β → List Int} (hp : Accounts before p middle)
    (hnext : ∀ a, Accounts (middle a) (next a) after) : Accounts before (p >>= next) after := by
  intro text terms b rest terms' h
  rw [bind_apply] at h
  split at h
  · rename_i a text' terms'' ha
    exact (hp text terms a text' terms'' ha).trans (hnext a text' terms'' b rest terms' h)
  · cases h
  · cases h

theorem Accounts.orElse {p q : Parser α} {after : α → List Int} (hp : Accounts before p after)
    (hq : Accounts before q after) : Accounts before (p <|> q) after := by
  intro text terms a rest terms' h
  rw [orElse_apply] at h
  split at h
  · rename_i hparsed
    exact hp text terms a rest terms' (hparsed.trans h)
  · rename_i terms'' _
    exact hq text terms'' a rest terms' h
  · cases h

theorem accounts_ofScanner {s : Scanner α} {after : α → List Int}
    (hs : Scanner.Accounts before s after) : Accounts before (ofScanner s) after := by
  intro text terms a rest terms' h
  rw [ofScanner] at h
  split at h
  · rename_i hscan
    rw [Reading.parsed.injEq] at h
    obtain ⟨rfl, rfl, -⟩ := h
    exact hs text _ _ hscan
  · cases h

theorem term_accounts : Accounts before term (fun _ => before) := by
  intro text terms a rest terms' h
  rw [term] at h
  split at h
  · rw [Reading.parsed.injEq] at h
    obtain ⟨-, rfl, -⟩ := h
    rfl
  · cases h

theorem Accounts.optional {p : Parser α} {after : α → List Int} (hp : Accounts before p after) :
    Accounts before p.optional (fun o => o.elim before after) := by
  refine Accounts.orElse ?_ (accounts_pure rfl)
  exact hp.bind fun a => accounts_pure rfl

/-- Where every step accounts for its numbers, so does the repetition. -/
theorem repeatStep_accounts {step : α → Parser (Option α)} {after : α → List Int}
    (hstep : ∀ a, Accounts (after a) (step a) fun next => next.elim (after a) after) (bound : Nat)
    (a : α) : Accounts (after a) (repeatStep step bound a) after := by
  induction bound generalizing a with
  | zero =>
    refine (hstep a).bind fun next => ?_
    cases next with
    | none => exact accounts_pure rfl
    | some _ => exact accounts_tooLarge
  | succ bound ih =>
    -- What a step found has accounted for the numbers behind it when the next step starts.
    refine (hstep a).bind fun next => ?_
    cases next with
    | none => exact accounts_pure rfl
    | some b => exact ih b

end Parser

/-! ## Phrases -/

/-- No name of the lexicon holds a digit. -/
def Lexicon.Digitless (lexicon : Lexicon) : Prop :=
  ∀ name ∈ lexicon.namedDice ++ lexicon.weapons ++ lexicon.spells, Text.Digitless name

/-- The numbers that are met once an expression is read. -/
abbrev numbersWith (before : List Int) (e : Expr) : List Int :=
  before ++ e.numbers

section Damage

open Scanner

theorem ordinal_accounts : Accounts before ordinal (fun _ => before) :=
  (keyword_accounts (by decide)).orElse <| (keyword_accounts (by decide)).orElse <|
    (keyword_accounts (by decide)).orElse (keyword_accounts (by decide))

theorem ordinalLevel_accounts : Accounts before ordinalLevel (fun n => before ++ [n.toInt]) :=
  integer_accounts.bind fun _ => ordinal_accounts.bind fun _ =>
    (keyword_accounts (by decide)).bind fun _ => accounts_pure rfl

theorem numberedLevel_accounts : Accounts before numberedLevel (fun n => before ++ [n.toInt]) :=
  (keyword_accounts (by decide)).bind fun _ => integer_accounts

theorem levelAfter_accounts : Accounts before levelAfter (fun n => before ++ [n.toInt]) :=
  ((keyword_accounts (by decide)).bind fun _ => numberedLevel_accounts).orElse
    ((optional_keyword_accounts (by decide)).bind fun _ => ordinalLevel_accounts)

variable {lexicon : Lexicon} (hlexicon : lexicon.Digitless)

include hlexicon

theorem digitless_namedDice : ∀ name ∈ lexicon.namedDice, Text.Digitless name :=
  fun name hname => hlexicon name (List.mem_append_left _ (List.mem_append_left _ hname))

theorem digitless_weapons : ∀ name ∈ lexicon.weapons, Text.Digitless name :=
  fun name hname => hlexicon name (List.mem_append_left _ (List.mem_append_right _ hname))

theorem digitless_spells : ∀ name ∈ lexicon.spells, Text.Digitless name :=
  fun name hname => hlexicon name (List.mem_append_right _ hname)

theorem levelledSpell_accounts :
    Accounts before (levelledSpell lexicon) (numbersWith before) :=
  (numberedLevel_accounts.orElse ordinalLevel_accounts).bind fun _ =>
    (nameAmong_accounts (digitless_spells hlexicon)).bind fun _ => accounts_pure rfl

theorem weaponOfLength_accountsAt {text : List Char} {n : Nat}
    (hn : longestName lexicon.weapons text = some n) :
    AccountsAt text before (weaponOfLength n) (numbersWith before) :=
  (nameOfLength_accountsAt (digitless_weapons hlexicon) hn).bind fun _ =>
    accounts_pure (List.append_nil _).symm

theorem spellOfLength_accountsAt {text : List Char} {n : Nat}
    (hn : longestName lexicon.spells text = some n) :
    AccountsAt text before (spellOfLength n) (numbersWith before) := by
  refine (nameOfLength_accountsAt (digitless_spells hlexicon) hn).bind fun name => ?_
  refine levelAfter_accounts.optional.bind fun level => ?_
  cases level with
  | none => exact accounts_pure (List.append_nil _).symm
  | some level => exact accounts_pure rfl

theorem namedDamage_accounts : Accounts before (namedDamage lexicon) (numbersWith before) := by
  refine accounts_token fun text =>
    damageOfLengths_cases (p := fun s => AccountsAt text before s (numbersWith before)) ?_
      (fun w hw => weaponOfLength_accountsAt hlexicon hw)
      fun s hs => spellOfLength_accountsAt hlexicon hs
  intro e rest h
  cases h

theorem damage_accounts : Accounts before (damage lexicon) (numbersWith before) :=
  (levelledSpell_accounts hlexicon).orElse (namedDamage_accounts hlexicon)

theorem criticalHit_accounts : Accounts before (criticalHit lexicon) (numbersWith before) :=
  (keyword_accounts (by decide)).bind fun _ => (optional_keyword_accounts (by decide)).bind fun _ =>
    (optional_keyword_accounts (by decide)).bind fun _ =>
      (optional_keyword_accounts (by decide)).bind fun _ =>
        (optional_keyword_accounts (by decide)).bind fun _ =>
          (damage_accounts hlexicon).bind fun _ => accounts_pure (by simp)

theorem damageGroup_accounts : Accounts before (damageGroup lexicon) (numbersWith before) :=
  (damage_accounts hlexicon).bind fun _ => accounts_pure (by simp)

theorem namedDie_accounts : Accounts before (namedDie lexicon) (numbersWith before) :=
  (nameAmong_accounts (digitless_namedDice hlexicon)).bind fun _ =>
    accounts_pure (List.append_nil _).symm

omit hlexicon

theorem number_accounts : Accounts before number (numbersWith before) :=
  integer_accounts.bind fun _ => accounts_pure rfl

theorem dieLetter_accounts : Accounts before dieLetter (fun _ => before) :=
  (sign_accounts (by decide)).orElse (sign_accounts (by decide))

theorem sidedDie_accounts : Accounts before sidedDie (fun _ => before) :=
  (keyword_accounts (by decide)).bind fun _ =>
    (keyword_accounts (by decide)).orElse (keyword_accounts (by decide))

theorem dicePhrase_accounts (e : Expr) :
    Accounts (numbersWith before e) (dicePhrase e) (numbersWith before) := by
  refine Accounts.orElse ?_ ?_
  · exact (keyword_accounts (by decide)).bind fun _ => (keyword_accounts (by decide)).bind fun _ =>
      accounts_pure (by simp)
  · exact (keyword_accounts (by decide)).bind fun _ => (keyword_accounts (by decide)).bind fun _ =>
      accounts_pure (by simp)

theorem productSign_accounts : Accounts before productSign (fun _ => before) := by
  have hmul : Accounts before (pure BinaryOp.mul) (fun _ => before) := accounts_pure rfl
  have hmultiplied : Accounts before (keyword "multiplied") (fun _ => before) :=
    keyword_accounts (by decide)
  refine Accounts.orElse ?_ (.orElse ?_ (.orElse ?_ ?_))
  · exact (sign_accounts (by decide)).bind fun _ => hmul
  · exact (keyword_accounts (by decide)).bind fun _ => hmul
  · exact hmultiplied.bind fun _ => (keyword_accounts (by decide)).bind fun _ => hmul
  · exact hmultiplied.bind fun _ => (keyword_accounts (by decide)).bind fun _ => hmul

theorem additiveSign_accounts : Accounts before additiveSign (fun _ => before) := by
  refine Accounts.orElse ?_ (.orElse ?_ (.orElse ?_ ?_))
  · exact (sign_accounts (by decide)).bind fun _ => accounts_pure rfl
  · exact (keyword_accounts (by decide)).bind fun _ => accounts_pure rfl
  · exact (sign_accounts (by decide)).bind fun _ => accounts_pure rfl
  · exact (keyword_accounts (by decide)).bind fun _ => accounts_pure rfl

end Damage

section Phrases

open SpokenDice.Request.Parser

/-- Whatever is read one level deeper accounts for its numbers. -/
structure Nested.Accounting (nested : Nested) : Prop where
  sum : ∀ before, Accounts before nested.sum (numbersWith before)
  sides : ∀ before, Accounts before nested.sides (numbersWith before)

variable {lexicon : Lexicon} {nested : Nested} (hlexicon : lexicon.Digitless)
variable (hnested : nested.Accounting)

include hlexicon hnested

theorem primary_accounts : Accounts before (primary lexicon nested) (numbersWith before) := by
  have hparentheses : Accounts before (parenthesized nested) (numbersWith before) :=
    (accounts_ofScanner (Scanner.sign_accounts (by decide))).bind fun _ =>
      (hnested.sum before).bind fun _ =>
        (accounts_ofScanner (Scanner.sign_accounts (by decide))).bind fun _ =>
          accounts_pure (by simp)
  exact hparentheses.orElse <| (accounts_ofScanner (criticalHit_accounts hlexicon)).orElse <|
    (accounts_ofScanner (damageGroup_accounts hlexicon)).orElse (accounts_ofScanner number_accounts)

theorem sides_accounts : Accounts before (sides lexicon nested) (numbersWith before) := by
  refine Accounts.orElse ?_ ((primary_accounts hlexicon hnested).orElse ?_)
  · exact (accounts_ofScanner (namedDie_accounts hlexicon)).bind fun _ => accounts_pure (by simp)
  · exact (accounts_ofScanner dieLetter_accounts).bind fun _ =>
      (hnested.sides before).bind fun _ => accounts_pure (by simp)

theorem die_accounts : Accounts before (die lexicon nested) (numbersWith before) := by
  refine (accounts_ofScanner (namedDie_accounts hlexicon)).orElse (.orElse ?_ ?_)
  · exact (primary_accounts hlexicon hnested).bind fun _ =>
      (accounts_ofScanner sidedDie_accounts).bind fun _ => accounts_pure rfl
  · exact (accounts_ofScanner dieLetter_accounts).bind fun _ => hnested.sides before

theorem head_accounts : Accounts before (head lexicon nested) (numbersWith before) := by
  refine Accounts.orElse ?_ (.orElse ?_ ?_)
  · exact (accounts_ofScanner (namedDie_accounts hlexicon)).bind fun _ => accounts_pure (by simp)
  · refine (primary_accounts hlexicon hnested).bind fun e => ?_
    refine (accounts_ofScanner sidedDie_accounts).optional.bind fun sided => ?_
    cases sided with
    | none => exact accounts_pure rfl
    | some _ => exact accounts_pure (by simp)
  · exact (accounts_ofScanner dieLetter_accounts).bind fun _ =>
      (hnested.sides before).bind fun _ => accounts_pure (by simp)

theorem continuation_accounts (e : Expr) :
    Accounts (numbersWith before e) (continuation lexicon nested e)
      (fun next => next.elim (numbersWith before e) (numbersWith before)) := by
  refine Accounts.orElse ?_ ?_
  · exact (die_accounts hlexicon hnested).bind fun _ => term_accounts.bind fun _ =>
      accounts_pure (by simp)
  · by_cases hdice : e.isDice = true
    · rw [if_pos hdice]
      exact (accounts_ofScanner (dicePhrase_accounts e)).optional
    · rw [if_neg hdice]
      exact accounts_pure rfl

theorem value_accounts : Accounts before (value lexicon nested) (numbersWith before) :=
  term_accounts.bind fun _ => (head_accounts hlexicon hnested).bind fun e =>
    repeatStep_accounts (continuation_accounts hlexicon hnested) maxChain e

omit hlexicon hnested in
theorem chain_accounts {operand : Parser Expr} {operator : Scanner BinaryOp}
    (hoperand : ∀ before, Accounts before operand (numbersWith before))
    (hoperator : ∀ before, Scanner.Accounts before operator (fun _ => before)) :
    Accounts before (chain operand operator) (numbersWith before) := by
  refine (hoperand before).bind fun first => repeatStep_accounts (fun left => ?_) maxChain first
  refine (accounts_ofScanner (hoperator _)).optional.bind fun sign => ?_
  cases sign with
  | none => exact accounts_pure rfl
  | some op => exact (hoperand _).bind fun right => accounts_pure (by simp)

theorem sum_accounts : Accounts before (sum lexicon nested) (numbersWith before) :=
  chain_accounts (fun _ => chain_accounts (fun _ => value_accounts hlexicon hnested)
    fun _ => productSign_accounts) fun _ => additiveSign_accounts

omit hnested in
theorem nestedWithin_accounting (levels : Nat) : (nestedWithin lexicon levels).Accounting := by
  induction levels with
  | zero => exact ⟨fun _ => accounts_tooLarge, fun _ => accounts_tooLarge⟩
  | succ levels ih =>
    exact ⟨fun _ => sum_accounts hlexicon ih, fun _ => sides_accounts hlexicon ih⟩

end Phrases

/-! ## Whole requests -/

theorem Lexicon.digitless_ofRuleset {rules : Ruleset} (h : rules.Digitless) :
    (Lexicon.ofRuleset rules).Digitless :=
  forall_ofRuleset h

theorem numbers_of_readOr {rules : Ruleset} (hrules : rules.Digitless) {otherwise : RollError}
    {text : String} {e : Expr} (h : readOr otherwise (.ofRuleset rules) text = .ok e) :
    e.numbers = numbersOf text.toList := by
  have hlexicon := Lexicon.digitless_ofRuleset hrules
  rw [readOr] at h
  split at h
  · rename_i e' rest terms hreading
    split at h
    · rename_i hrest
      obtain rfl := Except.ok.inj h
      have haccount : [] ++ numbersOf text.toList = ([] ++ e'.numbers) ++ numbersOf rest :=
        sum_accounts hlexicon (nestedWithin_accounting hlexicon maxNesting) _ _ _ _ _ hreading
      -- Nothing but separators is left, and so no number.
      rw [← numbersOf_skipSeparators rest, hrest] at haccount
      simpa using haccount.symm
    · cases h
  · cases h
  · cases h

/-- Where no name holds a digit, a request has the numbers of its text, in their order, and a text
with a number that is too large for 64 bits is no request. -/
theorem numbers_of_read {rules : Ruleset} (hrules : rules.Digitless) (text : String) :
    (∀ e, read (.ofRuleset rules) text = .ok e → e.numbers = numbersOf text.toList) ∧
      ((∃ n ∈ numbersOf text.toList, 2 ^ 63 - 1 < n) →
        ∃ cause, read (.ofRuleset rules) text = .error cause) := by
  refine ⟨fun e he => numbers_of_readOr hrules he, ?_⟩
  rintro ⟨n, hn, hlarge⟩
  cases hread : read (.ofRuleset rules) text with
  | error cause => exact ⟨cause, rfl⟩
  | ok e =>
    -- The number would be one of the tree, whose numbers have 64 bits.
    rw [← numbers_of_readOr hrules hread] at hn
    obtain ⟨node, -, hnode⟩ := List.mem_filterMap.mp hn
    split at hnode
    · rename_i m
      have hrange := inRange_toInt m
      rw [Option.some.inj hnode] at hrange
      exact absurd hrange.2 (by omega)
    · cases hnode

/-- A ruleset of a die and a spell. -/
def hailRules : Ruleset :=
  ⟨[⟨"Coin", 2⟩], [], [⟨"Hail", 2, "2d6", "1d6"⟩]⟩

/-- The level of a spell comes first where it is said first, and the count of dice before their
sides; and the least number that is too large makes a die no request. -/
theorem numbers_of_read_hail :
    (Expr.binary .sub (.group (.spellAt "hail" (.integer 5)))
      (.roll (.integer 2) (.group (.binary .mul (.roll (.integer 3) (.namedDie "coin"))
        (.integer 7))))).numbers = numbersOf "5th level hail - 2d(3 coin * 007)".toList ∧
      ∃ cause, read (.ofRuleset hailRules) "d9223372036854775808" = .error cause := by
  have hrules : hailRules.Digitless := by decide
  have hread : read (.ofRuleset hailRules) "5th level hail - 2d(3 coin * 007)" =
      .ok (.binary .sub (.group (.spellAt "hail" (.integer 5)))
        (.roll (.integer 2) (.group (.binary .mul (.roll (.integer 3) (.namedDie "coin"))
          (.integer 7))))) := eq_ok_of_toOption_eq_some (by decide +kernel)
  exact ⟨(numbers_of_read hrules _).1 _ hread, (numbers_of_read hrules _).2 (by decide +kernel)⟩

end Request

end SpokenDice
