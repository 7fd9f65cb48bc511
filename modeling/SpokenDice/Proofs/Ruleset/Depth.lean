import Mathlib.Data.Nat.Find
import SpokenDice.Proofs.Ruleset.Limits
import SpokenDice.Proofs.Ruleset.References

/-!
# How deep references go

A ruleset whose records refer to one another resolves an expression when references may go as deep
as the longest chain of references that starts there, and then the limit has no part in what comes
out. Under a lower limit the expression fails for its depth and for nothing else.

- `Decides`: a computation that succeeds only where something holds, and fails for the depth of
  references only where it does not. `Decides.bind` is a conjunction.
- `resolveReferences_decides`: resolving decides whether all chains stay within the limit.
- `expanderAt`: the same resolution with a counter that starts at zero and counts up, and
  `expanderAt_eq`: it never reaches the end of its 32 bits.
- `resolveReferences_threshold`: the exact limit from which on an expression is resolved.
-/

namespace SpokenDice

/-- The failure is that references go too deep. -/
def RollError.OfDepth (cause : RollError) : Prop :=
  ∃ name, cause = .tooDeep name

namespace Ruleset

open RollError (OfDepth)

/-! ## Deciding by success and failure -/

variable {α β : Type} {W W' : Prop}

/-- The computation succeeds only where `W` holds, and fails for the depth of references only where
it does not. -/
def Decides (W : Prop) (x : Except RollError α) : Prop :=
  Ends (fun _ => W) (fun cause => OfDepth cause → ¬ W) x

theorem Decides.congr {x : Except RollError α} (h : Decides W x) (hW : W ↔ W') : Decides W' x :=
  propext hW ▸ h

theorem decides_throw {cause : RollError} (h : ¬ OfDepth cause) :
    Decides W (throw cause : Except RollError α) :=
  fun hdeep => absurd hdeep h

theorem Decides.bind {x : Except RollError α} {f : α → Except RollError β} (hx : Decides W x)
    (hf : ∀ a, Decides W' (f a)) : Decides (W ∧ W') (x >>= f) := by
  cases x with
  | error cause => exact fun hdeep hboth => hx hdeep hboth.1
  | ok a =>
    have hrest := hf a
    show Ends _ _ (f a)
    cases hresult : f a with
    | ok b =>
      rw [hresult] at hrest
      exact ⟨hx, hrest⟩
    | error cause =>
      rw [hresult] at hrest
      exact fun hdeep hboth => hrest hdeep hboth.2

/-- What fails for other causes only leaves the decision to the rest. -/
theorem Decides.of_bind {x : Except RollError α} {f : α → Except RollError β}
    (hx : Ends (fun _ => True) (fun cause => ¬ OfDepth cause) x)
    (hf : ∀ a, x = .ok a → Decides W (f a)) : Decides W (x >>= f) := by
  cases x with
  | error cause => exact decides_throw hx
  | ok a => exact hf a rfl

/-- A traversal decides for all nodes what the change decides for each. Only the references matter,
which a node keeps when its children change. -/
theorem mapNodesM_decides {p : Option Reference → Prop} {f : Expr → Except RollError Expr}
    (h : ∀ node, Decides (p node.reference?) (f node)) (e : Expr) :
    Decides (e.Everywhere fun node => p node.reference?) (e.mapNodesM f) := by
  induction e with
  | integer n => exact h _
  | namedDie name => exact h _
  | literal n => exact h _
  | binary op left right ihl ihr => exact ihl.bind fun _ => ihr.bind fun _ => h _
  | rollOne sides ih => exact ih.bind fun _ => h _
  | roll count sides ihc ihs => exact ihc.bind fun _ => ihs.bind fun _ => h _
  | critical inner ih => exact ih.bind fun _ => h _
  | advantage inner ih => exact ih.bind fun _ => h _
  | disadvantage inner ih => exact ih.bind fun _ => h _
  | weapon name => exact h _
  | spell name => exact h _
  | spellAt name level ih => exact ih.bind fun _ => h _
  | group inner ih => exact ih.bind fun _ => h _

/-! ## Chains within a limit -/

section Within

variable (rules : Ruleset)

/-- No chain that begins here has more than `n` references. -/
def ChainsWithin (n : Nat) (ref : Reference) : Prop :=
  ∀ m, rules.Chain ref m → m ≤ n

/-- No chain that starts in the expression has more than `n` references. -/
def Within (n : Nat) (e : Expr) : Prop :=
  ∀ ref ∈ e.references, rules.ChainsWithin n ref

/-- No chain that starts in the text has more than `n` references, if it can be read. -/
def TextWithin (n : Nat) (text : String) : Prop :=
  ∀ inner, rules.readDamage text = .ok inner → rules.Within n inner

end Within

variable {rules : Ruleset}

theorem within_iff_everywhere {n : Nat} {e : Expr} :
    e.Everywhere (fun node => ∀ ref, node.reference? = some ref → rules.ChainsWithin n ref) ↔
      rules.Within n e := by
  rw [Expr.everywhere_iff]
  constructor
  · intro h ref hmem
    obtain ⟨node, hnode, href⟩ := List.mem_filterMap.mp hmem
    exact h node hnode ref href
  · intro h node hnode ref href
    exact h ref (List.mem_filterMap.mpr ⟨node, hnode, href⟩)

/-- A reference with a record is a chain, so none is within nothing. -/
theorem not_chainsWithin_zero {ref : Reference} (h : (rules.damageTexts? ref).isSome) :
    ¬ rules.ChainsWithin 0 ref := by
  intro hwithin
  exact absurd (hwithin 1 (.last h)) (by decide)

/-- Chains are within one reference more than those in the damage texts. -/
theorem chainsWithin_succ_iff {n : Nat} {ref : Reference} {texts : List String}
    (htexts : rules.damageTexts? ref = some texts) :
    rules.ChainsWithin (n + 1) ref ↔ ∀ text ∈ texts, rules.TextWithin n text := by
  constructor
  · intro h text htext inner hread next hnext m hchain
    have hrefers : rules.RefersTo ref next := ⟨texts, text, inner, htexts, htext, hread, hnext⟩
    exact Nat.le_of_succ_le_succ (h (m + 1) (.cons hrefers hchain))
  · intro h m hchain
    cases hchain with
    | last => exact Nat.le_add_left 1 n
    | cons hrefers hnext =>
      obtain ⟨texts', text, inner, htexts', htext, hread, hmem⟩ := hrefers
      obtain rfl : texts = texts' := Option.some.inj (htexts.symm.trans htexts')
      exact Nat.succ_le_succ (h text htext inner hread _ hmem _ hnext)

/-! ## References -/

/-- The expander goes `n` references deep, and decides whether a text stays within that. -/
def Measures (rules : Ruleset) (expand? : Option Expander) (n : Nat) : Prop :=
  match expand? with
  | none => n = 0
  | some expand => ∃ m, n = m + 1 ∧ ∀ text, Decides (rules.TextWithin m text) (expand text)

section References

variable {expand? : Option Expander} {n : Nat} (hmeasures : Measures rules expand? n)

include hmeasures

theorem enter_decides {ref : Reference} {texts : List String}
    (htexts : rules.damageTexts? ref = some texts) (name : String)
    {next : Expander → Except RollError α}
    (hnext : ∀ m expand, (∀ text, Decides (rules.TextWithin m text) (expand text)) →
      Decides (∀ text ∈ texts, rules.TextWithin m text) (next expand)) :
    Decides (rules.ChainsWithin n ref) (enter expand? name >>= next) := by
  cases expand? with
  | none =>
    obtain rfl : n = 0 := hmeasures
    exact fun _ => not_chainsWithin_zero (Option.isSome_of_eq_some htexts)
  | some expand =>
    obtain ⟨m, rfl, hexpand⟩ := hmeasures
    exact (hnext m expand hexpand).congr (chainsWithin_succ_iff htexts).symm

theorem weaponDamage_decides (name : String) :
    Decides (rules.ChainsWithin n (.weapon name)) (rules.weaponDamage expand? name) := by
  unfold weaponDamage
  split
  · exact decides_throw (by simp [OfDepth])
  · rename_i weapon hweapon
    have htexts : rules.damageTexts? (.weapon name) = some [weapon.damage] := by
      simp [damageTexts?, hweapon]
    refine enter_decides hmeasures htexts _ fun m expand hexpand => ?_
    exact (hexpand weapon.damage).congr List.forall_mem_singleton.symm

omit hmeasures in
/-- What is decided with the first dice of a description is decided, as there is nothing to decide
where it says none. -/
theorem diceOf_decides {otherwise : RollError} (hother : ¬ OfDepth otherwise) (text : String)
    {next : String → Except RollError α}
    (hnext : ∀ dice, firstDice text = [dice] → Decides W (next dice)) :
    Decides W (diceOf otherwise text >>= next) := by
  unfold diceOf
  unfold firstDice at hnext
  cases hdice : findDice? text.toList with
  | none => exact decides_throw hother
  | some dice => exact hnext _ (by simp [hdice])

omit hmeasures in
theorem checkCastable_decides (limit : Int64) (spell : Spell) (level : Int64)
    {next : Unit → Except RollError α} (hnext : Decides W (next ())) :
    Decides W (checkCastable limit spell level >>= next) := by
  rw [checkCastable_eq]
  split
  · exact decides_throw (by simp [OfDepth])
  · split
    · exact decides_throw (by simp [OfDepth])
    · exact hnext

theorem spellDamage_decides (limit : Int64) (name : String) :
    Decides (rules.ChainsWithin n (.spell name)) (rules.spellDamage limit expand? name) := by
  unfold spellDamage
  split
  · exact decides_throw (by simp [OfDepth])
  · rename_i spell hspell
    have htexts : rules.damageTexts? (.spell name) = some (firstDice spell.description) := by
      simp [damageTexts?, hspell]
    refine enter_decides hmeasures htexts _ fun m expand hexpand => ?_
    refine diceOf_decides (by simp [OfDepth]) _ fun dice hdice => ?_
    refine checkCastable_decides limit spell _ ?_
    rw [hdice]
    exact (hexpand dice).congr List.forall_mem_singleton.symm

theorem spellDamageAt_decides (limit : Int64) (name : String) (level : Expr) :
    Decides (rules.ChainsWithin n (.spellAt name))
      (rules.spellDamageAt limit expand? name level) := by
  unfold spellDamageAt
  split
  · exact decides_throw (by simp [OfDepth])
  · rename_i spell hspell
    have htexts : rules.damageTexts? (.spellAt name) =
        some (firstDice spell.description ++ firstDice spell.higherLevels) := by
      simp [damageTexts?, hspell]
    refine enter_decides hmeasures htexts _ fun m expand hexpand => ?_
    have hlevel : Ends (fun _ => True) (fun cause => ¬ OfDepth cause) (statedLevel level) := by
      cases level <;> simp [statedLevel, OfDepth]
    refine Decides.of_bind hlevel fun level _ => ?_
    refine diceOf_decides (by simp [OfDepth]) _ fun dice hdice => ?_
    refine checkCastable_decides limit spell level ?_
    rw [hdice]
    -- Both texts are read, the base damage first.
    have hextra : ∀ base, Decides (∀ text ∈ firstDice spell.higherLevels, rules.TextWithin m text)
        (do
          let extraDice ← diceOf (.noScalingDice spell.name) spell.higherLevels
          let extra ← expand extraDice
          pure (scaled spell.level level base extra)) := by
      intro base
      refine diceOf_decides (by simp [OfDepth]) _ fun extraDice hextraDice => ?_
      rw [hextraDice]
      have hpure : ∀ extra, Decides True (pure (scaled spell.level level base extra)) :=
        fun _ => trivial
      exact ((hexpand extraDice).bind hpure).congr (by simp)
    exact ((hexpand dice).bind hextra).congr (by simp)

theorem resolveReference_decides (limit : Int64) (node : Expr) :
    Decides (∀ ref, node.reference? = some ref → rules.ChainsWithin n ref)
      (rules.resolveReference limit expand? node) := by
  cases node with
  | weapon name => exact (weaponDamage_decides hmeasures name).congr (by simp [Expr.reference?])
  | spell name => exact (spellDamage_decides hmeasures limit name).congr (by simp [Expr.reference?])
  | spellAt name level =>
    exact (spellDamageAt_decides hmeasures limit name level).congr (by simp [Expr.reference?])
  | _ =>
    intro ref href
    cases href

theorem mapNodesM_resolveReference_decides (limit : Int64) (e : Expr) :
    Decides (rules.Within n e) (e.mapNodesM (rules.resolveReference limit expand?)) := by
  have h := mapNodesM_decides (p := fun ref? => ∀ ref, ref? = some ref → rules.ChainsWithin n ref)
    (resolveReference_decides hmeasures limit) e
  exact h.congr within_iff_everywhere

end References

/-! ## Expressions -/

/-- A text that cannot be read does not fail for its depth. -/
theorem readDamage_ends (text : String) :
    Ends (fun _ => True) (fun cause => ¬ OfDepth cause) (rules.readDamage text) := by
  unfold readDamage Request.readDice Request.readOr
  split
  · split
    · trivial
    · simp [Ends, OfDepth]
  · simp [Ends, OfDepth]
  · simp [Ends, OfDepth]

theorem resolveNumbers_ends_shallow (e : Expr) :
    Ends (fun _ => True) (fun cause => ¬ OfDepth cause) (rules.resolveNumbers e) := by
  refine Expr.mapNodesM_ends (P := fun _ => True) (R := fun _ _ => True) (fun _ node _ _ => ?_)
    (Expr.everywhere_iff.mpr fun _ _ => trivial)
  unfold resolveNumber
  split
  · trivial
  · split
    · trivial
    · simp [OfDepth]
  · trivial

/-- An expander goes as deep as it may. -/
theorem expander_measures (rules : Ruleset) (limit : Int64) (levels : Nat) :
    Measures rules (rules.expander limit levels) levels := by
  induction levels with
  | zero => exact rfl
  | succ levels ih =>
    refine ⟨levels, rfl, fun text => ?_⟩
    refine Decides.of_bind (readDamage_ends text) fun e he => ?_
    refine Decides.of_bind (resolveNumbers_ends_shallow e) fun r hr => ?_
    refine (mapNodesM_resolveReference_decides ih limit r).congr ?_
    -- The text has been read, and its references are still there once its numbers are resolved.
    rw [Within, references_of_resolveNumbers_eq_ok hr]
    constructor
    · intro h inner hinner
      obtain rfl : e = inner := Except.ok.inj (he.symm.trans hinner)
      exact h
    · intro h
      exact h e he

/-- Resolving decides whether all chains stay within the limit. -/
theorem resolveReferences_decides (rules : Ruleset) (limit : Int64) (levels : Nat) (e : Expr) :
    Decides (rules.Within levels e) (rules.resolveReferences limit levels e) :=
  mapNodesM_resolveReference_decides (expander_measures rules limit levels) limit e

theorem within_of_resolveReferences_eq_ok {limit : Int64} {levels : Nat} {e r : Expr}
    (h : rules.resolveReferences limit levels e = .ok r) : rules.Within levels e :=
  (resolveReferences_decides rules limit levels e).of_eq_ok h

/-- Under a lower limit than one that is met, the same comes out, or it fails for the depth. -/
theorem resolveReferences_refines_deeper (limit : Int64) {levels levels' : Nat}
    (hlevels : levels ≤ levels') (e : Expr) :
    Refines OfDepth (rules.resolveReferences limit levels e)
      (rules.resolveReferences limit levels' e) :=
  resolveReferences_refines (fun name => ⟨name, rfl⟩) (fun _ _ => .refl _) hlevels e

/-- The least limit under which an expression is resolved is the length of the longest chain. -/
theorem longestChain_of_least {limit : Int64} {least : Nat} {e r : Expr}
    (hok : rules.resolveReferences limit least e = .ok r)
    (hleast : ∀ levels < least, ∃ cause,
      rules.resolveReferences limit levels e = .error cause ∧ OfDepth cause) :
    rules.LongestChain e least := by
  have hwithin := within_of_resolveReferences_eq_ok hok
  refine ⟨hwithin, ?_⟩
  cases least with
  | zero => exact .inl rfl
  | succ n =>
    -- One level less is too deep, so some chain is longer than that.
    right
    obtain ⟨cause, hfails, hdeep⟩ := hleast n (Nat.lt_succ_self n)
    have hnot : ¬ rules.Within n e :=
      (resolveReferences_decides rules limit n e).of_eq_error hfails hdeep
    simp only [Within, ChainsWithin, Classical.not_forall] at hnot
    obtain ⟨ref, hmem, m, hchain, hlonger⟩ := hnot
    have hm : m = n + 1 := Nat.le_antisymm (hwithin ref hmem m hchain) (Nat.lt_of_not_le hlonger)
    exact ⟨ref, hmem, hm ▸ hchain⟩

/-- A weapon that leads back to itself is resolved under no limit. -/
theorem resolveReferences_of_mentions_self {e : Expr} {name : String} {weapon : Weapon}
    (hname : .weapon name ∈ e.postorder) (hweapon : rules.weapon? name = some weapon)
    (hself : Relation.TransGen rules.Mentions weapon weapon) (limit : Int64) (levels : Nat) :
    ∃ cause, rules.resolveReferences limit levels e = .error cause := by
  cases hresult : rules.resolveReferences limit levels e with
  | error cause => exact ⟨cause, rfl⟩
  | ok r =>
    have hwithin := within_of_resolveReferences_eq_ok hresult
    have hchain := chain_of_mentions_self hself levels name hweapon
    have hle := hwithin _ (weapon_mem_references hname) _ hchain
    exact absurd hle (Nat.not_succ_le_self levels)

/-! ## A counter of the depth -/

/-- The depth one level further in, unless the counter has come to the end of its 32 bits. -/
def deeper? (depth : UInt32) : Option UInt32 :=
  if depth.toNat + 1 < 4294967296 then some (depth + 1) else none

/-- The expander of texts at a depth, as one counts how deep it is: references are entered as long
as the depth is below the limit, and those in their texts are one level deeper. There is no answer
when the counter overflows, or when so many steps do not suffice. -/
def expanderAt (rules : Ruleset) (limit : Int64) (deepest : UInt32) :
    Nat → UInt32 → Option (Option Expander)
  | 0, _ => none
  | steps + 1, depth =>
    if deepest ≤ depth then some none
    else do
      let next ← deeper? depth
      let inner? ← expanderAt rules limit deepest steps next
      some (some fun text => do
        let e ← rules.readDamage text
        let e ← rules.resolveNumbers e
        e.mapNodesM (rules.resolveReference limit inner?))

theorem deeper?_of_lt {depth deepest : UInt32} (h : depth < deepest) :
    deeper? depth = some (depth + 1) ∧ (depth + 1).toNat = depth.toNat + 1 := by
  have hlt := UInt32.lt_iff_toNat_lt.mp h
  have hbound := deepest.toNat_lt
  have hfits : depth.toNat + 1 < 4294967296 := by omega
  refine ⟨if_pos hfits, ?_⟩
  rw [UInt32.toNat_add, UInt32.toNat_one]
  exact Nat.mod_eq_of_lt hfits

/-- Counting up comes to the same as counting the levels that are left: steps suffice when they are
more than these levels, and the counter does not overflow. -/
theorem expanderAt_eq (rules : Ruleset) (limit : Int64) (deepest depth : UInt32) {steps : Nat}
    (hsteps : deepest.toNat - depth.toNat < steps) :
    rules.expanderAt limit deepest steps depth =
      some (rules.expander limit (deepest.toNat - depth.toNat)) := by
  induction steps generalizing depth with
  | zero => exact absurd hsteps (Nat.not_lt_zero _)
  | succ steps ih =>
    rw [expanderAt]
    by_cases hdeepest : deepest ≤ depth
    · have hle := UInt32.le_iff_toNat_le.mp hdeepest
      rw [if_pos hdeepest, Nat.sub_eq_zero_of_le hle]
      rfl
    · have hlt : depth < deepest := UInt32.not_le.mp hdeepest
      have hltNat := UInt32.lt_iff_toNat_lt.mp hlt
      obtain ⟨hdeeper, hnext⟩ := deeper?_of_lt hlt
      have hinner := ih (depth + 1) (by omega)
      have hlevels : deepest.toNat - depth.toNat = deepest.toNat - (depth + 1).toNat + 1 := by omega
      rw [if_neg hdeepest, hdeeper, hlevels]
      simp only [Option.bind_eq_bind, Option.bind_some, hinner]
      rfl

/-- Resolves references with a counter of the depth, from depth zero on, in at most so many steps
one inside the other. -/
def resolveReferencesAt (rules : Ruleset) (limit : Int64) (deepest : UInt32) (steps : Nat)
    (e : Expr) : Option (Except RollError Expr) := do
  let expand? ← rules.expanderAt limit deepest steps 0
  pure (e.mapNodesM (rules.resolveReference limit expand?))

/-! ## The threshold -/

/-- An expression that is resolved under some limit on the depth is resolved from the length of its
longest chain on, always to the same; under a lower limit it fails for its depth. -/
theorem exists_threshold {limit : Int64} {e r : Expr} {levels : Nat}
    (hok : rules.resolveReferences limit levels e = .ok r) :
    ∃ least ≤ levels, rules.LongestChain e least ∧
      (∀ levels, least ≤ levels → rules.resolveReferences limit levels e = .ok r) ∧
      ∀ levels < least, ∃ cause,
        rules.resolveReferences limit levels e = .error cause ∧ OfDepth cause := by
  -- Any higher limit keeps a success, so the least limit that succeeds is the threshold.
  classical
  have hsome : ∃ levels r, rules.resolveReferences limit levels e = .ok r := ⟨levels, r, hok⟩
  obtain ⟨r', hleast⟩ := Nat.find_spec hsome
  have hle : Nat.find hsome ≤ levels := Nat.find_min' hsome ⟨r, hok⟩
  have hsame : r' = r := by
    have hagain := (resolveReferences_refines_deeper limit hle e).eq_ok hleast
    exact Except.ok.inj (hagain.symm.trans hok)
  have hbelow : ∀ levels < Nat.find hsome, ∃ cause,
      rules.resolveReferences limit levels e = .error cause ∧ OfDepth cause := by
    intro levels hlt
    rcases resolveReferences_refines_deeper limit (Nat.le_of_lt hlt) e with hfails | heq
    · exact hfails
    · exact absurd ⟨r', heq.trans hleast⟩ (Nat.find_min hsome hlt)
  refine ⟨Nat.find hsome, hle, longestChain_of_least hleast hbelow, ?_, hbelow⟩
  intro levels hlevels
  exact (resolveReferences_refines_deeper limit hlevels e).eq_ok (hsame ▸ hleast)

/-- How the limit on the depth of references decides. Either an expression is resolved under no
limit, or its longest chain of references is the least limit under which it is: from there on the
result is the same, and below it fails, saying that a name refers to others too deeply. A weapon
that leads back to itself by way of damage texts is resolved under no limit. The depth may be
counted up from zero in 32 bits: the counter does not overflow, and at most one step more than the
limit is made one inside the other. -/
theorem resolveReferences_threshold (rules : Ruleset) (limit : Int64) (e : Expr) :
    ((∀ depth : UInt32, ∃ cause, rules.resolveReferences limit depth.toNat e = .error cause) ∨
      ∃ (threshold : UInt32) (r : Expr), rules.LongestChain e threshold.toNat ∧
        (∀ depth : UInt32, threshold ≤ depth →
          rules.resolveReferences limit depth.toNat e = .ok r) ∧
        ∀ depth : UInt32, depth < threshold → ∃ cause name,
          rules.resolveReferences limit depth.toNat e = .error cause ∧
            cause.kind = .recognition ∧
            cause.message =
              "Sorry, " ++ name ++ " refers to other weapons or spells too deeply") ∧
    (∀ name weapon, .weapon name ∈ e.postorder → rules.weapon? name = some weapon →
      Relation.TransGen rules.Mentions weapon weapon →
        ∀ depth : UInt32, ∃ cause, rules.resolveReferences limit depth.toNat e = .error cause) ∧
    ∀ (depth : UInt32) (steps : Nat), depth.toNat < steps →
      rules.resolveReferencesAt limit depth steps e =
        some (rules.resolveReferences limit depth.toNat e) := by
  refine ⟨?_, ?_, ?_⟩
  · by_cases hfails : ∀ depth : UInt32, ∃ cause,
        rules.resolveReferences limit depth.toNat e = .error cause
    · exact .inl hfails
    right
    obtain ⟨depth, hdepth⟩ := Classical.not_forall.mp hfails
    cases hresult : rules.resolveReferences limit depth.toNat e with
    | error cause => exact absurd ⟨cause, hresult⟩ hdepth
    | ok r =>
      obtain ⟨least, hle, hchain, habove, hbelow⟩ := exists_threshold hresult
      -- The threshold is no higher than a limit of 32 bits.
      have hleast : (UInt32.ofNat least).toNat = least :=
        UInt32.toNat_ofNat_of_lt' (Nat.lt_of_le_of_lt hle depth.toNat_lt)
      refine ⟨UInt32.ofNat least, r, hleast.symm ▸ hchain, ?_, ?_⟩
      · intro depth hge
        rw [UInt32.le_iff_toNat_le, hleast] at hge
        exact habove _ hge
      · intro depth hlt
        rw [UInt32.lt_iff_toNat_lt, hleast] at hlt
        obtain ⟨cause, hfails, name, rfl⟩ := hbelow _ hlt
        exact ⟨_, name, hfails, rfl, rfl⟩
  · intro name weapon hname hweapon hself depth
    exact resolveReferences_of_mentions_self hname hweapon hself limit depth.toNat
  · intro depth steps hsteps
    have hexpander := expanderAt_eq rules limit depth 0 hsteps
    rw [resolveReferencesAt, hexpander]
    rfl

end Ruleset

end SpokenDice
