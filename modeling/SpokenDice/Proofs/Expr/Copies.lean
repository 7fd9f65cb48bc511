import Mathlib.Algebra.GroupWithZero.Nat
import SpokenDice.Proofs.Expr.Modifiers

/-!
# What the copies of dice cost

Advantage and disadvantage copy the dice below them, the innermost first, so that a copy may hold
copies. `copies` lists what is copied, each as it is when it is copied, and says so apart from the
budget. Removing the modifiers takes just these copies from the budget, one after the other, up to
the first that does not fit, and an expression grows by no more than twice what they cost.

- `applyModifiers_eq`: removing modifiers pays for the copies and gives the expression without
  modifiers.
- `payFor_eq_ok` and `payFor_eq_error`: what paying leaves of a budget.
- `nodeCount_unmodified_le`: how much an expression grows.
- `applyModifiers_pays_copies`: the account of one budget that many expressions share.
-/

namespace SpokenDice.Expr

/-! ## What is copied -/

/-- The dice that are copied when all dice of the expression are rolled twice, from the leaves up:
the dice below a copy have been rolled twice already. -/
def twiceCopies (op : BinaryOp) : Expr → List Expr
  | .binary _ left right => left.twiceCopies op ++ right.twiceCopies op
  | .rollOne sides => sides.twiceCopies op ++ [.rollOne (sides.twice op)]
  | .roll count sides =>
    count.twiceCopies op ++ sides.twiceCopies op ++ [.roll (count.twice op) (sides.twice op)]
  | .critical inner => inner.twiceCopies op
  | .advantage inner => inner.twiceCopies op
  | .disadvantage inner => inner.twiceCopies op
  | .spellAt _ level => level.twiceCopies op
  | .group inner => inner.twiceCopies op
  | _ => []

/-- The dice that are copied when the modifiers of the expression are removed. Modifiers below are
removed first, so that their copies come first and are copied again. -/
def copies : Expr → List Expr
  | .binary _ left right => left.copies ++ right.copies
  | .rollOne sides => sides.copies
  | .roll count sides => count.copies ++ sides.copies
  | .critical inner => inner.copies
  | .advantage inner => inner.copies ++ inner.unmodified.twiceCopies .max
  | .disadvantage inner => inner.copies ++ inner.unmodified.twiceCopies .min
  | .spellAt _ level => level.copies
  | .group inner => inner.copies
  | _ => []

/-- The number of nodes of all these trees. -/
def totalNodes (trees : List Expr) : Nat :=
  (trees.map nodeCount).sum

@[simp] theorem totalNodes_nil : totalNodes [] = 0 := rfl

@[simp] theorem totalNodes_cons (e : Expr) (trees : List Expr) :
    totalNodes (e :: trees) = e.nodeCount + totalNodes trees := rfl

@[simp] theorem totalNodes_append (first second : List Expr) :
    totalNodes (first ++ second) = totalNodes first + totalNodes second := by
  simp [totalNodes]

theorem length_le_totalNodes (trees : List Expr) : trees.length ≤ totalNodes trees := by
  induction trees with
  | nil => exact Nat.le_refl 0
  | cons e trees ih =>
    have hpos := e.nodeCount_pos
    rw [List.length_cons, totalNodes_cons]
    omega

/-! ## What is paid -/

/-- Takes these trees from the budget, one after the other, up to the first that does not fit. -/
def payFor : List Expr → Copying Unit
  | [] => pure ()
  | e :: trees => do
    spend e.nodeCount
    payFor trees

theorem payFor_append (first second : List Expr) :
    payFor (first ++ second) = (do payFor first; payFor second) := by
  induction first with
  | nil => simp [payFor]
  | cons e first ih => simp [payFor, ih]

/-- Rolling dice twice pays for the copy of them. -/
theorem duplicateNode_of_isDice (op : BinaryOp) {e : Expr} (h : e.isDice = true) :
    duplicateNode op e = (do payFor [e]; pure (Expr.binary op e e)) := by
  rw [duplicateNode, if_pos h, payFor, payFor]
  simp only [bind_assoc, pure_bind]

/-- Rolling all dice twice pays for the copies of them. -/
theorem duplicate_eq (op : BinaryOp) (e : Expr) :
    e.duplicate op = (do payFor (e.twiceCopies op); pure (e.twice op)) := by
  induction e with
  | binary op' left right ihl ihr =>
    show (do
      let left ← left.duplicate op
      let right ← right.duplicate op
      pure (Expr.binary op' left right)) = _
    simp only [ihl, ihr, twiceCopies, payFor_append, bind_assoc, pure_bind]
    rfl
  | rollOne sides ih =>
    have hcopy := duplicateNode_of_isDice op (e := .rollOne (sides.twice op)) rfl
    show (do let sides ← sides.duplicate op; duplicateNode op (.rollOne sides)) = _
    simp only [ih, twiceCopies, payFor_append, hcopy, bind_assoc, pure_bind]
    rfl
  | roll count sides ihc ihs =>
    have hcopy := duplicateNode_of_isDice op (e := .roll (count.twice op) (sides.twice op)) rfl
    show (do
      let count ← count.duplicate op
      let sides ← sides.duplicate op
      duplicateNode op (.roll count sides)) = _
    simp only [ihc, ihs, twiceCopies, payFor_append, hcopy, bind_assoc, pure_bind]
    rfl
  | critical inner ih | advantage inner ih | disadvantage inner ih | group inner ih
  | spellAt _ inner ih =>
    show (do let inner ← inner.duplicate op; pure _) = _
    simp only [ih, twiceCopies, bind_assoc, pure_bind]
    rfl
  | integer | namedDie | literal | weapon | spell => rfl

/-- Removing the modifiers pays for the copies that this takes, in order, and for nothing else. -/
theorem applyModifiers_eq (e : Expr) :
    e.applyModifiers = (do payFor e.copies; pure e.unmodified) := by
  induction e with
  | binary op left right ihl ihr =>
    show (do
      let left ← left.applyModifiers
      let right ← right.applyModifiers
      pure (Expr.binary op left right)) = _
    simp only [ihl, ihr, copies, payFor_append, bind_assoc, pure_bind]
    rfl
  | roll count sides ihc ihs =>
    show (do
      let count ← count.applyModifiers
      let sides ← sides.applyModifiers
      pure (Expr.roll count sides)) = _
    simp only [ihc, ihs, copies, payFor_append, bind_assoc, pure_bind]
    rfl
  | rollOne inner ih | critical inner ih | group inner ih | spellAt _ inner ih =>
    show (do let inner ← inner.applyModifiers; pure _) = _
    simp only [ih, copies, bind_assoc, pure_bind]
    rfl
  | advantage inner ih =>
    show (do let inner ← inner.applyModifiers; inner.duplicate .max) = _
    simp only [ih, duplicate_eq, copies, payFor_append, bind_assoc, pure_bind]
    rfl
  | disadvantage inner ih =>
    show (do let inner ← inner.applyModifiers; inner.duplicate .min) = _
    simp only [ih, duplicate_eq, copies, payFor_append, bind_assoc, pure_bind]
    rfl
  | integer | namedDie | literal | weapon | spell => rfl

theorem payFor_cons (e : Expr) (trees : List Expr) (budget : Nat) :
    payFor (e :: trees) budget =
      if e.nodeCount ≤ budget then payFor trees (budget - e.nodeCount)
      else (.error .tooManyCopies, budget) := by
  rw [payFor, run_bind, spend_apply]
  by_cases hfits : e.nodeCount ≤ budget
  · rw [if_pos hfits, if_pos hfits]
  · rw [if_neg hfits, if_neg hfits]

/-- Where all trees fit, they are taken from the budget. -/
theorem payFor_eq_ok {trees : List Expr} {budget : Nat} (h : totalNodes trees ≤ budget) :
    payFor trees budget = (.ok (), budget - totalNodes trees) := by
  induction trees generalizing budget with
  | nil => rfl
  | cons e trees ih =>
    rw [totalNodes_cons] at h ⊢
    rw [payFor_cons, if_pos (by omega), ih (by omega), Nat.sub_sub]

/-- Where not all trees fit, those before the first that does not are taken from the budget. -/
theorem payFor_eq_error {trees : List Expr} {budget : Nat} (h : budget < totalNodes trees) :
    ∃ made failing rest, trees = made ++ failing :: rest ∧ totalNodes made ≤ budget ∧
      budget - totalNodes made < failing.nodeCount ∧
      payFor trees budget = (.error .tooManyCopies, budget - totalNodes made) := by
  induction trees generalizing budget with
  | nil => exact absurd h (Nat.not_lt_zero budget)
  | cons e trees ih =>
    rw [totalNodes_cons] at h
    rw [payFor_cons]
    by_cases hfits : e.nodeCount ≤ budget
    · obtain ⟨made, failing, rest, rfl, hmade, hfailing, hpay⟩ :=
        ih (show budget - e.nodeCount < totalNodes trees by omega)
      refine ⟨e :: made, failing, rest, rfl, ?_, ?_, ?_⟩
      · rw [totalNodes_cons]
        omega
      · rw [totalNodes_cons]
        omega
      · rw [if_pos hfits, hpay, totalNodes_cons, Nat.sub_sub]
    · exact ⟨[], e, trees, rfl, Nat.zero_le budget, Nat.not_le.mp hfits, if_neg hfits⟩

/-! ## Growth -/

/-- Each copy adds its nodes and the operation between the two rolls. -/
theorem nodeCount_twice (op : BinaryOp) (e : Expr) :
    (e.twice op).nodeCount =
      e.nodeCount + totalNodes (e.twiceCopies op) + (e.twiceCopies op).length := by
  induction e with
  | binary op' left right ihl ihr =>
    show (binary op' (left.twice op) (right.twice op)).nodeCount = _
    simp only [nodeCount, twiceCopies, totalNodes_append, List.length_append, ihl, ihr]
    omega
  | rollOne sides ih =>
    show (binary op (.rollOne (sides.twice op)) (.rollOne (sides.twice op))).nodeCount = _
    simp only [nodeCount, twiceCopies, totalNodes_append, totalNodes_cons, totalNodes_nil,
      List.length_append, List.length_singleton, ih]
    omega
  | roll count sides ihc ihs =>
    show (binary op (.roll (count.twice op) (sides.twice op))
      (.roll (count.twice op) (sides.twice op))).nodeCount = _
    simp only [nodeCount, twiceCopies, totalNodes_append, totalNodes_cons, totalNodes_nil,
      List.length_append, List.length_singleton, ihc, ihs]
    omega
  | critical inner ih | advantage inner ih | disadvantage inner ih | group inner ih
  | spellAt _ inner ih =>
    show (inner.twice op).nodeCount + 1 = inner.nodeCount + 1 + _ + _
    rw [ih]
    simp only [twiceCopies]
    omega
  | integer | namedDie | literal | weapon | spell => rfl

/-- The node is no critical hit. -/
def NotCritical (node : Expr) : Prop :=
  ∀ inner, node ≠ .critical inner

/-- Where there are no critical hits, only copies make an expression larger. -/
theorem nodeCount_unmodified_le {e : Expr} (h : e.Everywhere NotCritical) :
    e.unmodified.nodeCount ≤ e.nodeCount + totalNodes e.copies + e.copies.length := by
  induction e with
  | binary op left right ihl ihr =>
    have hl := ihl h.1
    have hr := ihr h.2.1
    show (binary op left.unmodified right.unmodified).nodeCount ≤ _
    simp only [nodeCount, copies, totalNodes_append, List.length_append]
    omega
  | roll count sides ihc ihs =>
    have hc := ihc h.1
    have hs := ihs h.2.1
    show (roll count.unmodified sides.unmodified).nodeCount ≤ _
    simp only [nodeCount, copies, totalNodes_append, List.length_append]
    omega
  | rollOne inner ih | group inner ih | spellAt _ inner ih =>
    have hinner := ih h.1
    show inner.unmodified.nodeCount + 1 ≤ inner.nodeCount + 1 + _ + _
    simp only [copies]
    omega
  | critical inner => exact absurd rfl (h.2 inner)
  | advantage inner ih =>
    have hinner := ih h.1
    show (inner.unmodified.twice .max).nodeCount ≤ _
    rw [nodeCount_twice]
    simp only [nodeCount, copies, totalNodes_append, List.length_append]
    omega
  | disadvantage inner ih =>
    have hinner := ih h.1
    show (inner.unmodified.twice .min).nodeCount ≤ _
    rw [nodeCount_twice]
    simp only [nodeCount, copies, totalNodes_append, List.length_append]
    omega
  | integer | namedDie | literal | weapon | spell => exact Nat.le_refl _

/-! ## One budget for many expressions -/

/-- What is left of a budget after the modifiers of expressions were removed within it in turn,
whether this failed for some of them or not. -/
def budgetAfter (budget : Nat) (trees : List Expr) : Nat :=
  trees.foldl (fun budget e => (e.applyModifiers budget).2) budget

/-- How many nodes the expressions gain whose modifiers are removed within the budget, in turn.
Those for which this fails gain none. -/
def nodesGained : Nat → List Expr → Nat
  | _, [] => 0
  | budget, e :: trees =>
    match e.applyModifiers budget with
    | (.ok result, left) => result.nodeCount - e.nodeCount + nodesGained left trees
    | (.error _, left) => nodesGained left trees

/-- Removing the modifiers of one expression pays for its copies or, where they do not fit, for
those before the first that does not. -/
theorem applyModifiers_cases (e : Expr) (budget : Nat) :
    (totalNodes e.copies ≤ budget ∧
      e.applyModifiers budget = (.ok e.unmodified, budget - totalNodes e.copies)) ∨
    ∃ made failing rest, e.copies = made ++ failing :: rest ∧ totalNodes made ≤ budget ∧
      budget - totalNodes made < failing.nodeCount ∧
      e.applyModifiers budget = (.error .tooManyCopies, budget - totalNodes made) := by
  rw [applyModifiers_eq, run_bind]
  by_cases hfits : totalNodes e.copies ≤ budget
  · rw [payFor_eq_ok hfits]
    exact .inl ⟨hfits, rfl⟩
  · obtain ⟨made, failing, rest, hcopies, hmade, hfailing, hpay⟩ :=
      payFor_eq_error (Nat.not_le.mp hfits)
    rw [hpay]
    exact .inr ⟨made, failing, rest, hcopies, hmade, hfailing, rfl⟩

/-- What expressions gain in turn, and twice what is left of the budget, is no more than twice the
budget. -/
theorem nodesGained_le {trees : List Expr} (htrees : ∀ e ∈ trees, e.Everywhere NotCritical)
    (budget : Nat) :
    nodesGained budget trees + 2 * budgetAfter budget trees ≤ 2 * budget := by
  induction trees generalizing budget with
  | nil => exact Nat.le_of_eq (Nat.zero_add _)
  | cons e trees ih =>
    obtain ⟨he, hrest⟩ := List.forall_mem_cons.mp htrees
    have hafter : budgetAfter budget (e :: trees) =
      budgetAfter (e.applyModifiers budget).2 trees := rfl
    rw [hafter, nodesGained]
    rcases e.applyModifiers_cases budget with
      ⟨hfits, happly⟩ | ⟨made, failing, rest, -, hmade, -, happly⟩
    · have hgain := nodeCount_unmodified_le he
      have hlength := length_le_totalNodes e.copies
      have hnext := ih hrest (budget - totalNodes e.copies)
      rw [happly]
      dsimp only
      omega
    · have hnext := ih hrest (budget - totalNodes made)
      rw [happly]
      dsimp only
      omega

/-- Expressions without critical hits share one budget: their modifiers are removed in turn. At
every point the next expression pays just for what it copies, each copy as large as it is when it is
made, and gains no more than twice as many nodes; where the copies do not fit, those before the
first that does not fit stay paid. So the budget never grows, and all expressions together gain at
most 200000 nodes. -/
theorem applyModifiers_pays_copies {trees : List Expr} {e : Expr}
    (htrees : ∀ t ∈ trees, t.Everywhere NotCritical) (he : e.Everywhere NotCritical) :
    (∀ result left, e.applyModifiers (budgetAfter copyBudget trees) = (.ok result, left) →
      left + totalNodes e.copies = budgetAfter copyBudget trees ∧
        result.nodeCount ≤ e.nodeCount + 2 * (budgetAfter copyBudget trees - left)) ∧
    (∀ cause left, e.applyModifiers (budgetAfter copyBudget trees) = (.error cause, left) →
      cause = .tooManyCopies ∧ ∃ made failing rest, e.copies = made ++ failing :: rest ∧
        left + totalNodes made = budgetAfter copyBudget trees ∧ left < failing.nodeCount) ∧
    (e.applyModifiers (budgetAfter copyBudget trees)).2 ≤ budgetAfter copyBudget trees ∧
    nodesGained copyBudget trees ≤ 200000 := by
  have hgained := nodesGained_le htrees copyBudget
  rw [show copyBudget = 100000 from rfl] at hgained ⊢
  generalize budgetAfter 100000 trees = budget at hgained ⊢
  have hgain := nodeCount_unmodified_le he
  have hlength := length_le_totalNodes e.copies
  rcases e.applyModifiers_cases budget with
    ⟨hfits, happly⟩ | ⟨made, failing, rest, hcopies, hmade, hfailing, happly⟩
  · rw [happly]
    refine ⟨?_, nofun, Nat.sub_le _ _, by omega⟩
    rintro result left ⟨⟩
    exact ⟨by omega, by omega⟩
  · rw [happly]
    refine ⟨nofun, ?_, Nat.sub_le _ _, by omega⟩
    rintro cause left ⟨⟩
    exact ⟨rfl, made, failing, rest, hcopies, by omega, hfailing⟩

/-- A die with as many sides as the better of two dice shows, rolled twice: the copy holds both of
the dice below it twice. Removing the modifiers again takes as much as it took before. -/
theorem applyModifiers_pays_copies_nested :
    let nested := advantage (.rollOne (.advantage (.rollOne (.literal 4))))
    ∃ result, nested.applyModifiers (budgetAfter copyBudget [nested]) = (.ok result, 99964) ∧
      99964 + totalNodes nested.copies = 99982 ∧
        result.nodeCount ≤ nested.nodeCount + 2 * (99982 - 99964) := by
  intro nested
  have hnested : nested.Everywhere NotCritical := by simp [nested, Everywhere, NotCritical]
  have hpaid := applyModifiers_pays_copies (List.forall_mem_singleton.mpr hnested) hnested
  exact ⟨_, rfl, hpaid.1 _ _ rfl⟩

end SpokenDice.Expr
