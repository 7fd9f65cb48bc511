import SpokenDice.Proofs.Dice.Evaluate
import SpokenDice.Proofs.Expr.Counts

/-!
# Pools of dice

Dice of one kind that are added up, in any association and with any groups around them, are thrown
together: simplification makes one roll of them. Such dice are a pool. What becomes of the counts
of an expression is said in terms of its pools, of which it may hold many: in the counts and side
counts of other dice, under modifiers, and beside each other.

- `pool?` is the pool that an expression is as a whole, and `pools` are all pools that it holds,
  each as large as it gets.
- `simplify_eq_of_pool?`: a pool becomes one roll, whose count is the sum of its counts.
- `everywhere_thrown_simplify_iff`: a simplified expression says nowhere that no dice are to be
  rolled exactly when each of its pools holds a die. A pool hides the dice in it that are none.
-/

namespace SpokenDice

/-- Dice of one kind that are added up: how many there are in each place, from left to right, and
their common side count in its simplified form. -/
structure Pool where
  counts : List Int64
  sides : Expr

namespace Pool

/-- The pool holds a die. -/
def Filled (pool : Pool) : Prop :=
  ∃ n ∈ pool.counts, 0 < n

/-- How many dice the pool holds, as far as 64 bits can tell. -/
def total (pool : Pool) : Int64 :=
  saturate (pool.counts.map Int64.toInt).sum

/-- Two pools of one kind as one. -/
def join? (p q : Pool) : Option Pool :=
  if p.sides = q.sides then some ⟨p.counts ++ q.counts, p.sides⟩ else none

theorem join?_eq_some_iff {p q r : Pool} :
    p.join? q = some r ↔ p.sides = q.sides ∧ r = ⟨p.counts ++ q.counts, p.sides⟩ := by
  rw [join?]
  by_cases hsides : p.sides = q.sides
  · simp [hsides, eq_comm]
  · simp [hsides]

theorem total_pos_iff {pool : Pool} (h : ∀ n ∈ pool.counts, 0 ≤ n.toInt) :
    0 < pool.total ↔ pool.Filled := by
  rw [Filled, ← sum_pos_iff h, pos_iff_toInt_pos, total, toInt_saturate]
  omega

/-- Adding up two sums that may have saturated gives what one sum over all of it gives. -/
theorem add_total {p q : Pool} (hp : ∀ n ∈ p.counts, 0 ≤ n.toInt)
    (hq : ∀ n ∈ q.counts, 0 ≤ n.toInt) :
    BinaryOp.add.apply p.total q.total = total ⟨p.counts ++ q.counts, p.sides⟩ := by
  have hpsum := sum_nonneg hp
  have hqsum := sum_nonneg hq
  rw [← Int64.toInt_inj]
  simp only [BinaryOp.apply, BinaryOp.exact, total, toInt_saturate, List.map_append,
    List.sum_append]
  omega

end Pool

namespace Expr

/-- The expression without the groups around it. -/
@[simp] def ungroup : Expr → Expr
  | .group inner => inner.ungroup
  | e => e

/-- The pool that the expression is as a whole, if it is one. -/
def pool? : Expr → Option Pool
  | .rollOne sides => some ⟨[1], sides.simplify⟩
  | .roll count sides =>
    match count.ungroup with
    | .literal n => some ⟨[n], sides.simplify⟩
    | _ => none
  | .binary .add left right => do
    let p ← left.pool?
    let q ← right.pool?
    p.join? q
  | .group inner => inner.pool?
  | _ => none

/-- The pools below the pool that the expression is as a whole, or all of its pools if it is
none. -/
def poolsBelow : Expr → List Pool
  | .binary op left right =>
    (if (binary op left right).pool?.isSome then []
      else left.pool?.toList ++ right.pool?.toList) ++ (left.poolsBelow ++ right.poolsBelow)
  | .rollOne sides => sides.pool?.toList ++ sides.poolsBelow
  | .roll count sides =>
    count.pool?.toList ++ count.poolsBelow ++ (sides.pool?.toList ++ sides.poolsBelow)
  | .critical inner => inner.pool?.toList ++ inner.poolsBelow
  | .advantage inner => inner.pool?.toList ++ inner.poolsBelow
  | .disadvantage inner => inner.pool?.toList ++ inner.poolsBelow
  | .spellAt _ level => level.pool?.toList ++ level.poolsBelow
  | .group inner => inner.poolsBelow
  | _ => []

/-- The pools of the expression. -/
def pools (e : Expr) : List Pool :=
  e.pool?.toList ++ e.poolsBelow

/-! ## The pool that an expression is -/

theorem bare_eq_of_ungroup_eq {e : Expr} {n : Int64} (h : e.ungroup = .literal n) :
    e.bare = .literal n := by
  induction e with
  | group inner ih => exact ih h
  | literal m => exact h
  | _ => cases h

theorem simplify_eq_literal_iff {e : Expr} {n : Int64} :
    e.simplify = .literal n ↔ e.ungroup = .literal n := by
  induction e with
  | group inner ih => exact ih
  | literal m => exact Iff.rfl
  | binary op left right =>
    -- Neither a sum that was made one roll nor arithmetic that stayed is a number.
    refine ⟨fun h => ?_, nofun⟩
    by_cases hop : op = .add
    · subst hop
      rcases simplify_add left right with ⟨a, b, sides, -, -, heq⟩ | ⟨-, heq⟩
      · rw [heq] at h
        cases h
      · rw [heq] at h
        cases h
    · rw [simplify_binary hop] at h
      cases h
  | _ =>
    constructor
    · intro h
      cases h
    · intro h
      cases h

theorem pool?_roll_eq_some_iff {count sides : Expr} {p : Pool} :
    (roll count sides).pool? = some p ↔
      ∃ n, count.ungroup = .literal n ∧ p = ⟨[n], sides.simplify⟩ := by
  rw [pool?]
  split
  · rename_i n hn
    simp [hn, eq_comm]
  · rename_i hn
    refine ⟨nofun, ?_⟩
    rintro ⟨n, heq, -⟩
    exact absurd heq (hn n)

theorem pool?_add_eq_some_iff {left right : Expr} {r : Pool} :
    (binary .add left right).pool? = some r ↔
      ∃ p q, left.pool? = some p ∧ right.pool? = some q ∧ p.sides = q.sides ∧
        r = ⟨p.counts ++ q.counts, p.sides⟩ := by
  show (left.pool? >>= fun p => right.pool? >>= fun q => p.join? q) = some r ↔ _
  simp only [Option.bind_eq_bind, Option.bind_eq_some_iff, Pool.join?_eq_some_iff]
  constructor
  · rintro ⟨p, hp, q, hq, hsides, hr⟩
    exact ⟨p, q, hp, hq, hsides, hr⟩
  · rintro ⟨p, q, hp, hq, hsides, hr⟩
    exact ⟨p, hp, q, hq, hsides, hr⟩

theorem pool?_binary_of_ne {op : BinaryOp} (h : op ≠ .add) (left right : Expr) :
    (binary op left right).pool? = none := by
  cases op <;> first | rfl | exact absurd rfl h

/-- What simplifies to a roll of a known count is a pool, and the other way round. -/
theorem exists_pool?_iff {e sides : Expr} :
    (∃ p, e.pool? = some p ∧ p.sides = sides) ↔ ∃ n, e.simplify = .roll (.literal n) sides := by
  induction e generalizing sides with
  | group inner ih => exact ih
  | rollOne s =>
    constructor
    · rintro ⟨p, ⟨⟩, rfl⟩
      exact ⟨1, rfl⟩
    · rintro ⟨n, h⟩
      obtain ⟨-, rfl⟩ := roll.inj h
      exact ⟨_, rfl, rfl⟩
  | roll count s =>
    constructor
    · rintro ⟨p, hp, rfl⟩
      obtain ⟨n, hn, rfl⟩ := pool?_roll_eq_some_iff.mp hp
      exact ⟨n, by rw [simplify_roll, simplify_eq_literal_iff.mpr hn]⟩
    · rintro ⟨n, h⟩
      obtain ⟨hcount, rfl⟩ := roll.inj h
      exact ⟨_, pool?_roll_eq_some_iff.mpr ⟨n, simplify_eq_literal_iff.mp hcount, rfl⟩, rfl⟩
  | binary op left right ihl ihr =>
    by_cases hop : op = .add
    · subst hop
      constructor
      · -- Two pools of one kind simplify to rolls of one kind, so the sum cannot stay.
        rintro ⟨r, hr, rfl⟩
        obtain ⟨p, q, hp, hq, hsides, rfl⟩ := pool?_add_eq_some_iff.mp hr
        obtain ⟨a, ha⟩ := ihl.mp ⟨p, hp, rfl⟩
        obtain ⟨b, hb⟩ := ihr.mp ⟨q, hq, hsides.symm⟩
        rcases simplify_add left right with ⟨a', b', sides, ha', -, heq⟩ | ⟨hnot, -⟩
        · obtain ⟨-, rfl⟩ := roll.inj (ha.symm.trans ha')
          exact ⟨_, heq⟩
        · exact absurd hb (hnot a b p.sides ha)
      · rintro ⟨n, h⟩
        rcases simplify_add left right with ⟨a, b, s, ha, hb, heq⟩ | ⟨-, heq⟩
        · obtain ⟨-, rfl⟩ := roll.inj (heq.symm.trans h)
          obtain ⟨p, hp, hps⟩ := ihl.mpr ⟨a, ha⟩
          obtain ⟨q, hq, hqs⟩ := ihr.mpr ⟨b, hb⟩
          exact ⟨_, pool?_add_eq_some_iff.mpr ⟨p, q, hp, hq, hps.trans hqs.symm, rfl⟩, hps⟩
        · rw [heq] at h
          cases h
    · rw [pool?_binary_of_ne hop, simplify_binary hop]
      simp
  | _ =>
    constructor
    · rintro ⟨p, h, -⟩
      cases h
    · rintro ⟨n, h⟩
      cases h

/-- A pool becomes one roll of all its dice. -/
theorem simplify_eq_of_pool? {e : Expr} {p : Pool} (hp : e.pool? = some p)
    (hcounts : ∀ n ∈ p.counts, 0 ≤ n.toInt) :
    e.simplify = .roll (.literal p.total) p.sides := by
  induction e generalizing p with
  | group inner ih => exact ih hp hcounts
  | rollOne s =>
    cases hp
    rfl
  | roll count s =>
    obtain ⟨n, hn, rfl⟩ := pool?_roll_eq_some_iff.mp hp
    rw [simplify_roll, simplify_eq_literal_iff.mpr hn]
    simp [Pool.total]
  | binary op left right ihl ihr =>
    by_cases hop : op = .add
    · subst hop
      obtain ⟨p, q, hleft, hright, hsides, rfl⟩ := pool?_add_eq_some_iff.mp hp
      obtain ⟨hpcounts, hqcounts⟩ := List.forall_mem_append.mp hcounts
      have hl := ihl hleft hpcounts
      have hr := ihr hright hqcounts
      rcases simplify_add left right with ⟨a, b, s, ha, hb, heq⟩ | ⟨hnot, -⟩
      · obtain ⟨hpa, rfl⟩ := roll.inj (hl.symm.trans ha)
        obtain ⟨hqb, -⟩ := roll.inj (hr.symm.trans hb)
        rw [heq, ← literal.inj hpa, ← literal.inj hqb, Pool.add_total hpcounts hqcounts]
      · exact absurd hr (hsides ▸ hnot p.total q.total p.sides hl)
    · rw [pool?_binary_of_ne hop] at hp
      cases hp
  | _ => cases hp

/-! ## All pools -/

/-- No pool of counted dice holds a negative count. -/
theorem counts_nonneg_of_pool? {e : Expr} {p : Pool} (h : e.Everywhere CountedRoll)
    (hp : e.pool? = some p) : ∀ n ∈ p.counts, 0 ≤ n.toInt := by
  induction e generalizing p with
  | group inner ih => exact ih h.1 hp
  | rollOne s =>
    cases hp
    simp
  | roll count s =>
    obtain ⟨n, hn, rfl⟩ := pool?_roll_eq_some_iff.mp hp
    have hcount : 0 ≤ n.toInt := h.2.2 n (bare_eq_of_ungroup_eq hn)
    simpa using hcount
  | binary op left right ihl ihr =>
    by_cases hop : op = .add
    · subst hop
      obtain ⟨p, q, hleft, hright, -, rfl⟩ := pool?_add_eq_some_iff.mp hp
      exact List.forall_mem_append.mpr ⟨ihl h.1 hleft, ihr h.2.1 hright⟩
    · rw [pool?_binary_of_ne hop] at hp
      cases hp
  | _ => cases hp

/-- What is left to look at when the count of the pool that the expression may be is set aside. -/
def belowPool (e : Expr) : Expr :=
  match e.pool? with
  | some p => p.sides
  | none => e.simplify

theorem belowPool_of_some {e : Expr} {p : Pool} (h : e.pool? = some p) : e.belowPool = p.sides := by
  rw [belowPool, h]

theorem belowPool_of_none {e : Expr} (h : e.pool? = none) : e.belowPool = e.simplify := by
  rw [belowPool, h]

/-- An expression that is no pool does not simplify to a roll of a known count. -/
theorem simplify_ne_of_pool?_eq_none {e : Expr} (h : e.pool? = none) (n : Int64) (sides : Expr) :
    e.simplify ≠ .roll (.literal n) sides := by
  intro heq
  obtain ⟨p, hp, -⟩ := exists_pool?_iff.mpr ⟨n, heq⟩
  rw [h] at hp
  cases hp

/-- What is said of all pools follows from what is said of those below. -/
theorem everywhere_thrown_of_belowPool {e : Expr} (h : e.Everywhere CountedRoll)
    (hbelow : e.belowPool.Everywhere Thrown ↔ ∀ p ∈ e.poolsBelow, p.Filled) :
    e.simplify.Everywhere Thrown ↔ ∀ p ∈ e.pools, p.Filled := by
  rw [pools, List.forall_mem_append, ← hbelow]
  cases hp : e.pool? with
  | none =>
    rw [belowPool_of_none hp]
    simp
  | some p =>
    have hcounts := counts_nonneg_of_pool? h hp
    rw [belowPool_of_some hp, simplify_eq_of_pool? hp hcounts]
    simp only [Everywhere, Thrown, Pool.total_pos_iff hcounts, Option.toList_some,
      List.forall_mem_singleton, true_and]
    exact and_comm

/-- What a binary node leaves when it is no pool as a whole. -/
theorem simplify_binary_of_pool?_eq_none {op : BinaryOp} {left right : Expr}
    (h : (binary op left right).pool? = none) :
    (binary op left right).simplify = .binary op left.simplify right.simplify := by
  by_cases hop : op = .add
  · subst hop
    rcases simplify_add left right with ⟨a, b, sides, -, -, heq⟩ | ⟨-, heq⟩
    · exact absurd heq (simplify_ne_of_pool?_eq_none h _ _)
    · exact heq
  · exact simplify_binary hop left right

theorem belowPool_iff {e : Expr} (h : e.Everywhere CountedRoll) :
    e.belowPool.Everywhere Thrown ↔ ∀ p ∈ e.poolsBelow, p.Filled := by
  induction e with
  | integer | namedDie | literal | weapon | spell =>
    rw [belowPool_of_none rfl]
    exact iff_of_true trivial (List.forall_mem_nil _)
  | group inner ih => exact ih h.1
  | rollOne s ih => exact everywhere_thrown_of_belowPool h.1 (ih h.1)
  | critical inner ih | advantage inner ih | disadvantage inner ih | spellAt _ inner ih =>
    rw [belowPool_of_none rfl]
    exact (and_iff_left trivial).trans (everywhere_thrown_of_belowPool h.1 (ih h.1))
  | roll count s ihc ihs =>
    have hcount := everywhere_thrown_of_belowPool h.1 (ihc h.1)
    have hsides := everywhere_thrown_of_belowPool h.2.1 (ihs h.2.1)
    rw [show (roll count s).poolsBelow = count.pools ++ s.pools from rfl, List.forall_mem_append,
      ← hcount, ← hsides]
    cases hp : (roll count s).pool? with
    | some p =>
      obtain ⟨n, hn, rfl⟩ := pool?_roll_eq_some_iff.mp hp
      rw [belowPool_of_some hp, simplify_eq_literal_iff.mpr hn]
      exact (and_iff_right trivial).symm
    | none =>
      -- The count is computed, so that the node itself says nothing about it.
      have hroot : Thrown (.roll count.simplify s.simplify) := by
        unfold Thrown
        split
        · rename_i n sides heq
          exact absurd heq (simplify_ne_of_pool?_eq_none hp n sides)
        · trivial
      rw [belowPool_of_none hp]
      exact and_congr_right fun _ => and_iff_left hroot
  | binary op left right ihl ihr =>
    cases hp : (binary op left right).pool? with
    | some r =>
      obtain rfl : op = .add := by
        by_cases hop : op = .add
        · exact hop
        · rw [pool?_binary_of_ne hop] at hp
          cases hp
      obtain ⟨p, q, hleft, hright, hsides, rfl⟩ := pool?_add_eq_some_iff.mp hp
      have hl := ihl h.1
      have hr := ihr h.2.1
      -- Both operands leave the side count, which is the same for the two.
      rw [belowPool_of_some hleft] at hl
      rw [belowPool_of_some hright, ← hsides] at hr
      rw [belowPool_of_some hp, poolsBelow, hp]
      simp only [Option.isSome_some, if_true, List.nil_append, List.forall_mem_append, ← hl, ← hr,
        and_self]
    | none =>
      have hl := everywhere_thrown_of_belowPool h.1 (ihl h.1)
      have hr := everywhere_thrown_of_belowPool h.2.1 (ihr h.2.1)
      rw [pools, List.forall_mem_append] at hl hr
      rw [belowPool_of_none hp, simplify_binary_of_pool?_eq_none hp, poolsBelow, hp]
      simp only [Everywhere, Thrown, hl, hr, and_true, Option.isSome_none, Bool.false_eq_true,
        if_false, List.forall_mem_append]
      exact and_and_and_comm

/-- Simplified, an expression says nowhere that no dice are to be rolled exactly when each of its
pools holds a die. -/
theorem everywhere_thrown_simplify_iff {e : Expr} (h : e.Everywhere CountedRoll) :
    e.simplify.Everywhere Thrown ↔ ∀ p ∈ e.pools, p.Filled :=
  everywhere_thrown_of_belowPool h (belowPool_iff h)

end Expr

end SpokenDice
