import SpokenDice.Expr.Printer
import SpokenDice.Proofs.Expr.Nodes

/-!
# The parentheses in the text of an expression

The text of an expression of numbers, arithmetic and dice holds parentheses for the groups in it
and for the operands that would not hold together without them. `bracketed` makes groups of the
latter, so that every pair of parentheses in the text is that of a group.

- `Numeric`: expressions of numbers, sums, products, dice and groups.
- `text_bracketed`, `withoutGroups_bracketed`: groups for parentheses change neither the text nor
  the expression below the groups.
- `Plain`: trees whose texts need no parentheses but those of their groups, by how tightly they
  hold together; `plain_bracketed`.
- `steps` and `leafLevels`: what the text costs to read, and how deep it nests.
-/

namespace SpokenDice.Expr

/-! ## Numbers, arithmetic and dice -/

/-- A number that is not negative, a sum, difference or product, dice, or a group. -/
def NumericNode : Expr → Prop
  | .integer n => 0 ≤ n.toInt
  | .binary op _ _ => op.isCall = false
  | .rollOne _ => True
  | .roll _ _ => True
  | .group _ => True
  | _ => False

/-- An expression of numbers, arithmetic, dice and groups alone. -/
def Numeric (e : Expr) : Prop :=
  e.Everywhere NumericNode

/-- The node, or what is inside it when it is a group. -/
def ungroupNode : Expr → Expr
  | .group inner => inner
  | node => node

/-- The expression without the groups in it. -/
def withoutGroups (e : Expr) : Expr :=
  e.mapNodes ungroupNode

/-- The number of nodes of a kind. -/
def count (kind : NodeKind) (e : Expr) : Nat :=
  (e.postorder.map Expr.kind).count kind

/-! ## Groups for parentheses -/

/-- A group of the expression where parentheses are needed. -/
def enclosed (needed : Bool) (e : Expr) : Expr :=
  if needed then .group e else e

/-- The node with groups for the operands that its text puts in parentheses. -/
def bracketNode : Expr → Expr
  | .binary op left right =>
    if op.isCall then .binary op left right
    else .binary op (left.enclosed (left.looserThan op.tightness))
      (right.enclosed (right.noTighterThan op.tightness))
  | .rollOne sides => .rollOne (sides.enclosed (sides.looserThan .closed))
  | .roll count sides =>
    .roll (count.enclosed (count.looserThan .closed)) (sides.enclosed (sides.looserThan .closed))
  | node => node

/-- The expression with a group for every pair of parentheses that its text puts around an
operand. -/
def bracketed (e : Expr) : Expr :=
  e.mapNodes bracketNode

theorem parenthesize_looserThan_enclosed (e : Expr) (least : Tightness) :
    parenthesize ((e.enclosed (e.looserThan least)).looserThan least)
      (e.enclosed (e.looserThan least)).text = parenthesize (e.looserThan least) e.text := by
  cases h : e.looserThan least with
  | false => rw [enclosed, if_neg (by decide), h]
  | true => cases least <;> rfl

theorem parenthesize_noTighterThan_enclosed {bound : Tightness} (hbound : bound ≠ .closed)
    (e : Expr) :
    parenthesize ((e.enclosed (e.noTighterThan bound)).noTighterThan bound)
      (e.enclosed (e.noTighterThan bound)).text = parenthesize (e.noTighterThan bound) e.text := by
  cases h : e.noTighterThan bound with
  | false => rw [enclosed, if_neg (by decide), h]
  | true => cases bound <;> first | rfl | exact absurd rfl hbound

theorem text_bracketNode (node : Expr) : (bracketNode node).text = node.text := by
  cases node with
  | binary op left right =>
    rw [bracketNode]
    split
    · rfl
    · rename_i hcall
      have hclosed : op.tightness ≠ .closed := by
        cases op <;> simp_all [BinaryOp.isCall, BinaryOp.tightness]
      rw [text, if_neg hcall, parenthesize_looserThan_enclosed,
        parenthesize_noTighterThan_enclosed hclosed, text, if_neg hcall]
  | rollOne sides => rw [bracketNode, text, parenthesize_looserThan_enclosed, text]
  | roll count sides =>
    rw [bracketNode, text, parenthesize_looserThan_enclosed, parenthesize_looserThan_enclosed,
      text]
  | _ => rfl

theorem tightness_bracketNode (node : Expr) : (bracketNode node).tightness = node.tightness := by
  cases node with
  | binary op left right =>
    rw [bracketNode]
    split <;> rfl
  | _ => rfl

/-- Over operands with the same texts that hold together as tightly, a node has the same text. -/
theorem Rebuilt.text_eq {e node : Expr}
    (h : Rebuilt (fun a b => b.text = a.text ∧ b.tightness = a.tightness) e node) :
    node.text = e.text ∧ node.tightness = e.tightness := by
  refine ⟨?_, by cases h <;> rfl⟩
  cases h <;> simp_all [text, looserThan, noTighterThan]

@[simp] theorem text_bracketed (e : Expr) : e.bracketed.text = e.text := by
  have h : e.bracketed.text = e.text ∧ e.bracketed.tightness = e.tightness := by
    refine mapNodes_rel (R := fun a b => b.text = a.text ∧ b.tightness = a.tightness)
      (fun e node hnode => ?_) e
    rw [text_bracketNode, tightness_bracketNode]
    exact hnode.text_eq
  exact h.1

/-! ## Expressions without groups -/

@[simp] theorem withoutGroups_binary (op : BinaryOp) (l r : Expr) :
    (binary op l r).withoutGroups = .binary op l.withoutGroups r.withoutGroups := rfl

@[simp] theorem withoutGroups_rollOne (s : Expr) :
    (rollOne s).withoutGroups = .rollOne s.withoutGroups := rfl

@[simp] theorem withoutGroups_roll (c s : Expr) :
    (roll c s).withoutGroups = .roll c.withoutGroups s.withoutGroups := rfl

@[simp] theorem withoutGroups_enclosed (needed : Bool) (e : Expr) :
    (e.enclosed needed).withoutGroups = e.withoutGroups := by
  cases needed <;> rfl

theorem Rebuilt.withoutGroups_eq {e node : Expr}
    (h : Rebuilt (fun a b => b.withoutGroups = a.withoutGroups) e node) :
    node.withoutGroups = e.withoutGroups := by
  cases h <;> simp_all [withoutGroups, mapNodes]

theorem withoutGroups_bracketNode (node : Expr) :
    (bracketNode node).withoutGroups = node.withoutGroups := by
  cases node with
  | binary op left right =>
    rw [bracketNode]
    split
    · rfl
    · simp
  | rollOne sides => simp [bracketNode]
  | roll count sides => simp [bracketNode]
  | _ => rfl

@[simp] theorem withoutGroups_bracketed (e : Expr) :
    e.bracketed.withoutGroups = e.withoutGroups := by
  refine mapNodes_rel (R := fun a b => b.withoutGroups = a.withoutGroups)
    (fun e node hnode => ?_) e
  rw [withoutGroups_bracketNode]
  exact hnode.withoutGroups_eq

/-! ## Texts without further parentheses -/

/-- The tree holds numbers, arithmetic, dice and groups, its text holds together at least this
tightly, and no operand in it needs parentheses. -/
inductive Plain : Tightness → Expr → Prop
  | integer {n : Int64} (hn : 0 ≤ n.toInt) : Plain .closed (.integer n)
  | group {e : Expr} (h : Plain .sum e) : Plain .closed (.group e)
  | rollOne {s : Expr} (h : Plain .closed s) : Plain .dice (.rollOne s)
  | roll {c s : Expr} (hc : Plain .closed c) (hs : Plain .closed s) : Plain .dice (.roll c s)
  | times {l r : Expr} (hl : Plain .product l) (hr : Plain .dice r) :
      Plain .product (.binary .mul l r)
  | plus {l r : Expr} (hl : Plain .sum l) (hr : Plain .product r) : Plain .sum (.binary .add l r)
  | minus {l r : Expr} (hl : Plain .sum l) (hr : Plain .product r) : Plain .sum (.binary .sub l r)
  | closedDice {e : Expr} (h : Plain .closed e) : Plain .dice e
  | diceProduct {e : Expr} (h : Plain .dice e) : Plain .product e
  | productSum {e : Expr} (h : Plain .product e) : Plain .sum e

namespace Plain

variable {tightness least bound : Tightness} {e l r c s : Expr}

theorem loosen (h : Plain tightness e) (hle : least.rank ≤ tightness.rank) : Plain least e := by
  cases tightness with
  | closed =>
    cases least with
    | closed => exact h
    | dice => exact h.closedDice
    | product => exact h.closedDice.diceProduct
    | sum => exact h.closedDice.diceProduct.productSum
  | dice =>
    cases least with
    | closed => exact absurd hle (by decide)
    | dice => exact h
    | product => exact h.diceProduct
    | sum => exact h.diceProduct.productSum
  | product =>
    cases least with
    | closed | dice => exact absurd hle (by decide)
    | product => exact h
    | sum => exact h.productSum
  | sum =>
    cases least with
    | closed | dice | product => exact absurd hle (by decide)
    | sum => exact h

theorem rank_le (h : Plain tightness e) : tightness.rank ≤ e.tightness.rank := by
  induction h with
  | integer | group | rollOne | roll | times | plus | minus => exact Nat.le_refl _
  | closedDice _ ih | diceProduct _ ih | productSum _ ih => exact Nat.le_of_succ_le ih

theorem looserThan_eq_false (h : Plain tightness e) : e.looserThan tightness = false :=
  decide_eq_false (Nat.not_lt.mpr h.rank_le)

theorem noTighterThan_eq_false (h : Plain tightness e) (hbound : bound.rank < tightness.rank) :
    e.noTighterThan bound = false :=
  decide_eq_false (Nat.not_le.mpr (Nat.lt_of_lt_of_le hbound h.rank_le))

theorem text_binary (op : BinaryOp) (hcall : op.isCall = false) (hl : Plain op.tightness l)
    (hr : Plain least r) (hleast : op.tightness.rank < least.rank) :
    (binary op l r).text = l.text ++ op.symbol ++ r.text := by
  rw [text, if_neg (by simp [hcall]), hl.looserThan_eq_false, hr.noTighterThan_eq_false hleast]
  rfl

theorem text_times (hl : Plain .product l) (hr : Plain .dice r) :
    (binary .mul l r).text = l.text ++ "*" ++ r.text :=
  text_binary .mul rfl hl hr (by decide)

theorem text_plus (hl : Plain .sum l) (hr : Plain .product r) :
    (binary .add l r).text = l.text ++ "+" ++ r.text :=
  text_binary .add rfl hl hr (by decide)

theorem text_minus (hl : Plain .sum l) (hr : Plain .product r) :
    (binary .sub l r).text = l.text ++ "-" ++ r.text :=
  text_binary .sub rfl hl hr (by decide)

theorem text_rollOne (hs : Plain .closed s) : (Expr.rollOne s).text = "d" ++ s.text := by
  rw [text, hs.looserThan_eq_false]
  rfl

theorem text_roll (hc : Plain .closed c) (hs : Plain .closed s) :
    (Expr.roll c s).text = c.text ++ "d" ++ s.text := by
  rw [text, hc.looserThan_eq_false, hs.looserThan_eq_false]
  rfl

/-- An operand has the tightness demanded of it once it has parentheses where they are needed. -/
theorem enclosed_looserThan (h : Plain e.tightness e) (least : Tightness) :
    Plain least (e.enclosed (e.looserThan least)) := by
  rw [enclosed]
  split
  · exact (Plain.group (h.loosen (Nat.zero_le _))).loosen (by cases least <;> decide)
  · rename_i hlooser
    exact h.loosen (Nat.not_lt.mp (of_decide_eq_false (Bool.not_eq_true _ ▸ hlooser)))

theorem enclosed_noTighterThan (h : Plain e.tightness e)
    (hleast : least.rank = bound.rank + 1) : Plain least (e.enclosed (e.noTighterThan bound)) := by
  rw [enclosed]
  split
  · exact (Plain.group (h.loosen (Nat.zero_le _))).loosen (by cases least <;> decide)
  · rename_i htighter
    refine h.loosen ?_
    have hbound := Nat.not_le.mp (of_decide_eq_false (Bool.not_eq_true _ ▸ htighter))
    omega

end Plain

/-- Numbers, arithmetic and dice need no parentheses but their groups once they are bracketed. -/
theorem plain_bracketed {e : Expr} (h : e.Numeric) : Plain e.bracketed.tightness e.bracketed := by
  refine mapNodes_rel (R := fun a b => a.Numeric → Plain b.tightness b)
    (fun e node hnode he => ?_) e h
  rw [tightness_bracketNode]
  cases hnode with
  | integer n => exact .integer he
  | group hi => exact .group ((hi he.1).loosen (Nat.zero_le _))
  | rollOne hs => exact .rollOne ((hs he.1).enclosed_looserThan _)
  | roll hc hs =>
    exact .roll ((hc he.1).enclosed_looserThan _) ((hs he.2.1).enclosed_looserThan _)
  | binary op hl hr =>
    have hleft := (hl he.1).enclosed_looserThan op.tightness
    have hright := hr he.2.1
    cases op with
    | add => exact .plus hleft (hright.enclosed_noTighterThan rfl)
    | sub => exact .minus hleft (hright.enclosed_noTighterThan rfl)
    | mul => exact .times hleft (hright.enclosed_noTighterThan rfl)
    | max | min => cases he.2.2
  | _ => exact he.self.elim

/-! ## What a text costs to read -/

section Counts

variable (kind : NodeKind)

theorem count_binary (op : BinaryOp) (l r : Expr) :
    (binary op l r).count kind =
      l.count kind + r.count kind + [NodeKind.arithmetic].count kind := by
  simp only [count, postorder, List.map_append, List.count_append]
  rfl

theorem count_rollOne (s : Expr) :
    (rollOne s).count kind = s.count kind + [NodeKind.loneDie].count kind := by
  simp only [count, postorder, List.map_append, List.count_append]
  rfl

theorem count_roll (c s : Expr) :
    (roll c s).count kind = c.count kind + s.count kind + [NodeKind.dice].count kind := by
  simp only [count, postorder, List.map_append, List.count_append]
  rfl

theorem count_group (e : Expr) :
    (group e).count kind = e.count kind + [NodeKind.group].count kind := by
  simp only [count, postorder, List.map_append, List.count_append]
  rfl

variable {kind}

theorem Rebuilt.count_eq {e node : Expr}
    (h : Rebuilt (fun a b => b.count kind = a.count kind) e node) :
    node.count kind = e.count kind := by
  cases h <;> simp_all [count, postorder, Expr.kind]

/-- Brackets add groups alone. -/
theorem count_bracketed (hkind : kind ≠ .group) (e : Expr) :
    e.bracketed.count kind = e.count kind := by
  have henclosed (needed : Bool) (e : Expr) : (e.enclosed needed).count kind = e.count kind := by
    cases needed with
    | false => rfl
    | true =>
      have hnone : [NodeKind.group].count kind = 0 :=
        List.count_eq_zero.mpr fun hmem => hkind (List.mem_singleton.mp hmem)
      rw [enclosed, if_pos rfl, count_group, hnone, Nat.add_zero]
  refine mapNodes_rel (R := fun a b => b.count kind = a.count kind) (fun e node hnode => ?_) e
  rw [← hnode.count_eq]
  cases node with
  | binary op left right =>
    rw [bracketNode]
    split
    · rfl
    · rw [count_binary, count_binary, henclosed, henclosed]
  | rollOne sides => rw [bracketNode, count_rollOne, count_rollOne, henclosed]
  | roll count sides => rw [bracketNode, count_roll, count_roll, henclosed, henclosed]
  | _ => rfl

end Counts

/-- The terms that the text of a plain tree has besides its first one. -/
def steps (e : Expr) : Nat :=
  e.count .arithmetic + e.count .dice + e.count .group

@[simp] theorem steps_integer (n : Int64) : (integer n).steps = 0 := rfl

@[simp] theorem steps_binary (op : BinaryOp) (l r : Expr) :
    (binary op l r).steps = l.steps + r.steps + 1 := by
  simp only [steps, count_binary, List.count_singleton_self, List.count_singleton]
  simp
  omega

@[simp] theorem steps_rollOne (s : Expr) : (rollOne s).steps = s.steps := by
  simp [steps, count_rollOne]

@[simp] theorem steps_roll (c s : Expr) : (roll c s).steps = c.steps + s.steps + 1 := by
  simp [steps, count_roll]
  omega

@[simp] theorem steps_group (e : Expr) : (group e).steps = e.steps + 1 := by
  simp [steps, count_group]
  omega

/-- How many levels enclose each leaf, from left to right: one for each group around it, and one
for each die whose side count it belongs to. -/
def leafLevels : Expr → List Nat
  | .binary _ left right => left.leafLevels ++ right.leafLevels
  | .rollOne sides => sides.leafLevels.map (· + 1)
  | .roll count sides => count.leafLevels ++ sides.leafLevels.map (· + 1)
  | .group inner => inner.leafLevels.map (· + 1)
  | _ => [0]

/-- The most levels that enclose a leaf. -/
def nesting : Expr → Nat
  | .binary _ left right => max left.nesting right.nesting
  | .rollOne sides => sides.nesting + 1
  | .roll count sides => max count.nesting (sides.nesting + 1)
  | .group inner => inner.nesting + 1
  | _ => 0

theorem nesting_mem_leafLevels (e : Expr) : e.nesting ∈ e.leafLevels := by
  induction e with
  | binary op l r ihl ihr =>
    rw [nesting, leafLevels, List.mem_append]
    rcases Nat.le_total l.nesting r.nesting with hle | hle
    · exact .inr (by rwa [Nat.max_eq_right hle])
    · exact .inl (by rwa [Nat.max_eq_left hle])
  | rollOne s ih | group s ih => exact List.mem_map_of_mem ih
  | roll c s ihc ihs =>
    rw [nesting, leafLevels, List.mem_append]
    rcases Nat.le_total c.nesting (s.nesting + 1) with hle | hle
    · exact .inr (by rw [Nat.max_eq_right hle]; exact List.mem_map_of_mem ihs)
    · exact .inl (by rwa [Nat.max_eq_left hle])
  | _ => exact List.mem_singleton_self 0

theorem le_nesting {e : Expr} {n : Nat} (h : n ∈ e.leafLevels) : n ≤ e.nesting := by
  induction e generalizing n with
  | binary op l r ihl ihr =>
    rcases List.mem_append.mp h with h | h
    · exact Nat.le_trans (ihl h) (Nat.le_max_left ..)
    · exact Nat.le_trans (ihr h) (Nat.le_max_right ..)
  | rollOne s ih | group s ih =>
    obtain ⟨m, hm, rfl⟩ := List.mem_map.mp h
    exact Nat.succ_le_succ (ih hm)
  | roll c s ihc ihs =>
    rcases List.mem_append.mp h with h | h
    · exact Nat.le_trans (ihc h) (Nat.le_max_left ..)
    · obtain ⟨m, hm, rfl⟩ := List.mem_map.mp h
      exact Nat.le_trans (Nat.succ_le_succ (ihs hm)) (Nat.le_max_right ..)
  | _ => exact Nat.le_of_eq (List.mem_singleton.mp h)

theorem lt_nesting_iff {k : Nat} {e : Expr} : k < e.nesting ↔ ∃ n ∈ e.leafLevels, k < n := by
  constructor
  · exact fun h => ⟨e.nesting, e.nesting_mem_leafLevels, h⟩
  · rintro ⟨n, hn, h⟩
    exact Nat.lt_of_lt_of_le h (le_nesting hn)

/-- The digits of a number that is not negative. -/
theorem decimal_of_nonneg {n : Int} (hn : 0 ≤ n) : decimal n = toString n.toNat := by
  cases n with
  | ofNat n => rfl
  | negSucc n => exact absurd hn (by omega)

/-- The parentheses in the text of a plain tree are those of its groups. -/
theorem Plain.count_parenthesis {tightness : Tightness} {e : Expr} (h : Plain tightness e) :
    e.text.toList.count '(' = e.count .group := by
  induction h with
  | @integer n hn =>
    have hdigit : '(' ∉ (toString n.toInt.toNat).toList := fun hmem =>
      absurd (isDigit_of_mem_toString hmem) (by decide)
    rw [text, decimal_of_nonneg hn, List.count_eq_zero.mpr hdigit]
    rfl
  | @group e h ih =>
    rw [count_group, ← ih, text]
    simp
  | rollOne hs ih =>
    rw [hs.text_rollOne, count_rollOne, ← ih]
    simp
  | roll hc hs ihc ihs =>
    rw [hc.text_roll hs, count_roll, ← ihc, ← ihs]
    simp
  | times hl hr ihl ihr =>
    rw [hl.text_times hr, count_binary, ← ihl, ← ihr]
    simp
  | plus hl hr ihl ihr =>
    rw [hl.text_plus hr, count_binary, ← ihl, ← ihr]
    simp
  | minus hl hr ihl ihr =>
    rw [hl.text_minus hr, count_binary, ← ihl, ← ihr]
    simp
  | closedDice _ ih | diceProduct _ ih | productSum _ ih => exact ih

end SpokenDice.Expr
