import SpokenDice.Expr.Basic
import SpokenDice.Proofs.Failure

/-!
# Nodes of expressions

What is said of every node of a tree, and how the two traversals keep it.

- `NodeKind` sorts the nodes, and `Everywhere` says something of each of them.
- `Rebuilt`: a node whose children were replaced, each by one that a relation allows. Both
  traversals hand such nodes to the change they apply.
- `mapNodes_rel` and `mapNodesM_ends`: what relates every rebuilt node to its changed one relates
  the whole tree to the changed tree; `Ends` says the same of the causes of a failure.
- `mapNodesM_agrees`: a change with effects that gives what a pure change gives does so for trees.
- `mapNodesM_both`: what relates two changes with effects relates their traversals, and
  `mapNodesM_related` says so of changes that see related nodes.
-/

namespace SpokenDice

/-- The kinds of nodes. -/
inductive NodeKind where
  /-- A number or the name of a die, as it was spoken. -/
  | token
  | literal
  | arithmetic
  | loneDie
  | dice
  /-- A critical hit, advantage or disadvantage. -/
  | modifier
  /-- A weapon or a spell. -/
  | reference
  | group
  deriving DecidableEq

namespace Expr

/-- The kind of the node at the root. -/
def kind : Expr → NodeKind
  | .integer _ => .token
  | .namedDie _ => .token
  | .literal _ => .literal
  | .binary _ _ _ => .arithmetic
  | .rollOne _ => .loneDie
  | .roll _ _ => .dice
  | .critical _ => .modifier
  | .advantage _ => .modifier
  | .disadvantage _ => .modifier
  | .weapon _ => .reference
  | .spell _ => .reference
  | .spellAt _ _ => .reference
  | .group _ => .group

/-! ## What holds of every node -/

/-- Every node of the tree has the property. -/
@[simp] def Everywhere (p : Expr → Prop) : Expr → Prop
  | .integer n => p (.integer n)
  | .namedDie name => p (.namedDie name)
  | .literal n => p (.literal n)
  | .binary op left right => left.Everywhere p ∧ right.Everywhere p ∧ p (.binary op left right)
  | .rollOne sides => sides.Everywhere p ∧ p (.rollOne sides)
  | .roll count sides => count.Everywhere p ∧ sides.Everywhere p ∧ p (.roll count sides)
  | .critical inner => inner.Everywhere p ∧ p (.critical inner)
  | .advantage inner => inner.Everywhere p ∧ p (.advantage inner)
  | .disadvantage inner => inner.Everywhere p ∧ p (.disadvantage inner)
  | .weapon name => p (.weapon name)
  | .spell name => p (.spell name)
  | .spellAt name level => level.Everywhere p ∧ p (.spellAt name level)
  | .group inner => inner.Everywhere p ∧ p (.group inner)

theorem everywhere_iff {p : Expr → Prop} {e : Expr} :
    e.Everywhere p ↔ ∀ node ∈ e.postorder, p node := by
  induction e <;> simp_all [postorder, or_imp, forall_and]

theorem Everywhere.self {p : Expr → Prop} {e : Expr} (h : e.Everywhere p) : p e := by
  cases e <;> simp_all

theorem Everywhere.imp {p q : Expr → Prop} (hpq : ∀ node, p node → q node) {e : Expr}
    (h : e.Everywhere p) : e.Everywhere q :=
  everywhere_iff.mpr fun node hnode => hpq node (everywhere_iff.mp h node hnode)

/-- No node of the tree is of one of these kinds. -/
def Avoids (kinds : List NodeKind) (e : Expr) : Prop :=
  e.Everywhere fun node => node.kind ∉ kinds

theorem Avoids.subset {kinds kinds' : List NodeKind} {e : Expr} (h : e.Avoids kinds)
    (hsubset : kinds' ⊆ kinds) : e.Avoids kinds' :=
  Everywhere.imp (fun _ hnode hkind => hnode (hsubset hkind)) h

/-! ## Rebuilt nodes -/

/-- The second expression is the root of the first over other children, each of which the relation
allows in the place of the first one's. -/
inductive Rebuilt (R : Expr → Expr → Prop) : Expr → Expr → Prop
  | integer (n : Int64) : Rebuilt R (.integer n) (.integer n)
  | namedDie (name : String) : Rebuilt R (.namedDie name) (.namedDie name)
  | literal (n : Int64) : Rebuilt R (.literal n) (.literal n)
  | binary (op : BinaryOp) {left left' right right' : Expr} (hl : R left left')
      (hr : R right right') : Rebuilt R (.binary op left right) (.binary op left' right')
  | rollOne {sides sides' : Expr} (hs : R sides sides') :
      Rebuilt R (.rollOne sides) (.rollOne sides')
  | roll {count count' sides sides' : Expr} (hc : R count count') (hs : R sides sides') :
      Rebuilt R (.roll count sides) (.roll count' sides')
  | critical {inner inner' : Expr} (hi : R inner inner') :
      Rebuilt R (.critical inner) (.critical inner')
  | advantage {inner inner' : Expr} (hi : R inner inner') :
      Rebuilt R (.advantage inner) (.advantage inner')
  | disadvantage {inner inner' : Expr} (hi : R inner inner') :
      Rebuilt R (.disadvantage inner) (.disadvantage inner')
  | weapon (name : String) : Rebuilt R (.weapon name) (.weapon name)
  | spell (name : String) : Rebuilt R (.spell name) (.spell name)
  | spellAt (name : String) {level level' : Expr} (hl : R level level') :
      Rebuilt R (.spellAt name level) (.spellAt name level')
  | group {inner inner' : Expr} (hi : R inner inner') :
      Rebuilt R (.group inner) (.group inner')

namespace Rebuilt

theorem kind_eq {R : Expr → Expr → Prop} {e node : Expr} (h : Rebuilt R e node) :
    node.kind = e.kind := by
  cases h <;> rfl

/-- When the children keep what holds everywhere, the node needs it only of its root. -/
theorem everywhere {p q : Expr → Prop} {e node : Expr}
    (h : Rebuilt (fun a b => a.Everywhere p → b.Everywhere q) e node) (he : e.Everywhere p)
    (hnode : q node) : node.Everywhere q := by
  cases h <;> simp_all

/-- When the children are the old ones wherever something holds everywhere, so is the node. -/
theorem eq_self {p : Expr → Prop} {e node : Expr}
    (h : Rebuilt (fun a b => a.Everywhere p → b = a) e node) (he : e.Everywhere p) : node = e := by
  cases h with
  | integer | namedDie | literal | weapon | spell => rfl
  | binary op hl hr => rw [hl he.1, hr he.2.1]
  | roll hc hs => rw [hc he.1, hs he.2.1]
  | rollOne hi | critical hi | advantage hi | disadvantage hi | spellAt _ hi | group hi =>
    rw [hi he.1]

/-- Over the same children, the node is the same. -/
theorem eq {e node : Expr} (h : Rebuilt Eq e node) : e = node := by
  cases h <;> simp_all

end Rebuilt

/-! ## Traversals -/

/-- What the change does to rebuilt nodes, the traversal does to trees. -/
theorem mapNodes_rel {R : Expr → Expr → Prop} {f : Expr → Expr}
    (step : ∀ e node, Rebuilt R e node → R e (f node)) (e : Expr) : R e (e.mapNodes f) := by
  induction e with
  | integer n => exact step _ _ (.integer n)
  | namedDie name => exact step _ _ (.namedDie name)
  | literal n => exact step _ _ (.literal n)
  | binary op left right ihl ihr => exact step _ _ (.binary op ihl ihr)
  | rollOne sides ih => exact step _ _ (.rollOne ih)
  | roll count sides ihc ihs => exact step _ _ (.roll ihc ihs)
  | critical inner ih => exact step _ _ (.critical ih)
  | advantage inner ih => exact step _ _ (.advantage ih)
  | disadvantage inner ih => exact step _ _ (.disadvantage ih)
  | weapon name => exact step _ _ (.weapon name)
  | spell name => exact step _ _ (.spell name)
  | spellAt name level ih => exact step _ _ (.spellAt name ih)
  | group inner ih => exact step _ _ (.group ih)

/-- What a change that may fail does to rebuilt nodes, its traversal does to trees. The nodes of
the tree may be assumed to have a property. -/
theorem mapNodesM_ends {ε : Type} {P : Expr → Prop} {R : Expr → Expr → Prop} {Q : ε → Prop}
    {f : Expr → Except ε Expr}
    (step : ∀ e node, P e → Rebuilt R e node → Ends (R e) Q (f node)) {e : Expr}
    (he : e.Everywhere P) : Ends (R e) Q (e.mapNodesM f) := by
  induction e with
  | integer n => exact step _ _ he (.integer n)
  | namedDie name => exact step _ _ he (.namedDie name)
  | literal n => exact step _ _ he (.literal n)
  | binary op left right ihl ihr =>
    exact (ihl he.1).bind fun _ hl => (ihr he.2.1).bind fun _ hr =>
      step _ _ he.2.2 (.binary op hl hr)
  | rollOne sides ih => exact (ih he.1).bind fun _ hs => step _ _ he.2 (.rollOne hs)
  | roll count sides ihc ihs =>
    exact (ihc he.1).bind fun _ hc => (ihs he.2.1).bind fun _ hs =>
      step _ _ he.2.2 (.roll hc hs)
  | critical inner ih => exact (ih he.1).bind fun _ hi => step _ _ he.2 (.critical hi)
  | advantage inner ih => exact (ih he.1).bind fun _ hi => step _ _ he.2 (.advantage hi)
  | disadvantage inner ih => exact (ih he.1).bind fun _ hi => step _ _ he.2 (.disadvantage hi)
  | weapon name => exact step _ _ he (.weapon name)
  | spell name => exact step _ _ he (.spell name)
  | spellAt name level ih => exact (ih he.1).bind fun _ hl => step _ _ he.2 (.spellAt name hl)
  | group inner ih => exact (ih he.1).bind fun _ hi => step _ _ he.2 (.group hi)

/-- A change with effects gives what a pure change gives, in a sense that sequencing keeps, when it
does so for every node. -/
theorem mapNodesM_agrees {m : Type → Type} [Monad m] {Gives : m Expr → Expr → Prop}
    (bind : ∀ {x : m Expr} {a : Expr} {next : Expr → m Expr} {b : Expr},
      Gives x a → Gives (next a) b → Gives (x >>= next) b)
    {f : Expr → m Expr} {g : Expr → Expr} (h : ∀ node, Gives (f node) (g node)) (e : Expr) :
    Gives (e.mapNodesM f) (e.mapNodes g) := by
  induction e with
  | integer n => exact h _
  | namedDie name => exact h _
  | literal n => exact h _
  | binary op left right ihl ihr => exact bind ihl (bind ihr (h _))
  | rollOne sides ih => exact bind ih (h _)
  | roll count sides ihc ihs => exact bind ihc (bind ihs (h _))
  | critical inner ih => exact bind ih (h _)
  | advantage inner ih => exact bind ih (h _)
  | disadvantage inner ih => exact bind ih (h _)
  | weapon name => exact h _
  | spell name => exact h _
  | spellAt name level ih => exact bind ih (h _)
  | group inner ih => exact bind ih (h _)

/-- What relates two changes at related nodes, in a sense that sequencing keeps, relates their
traversals. The nodes of the tree may be assumed to have a property. -/
theorem mapNodesM_related {m : Type → Type} [Monad m] {P : Expr → Prop} {S : Expr → Expr → Prop}
    {R : m Expr → m Expr → Prop}
    (bind : ∀ {x y : m Expr} {next next' : Expr → m Expr},
      R x y → (∀ a b, S a b → R (next a) (next' b)) → R (x >>= next) (y >>= next'))
    {f g : Expr → m Expr}
    (step : ∀ e a b, P e → Rebuilt (fun _ _ => True) e a → Rebuilt S a b → R (f a) (g b))
    {e : Expr} (he : e.Everywhere P) : R (e.mapNodesM f) (e.mapNodesM g) := by
  induction e with
  | integer n => exact step _ _ _ he (.integer n) (.integer n)
  | namedDie name => exact step _ _ _ he (.namedDie name) (.namedDie name)
  | literal n => exact step _ _ _ he (.literal n) (.literal n)
  | binary op left right ihl ihr =>
    exact bind (ihl he.1) fun _ _ hl => bind (ihr he.2.1) fun _ _ hr =>
      step _ _ _ he.2.2 (.binary op trivial trivial) (.binary op hl hr)
  | rollOne sides ih =>
    exact bind (ih he.1) fun _ _ hs => step _ _ _ he.2 (.rollOne trivial) (.rollOne hs)
  | roll count sides ihc ihs =>
    exact bind (ihc he.1) fun _ _ hc => bind (ihs he.2.1) fun _ _ hs =>
      step _ _ _ he.2.2 (.roll trivial trivial) (.roll hc hs)
  | critical inner ih =>
    exact bind (ih he.1) fun _ _ hi => step _ _ _ he.2 (.critical trivial) (.critical hi)
  | advantage inner ih =>
    exact bind (ih he.1) fun _ _ hi => step _ _ _ he.2 (.advantage trivial) (.advantage hi)
  | disadvantage inner ih =>
    exact bind (ih he.1) fun _ _ hi => step _ _ _ he.2 (.disadvantage trivial) (.disadvantage hi)
  | weapon name => exact step _ _ _ he (.weapon name) (.weapon name)
  | spell name => exact step _ _ _ he (.spell name) (.spell name)
  | spellAt name level ih =>
    exact bind (ih he.1) fun _ _ hl => step _ _ _ he.2 (.spellAt name trivial) (.spellAt name hl)
  | group inner ih =>
    exact bind (ih he.1) fun _ _ hi => step _ _ _ he.2 (.group trivial) (.group hi)

/-- What relates two changes node by node, in a sense that sequencing keeps, relates their
traversals. -/
theorem mapNodesM_both {m : Type → Type} [Monad m] {R : m Expr → m Expr → Prop}
    (bind : ∀ {x y : m Expr} {next next' : Expr → m Expr},
      R x y → (∀ a, R (next a) (next' a)) → R (x >>= next) (y >>= next'))
    {f g : Expr → m Expr} (h : ∀ node, R (f node) (g node)) (e : Expr) :
    R (e.mapNodesM f) (e.mapNodesM g) := by
  refine mapNodesM_related (P := fun _ => True) (S := Eq)
    (fun hxy hnext => bind hxy fun a => hnext a a rfl) (fun e a b _ _ hab => ?_)
    (everywhere_iff.mpr fun _ _ => trivial)
  rw [hab.eq]
  exact h b

/-- Changes that agree on every node change trees alike. The nodes of the tree may be assumed to
have a property. -/
theorem mapNodesM_congr {m : Type → Type} [Monad m] {P : Expr → Prop} {f g : Expr → m Expr}
    (h : ∀ e node, P e → Rebuilt (fun _ _ => True) e node → f node = g node) {e : Expr}
    (he : e.Everywhere P) : e.mapNodesM f = e.mapNodesM g := by
  refine mapNodesM_related (S := Eq) (R := Eq) ?_ (fun e a b he hea hab => ?_) he
  · rintro x _ next next' rfl hnext
    rw [funext fun a => hnext a a rfl]
  · rw [← hab.eq]
    exact h e a he hea

end Expr

end SpokenDice
