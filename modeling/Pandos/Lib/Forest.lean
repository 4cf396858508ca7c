import Mathlib.Tactic.Common

/-!
# Forests of Parent Pointers

A forest given by the parent of each node. Nodes are cut off and subtrees are
pruned by resetting parents, which is how an in-place removal of a subtree
takes a forest apart: it detaches one child after the other, prunes the
subtree of each, and drops the root last.

## Main definitions

* `Below`: A node lies in the subtree of another one.
* `Acyclic`: No node lies below one of its children.
* `cut`: A node loses its parent.
* `attach`: A node gets a parent.
* `prune`: All nodes of a set lose their parents.
* `Rooted`: All nodes of a set lie in the tree of one root.

## Theorems

* `below_trans`: Subtrees nest.
* `acyclic_mono`: Resetting parents closes no cycle.
* `below_cut`: Cutting a node off leaves its subtree as it was.
* `below_prune`: Pruning a set closed under children removes that set, and
  nothing else, from the remaining subtrees.
* `acyclic_attach`: A node without children can be given any other parent.
* `rooted_attach`: A tree grows by leaves.
* `rooted_prune`: A tree loses a subtree, unless the root goes with it.
* `rooted_covers`: Only the subtree of the root is the whole tree.
-/

namespace Pandos

namespace Forest

variable {α : Type*}

/-- The node lies in the subtree of `p`. -/
inductive Below (parent : α → Option α) (p : α) : α → Prop
  | self : Below parent p p
  | child {q r : α} (hr : parent r = some q) (hq : Below parent p q) : Below parent p r

/-- No node lies below one of its children. -/
def Acyclic (parent : α → Option α) : Prop :=
  ∀ p q, parent q = some p → ¬ Below parent q p

/-- A set of nodes that contains the children of its members. -/
def Closed (parent : α → Option α) (S : α → Prop) : Prop :=
  ∀ q r, parent r = some q → S q → S r

theorem below_mono {parent parent' : α → Option α}
    (h : ∀ q r, parent' r = some q → parent r = some q) {p q : α} (hb : Below parent' p q) :
    Below parent p q := by
  induction hb with
  | self => exact Below.self
  | child hr _ ih => exact Below.child (h _ _ hr) ih

theorem acyclic_mono {parent parent' : α → Option α}
    (h : ∀ q r, parent' r = some q → parent r = some q) (ha : Acyclic parent) :
    Acyclic parent' :=
  fun p q hq hb => ha p q (h p q hq) (below_mono h hb)

theorem below_trans {parent : α → Option α} {p q r : α} (hq : Below parent p q)
    (hr : Below parent q r) : Below parent p r := by
  induction hr with
  | self => exact hq
  | child hr _ ih => exact Below.child hr ih

theorem closed_below (parent : α → Option α) (p : α) : Closed parent (Below parent p) :=
  fun _ _ hr hq => Below.child hr hq

/-- The subtree of a node without children is the node itself. -/
theorem below_of_no_child {parent : α → Option α} {p q : α} (h : ∀ c, parent c ≠ some p)
    (hb : Below parent p q) : q = p := by
  induction hb with
  | self => rfl
  | child hr _ ih =>
      subst ih
      exact absurd hr (h _)

section Cut

variable [DecidableEq α]

/-- A node loses its parent. -/
def cut (parent : α → Option α) (c : α) : α → Option α :=
  fun q => if q = c then none else parent q

theorem cut_self (parent : α → Option α) (c : α) : cut parent c c = none := by
  simp only [cut, if_true]

theorem cut_some {parent : α → Option α} {c q r : α} :
    cut parent c r = some q ↔ r ≠ c ∧ parent r = some q := by
  unfold cut
  by_cases h : r = c
  · simp only [h, if_true, reduceCtorEq, ne_eq, not_true_eq_false, false_and]
  · simp only [h, if_false, ne_eq, not_false_eq_true, true_and]

/-- The subtree of a node does not depend on where the node hangs. -/
theorem below_cut {parent : α → Option α} (ha : Acyclic parent) (c q : α) :
    Below (cut parent c) c q ↔ Below parent c q := by
  constructor
  · exact below_mono (fun _ _ h => (cut_some.mp h).2)
  · intro hb
    induction hb with
    | self => exact Below.self
    | child hr hq ih =>
        refine Below.child (cut_some.mpr ⟨?_, hr⟩) ih
        rintro rfl
        exact ha _ _ hr hq

/-- A node gets a parent. -/
def attach (parent : α → Option α) (p c : α) : α → Option α :=
  fun q => if q = c then some p else parent q

/-- A leaf that is given another node for a parent closes no cycle. -/
theorem acyclic_attach {parent : α → Option α} (ha : Acyclic parent) {p c : α} (hne : p ≠ c)
    (hleaf : ∀ q, parent q ≠ some c) : Acyclic (attach parent p c) := by
  have hleaf' : ∀ q, attach parent p c q ≠ some c := by
    intro q
    unfold attach
    by_cases hq : q = c
    · rw [if_pos hq]
      exact fun h => hne (Option.some.inj h)
    · rw [if_neg hq]
      exact hleaf q
  have hbelow : ∀ q r, Below (attach parent p c) q r → r ≠ c → Below parent q r := by
    intro q r hb
    induction hb with
    | self => exact fun _ => Below.self
    | @child t r hr _ ih =>
        intro hrc
        have htc : t ≠ c := fun h => hleaf' r (h ▸ hr)
        rw [attach, if_neg hrc] at hr
        exact Below.child hr (ih htc)
  intro r q hq hb
  by_cases hqc : q = c
  · rw [hqc] at hq hb
    rw [attach, if_pos rfl] at hq
    exact hne ((Option.some.inj hq).trans (below_of_no_child hleaf' hb))
  · rw [attach, if_neg hqc] at hq
    have hrc : r ≠ c := fun h => hleaf q (h ▸ hq)
    exact ha r q hq (hbelow q r hb hrc)

end Cut

section Prune

/-- All nodes of a set lose their parents. -/
def prune (parent : α → Option α) (S : α → Prop) [DecidablePred S] : α → Option α :=
  fun q => if S q then none else parent q

variable {parent : α → Option α} {S : α → Prop} [DecidablePred S]

theorem prune_some {q r : α} : prune parent S r = some q ↔ ¬ S r ∧ parent r = some q := by
  unfold prune
  by_cases h : S r
  · simp only [h, if_true, reduceCtorEq, not_true_eq_false, false_and]
  · simp only [h, if_false, not_false_eq_true, true_and]

/-- Pruning removes the set from the subtree of every node outside it. -/
theorem below_prune (hS : Closed parent S) {p q : α} (hp : ¬ S p) :
    Below (prune parent S) p q ↔ Below parent p q ∧ ¬ S q := by
  constructor
  · intro hb
    refine ⟨below_mono (fun _ _ h => (prune_some.mp h).2) hb, ?_⟩
    cases hb with
    | self => exact hp
    | child hr _ => exact (prune_some.mp hr).1
  · rintro ⟨hb, hq⟩
    induction hb with
    | self => exact Below.self
    | child hr _ ih =>
        exact Below.child (prune_some.mpr ⟨hq, hr⟩) (ih (fun h => hq (hS _ _ hr h)))

end Prune

section Tree

/-- All nodes of a set lie in the tree of one root, which is a member. -/
structure Rooted (parent : α → Option α) (S : α → Prop) (r : α) : Prop where
  mem : S r
  root : parent r = none
  below : ∀ q, S q → Below parent r q

variable {parent : α → Option α} {S : α → Prop} {r : α}

/-- Only the root has the root in its subtree. -/
theorem rooted_top (h : Rooted parent S r) {t : α} (hb : Below parent t r) : t = r := by
  cases hb with
  | self => rfl
  | child hr _ =>
      rw [h.root] at hr
      cases hr

/-- A new leaf joins the tree of its parent. -/
theorem rooted_attach [DecidableEq α] (h : Rooted parent S r) {p c : α} (hp : S p) (hc : ¬ S c)
    (hnone : parent c = none) : Rooted (attach parent p c) (fun q => q = c ∨ S q) r := by
  have hold : ∀ q, Below parent r q → Below (attach parent p c) r q := by
    refine fun q => below_mono (fun x y hy => ?_)
    have hyc : y ≠ c := fun hc => by
      rw [hc, hnone] at hy
      cases hy
    rw [attach, if_neg hyc]
    exact hy
  refine ⟨Or.inr h.mem, ?_, ?_⟩
  · rw [attach, if_neg (fun hrc : r = c => hc (hrc ▸ h.mem))]
    exact h.root
  · rintro q (rfl | hq)
    · exact Below.child (by rw [attach, if_pos rfl]) (hold p (h.below p hp))
    · exact hold q (h.below q hq)

/-- The rest of the tree hangs on the root when a subtree is pruned. -/
theorem rooted_prune (h : Rooted parent S r) {t : α} {D : α → Prop} [DecidablePred D]
    (hD : ∀ q, D q ↔ Below parent t q) (ht : t ≠ r) :
    Rooted (prune parent D) (fun q => S q ∧ ¬ D q) r := by
  have hr : ¬ D r := fun hd => ht (rooted_top h ((hD r).mp hd))
  have hclosed : Closed parent D := by
    intro x y hy hx
    rw [hD] at hx ⊢
    exact closed_below parent t x y hy hx
  refine ⟨⟨h.mem, hr⟩, ?_, fun q hq => ?_⟩
  · rw [prune, if_neg hr]
    exact h.root
  · exact (below_prune hclosed hr).mpr ⟨h.below q hq.1, hq.2⟩

/-- Nothing is left outside of the subtree of a node just if the node is the
    root. -/
theorem rooted_covers (h : Rooted parent S r) {t : α} :
    (∀ q, S q → Below parent t q) ↔ t = r := by
  constructor
  · exact fun hall => rooted_top h (hall r h.mem)
  · rintro rfl
    exact h.below

end Tree

end Forest

end Pandos
