import Mathlib.Data.List.Nodup
import Mathlib.Data.Fintype.Defs
import Mathlib.Tactic.Common

/-!
# Families of Intrusive Queues

Several queues threaded through one link field per node. A node carries a
single pair of pointers, so it can stand in at most one queue of the family,
and removing it does not say which queue it is taken from: the neighbours are
patched and whatever queue they belong to loses the node.

`Queues ι α` abstracts such a family to the sequence of nodes behind every
sentinel. Insertion does not check that the node is free. Appending a node
that already stands somewhere puts it in two sequences at once, which is where
the pointer version would tear both lists apart, so `Wf` says that this never
happened and every client has to show that it inserts only `Null` nodes.

## Main definitions

* `Queues`: The sequence of nodes behind every sentinel.
* `addTail`, `addHead`: Insertion at either end of one queue.
* `del`: Unlinking a node from whichever queue it stands in.
* `clear`: Making a sentinel point at itself.
* `Null`: A node whose links are both null.
* `Wf`: Every node stands in at most one place of one queue.

## Theorems

* `mem_addTail`, `mem_addHead`, `mem_del`: Membership after one operation.
* `wf_addTail`, `wf_addHead`, `wf_del`: Operations keep a family well formed.
* `null_del`: Null nodes after one operation.
* `del_of_null`: Unlinking a null node changes nothing.
* `foldl_addHead`: Filling a queue from its head.
-/

namespace Pandos

/-- A family of queues: the nodes behind each sentinel, first one first. -/
abbrev Queues (ι α : Type*) := ι → List α

namespace Queues

variable {ι α : Type*}

/-- The node stands in no queue of the family. -/
def Null (q : Queues ι α) (x : α) : Prop :=
  ∀ h, x ∉ q h

instance [Fintype ι] [DecidableEq α] (q : Queues ι α) (x : α) : Decidable (q.Null x) :=
  inferInstanceAs (Decidable (∀ h, x ∉ q h))

/-- Every node stands in at most one place of at most one queue. -/
structure Wf (q : Queues ι α) : Prop where
  nodup : ∀ h, (q h).Nodup
  unique : ∀ h h' x, x ∈ q h → x ∈ q h' → h = h'

section Insert

variable [DecidableEq ι]

/-- Insert a node at the tail of one queue. -/
def addTail (q : Queues ι α) (h : ι) (x : α) : Queues ι α :=
  fun i => if i = h then q h ++ [x] else q i

/-- Insert a node at the head of one queue. -/
def addHead (q : Queues ι α) (h : ι) (x : α) : Queues ι α :=
  fun i => if i = h then x :: q h else q i

/-- Point a sentinel at itself. -/
def clear (q : Queues ι α) (h : ι) : Queues ι α :=
  fun i => if i = h then [] else q i

theorem addTail_self (q : Queues ι α) (h : ι) (x : α) : q.addTail h x h = q h ++ [x] := by
  simp only [addTail, if_true]

theorem addTail_other (q : Queues ι α) (h h' : ι) (x : α) (hne : h' ≠ h) :
    q.addTail h x h' = q h' := by
  simp only [addTail, if_neg hne]

theorem addHead_self (q : Queues ι α) (h : ι) (x : α) : q.addHead h x h = x :: q h := by
  simp only [addHead, if_true]

theorem addHead_other (q : Queues ι α) (h h' : ι) (x : α) (hne : h' ≠ h) :
    q.addHead h x h' = q h' := by
  simp only [addHead, if_neg hne]

theorem clear_self (q : Queues ι α) (h : ι) : q.clear h h = [] := by
  simp only [clear, if_true]

theorem clear_other (q : Queues ι α) (h h' : ι) (hne : h' ≠ h) : q.clear h h' = q h' := by
  simp only [clear, if_neg hne]

theorem mem_addTail (q : Queues ι α) (h h' : ι) (x y : α) :
    y ∈ q.addTail h x h' ↔ y ∈ q h' ∨ (h' = h ∧ y = x) := by
  by_cases hh : h' = h
  · rw [hh, addTail_self]
    simp only [List.mem_append, List.mem_singleton, true_and]
  · rw [addTail_other q h h' x hh]
    simp only [hh, false_and, or_false]

theorem mem_addHead (q : Queues ι α) (h h' : ι) (x y : α) :
    y ∈ q.addHead h x h' ↔ y ∈ q h' ∨ (h' = h ∧ y = x) := by
  by_cases hh : h' = h
  · rw [hh, addHead_self]
    simp only [List.mem_cons, true_and, or_comm]
  · rw [addHead_other q h h' x hh]
    simp only [hh, false_and, or_false]

theorem wf_addTail {q : Queues ι α} (hw : q.Wf) (h : ι) {x : α} (hx : q.Null x) :
    (q.addTail h x).Wf := by
  constructor
  · intro h'
    by_cases hh : h' = h
    · rw [hh, addTail_self]
      exact (hw.nodup h).append (List.nodup_singleton x)
        (List.disjoint_singleton.mpr (hx h))
    · rw [addTail_other q h h' x hh]
      exact hw.nodup h'
  · intro a b y ha hb
    rw [mem_addTail] at ha hb
    rcases ha with ha | ⟨rfl, rfl⟩ <;> rcases hb with hb | ⟨rfl, hy⟩
    · exact hw.unique a b y ha hb
    · exact absurd (hy ▸ ha) (hx a)
    · exact absurd hb (hx b)
    · rfl

theorem wf_addHead {q : Queues ι α} (hw : q.Wf) (h : ι) {x : α} (hx : q.Null x) :
    (q.addHead h x).Wf := by
  constructor
  · intro h'
    by_cases hh : h' = h
    · rw [hh, addHead_self]
      exact List.nodup_cons.mpr ⟨hx h, hw.nodup h⟩
    · rw [addHead_other q h h' x hh]
      exact hw.nodup h'
  · intro a b y ha hb
    rw [mem_addHead] at ha hb
    rcases ha with ha | ⟨rfl, rfl⟩ <;> rcases hb with hb | ⟨rfl, hy⟩
    · exact hw.unique a b y ha hb
    · exact absurd (hy ▸ ha) (hx a)
    · exact absurd hb (hx b)
    · rfl

/-- Inserting nodes at the head one after the other reverses their order. -/
theorem foldl_addHead (h : ι) (xs : List α) : ∀ q : Queues ι α,
    xs.foldl (fun q x => q.addHead h x) q = fun i => if i = h then xs.reverse ++ q h else q i := by
  induction xs with
  | nil =>
      intro q
      funext i
      by_cases hi : i = h
      · rw [if_pos hi, hi]
        rfl
      · rw [if_neg hi]
        rfl
  | cons x xs ih =>
      intro q
      rw [List.foldl_cons, ih]
      funext i
      by_cases hi : i = h
      · rw [if_pos hi, if_pos hi, addHead_self, List.reverse_cons, List.append_assoc]
        rfl
      · rw [if_neg hi, if_neg hi, addHead_other q h i x hi]

end Insert

section Unlink

variable [DecidableEq α]

/-- Unlink a node from the queue it stands in. -/
def del (q : Queues ι α) (x : α) : Queues ι α :=
  fun h => (q h).erase x

theorem mem_del {q : Queues ι α} (hw : q.Wf) (h : ι) (x y : α) :
    y ∈ q.del x h ↔ y ∈ q h ∧ y ≠ x := by
  rw [del, (hw.nodup h).mem_erase_iff, and_comm]

theorem wf_del {q : Queues ι α} (hw : q.Wf) (x : α) : (q.del x).Wf := by
  constructor
  · intro h
    exact (hw.nodup h).erase x
  · intro a b y ha hb
    exact hw.unique a b y (List.mem_of_mem_erase ha) (List.mem_of_mem_erase hb)

theorem null_del {q : Queues ι α} (hw : q.Wf) (x y : α) :
    (q.del x).Null y ↔ q.Null y ∨ y = x := by
  constructor
  · intro hn
    by_cases hy : y = x
    · exact Or.inr hy
    · exact Or.inl (fun h hm => hn h ((mem_del hw h x y).mpr ⟨hm, hy⟩))
  · intro hy h hm
    rw [mem_del hw] at hm
    rcases hy with hy | hy
    · exact hy h hm.1
    · exact hm.2 hy

theorem del_of_null {q : Queues ι α} {x : α} (hx : q.Null x) : q.del x = q := by
  funext h
  exact List.erase_of_not_mem (hx h)

theorem del_other {q : Queues ι α} (hw : q.Wf) {h h' : ι} {x : α} (hx : x ∈ q h)
    (hne : h' ≠ h) : q.del x h' = q h' := by
  refine List.erase_of_not_mem (fun hm => hne ?_)
  exact hw.unique h' h x hm hx

theorem del_head {q : Queues ι α} {h : ι} {x : α} {xs : List α} (hq : q h = x :: xs) :
    q.del x h = xs := by
  rw [del, hq, List.erase_cons_head]

end Unlink

end Queues

end Pandos
