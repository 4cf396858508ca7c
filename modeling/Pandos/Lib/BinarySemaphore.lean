import Mathlib.Tactic.Common

/-!
# Binary Semaphores

A binary semaphore at which both operations can wait: `P` waits while the value
is zero, `V` while it is one. An operation that does not wait releases the
longest waiting process if there is one, and changes the value otherwise. One
queue serves the waiters of both kinds.

A `Book` is kept beside the semaphore by somebody who watches it: who waits
with which operation, how many operations of each kind were finished, and in
which order waiters were released. Every wait gets the next ticket. Somebody
who leaves the queue alive has finished the operation, somebody who was killed
has not.

`Sound` is what the book shows of a semaphore that works. It is kept by all
that happens to a semaphore, and it says that the waiters are of the kind the
value stops, that the value accounts for the finished operations, and that
tickets are released in the order in which they were given out.

## Main definitions

* `SemOp`: The two operations.
* `Wait`, `Book`: The record of a semaphore.
* `Book.issue`, `Book.depart`: Somebody starts an operation, and somebody leaves
  the queue.
* `Sound`: What a book shows of a semaphore that works.

## Theorems

* `sound_empty`: The book of a semaphore nobody has used.
* `sound_block`, `sound_pass`, `sound_wake`, `sound_kill`: Whatever happens to a
  semaphore keeps its book sound.
-/

namespace Pandos

/-- The two operations on a semaphore. -/
inductive SemOp
  | P
  | V
  deriving DecidableEq

namespace SemOp

/-- The value at which an operation waits. -/
def stop : SemOp → Int
  | P => 0
  | V => 1

/-- What an operation does to the value when nobody waits. -/
def delta : SemOp → Int
  | P => -1
  | V => 1

end SemOp

/-- Somebody waits to finish an operation. -/
structure Wait (α : Type*) where
  ticket : Nat
  who : α
  op : SemOp

/-- The record of a semaphore: the waits in the order of the queue, the number
    of tickets given out, the tickets of the waits that were finished, first
    one first, and the number of finished operations. -/
structure Book (α : Type*) where
  waiting : List (Wait α)
  tickets : Nat
  released : List Nat
  finished : SemOp → Nat

namespace Book

variable {α : Type*}

/-- The record of a semaphore nobody has used. -/
def empty : Book α :=
  { waiting := [], tickets := 0, released := [], finished := fun _ => 0 }

/-- Somebody starts an operation, which waits or is finished at once. -/
def issue (l : Book α) (x : α) (o : SemOp) (waits : Bool) : Book α :=
  if waits then
    { l with
      waiting := l.waiting ++ [{ ticket := l.tickets, who := x, op := o }]
      tickets := l.tickets + 1 }
  else { l with finished := fun o' => if o' = o then l.finished o + 1 else l.finished o' }

/-- Whoever does not stay leaves the queue. The operation is finished if the
    process is alive. -/
def depart (l : Book α) (stays alive : α → Bool) : Book α :=
  let back := l.waiting.filter (fun w => !stays w.who && alive w.who)
  { l with
    waiting := l.waiting.filter (fun w => stays w.who)
    released := l.released ++ back.map Wait.ticket
    finished := fun o => l.finished o + back.countP (fun w => w.op == o) }

/-- The tickets in the order in which they should leave the queue. -/
def order (l : Book α) : List Nat := l.released ++ l.waiting.map Wait.ticket

end Book

/-- What a book shows of a semaphore that works, for the value `v₀` it started
    with and the value `v` it has. -/
structure Sound {α : Type*} (v₀ v : Int) (l : Book α) : Prop where
  binary : v = 0 ∨ v = 1
  kind : ∀ w ∈ l.waiting, w.op.stop = v
  balance : v = v₀ + l.finished .V - l.finished .P
  sorted : l.order.Pairwise (· < ·)
  fresh : ∀ t ∈ l.order, t < l.tickets

section Sound

variable {α : Type*} {v₀ v : Int} {l : Book α}

theorem sound_empty (h : v₀ = 0 ∨ v₀ = 1) : Sound v₀ v₀ (Book.empty : Book α) := by
  refine ⟨h, fun w hw => absurd hw List.not_mem_nil, ?_, List.Pairwise.nil,
    fun t ht => absurd ht List.not_mem_nil⟩
  change v₀ = v₀ + ((0 : Nat) : Int) - ((0 : Nat) : Int)
  omega

/-- An operation waits at the value that stops it. -/
theorem sound_block (h : Sound v₀ v l) (x : α) {o : SemOp} (hv : v = o.stop) :
    Sound v₀ v (l.issue x o true) := by
  have horder : (l.issue x o true).order = l.order ++ [l.tickets] := by
    simp only [Book.order, Book.issue, if_true, List.map_append, List.map_cons, List.map_nil,
      List.append_assoc]
  refine ⟨h.binary, fun w hw => ?_, h.balance, ?_, fun t ht => ?_⟩
  · simp only [Book.issue, if_true, List.mem_append, List.mem_singleton] at hw
    rcases hw with hw | rfl
    · exact h.kind w hw
    · exact hv.symm
  · rw [horder, List.pairwise_append]
    refine ⟨h.sorted, List.pairwise_singleton _ _, fun t ht u hu => ?_⟩
    rw [List.mem_singleton.mp hu]
    exact h.fresh t ht
  · rw [horder, List.mem_append, List.mem_singleton] at ht
    change t < l.tickets + 1
    rcases ht with ht | rfl
    · exact Nat.lt_succ_of_lt (h.fresh t ht)
    · exact Nat.lt_succ_self _

/-- An operation that neither waits nor finds a waiter changes the value. -/
theorem sound_pass (h : Sound v₀ v l) (x : α) {o : SemOp} (hv : v ≠ o.stop)
    (hn : l.waiting = []) : Sound v₀ (v + o.delta) (l.issue x o false) := by
  have hb := h.balance
  refine ⟨?_, fun w hw => ?_, ?_, h.sorted, h.fresh⟩
  · cases o with
    | P =>
        rw [h.binary.resolve_left hv]
        exact Or.inl rfl
    | V =>
        rw [h.binary.resolve_right hv]
        exact Or.inr rfl
  · simp only [Book.issue, Bool.false_eq_true, if_false, hn, List.not_mem_nil] at hw
  · cases o with
    | P =>
        simp only [Book.issue, Bool.false_eq_true, if_false, SemOp.delta, reduceCtorEq, if_true]
        omega
    | V =>
        simp only [Book.issue, Bool.false_eq_true, if_false, SemOp.delta, reduceCtorEq, if_true]
        omega

/-- Leaving the queue keeps the order of the tickets. -/
theorem order_depart (h : Sound v₀ v l) {stays alive : α → Bool}
    (hs : List.Sublist (l.depart stays alive).order l.order) :
    (l.depart stays alive).order.Pairwise (· < ·) ∧
      ∀ t ∈ (l.depart stays alive).order, t < l.tickets :=
  ⟨h.sorted.sublist hs, fun t ht => h.fresh t (hs.subset ht)⟩

/-- Somebody who is killed leaves the queue without finishing. -/
theorem sound_kill (h : Sound v₀ v l) {stays alive : α → Bool}
    (hd : ∀ w ∈ l.waiting, stays w.who = false → alive w.who = false) :
    Sound v₀ v (l.depart stays alive) := by
  have hback : l.waiting.filter (fun w => !stays w.who && alive w.who) = [] := by
    rw [List.filter_eq_nil_iff]
    intro w hw hc
    rw [Bool.and_eq_true, Bool.not_eq_true'] at hc
    rw [hd w hw hc.1] at hc
    exact Bool.false_ne_true hc.2
  have hsub : List.Sublist (l.depart stays alive).order l.order := by
    simp only [Book.order, Book.depart, hback, List.map_nil, List.append_nil]
    exact (List.filter_sublist.map _).append_left _
  rcases order_depart h hsub with ⟨hsorted, hfresh⟩
  refine ⟨h.binary, fun w hw => h.kind w (List.mem_filter.mp hw).1, ?_, hsorted, hfresh⟩
  simp only [Book.depart, hback, List.countP_nil, Nat.add_zero]
  exact h.balance

/-- An operation that finds a waiter releases the longest waiting one. Both
    operations are finished, and they are not of the same kind. -/
theorem sound_wake (h : Sound v₀ v l) (x : α) {o : SemOp} (hv : v ≠ o.stop) {w : Wait α}
    {ws : List (Wait α)} (hw : l.waiting = w :: ws) {stays alive : α → Bool}
    (hgo : stays w.who = false) (halive : alive w.who = true)
    (hstay : ∀ u ∈ ws, stays u.who = true) :
    Sound v₀ v ((l.depart stays alive).issue x o false) := by
  have hback : l.waiting.filter (fun w => !stays w.who && alive w.who) = [w] := by
    have hws : ws.filter (fun w => !stays w.who && alive w.who) = [] := by
      rw [List.filter_eq_nil_iff]
      intro u hu hc
      rw [hstay u hu] at hc
      exact Bool.false_ne_true hc
    rw [hw, List.filter_cons, hgo, halive, hws]
    rfl
  have hrest : l.waiting.filter (fun w => stays w.who) = ws := by
    rw [hw, List.filter_cons, hgo, if_neg Bool.false_ne_true, List.filter_eq_self]
    exact hstay
  have horder : (l.depart stays alive).order = l.order := by
    simp only [Book.order, Book.depart, hback, hrest]
    rw [hw, List.map_cons, List.map_cons, List.map_nil, List.append_assoc]
    rfl
  have hsub : List.Sublist (l.depart stays alive).order l.order :=
    horder ▸ List.Sublist.refl _
  rcases order_depart h hsub with ⟨hsorted, hfresh⟩
  have hkind : w.op.stop = v := h.kind w (hw ▸ List.mem_cons_self)
  have hb := h.balance
  refine ⟨h.binary, fun u hu => ?_, ?_, hsorted, hfresh⟩
  · exact h.kind u (List.mem_filter.mp hu).1
  · simp only [Book.issue, Bool.false_eq_true, if_false, Book.depart, hback, List.countP_cons,
      List.countP_nil]
    have hne : w.op ≠ o := fun hc => hv (hc ▸ hkind.symm)
    cases o with
    | P =>
        have hwV : w.op = .V := by
          cases hop : w.op with
          | P => exact absurd hop hne
          | V => rfl
        simp only [hwV, if_true, reduceCtorEq, if_false, beq_self_eq_true, Bool.false_eq_true,
          show (SemOp.V == SemOp.P) = false from rfl]
        omega
    | V =>
        have hwP : w.op = .P := by
          cases hop : w.op with
          | P => rfl
          | V => exact absurd hop hne
        simp only [hwP, if_true, reduceCtorEq, if_false, beq_self_eq_true, Bool.false_eq_true,
          show (SemOp.P == SemOp.V) = false from rfl]
        omega

end Sound

end Pandos
