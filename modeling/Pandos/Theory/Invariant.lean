import Mathlib.Data.Finset.Card
import Mathlib.Data.Fintype.Card
import Pandos.Lib.Forest
import Pandos.Theory.Asl

/-!
# The Invariant of the Nucleus

What holds of the process table whenever no queue is being patched, and which
part of the state it depends on.

`At k s` is the contract between the handlers and the scheduler: the tables are
well formed, the counters are exact, and `s` is the set of the live processes
that stand in no queue. Between two exceptions that is the active process at
most; while the scheduler swaps two processes it can be both.

## Main definitions

* `PcbWf`, `TreeWf`: The process records and the process tree.
* `Counter.Is`: A counter that never underflowed, with its value.
* `live`, `blocked`: The processes that exist and those that wait.
* `At`: The invariant, with the processes that stand in no queue.
* `Same`: States that agree on all the invariant depends on.

## Theorems

* `nowhere_iff`: A block in no queue stands in no place.
* `At.of_same`: The invariant depends on the queues, the tree and the counters.
* `At.semAdd_none`: A process that stands in no queue waits for nothing.
* `At.not_free`: A process that stands in no queue is live.
-/

namespace Pandos

open Forest

/-- The process records agree with the queues. -/
structure PcbWf (k : Kernel) : Prop where
  free_iff : ∀ p, p ∈ k.procq .pcbFree ↔ (k.pcb p).pPid = NULL_PID
  lo : ∀ p ∈ k.procq .readyQueueLo, (k.pcb p).pPrio = PROCESS_PRIO_LOW
  hi : ∀ p ∈ k.procq .readyQueueHi, (k.pcb p).pPrio = PROCESS_PRIO_HIGH
  prio : ∀ p, (k.pcb p).pPrio = PROCESS_PRIO_LOW ∨ (k.pcb p).pPrio = PROCESS_PRIO_HIGH

/-- The parent of a process. -/
def parentOf (k : Kernel) : PcbId → Option PcbId := fun p => (k.pcb p).pParent

/-- The parents and the lists of children describe one forest of live
    processes. -/
structure TreeWf (k : Kernel) : Prop where
  nodup : ∀ q, (k.child q).Nodup
  mem_iff : ∀ q c, c ∈ k.child q ↔ parentOf k c = some q
  acyclic : Acyclic (parentOf k)
  live : ∀ q c, parentOf k c = some q → c ∉ k.procq .pcbFree ∧ q ∉ k.procq .pcbFree

/-! ## Counters -/

/-- A counter shows a number and never ran below zero. -/
def Counter.Is (c : Counter) (n : Nat) : Prop := c.val.toNat = n ∧ c.underflow = false

theorem counter_is_zero : Counter.zero.Is 0 := ⟨rfl, rfl⟩

theorem counter_is_incr {c : Counter} {n : Nat} (h : c.Is n) (hn : n ≤ MAX_PROC) :
    c.incr.Is (n + 1) := by
  rcases h with ⟨hv, hu⟩
  refine ⟨?_, hu⟩
  rw [Counter.incr, BitVec.toNat_add, hv]
  simp only [MAX_PROC] at hn
  change (n + 1) % 2 ^ 32 = n + 1
  omega

theorem counter_is_decr {c : Counter} {n : Nat} (h : c.Is (n + 1)) : c.decr.Is n := by
  rcases h with ⟨hv, hu⟩
  have hlt := c.val.isLt
  have hne : (c.val == 0) = false := by
    rw [beq_eq_false_iff_ne]
    intro h0
    rw [h0] at hv
    exact Nat.succ_ne_zero n hv.symm
  refine ⟨?_, ?_⟩
  · rw [Counter.decr, BitVec.toNat_sub, hv]
    change (2 ^ 32 - 1 + (n + 1)) % 2 ^ 32 = n
    omega
  · rw [Counter.decr, hu, hne]
    rfl

/-- The processes that exist. -/
def live (k : Kernel) : Finset PcbId := Finset.univ.filter (fun p => p ∉ k.procq .pcbFree)

/-- The processes that wait for a semaphore. -/
def blocked (k : Kernel) : Finset PcbId :=
  Finset.univ.filter (fun p => p ∉ k.procq .pcbFree ∧ (k.pcb p).pSemAdd ≠ none)

theorem mem_live (k : Kernel) (p : PcbId) : p ∈ live k ↔ p ∉ k.procq .pcbFree := by
  simp only [live, Finset.mem_filter, Finset.mem_univ, true_and]

theorem mem_blocked (k : Kernel) (p : PcbId) :
    p ∈ blocked k ↔ p ∉ k.procq .pcbFree ∧ (k.pcb p).pSemAdd ≠ none := by
  simp only [blocked, Finset.mem_filter, Finset.mem_univ, true_and]

theorem card_le_maxProc (s : Finset PcbId) : s.card ≤ MAX_PROC := by
  have h := Finset.card_le_univ s
  rwa [Fintype.card_fin] at h

/-- The counters of processes are exact. -/
structure Counted (k : Kernel) : Prop where
  processes : k.processCount.Is (live k).card
  softblock : k.softblockCount.Is (blocked k).card

/-! ## The contract -/

/-- The tables are well formed. -/
structure Wf (k : Kernel) : Prop where
  asl : AslWf k
  pcb : PcbWf k
  tree : TreeWf k

/-- The tables are well formed, the counters are exact, and the processes in
    no queue are those of `s`. -/
structure At (k : Kernel) (s : Finset PcbId) : Prop where
  wf : Wf k
  counted : Counted k
  running : ∀ p, k.procq.Null p ↔ p ∈ s

/-- A block whose list pointers are null stands in no place. -/
theorem nowhere_iff {k : Kernel} (hw : AslWf k) (p : PcbId) :
    k.procq.Null p ↔ (places k).Nowhere p := by
  constructor
  · intro h
    refine ⟨h .pcbFree, h .readyQueueLo, h .readyQueueHi, fun a ha => ?_⟩
    rcases (mem_waiters_iff hw a p).mp ha with ⟨i, _, _, hq⟩
    exact h (.sProcq i) hq
  · rintro ⟨hf, hl, hh, hwait⟩ q
    cases q with
    | pcbFree => exact hf
    | readyQueueLo => exact hl
    | readyQueueHi => exact hh
    | sProcq i => exact fun hq => hwait _ (mem_waiters_of_mem_procq hw hq)

theorem At.null {k : Kernel} {s : Finset PcbId} {p : PcbId} (h : At k s) (hp : p ∈ s) :
    k.procq.Null p :=
  (h.running p).mpr hp

/-- A process that stands in no queue is live. -/
theorem At.not_free {k : Kernel} {s : Finset PcbId} {p : PcbId} (h : At k s) (hp : p ∈ s) :
    p ∉ k.procq .pcbFree :=
  h.null hp .pcbFree

/-- A process that stands in no queue waits for nothing. -/
theorem semAdd_none_of_null {k : Kernel} (hw : AslWf k) {p : PcbId} (hp : k.procq.Null p) :
    (k.pcb p).pSemAdd = none := by
  cases hs : (k.pcb p).pSemAdd with
  | none => rfl
  | some a =>
      rcases hw.blocked p a hs (hp .pcbFree) with ⟨i, _, _, hq⟩
      exact absurd hq (hp (.sProcq i))

theorem At.semAdd_none {k : Kernel} {s : Finset PcbId} {p : PcbId} (h : At k s) (hp : p ∈ s) :
    (k.pcb p).pSemAdd = none :=
  semAdd_none_of_null h.wf.asl (h.null hp)

/-! ## What the invariant depends on -/

/-- The states agree on the queues, the tree and the counters. -/
structure Same (k k' : Kernel) : Prop where
  procq : k'.procq = k.procq
  child : k'.child = k.child
  slink : k'.slink = k.slink
  sKey : k'.sKey = k.sKey
  processCount : k'.processCount = k.processCount
  softblockCount : k'.softblockCount = k.softblockCount
  parent : ∀ p, (k'.pcb p).pParent = (k.pcb p).pParent
  semAdd : ∀ p, (k'.pcb p).pSemAdd = (k.pcb p).pSemAdd
  prio : ∀ p, (k'.pcb p).pPrio = (k.pcb p).pPrio
  pid : ∀ p, (k'.pcb p).pPid = (k.pcb p).pPid

theorem same_refl (k : Kernel) : Same k k :=
  ⟨rfl, rfl, rfl, rfl, rfl, rfl, fun _ => rfl, fun _ => rfl, fun _ => rfl, fun _ => rfl⟩

theorem same_trans {k k' k'' : Kernel} (h : Same k k') (h' : Same k' k'') : Same k k'' :=
  ⟨h'.procq.trans h.procq, h'.child.trans h.child, h'.slink.trans h.slink,
    h'.sKey.trans h.sKey, h'.processCount.trans h.processCount,
    h'.softblockCount.trans h.softblockCount, fun p => (h'.parent p).trans (h.parent p),
    fun p => (h'.semAdd p).trans (h.semAdd p), fun p => (h'.prio p).trans (h.prio p),
    fun p => (h'.pid p).trans (h.pid p)⟩

/-- A change of a record leaves alone whatever it does not depend on. -/
theorem modPcb_field {β : Type} (k : Kernel) (p : PcbId) {f : Pcb → Pcb} {g : Pcb → β}
    (h : ∀ t, g (f t) = g t) (q : PcbId) : g ((k.modPcb p f).pcb q) = g (k.pcb q) := by
  simp only [Kernel.modPcb]
  by_cases hq : q = p
  · rw [if_pos hq, h, hq]
  · rw [if_neg hq]

/-- A change of the saved state, the time or the support pointer of a process. -/
theorem same_modPcb (k : Kernel) (p : PcbId) (f : Pcb → Pcb)
    (hf : ∀ t, (f t).pParent = t.pParent ∧ (f t).pSemAdd = t.pSemAdd ∧ (f t).pPrio = t.pPrio ∧
      (f t).pPid = t.pPid) : Same k (k.modPcb p f) := by
  exact ⟨rfl, rfl, rfl, rfl, rfl, rfl, modPcb_field k p (fun t => (hf t).1),
    modPcb_field k p (fun t => (hf t).2.1), modPcb_field k p (fun t => (hf t).2.2.1),
    modPcb_field k p (fun t => (hf t).2.2.2)⟩

theorem Same.places {k k' : Kernel} (h : Same k k') : places k' = places k :=
  places_congr h.procq h.slink h.sKey

theorem aslWf_congr {k k' : Kernel} (hw : AslWf k) (hq : k'.procq = k.procq)
    (hs : k'.slink = k.slink) (hk : k'.sKey = k.sKey)
    (ha : ∀ p, (k'.pcb p).pSemAdd = (k.pcb p).pSemAdd) : AslWf k' := by
  constructor
  · rw [hq]
    exact hw.procq
  · rw [hs]
    exact hw.slink
  · rw [hs]
    exact hw.listed
  · rw [hs, hq]
    exact hw.waiting
  · rw [hs, hq]
    exact hw.idle
  · rw [hs, hk]
    exact hw.aligned
  · rw [hs, hk]
    exact hw.key_inj
  · rw [hq, hk]
    intro i p hp
    rw [ha]
    exact hw.queued i p hp
  · rw [hq, hs, hk]
    intro p a hp
    rw [ha] at hp
    exact hw.blocked p a hp

theorem Same.aslWf {k k' : Kernel} (h : Same k k') (hw : AslWf k) : AslWf k' :=
  aslWf_congr hw h.procq h.slink h.sKey h.semAdd

theorem Same.pcbWf {k k' : Kernel} (h : Same k k') (hw : PcbWf k) : PcbWf k' := by
  constructor
  · intro p
    rw [h.procq, h.pid]
    exact hw.free_iff p
  · intro p hp
    rw [h.prio]
    exact hw.lo p (h.procq ▸ hp)
  · intro p hp
    rw [h.prio]
    exact hw.hi p (h.procq ▸ hp)
  · intro p
    rw [h.prio]
    exact hw.prio p

theorem Same.treeWf {k k' : Kernel} (h : Same k k') (hw : TreeWf k) : TreeWf k' := by
  have hp : parentOf k' = parentOf k := funext h.parent
  constructor
  · rw [h.child]
    exact hw.nodup
  · rw [h.child, hp]
    exact hw.mem_iff
  · rw [hp]
    exact hw.acyclic
  · rw [h.procq, hp]
    exact hw.live

theorem Same.wf {k k' : Kernel} (h : Same k k') (hw : Wf k) : Wf k' :=
  ⟨h.aslWf hw.asl, h.pcbWf hw.pcb, h.treeWf hw.tree⟩

theorem Same.live {k k' : Kernel} (h : Same k k') : live k' = live k := by
  rw [Pandos.live, Pandos.live, h.procq]

theorem Same.blocked {k k' : Kernel} (h : Same k k') : blocked k' = blocked k := by
  unfold Pandos.blocked
  rw [h.procq]
  congr 1
  funext p
  rw [h.semAdd]

theorem Same.counted {k k' : Kernel} (h : Same k k') (hc : Counted k) : Counted k' := by
  constructor
  · rw [h.processCount, h.live]
    exact hc.processes
  · rw [h.softblockCount, h.blocked]
    exact hc.softblock

/-- The invariant depends on the queues, the tree and the counters only. -/
theorem At.of_same {k k' : Kernel} {s : Finset PcbId} (h : At k s) (hs : Same k k') :
    At k' s := by
  refine ⟨hs.wf h.wf, hs.counted h.counted, ?_⟩
  rw [hs.procq]
  exact h.running

end Pandos
