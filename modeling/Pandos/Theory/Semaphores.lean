import Mathlib.Data.Finset.Option
import Pandos.Lib.Mutex
import Pandos.Theory.KillProgeny

/-!
# The Two Operations of a Semaphore

What `P` and `V` can do, one constructor for each branch. Both have the same
three: at their bounding value they block, at any other value they release the
longest waiting process if there is one and change the word if there is none.
Neither ever reaches its panic, because a process that stands in no queue can
always be queued.

## Main definitions

* `Frame`: States that differ in queues and semaphore words only.
* `PStep`, `VStep`: The branches of the two operations.

## Theorems

* `P_spec`, `V_spec`: The operations return through one of their branches.
* `VStep.at`: The branches of `V` keep the invariant.
* `PStep.frame`, `VStep.frame`: The branches leave everything else alone.
* `PStep.op`, `VStep.op`: On a word that holds zero or one the branches are the
  two operations of a binary semaphore.
-/

namespace Pandos

/-! ## What a semaphore operation leaves alone -/

/-- The states differ at most in queues, descriptors, semaphore words and the
    counter of blocked processes. -/
structure Frame (k k' : Kernel) : Prop where
  child : k'.child = k.child
  processCount : k'.processCount = k.processCount
  activeProcess : k'.activeProcess = k.activeProcess
  yieldProcess : k'.yieldProcess = k.yieldProcess
  startTod : k'.startTod = k.startTod
  recycleCount : k'.recycleCount = k.recycleCount
  sup : k'.sup = k.sup
  bus : k'.bus = k.bus
  parent : ∀ p, (k'.pcb p).pParent = (k.pcb p).pParent
  state : ∀ p, (k'.pcb p).pS = (k.pcb p).pS
  time : ∀ p, (k'.pcb p).pTime = (k.pcb p).pTime
  support : ∀ p, (k'.pcb p).pSupport = (k.pcb p).pSupport
  prio : ∀ p, (k'.pcb p).pPrio = (k.pcb p).pPrio
  pid : ∀ p, (k'.pcb p).pPid = (k.pcb p).pPid
  free : k'.procq .pcbFree = k.procq .pcbFree

theorem frame_store (k : Kernel) (a v : Word) : Frame k (k.store a v) :=
  ⟨rfl, rfl, rfl, rfl, rfl, rfl, rfl, rfl, fun _ => rfl, fun _ => rfl, fun _ => rfl, fun _ => rfl,
    fun _ => rfl, fun _ => rfl, rfl⟩

theorem Blocked.frame {k k' : Kernel} {a : Word} {p : PcbId} (h : Blocked k a p k') :
    Frame k k' := by
  rcases h with ⟨_, hpl, q, s, y, rfl⟩
  have hf := fun r => setSemAdd_fields k p r (some a)
  exact ⟨rfl, rfl, rfl, rfl, rfl, rfl, rfl, rfl, fun r => (hf r).1, fun r => (hf r).2.2.2.1,
    fun r => (hf r).2.2.2.2.1, fun r => (hf r).2.2.2.2.2, fun r => (hf r).2.1,
    fun r => (hf r).2.2.1, congrArg Places.free hpl⟩

theorem Woken.frame {k k' : Kernel} {a : Word} {p : PcbId} (h : Woken k a p k') (hw : AslWf k) :
    Frame k k' := by
  rcases h with ⟨⟨ps, hp⟩, _, hpl, ⟨q, s, rfl⟩, _⟩
  have hf := fun r => setSemAdd_fields k p r none
  refine ⟨rfl, rfl, rfl, rfl, rfl, rfl, rfl, rfl, fun r => (hf r).1, fun r => (hf r).2.2.2.1,
    fun r => (hf r).2.2.2.2.1, fun r => (hf r).2.2.2.2.2, fun r => (hf r).2.1,
    fun r => (hf r).2.2.1, ?_⟩
  have hnf : p ∉ k.procq .pcbFree := not_free_of_mem_waiters hw (hp ▸ List.mem_cons_self)
  have hfree : q .pcbFree = (k.procq .pcbFree).erase p := by
    have h := congrArg Places.free hpl
    rw [Places.ready] at h
    split at h <;> exact h
  exact hfree.trans (List.erase_of_not_mem hnf)

theorem Blocked.mem {k k' : Kernel} {a : Word} {p : PcbId} (h : Blocked k a p k') :
    k'.mem = k.mem := by
  rcases h with ⟨_, _, q, s, y, rfl⟩
  rfl

theorem Woken.mem {k k' : Kernel} {a : Word} {p : PcbId} (h : Woken k a p k') :
    k'.mem = k.mem := by
  rcases h with ⟨_, _, _, ⟨q, s, rfl⟩, _⟩
  rfl

/-- The queue of a semaphore after a process blocked. -/
theorem Blocked.waiters {k k' : Kernel} {a : Word} {p : PcbId} (h : Blocked k a p k') (b : Word) :
    waiters k' b = if b = a then waiters k a ++ [p] else waiters k b :=
  congrFun (congrArg Places.wait h.places) b

/-- The queue of a semaphore after its longest waiter was woken. -/
theorem Woken.waiters {k k' : Kernel} {a : Word} {p : PcbId} (h : Woken k a p k') (hw : AslWf k)
    (b : Word) : waiters k' b = if b = a then (waiters k a).tail else waiters k b := by
  rcases h.head with ⟨ps, hp⟩
  have hwait : Pandos.waiters k' b = (Pandos.waiters k b).erase p := by
    have h' := congrFun (congrArg Places.wait h.places) b
    rw [Places.ready] at h'
    split at h' <;> exact h'
  rw [hwait]
  by_cases hb : b = a
  · rw [if_pos hb, hb, hp, List.erase_cons_head, List.tail_cons]
  · rw [if_neg hb]
    refine List.erase_of_not_mem (fun hm => hb ?_)
    have ha := semAdd_of_mem_waiters hw (hp ▸ List.mem_cons_self : p ∈ Pandos.waiters k a)
    have hb' := semAdd_of_mem_waiters hw hm
    exact Option.some.inj (hb'.symm.trans ha)

theorem same_store (k : Kernel) (a v : Word) : Same k (k.store a v) :=
  ⟨rfl, rfl, rfl, rfl, rfl, rfl, fun _ => rfl, fun _ => rfl, fun _ => rfl, fun _ => rfl⟩

/-! ## P -/

/-- The branches of `P`. -/
inductive PStep (k : Kernel) (a : Word) (p : PcbId) : SchedulerControl → Kernel → Prop
  | block {k' : Kernel} (hv : k.mem a = 0) (hb : Blocked k a p k') :
      PStep k a p CONTROL_BLOCK k'
  | wake {k' : Kernel} {t : PcbId} (hv : k.mem a ≠ 0) (hb : Woken k a t k') :
      PStep k a p (CONTROL_RESCHEDULE k) k'
  | lower (hv : k.mem a ≠ 0) (hw : waiters k a = []) :
      PStep k a p (CONTROL_RESCHEDULE k) (k.store a (k.mem a - 1))

theorem P_spec {k : Kernel} (hw : AslWf k) {a : Word} (ha : Aligned a) {p : PcbId}
    (hp : k.procq.Null p) : ∃ ctrl k', P k (some a) (some p) = .ok (ctrl, k') ∧
      PStep k a p ctrl k' := by
  by_cases hv : k.mem a = 0
  · rcases insertBlocked_blocked hw ha hp with ⟨k₁, heq, _, hb⟩
    refine ⟨_, _, ?_, PStep.block hv hb⟩
    simp only [P, if_pos hv, if_pos hp, heq]
  · cases hwait : waiters k a with
    | nil =>
        refine ⟨_, _, ?_, PStep.lower hv hwait⟩
        simp only [P, if_neg hv, removeBlocked_nil hw ha hwait]
    | cons t ts =>
        rcases removeBlocked_unblocked hw ha hwait with ⟨k₁, heq, _, hu⟩
        have hwoken := hu.woken hw hwait
        have hactive := (hwoken.frame hw).activeProcess
        refine ⟨_, _, ?_, PStep.wake hv hwoken⟩
        simp only [P, if_neg hv, heq]
        rw [CONTROL_RESCHEDULE, CONTROL_RESCHEDULE, ← hactive]
        rfl

theorem PStep.frame {k k' : Kernel} {a : Word} {p : PcbId} {ctrl : SchedulerControl}
    (h : PStep k a p ctrl k') (hw : AslWf k) : Frame k k' := by
  cases h with
  | block _ hb => exact hb.frame
  | wake _ hb => exact hb.frame hw
  | lower => exact frame_store k a _

/-! ## V -/

/-- The branches of `V`, with the process it returns. -/
inductive VStep (k : Kernel) (a : Word) : Option PcbId → Kernel → Prop
  | block {k' : Kernel} {p : PcbId} (hv : k.mem a = 1) (hp : k.activeProcess = some p)
      (hb : Blocked k a p k') : VStep k a none k'
  | idle (hv : k.mem a = 1) (hp : k.activeProcess = none) : VStep k a none k
  | wake {k' : Kernel} {t : PcbId} (hv : k.mem a ≠ 1) (hb : Woken k a t k') :
      VStep k a (some t) k'
  | raise (hv : k.mem a ≠ 1) (hw : waiters k a = []) :
      VStep k a k.activeProcess (k.store a (k.mem a + 1))

theorem V_spec {k : Kernel} (hw : AslWf k) {a : Word} (ha : Aligned a)
    (hp : ∀ p, k.activeProcess = some p → k.procq.Null p) :
    ∃ r k', V k (some a) = .ok (r, k') ∧ VStep k a r k' := by
  by_cases hv : k.mem a = 1
  · cases hactive : k.activeProcess with
    | none =>
        refine ⟨_, _, ?_, VStep.idle hv hactive⟩
        simp only [V, if_pos hv, hactive]
    | some p =>
        have hnull := hp p hactive
        have hs := semAdd_none_of_null hw hnull
        rcases insertBlocked_blocked hw ha hnull with ⟨k₁, _, heq, hb⟩
        refine ⟨_, _, ?_, VStep.block hv hactive hb⟩
        rw [hactive] at heq
        simp only [V, if_pos hv, hactive, hs, if_true, if_pos hnull, heq]
  · cases hwait : waiters k a with
    | nil =>
        refine ⟨_, _, ?_, VStep.raise hv hwait⟩
        simp only [V, if_neg hv, removeBlocked_nil hw ha hwait]
    | cons t ts =>
        rcases removeBlocked_unblocked hw ha hwait with ⟨k₁, heq, _, hu⟩
        refine ⟨_, _, ?_, VStep.wake hv (hu.woken hw hwait)⟩
        simp only [V, if_neg hv, heq]

theorem VStep.frame {k k' : Kernel} {a : Word} {r : Option PcbId} (h : VStep k a r k')
    (hw : AslWf k) : Frame k k' := by
  cases h with
  | block _ _ hb => exact hb.frame
  | idle =>
      exact ⟨rfl, rfl, rfl, rfl, rfl, rfl, rfl, rfl, fun _ => rfl, fun _ => rfl, fun _ => rfl,
        fun _ => rfl, fun _ => rfl, fun _ => rfl, rfl⟩
  | wake _ hb => exact hb.frame hw
  | raise => exact frame_store k a _

/-- The processes in no queue after `V`: all but the active process when it
    blocked, which is the only case in which nothing is returned although a
    process is active. -/
theorem VStep.at {k k' : Kernel} {a : Word} {r : Option PcbId} (h : VStep k a r k')
    (hat : At k k.activeProcess.toFinset) :
    At k' (if r = none then ∅ else k.activeProcess.toFinset) := by
  cases h with
  | block hv hp hb =>
      rw [if_pos rfl]
      have hat' := hb.at hat (by rw [hp]; exact Finset.mem_singleton_self _)
      rw [hp, Option.toFinset_some, Finset.erase_singleton] at hat'
      exact hat'
  | idle hv hp =>
      rw [if_pos rfl]
      rw [hp] at hat
      exact hat
  | wake _ hb =>
      rw [if_neg (Option.some_ne_none _)]
      exact hb.at hat
  | raise =>
      have hs := hat.of_same (same_store k a (k.mem a + 1))
      cases hactive : k.activeProcess with
      | none =>
          rw [if_pos rfl]
          rw [hactive] at hs
          exact hs
      | some p =>
          rw [if_neg (Option.some_ne_none p), ← hactive]
          exact hs

/-! ## The operations on a word -/

/-- A word and the processes that wait on it. -/
def semAt (k : Kernel) (a : Word) : Sem PcbId := { value := (k.mem a).toInt, queue := waiters k a }

theorem semAt_stop {k : Kernel} {a : Word} {o : SemOp} {v : Word} (hv : k.mem a = v)
    (ho : o.stop = v.toInt) : (semAt k a).value = o.stop := by
  rw [ho, ← hv]
  rfl

theorem semAt_go {k : Kernel} {a : Word} {o : SemOp} {v : Word} (hv : k.mem a ≠ v)
    (ho : o.stop = v.toInt) : (semAt k a).value ≠ o.stop := by
  rw [ho]
  exact fun hc => hv (BitVec.eq_of_toInt_eq hc)

/-- The semaphore of a word after its caller was queued. -/
theorem Blocked.semAt {k k' : Kernel} {a : Word} {p : PcbId} (h : Blocked k a p k') :
    semAt k' a = { semAt k a with queue := (Pandos.semAt k a).queue ++ [p] } := by
  simp only [Pandos.semAt, h.mem, h.waiters, if_true]

/-- The semaphore of a word after its longest waiter was woken. -/
theorem Woken.semAt {k k' : Kernel} {a : Word} {t : PcbId} (h : Woken k a t k') (hw : AslWf k) :
    ∃ ts, (Pandos.semAt k a).queue = t :: ts ∧ semAt k' a = { semAt k a with queue := ts } := by
  rcases h.head with ⟨ts, hts⟩
  refine ⟨ts, hts, ?_⟩
  simp only [Pandos.semAt, h.mem, h.waiters hw, if_true, hts, List.tail_cons]

/-- `P` on a word that holds zero or one. -/
theorem PStep.op {k k' : Kernel} {a : Word} {p : PcbId} {ctrl : SchedulerControl}
    (h : PStep k a p ctrl k') (hw : AslWf k) (hv : k.mem a = 0 ∨ k.mem a = 1) :
    semAt k' a = ((semAt k a).op .P p).sem ∧
      (ctrl = CONTROL_BLOCK ↔ ((semAt k a).op .P p).waits = true) := by
  cases h with
  | block h0 hb =>
      rw [Sem.op_stop (semAt_stop (o := .P) h0 rfl)]
      exact ⟨hb.semAt, iff_of_true rfl rfl⟩
  | wake h0 hb =>
      rcases hb.semAt hw with ⟨ts, hts, hsem⟩
      rw [Sem.op_cons (semAt_go (o := .P) h0 rfl) hts]
      refine ⟨hsem, iff_of_false (fun hc => ?_) Bool.false_ne_true⟩
      exact absurd (congrArg SchedulerControl.enqueue hc) (Bool.false_ne_true).symm
  | lower h0 hn =>
      rw [Sem.op_nil (semAt_go (o := .P) h0 rfl) hn]
      refine ⟨?_, iff_of_false (fun hc => ?_) Bool.false_ne_true⟩
      · have h1 := hv.resolve_left h0
        simp only [Pandos.semAt, Kernel.store, h1, if_true]
        rfl
      · exact absurd (congrArg SchedulerControl.enqueue hc) (Bool.false_ne_true).symm

/-- `V` of a process on a word that holds zero or one. -/
theorem VStep.op {k k' : Kernel} {a : Word} {p : PcbId} {r : Option PcbId} (h : VStep k a r k')
    (hw : AslWf k) (hp : k.activeProcess = some p) (hv : k.mem a = 0 ∨ k.mem a = 1) :
    semAt k' a = ((semAt k a).op .V p).sem ∧ (r = none ↔ ((semAt k a).op .V p).waits = true) := by
  cases h with
  | block h1 hq hb =>
      rw [hp, Option.some.injEq] at hq
      subst hq
      rw [Sem.op_stop (semAt_stop (o := .V) h1 rfl)]
      exact ⟨hb.semAt, iff_of_true rfl rfl⟩
  | idle _ hn =>
      rw [hp] at hn
      cases hn
  | wake h1 hb =>
      rcases hb.semAt hw with ⟨ts, hts, hsem⟩
      rw [Sem.op_cons (semAt_go (o := .V) h1 rfl) hts]
      exact ⟨hsem, iff_of_false (Option.some_ne_none _) Bool.false_ne_true⟩
  | raise h1 hn =>
      rw [Sem.op_nil (semAt_go (o := .V) h1 rfl) hn, hp]
      refine ⟨?_, iff_of_false (Option.some_ne_none _) Bool.false_ne_true⟩
      have h0 := hv.resolve_right h1
      simp only [Pandos.semAt, Kernel.store, h0, if_true]
      rfl

end Pandos
