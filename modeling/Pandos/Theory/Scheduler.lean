import Pandos.Theory.Semaphores

/-!
# The Scheduler

What a call of `schedule` can end in. A handler hands over a state in which the
process it returned, or the one that yielded, is the only one in no queue. The
scheduler leaves a state in which that is the new active process, or nobody if
it waits for an interrupt or halts.

## Main definitions

* `Kept`: States between which processes only moved between the ready queues
  and the processor.
* `Between`: The invariant between two exceptions.
* `Ready`: What a handler hands to the scheduler.
* `Scheduled`: The ways a call of `schedule` ends.

## Theorems

* `Between.ready_or_active`: Where a process is that waits for nothing.
* `dispatch_spec`: The selected process becomes the active one.
* `selectReady_spec`: The next process comes from a ready queue, or there is
  none.
* `schedule_spec`: A state handed over by a handler leads to one of the ends.
-/

namespace Pandos

/-- Processes only moved between the ready queues and the processor. -/
structure Kept (k k' : Kernel) : Prop where
  child : k'.child = k.child
  processCount : k'.processCount = k.processCount
  softblockCount : k'.softblockCount = k.softblockCount
  recycleCount : k'.recycleCount = k.recycleCount
  mem : k'.mem = k.mem
  sup : k'.sup = k.sup
  bus : k'.bus = k.bus
  parent : ∀ p, (k'.pcb p).pParent = (k.pcb p).pParent
  semAdd : ∀ p, (k'.pcb p).pSemAdd = (k.pcb p).pSemAdd
  gpr : ∀ p, (k'.pcb p).pS.gpr = (k.pcb p).pS.gpr
  time : ∀ p, (k'.pcb p).pTime = (k.pcb p).pTime
  support : ∀ p, (k'.pcb p).pSupport = (k.pcb p).pSupport
  prio : ∀ p, (k'.pcb p).pPrio = (k.pcb p).pPrio
  pid : ∀ p, (k'.pcb p).pPid = (k.pcb p).pPid
  free : k'.procq .pcbFree = k.procq .pcbFree
  waiters : ∀ a, waiters k' a = waiters k a

theorem kept_refl (k : Kernel) : Kept k k :=
  ⟨rfl, rfl, rfl, rfl, rfl, rfl, rfl, fun _ => rfl, fun _ => rfl, fun _ => rfl, fun _ => rfl,
    fun _ => rfl, fun _ => rfl, fun _ => rfl, rfl, fun _ => rfl⟩

theorem kept_trans {k k' k'' : Kernel} (h : Kept k k') (h' : Kept k' k'') : Kept k k'' :=
  ⟨h'.child.trans h.child, h'.processCount.trans h.processCount,
    h'.softblockCount.trans h.softblockCount, h'.recycleCount.trans h.recycleCount,
    h'.mem.trans h.mem, h'.sup.trans h.sup, h'.bus.trans h.bus,
    fun p => (h'.parent p).trans (h.parent p), fun p => (h'.semAdd p).trans (h.semAdd p),
    fun p => (h'.gpr p).trans (h.gpr p), fun p => (h'.time p).trans (h.time p),
    fun p => (h'.support p).trans (h.support p), fun p => (h'.prio p).trans (h.prio p),
    fun p => (h'.pid p).trans (h.pid p), h'.free.trans h.free,
    fun a => (h'.waiters a).trans (h.waiters a)⟩

theorem kept_enqueueProcess {k : Kernel} {s : Finset PcbId} {p : PcbId} (h : At k s) (hp : p ∈ s) :
    Kept k (enqueueProcess k p) := by
  have hpl : places (enqueueProcess k p) = (places k).ready (k.pcb p).pPrio p := by
    rw [places_enqueueProcess, Places.remove_of_nowhere ((nowhere_iff h.wf.asl p).mp (h.null hp))]
  have hfree : (places (enqueueProcess k p)).free = (places k).free := by
    rw [hpl, Places.ready]
    split <;> rfl
  have hwait : (places (enqueueProcess k p)).wait = (places k).wait := by
    rw [hpl, Places.ready]
    split <;> rfl
  exact ⟨rfl, rfl, rfl, rfl, rfl, rfl, rfl, fun _ => rfl, fun _ => rfl, fun _ => rfl, fun _ => rfl,
    fun _ => rfl, fun _ => rfl, fun _ => rfl, hfree, congrFun hwait⟩

theorem kept_listSdel {k : Kernel} {s : Finset PcbId} {h : ProcQ} {p : PcbId} (hat : At k s)
    (hp : p ∈ k.procq h) (hh : h = .readyQueueHi ∨ h = .readyQueueLo) : Kept k (listSdel k p) := by
  have hother : ∀ h', h' ≠ h → k.procq.del p h' = k.procq h' :=
    fun h' hne => Queues.del_other hat.wf.asl.procq hp hne
  refine ⟨rfl, rfl, rfl, rfl, rfl, rfl, rfl, fun _ => rfl, fun _ => rfl, fun _ => rfl, fun _ => rfl,
    fun _ => rfl, fun _ => rfl, fun _ => rfl, ?_, fun a => ?_⟩
  · refine hother _ ?_
    rintro rfl
    rcases hh with hh | hh <;> exact absurd hh (by simp only [reduceCtorEq, not_false_eq_true])
  · have hwait : waiters (listSdel k p) a = (waiters k a).erase p :=
      congrFun (congrArg Places.wait (places_listSdel k p)) a
    rw [hwait]
    refine List.erase_of_not_mem (fun hm => ?_)
    rcases (mem_waiters_iff hat.wf.asl a p).mp hm with ⟨i, _, _, hq⟩
    have := hat.wf.asl.procq.unique _ _ p hp hq
    rcases hh with hh | hh <;> exact absurd (hh.symm.trans this)
      (by simp only [reduceCtorEq, not_false_eq_true])

/-- What holds between two exceptions: nobody yielded, and the active process,
    if there is one, is the only process in no queue. -/
structure Between (k : Kernel) : Prop where
  at_ : At k k.activeProcess.toFinset
  yield : k.yieldProcess = none

/-- A live process that waits for nothing is ready or active. -/
theorem Between.ready_or_active {k : Kernel} (hb : Between k) {p : PcbId}
    (hf : p ∉ k.procq .pcbFree) (hs : (k.pcb p).pSemAdd = none) :
    p ∈ k.procq .readyQueueHi ∨ p ∈ k.procq .readyQueueLo ∨ k.activeProcess = some p := by
  by_cases hn : k.procq.Null p
  · exact Or.inr (Or.inr (Option.mem_toFinset.mp ((hb.at_.running p).mp hn)))
  · have hmem := mem_processQueue hb.at_.wf hf hs hn
    rcases processQueue_eq k p with hq | hq <;> rw [hq] at hmem
    · exact Or.inl hmem
    · exact Or.inr (Or.inl hmem)

/-- What a handler hands to the scheduler: the process it returned, or the one
    that yielded, is the only process in no queue. -/
structure Ready (ctrl : SchedulerControl) (k : Kernel) : Prop where
  at_ : At k (ctrl.pcb.toFinset ∪ k.yieldProcess.toFinset)
  one : ctrl.pcb = none ∨ k.yieldProcess = none

/-- The ways a call of `schedule` ends. -/
inductive Scheduled (hw : Hw) (k : Kernel) : Outcome → Prop
  | run {k' : Kernel} {p : PcbId} (hk : Kept k k') (hb : Between k')
      (hp : k'.activeProcess = some p) (ht : k'.startTod = hw.todTakeover) :
      Scheduled hw k (.run k')
  | wait {k' : Kernel} {status : Word} (hk : Kept k k') (hb : Between k')
      (hp : k'.activeProcess = none) (ht : k'.startTod = k.startTod)
      (hlive : live k' ≠ ∅) (hlo : k'.procq .readyQueueLo = []) (hhi : k'.procq .readyQueueHi = [])
      (hall : ∀ p ∈ live k', p ∈ blocked k') : Scheduled hw k (.wait k' status)
  | halt {k' : Kernel} (hk : Kept k k') (hlive : live k' = ∅) : Scheduled hw k (.halt k')

theorem Scheduled.of_kept {hw : Hw} {k k₁ : Kernel} {o : Outcome} (hk : Kept k k₁)
    (ht : k₁.startTod = k.startTod) (h : Scheduled hw k₁ o) : Scheduled hw k o := by
  cases h with
  | run hk' hb hp ht' => exact Scheduled.run (kept_trans hk hk') hb hp ht'
  | wait hk' hb hp ht' hlive hlo hhi hall =>
      exact Scheduled.wait (kept_trans hk hk') hb hp (ht'.trans ht) hlive hlo hhi hall
  | halt hk' hlive => exact Scheduled.halt (kept_trans hk hk') hlive

/-! ## Dispatch -/

theorem kept_modPcb (k : Kernel) (p : PcbId) {f : Pcb → Pcb}
    (hf : ∀ t, f t = { t with pS := (f t).pS } ∧ (f t).pS.gpr = t.pS.gpr) :
    Kept k (k.modPcb p f) := by
  have hg : ∀ {β : Type} (g : Pcb → β), (∀ t s, g { t with pS := s } = g t) →
      ∀ t, g (f t) = g t := by
    intro β g h t
    rw [(hf t).1, h]
  exact ⟨rfl, rfl, rfl, rfl, rfl, rfl, rfl, modPcb_field k p (hg Pcb.pParent (fun _ _ => rfl)),
    modPcb_field k p (hg Pcb.pSemAdd (fun _ _ => rfl)),
    modPcb_field k p (g := fun t => t.pS.gpr) (fun t => (hf t).2),
    modPcb_field k p (hg Pcb.pTime (fun _ _ => rfl)),
    modPcb_field k p (hg Pcb.pSupport (fun _ _ => rfl)),
    modPcb_field k p (hg Pcb.pPrio (fun _ _ => rfl)),
    modPcb_field k p (hg Pcb.pPid (fun _ _ => rfl)), rfl, fun _ => rfl⟩

theorem takeover_spec {hw : Hw} {k : Kernel} {p : PcbId} (h : At k {p})
    (hp : k.activeProcess = some p) (hy : k.yieldProcess = none) :
    Scheduled hw k (schedulerTakeover hw k p) := by
  have hk := kept_modPcb k p (f := fun t =>
    { t with pS := { t.pS with status := takeoverStatus t.pPrio t.pS.status } })
    (fun _ => ⟨rfl, rfl⟩)
  refine Scheduled.run ⟨hk.child, hk.processCount, hk.softblockCount, hk.recycleCount, hk.mem,
    hk.sup, hk.bus, hk.parent, hk.semAdd, hk.gpr, hk.time, hk.support, hk.prio, hk.pid, hk.free,
    hk.waiters⟩ ⟨?_, hy⟩ hp rfl
  change At _ k.activeProcess.toFinset
  rw [hp, Option.toFinset_some]
  exact h.of_same ⟨rfl, rfl, rfl, rfl, rfl, rfl, hk.parent, hk.semAdd, hk.prio, hk.pid⟩

/-- The state with other values of the two process pointers. -/
theorem at_pointers {k : Kernel} {s : Finset PcbId} (h : At k s) (a y : Option PcbId) :
    At { k with activeProcess := a, yieldProcess := y } s :=
  h.of_same ⟨rfl, rfl, rfl, rfl, rfl, rfl, fun _ => rfl, fun _ => rfl, fun _ => rfl, fun _ => rfl⟩

theorem kept_pointers (k : Kernel) (a y : Option PcbId) :
    Kept k { k with activeProcess := a, yieldProcess := y } :=
  ⟨rfl, rfl, rfl, rfl, rfl, rfl, rfl, fun _ => rfl, fun _ => rfl, fun _ => rfl, fun _ => rfl,
    fun _ => rfl, fun _ => rfl, fun _ => rfl, rfl, fun _ => rfl⟩

/-- The selected process becomes the active one, and a process that yielded
    before goes to the end of its ready queue. -/
theorem dispatch_spec {hw : Hw} {k : Kernel} {p : PcbId}
    (h : At k (insert p k.yieldProcess.toFinset)) (hp : k.yieldProcess ≠ some p) :
    Scheduled hw k (dispatch hw k p) := by
  cases hy : k.yieldProcess with
  | none =>
      rw [hy] at h
      have h' := at_pointers h (some p) k.yieldProcess
      have htake : Scheduled hw _ _ := takeover_spec h' rfl hy
      refine Scheduled.of_kept (kept_pointers k (some p) k.yieldProcess) rfl ?_
      simp only [dispatch, hy] at htake ⊢
      exact htake
  | some y =>
      have hne : y ≠ p := fun hc => hp (hc ▸ hy)
      rw [hy, Option.toFinset_some] at h
      have hmem : y ∈ insert p ({y} : Finset PcbId) :=
        Finset.mem_insert_of_mem (Finset.mem_singleton_self y)
      have h' := at_pointers h (some p) k.yieldProcess
      have henq := at_enqueueProcess h' hmem
      have her : (insert p ({y} : Finset PcbId)).erase y = {p} := by
        ext r
        simp only [Finset.mem_erase, Finset.mem_insert, Finset.mem_singleton]
        grind
      rw [her] at henq
      have hout := at_pointers henq (some p) none
      have htake : Scheduled hw _ _ := takeover_spec hout rfl rfl
      have hk := kept_trans (kept_trans (kept_pointers k (some p) k.yieldProcess)
        (kept_enqueueProcess h' hmem)) (kept_pointers _ (some p) none)
      refine Scheduled.of_kept hk rfl ?_
      simp only [dispatch, hy] at htake ⊢
      exact htake

/-! ## Selection -/

theorem removeProcQ_nil {k : Kernel} {h : ProcQ} (hq : k.procq h = []) :
    removeProcQ k h = (none, k) := by
  simp only [removeProcQ, headProcQ, hq, List.head?_nil]

theorem removeProcQ_cons {k : Kernel} {h : ProcQ} {p : PcbId} {ps : List PcbId}
    (hq : k.procq h = p :: ps) : removeProcQ k h = (some p, listSdel k p) := by
  have hmem : p ∈ k.procq h := by
    rw [hq]
    exact List.mem_cons_self
  simp only [removeProcQ, headProcQ, hq, List.head?_cons, outProcQ]
  rw [← hq, if_pos hmem]

/-- The head of a ready queue becomes the active process. -/
theorem dispatch_ready {hw : Hw} {k : Kernel} {h : ProcQ} {p : PcbId}
    (hat : At k k.yieldProcess.toFinset)
    (hp : p ∈ k.procq h) (hh : h = .readyQueueHi ∨ h = .readyQueueLo) :
    Scheduled hw k (dispatch hw (listSdel k p) p) := by
  refine Scheduled.of_kept (kept_listSdel hat hp hh) rfl (dispatch_spec (at_listSdel hat hp hh) ?_)
  intro hy
  refine hat.null (p := p) ?_ h hp
  change k.yieldProcess = some p at hy
  rw [hy]
  exact Finset.mem_singleton_self p

/-- A live process in no queue waits for a semaphore if the ready queues are
    empty. -/
theorem blocked_of_idle {k : Kernel} (h : At k ∅) (hlo : k.procq .readyQueueLo = [])
    (hhi : k.procq .readyQueueHi = []) {p : PcbId} (hp : p ∈ live k) : p ∈ blocked k := by
  rw [mem_live] at hp
  rw [mem_blocked]
  refine ⟨hp, fun hs => ?_⟩
  have hn : ¬ k.procq.Null p := by
    rw [h.running]
    exact Finset.notMem_empty p
  have hmem := mem_processQueue h.wf hp hs hn
  rcases processQueue_eq k p with hq | hq <;> rw [hq] at hmem
  · rw [hhi] at hmem
    exact absurd hmem List.not_mem_nil
  · rw [hlo] at hmem
    exact absurd hmem List.not_mem_nil

theorem counter_eq_zero_iff {c : Counter} {n : Nat} (h : c.Is n) : c.val = 0 ↔ n = 0 := by
  rw [← h.1]
  constructor
  · intro hc
    rw [hc]
    rfl
  · intro hc
    exact BitVec.eq_of_toNat_eq hc

/-- With nobody ready the counters decide between halting and waiting. All live
    processes are blocked then, so no deadlock is ever reported. -/
theorem waitOrDie_spec {hw : Hw} {k : Kernel} (h : At k ∅) (hy : k.yieldProcess = none)
    (hlo : k.procq .readyQueueLo = []) (hhi : k.procq .readyQueueHi = []) :
    Scheduled hw k (waitOrDie hw k) := by
  have hlive : k.processCount.val = 0 ↔ live k = ∅ := by
    rw [counter_eq_zero_iff h.counted.processes, Finset.card_eq_zero]
  have hblocked : k.softblockCount.val = 0 ↔ blocked k = ∅ := by
    rw [counter_eq_zero_iff h.counted.softblock, Finset.card_eq_zero]
  unfold waitOrDie
  by_cases hp : k.processCount.val = 0
  · rw [if_pos hp]
    exact Scheduled.halt (kept_refl k) (hlive.mp hp)
  · rw [if_neg hp]
    have hne : live k ≠ ∅ := fun hc => hp (hlive.mpr hc)
    have hs : k.softblockCount.val ≠ 0 := by
      intro hs
      rcases Finset.nonempty_iff_ne_empty.mpr hne with ⟨q, hq⟩
      have hq' := blocked_of_idle h hlo hhi hq
      rw [hblocked.mp hs] at hq'
      exact absurd hq' (Finset.notMem_empty q)
    rw [if_pos hs]
    refine Scheduled.wait (kept_pointers k none k.yieldProcess)
      ⟨at_pointers h none k.yieldProcess, hy⟩ rfl rfl hne hlo hhi ?_
    exact fun p hp => blocked_of_idle h hlo hhi hp

theorem selectReady_spec {hw : Hw} {k : Kernel} (h : At k k.yieldProcess.toFinset) :
    Scheduled hw k (selectReady hw k) := by
  unfold selectReady
  cases hhi : k.procq .readyQueueHi with
  | cons p ps =>
      rw [removeProcQ_cons hhi]
      exact dispatch_ready h (hhi ▸ List.mem_cons_self) (Or.inl rfl)
  | nil =>
      rw [removeProcQ_nil hhi]
      cases hlo : k.procq .readyQueueLo with
      | cons p ps =>
          simp only [removeProcQ_cons hlo]
          exact dispatch_ready h (hlo ▸ List.mem_cons_self) (Or.inr rfl)
      | nil =>
          simp only [removeProcQ_nil hlo]
          cases hy : k.yieldProcess with
          | none =>
              rw [hy] at h
              exact waitOrDie_spec h hy hlo hhi
          | some y =>
              rw [hy] at h
              refine Scheduled.of_kept (kept_pointers k k.activeProcess none) rfl
                (dispatch_spec ?_ (by simp only [ne_eq, reduceCtorEq, not_false_eq_true]))
              exact at_pointers h k.activeProcess none

theorem schedule_spec {hw : Hw} {ctrl : SchedulerControl} {k : Kernel} (h : Ready ctrl k) :
    Scheduled hw k (schedule hw k ctrl.pcb ctrl.enqueue) := by
  rcases h with ⟨hat, hone⟩
  rcases ctrl with ⟨_ | p, enqueue⟩
  · refine selectReady_spec ?_
    rwa [Option.toFinset_none, Finset.empty_union] at hat
  · have hy : k.yieldProcess = none := hone.resolve_left (Option.some_ne_none p)
    rw [hy] at hat
    cases enqueue with
    | false =>
        refine dispatch_spec ?_ (by rw [hy]; exact (Option.some_ne_none p).symm)
        rw [hy]
        exact hat
    | true =>
        have hmem : p ∈ (some p).toFinset ∪ (none : Option PcbId).toFinset :=
          Finset.mem_union_left _ (Finset.mem_singleton_self p)
        refine Scheduled.of_kept (kept_enqueueProcess hat hmem) rfl (selectReady_spec ?_)
        have henq := at_enqueueProcess hat hmem
        change At _ k.yieldProcess.toFinset
        rw [hy]
        rwa [Option.toFinset_some, Option.toFinset_none, Finset.union_empty,
          Finset.erase_singleton] at henq

end Pandos
