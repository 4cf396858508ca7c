import Pandos.Theory.Invariant

/-!
# Moves of Processes

What the scheduler and the semaphores do to one process at a time: it blocks,
it is woken, it is put on a ready queue, it is taken from one. Each move comes
with what it does to the places of processes and with the step of the
invariant; everything longer is a sequence of these moves.

## Main definitions

* `Blocked`: A process was queued on a semaphore.
* `Unblocked`: A process was taken off a semaphore.
* `Woken`: A process was moved from a semaphore to its ready queue.

## Theorems

* `Blocked.at`, `Unblocked.at`, `Woken.at`: The moves keep the invariant.
* `at_enqueueProcess`: So does putting a process on its ready queue.
* `at_listSdel`: So does taking a process from a ready queue.
-/

namespace Pandos

/-! ## The records of a blocked process -/

theorem setSemAdd_other (k : Kernel) (p r : PcbId) (a : Option Word) (h : r ≠ p) :
    setSemAdd k p a r = k.pcb r := by
  simp only [setSemAdd, if_neg h]

theorem setSemAdd_self (k : Kernel) (p : PcbId) (a : Option Word) :
    (setSemAdd k p a p).pSemAdd = a := by
  simp only [setSemAdd, if_true]

/-- Setting the semaphore of a process changes no other field. -/
theorem setSemAdd_fields (k : Kernel) (p r : PcbId) (a : Option Word) :
    (setSemAdd k p a r).pParent = (k.pcb r).pParent ∧
      (setSemAdd k p a r).pPrio = (k.pcb r).pPrio ∧
      (setSemAdd k p a r).pPid = (k.pcb r).pPid ∧
      (setSemAdd k p a r).pS = (k.pcb r).pS ∧
      (setSemAdd k p a r).pTime = (k.pcb r).pTime ∧
      (setSemAdd k p a r).pSupport = (k.pcb r).pSupport := by
  unfold setSemAdd
  by_cases h : r = p
  · rw [if_pos h, h]
    exact ⟨rfl, rfl, rfl, rfl, rfl, rfl⟩
  · rw [if_neg h]
    exact ⟨rfl, rfl, rfl, rfl, rfl, rfl⟩

/-! ## Parts of the invariant -/

theorem places_nodup {k : Kernel} (hw : AslWf k) : (places k).Nodup :=
  ⟨hw.procq.nodup _, hw.procq.nodup _, hw.procq.nodup _, fun a => waiters_nodup hw a⟩

/-- The records stay well formed when the free list keeps its members and the
    ready queues gain processes of their priority only. -/
theorem pcbWf_of {k k' : Kernel} (hw : PcbWf k)
    (hfree : ∀ p, p ∈ k'.procq .pcbFree ↔ p ∈ k.procq .pcbFree)
    (hpcb : ∀ p, (k'.pcb p).pPid = (k.pcb p).pPid ∧ (k'.pcb p).pPrio = (k.pcb p).pPrio)
    (hlo : ∀ p ∈ k'.procq .readyQueueLo,
      p ∈ k.procq .readyQueueLo ∨ (k.pcb p).pPrio = PROCESS_PRIO_LOW)
    (hhi : ∀ p ∈ k'.procq .readyQueueHi,
      p ∈ k.procq .readyQueueHi ∨ (k.pcb p).pPrio = PROCESS_PRIO_HIGH) : PcbWf k' := by
  constructor
  · intro p
    rw [hfree, (hpcb p).1]
    exact hw.free_iff p
  · intro p hp
    rw [(hpcb p).2]
    rcases hlo p hp with h | h
    · exact hw.lo p h
    · exact h
  · intro p hp
    rw [(hpcb p).2]
    rcases hhi p hp with h | h
    · exact hw.hi p h
    · exact h
  · intro p
    rw [(hpcb p).2]
    exact hw.prio p

theorem treeWf_of {k k' : Kernel} (hw : TreeWf k)
    (hfree : ∀ p, p ∈ k'.procq .pcbFree ↔ p ∈ k.procq .pcbFree) (hchild : k'.child = k.child)
    (hparent : ∀ p, (k'.pcb p).pParent = (k.pcb p).pParent) : TreeWf k' := by
  have hp : parentOf k' = parentOf k := funext hparent
  constructor
  · rw [hchild]
    exact hw.nodup
  · rw [hchild, hp]
    exact hw.mem_iff
  · rw [hp]
    exact hw.acyclic
  · intro q c hc
    rw [hfree, hfree]
    exact hw.live q c (hp ▸ hc)

theorem live_of {k k' : Kernel}
    (hfree : ∀ p, p ∈ k'.procq .pcbFree ↔ p ∈ k.procq .pcbFree) : live k' = live k := by
  ext p
  rw [mem_live, mem_live, hfree]

/-! ## Blocking -/

/-- A process was queued on a semaphore. -/
structure Blocked (k : Kernel) (a : Word) (p : PcbId) (k' : Kernel) : Prop where
  asl : AslWf k'
  places : places k' = (places k).block a p
  rest : ∃ q s y, k' = { k with
    procq := q, slink := s, sKey := y, pcb := setSemAdd k p (some a)
    softblockCount := k.softblockCount.incr }

theorem aslWf_softblock {k : Kernel} (hw : AslWf k) (c : Counter) :
    AslWf { k with softblockCount := c } :=
  ⟨hw.procq, hw.slink, hw.listed, hw.waiting, hw.idle, hw.aligned, hw.key_inj, hw.queued,
    hw.blocked⟩

/-- A process that stands in no queue can always be queued on a semaphore. -/
theorem insertBlocked_blocked {k : Kernel} (hw : AslWf k) {a : Word} (ha : Aligned a) {p : PcbId}
    (hp : k.procq.Null p) :
    ∃ k', insertBlocked k (some a) (some p) = (0, k') ∧
      insertBlocked { k with softblockCount := k.softblockCount.incr } (some a) (some p)
        = (0, { k' with softblockCount := k'.softblockCount.incr }) ∧
      Blocked k a p { k' with softblockCount := k'.softblockCount.incr } := by
  have hs := semAdd_none_of_null hw hp
  rcases insertBlocked_spec hw ha hp hs with ⟨q, s, y, heq, hwf, hpl⟩
  refine ⟨_, heq, ?_, aslWf_softblock hwf _, hpl, q, s, y, rfl⟩
  -- The counter plays no part in the search and the allocation.
  have hframe : ∀ c, insertBlocked { k with softblockCount := c } (some a) (some p)
      = ((insertBlocked k (some a) (some p)).1,
        { (insertBlocked k (some a) (some p)).2 with softblockCount := c }) := by
    intro c
    simp only [insertBlocked, hs, ne_eq, not_true_eq_false, if_false, findSemd, allocSemd]
    cases (k.slink .semdH).find? (fun i => keyCmp a (k.sKey i) == 0) with
    | some i => rfl
    | none =>
        cases k.slink .semdFree with
        | nil => rfl
        | cons i rest => rfl
  rw [hframe, heq]

theorem Blocked.at {k k' : Kernel} {s : Finset PcbId} {a : Word} {p : PcbId} (hb : Blocked k a p k')
    (h : At k s) (hp : p ∈ s) : At k' (s.erase p) := by
  rcases hb with ⟨hasl, hpl, q, s', y, rfl⟩
  have hq : ∀ r, r ∈ q .pcbFree ↔ r ∈ k.procq .pcbFree := by
    intro r
    rw [show q .pcbFree = k.procq .pcbFree from congrArg Places.free hpl]
  have hf := setSemAdd_fields k p
  refine ⟨⟨hasl, pcbWf_of h.wf.pcb hq (fun r => ⟨(hf r _).2.2.1, (hf r _).2.1⟩) ?_ ?_,
    treeWf_of h.wf.tree hq rfl (fun r => (hf r _).1)⟩, ⟨?_, ?_⟩, ?_⟩
  · intro r hr
    have hlo : q .readyQueueLo = k.procq .readyQueueLo := congrArg Places.lo hpl
    exact Or.inl (hlo ▸ hr)
  · intro r hr
    have hhi : q .readyQueueHi = k.procq .readyQueueHi := congrArg Places.hi hpl
    exact Or.inl (hhi ▸ hr)
  · rw [live_of hq]
    exact h.counted.processes
  · have hins : Pandos.blocked { k with
        procq := q, slink := s', sKey := y, pcb := setSemAdd k p (some a)
        softblockCount := k.softblockCount.incr } = insert p (Pandos.blocked k) := by
      ext r
      rw [mem_blocked, Finset.mem_insert, mem_blocked, hq]
      by_cases hr : r = p
      · simp only [hr, setSemAdd_self, ne_eq, reduceCtorEq, not_false_eq_true, and_true, true_or,
          iff_true]
        exact h.not_free hp
      · simp only [setSemAdd_other k p r _ hr, hr, false_or]
    rw [hins, Finset.card_insert_of_notMem]
    · exact counter_is_incr h.counted.softblock (card_le_maxProc _)
    · rw [mem_blocked, h.semAdd_none hp]
      simp only [ne_eq, not_true_eq_false, and_false, not_false_eq_true]
  · intro r
    rw [nowhere_iff hasl, hpl, Places.nowhere_block, ← nowhere_iff h.wf.asl, h.running,
      Finset.mem_erase, and_comm]

/-! ## Waking -/

/-- A process was taken off a semaphore. -/
structure Unblocked (k : Kernel) (a : Word) (p : PcbId) (k' : Kernel) : Prop where
  waiting : p ∈ waiters k a
  asl : AslWf k'
  places : places k' = (places k).remove p
  rest : ∃ s, k' = { k with
    procq := k.procq.del p, slink := s, pcb := setSemAdd k p none
    softblockCount := k.softblockCount.decr }

theorem Unblocked.at {k k' : Kernel} {s : Finset PcbId} {a : Word} {p : PcbId}
    (hb : Unblocked k a p k') (h : At k s) : At k' (insert p s) := by
  rcases hb with ⟨hwait, hasl, hpl, s', rfl⟩
  have hnf := not_free_of_mem_waiters h.wf.asl hwait
  have hsem := semAdd_of_mem_waiters h.wf.asl hwait
  have hq : ∀ r, r ∈ k.procq.del p .pcbFree ↔ r ∈ k.procq .pcbFree := by
    intro r
    rw [show k.procq.del p .pcbFree = k.procq .pcbFree from List.erase_of_not_mem hnf]
  have hf := setSemAdd_fields k p
  refine ⟨⟨hasl, pcbWf_of h.wf.pcb hq (fun r => ⟨(hf r _).2.2.1, (hf r _).2.1⟩) ?_ ?_,
    treeWf_of h.wf.tree hq rfl (fun r => (hf r _).1)⟩, ⟨?_, ?_⟩, ?_⟩
  · intro r hr
    exact Or.inl (List.mem_of_mem_erase hr)
  · intro r hr
    exact Or.inl (List.mem_of_mem_erase hr)
  · rw [live_of hq]
    exact h.counted.processes
  · have her : Pandos.blocked { k with
        procq := k.procq.del p, slink := s', pcb := setSemAdd k p none
        softblockCount := k.softblockCount.decr } = (Pandos.blocked k).erase p := by
      ext r
      rw [mem_blocked, Finset.mem_erase, mem_blocked, hq]
      by_cases hr : r = p
      · simp only [hr, setSemAdd_self, ne_eq, not_true_eq_false, and_false, false_and]
      · simp only [setSemAdd_other k p r _ hr, hr, ne_eq, not_false_eq_true, true_and]
    have hmem : p ∈ Pandos.blocked k := by
      rw [mem_blocked, hsem]
      exact ⟨hnf, Option.some_ne_none a⟩
    rw [her]
    refine counter_is_decr ?_
    rw [Finset.card_erase_add_one hmem]
    exact h.counted.softblock
  · intro r
    rw [nowhere_iff hasl, hpl, Places.nowhere_remove (places_nodup h.wf.asl),
      ← nowhere_iff h.wf.asl, h.running, Finset.mem_insert, or_comm]

/-- The longest waiting process of a semaphore can be taken off it. -/
theorem removeBlocked_unblocked {k : Kernel} (hw : AslWf k) {a : Word} (ha : Aligned a) {p : PcbId}
    {ps : List PcbId} (hp : waiters k a = p :: ps) :
    ∃ k', removeBlocked k (some a) = (some p, k') ∧ (k'.pcb p).pPrio = (k.pcb p).pPrio ∧
      Unblocked k a p { k' with softblockCount := k'.softblockCount.decr } := by
  rcases removeBlocked_cons hw ha hp with ⟨s, heq, hwf, hpl⟩
  refine ⟨_, heq, (setSemAdd_fields k p p none).2.1, ?_, aslWf_softblock hwf _, hpl, s, rfl⟩
  rw [hp]
  exact List.mem_cons_self

/-! ## The ready queues -/

theorem enqueueProcess_eq {k : Kernel} {p : PcbId} (hp : k.procq.Null p) :
    enqueueProcess k p = { k with procq := k.procq.addTail (processQueue k p) p } := by
  rw [enqueueProcess, insertProcQ, Queues.del_of_null hp]

theorem processQueue_eq (k : Kernel) (p : PcbId) :
    processQueue k p = .readyQueueHi ∨ processQueue k p = .readyQueueLo := by
  unfold processQueue
  by_cases h : (k.pcb p).pPrio ≠ 0
  · rw [if_pos h]
    exact Or.inl rfl
  · rw [if_neg h]
    exact Or.inr rfl

/-- The descriptors keep their shape while the other queues change, as long as
    nobody leaves the free list. -/
theorem aslWf_ready {k : Kernel} (hw : AslWf k) {q : Queues ProcQ PcbId} (hq : q.Wf)
    (hsem : ∀ i, q (.sProcq i) = k.procq (.sProcq i))
    (hfree : ∀ p, p ∈ k.procq .pcbFree → p ∈ q .pcbFree) : AslWf { k with procq := q } := by
  constructor
  · exact hq
  · exact hw.slink
  · exact hw.listed
  · intro i hi
    change q (.sProcq i) ≠ []
    rw [hsem]
    exact hw.waiting i hi
  · intro i hi
    change q (.sProcq i) = []
    rw [hsem]
    exact hw.idle i hi
  · exact hw.aligned
  · exact hw.key_inj
  · intro i p hp
    change p ∈ q (.sProcq i) at hp
    rw [hsem] at hp
    exact hw.queued i p hp
  · intro p a hp hf
    rcases hw.blocked p a hp (fun h => hf (hfree p h)) with ⟨i, hi, hkey, hmem⟩
    refine ⟨i, hi, hkey, ?_⟩
    change p ∈ q (.sProcq i)
    rw [hsem]
    exact hmem

theorem aslWf_enqueueProcess {k : Kernel} (hw : AslWf k) {p : PcbId} (hp : k.procq.Null p) :
    AslWf (enqueueProcess k p) := by
  rw [enqueueProcess_eq hp]
  have hne : ∀ h, h = .pcbFree ∨ (∃ i, h = .sProcq i) → h ≠ processQueue k p := by
    rintro h hh rfl
    rcases processQueue_eq k p with hp | hp <;> rw [hp] at hh <;>
      simp only [reduceCtorEq, exists_false, or_false] at hh
  refine aslWf_ready hw (Queues.wf_addTail hw.procq _ hp) (fun i => ?_) (fun r hr => ?_)
  · exact Queues.addTail_other _ _ _ _ (hne _ (Or.inr ⟨i, rfl⟩))
  · rw [Queues.addTail_other _ _ _ _ (hne _ (Or.inl rfl))]
    exact hr

/-- Putting a process on its ready queue. -/
theorem at_enqueueProcess {k : Kernel} {s : Finset PcbId} {p : PcbId} (h : At k s) (hp : p ∈ s) :
    At (enqueueProcess k p) (s.erase p) := by
  have hasl := aslWf_enqueueProcess h.wf.asl (h.null hp)
  have hpl : places (enqueueProcess k p) = (places k).ready (k.pcb p).pPrio p := by
    rw [places_enqueueProcess, Places.remove_of_nowhere ((nowhere_iff h.wf.asl p).mp (h.null hp))]
  have heq := enqueueProcess_eq (h.null hp)
  have hq : ∀ r, r ∈ (enqueueProcess k p).procq .pcbFree ↔ r ∈ k.procq .pcbFree := by
    intro r
    change r ∈ (places (enqueueProcess k p)).free ↔ _
    rw [hpl, Places.ready]
    split <;> rfl
  refine ⟨⟨hasl, pcbWf_of h.wf.pcb hq (fun r => ?_) ?_ ?_, treeWf_of h.wf.tree hq ?_ ?_⟩,
    ⟨?_, ?_⟩, ?_⟩
  · rw [heq]
    exact ⟨rfl, rfl⟩
  · intro r hr
    change r ∈ (places (enqueueProcess k p)).lo at hr
    rw [hpl, Places.ready] at hr
    by_cases hprio : (k.pcb p).pPrio ≠ 0
    · rw [if_pos hprio] at hr
      exact Or.inl hr
    · rw [if_neg hprio] at hr
      rcases List.mem_append.mp hr with hr | hr
      · exact Or.inl hr
      · rw [List.mem_singleton.mp hr]
        exact Or.inr (not_not.mp hprio)
  · intro r hr
    change r ∈ (places (enqueueProcess k p)).hi at hr
    rw [hpl, Places.ready] at hr
    by_cases hprio : (k.pcb p).pPrio ≠ 0
    · rw [if_pos hprio] at hr
      rcases List.mem_append.mp hr with hr | hr
      · exact Or.inl hr
      · rw [List.mem_singleton.mp hr]
        exact Or.inr ((h.wf.pcb.prio p).resolve_left hprio)
    · rw [if_neg hprio] at hr
      exact Or.inl hr
  · rw [heq]
  · rw [heq]
    exact fun _ => rfl
  · rw [live_of hq, heq]
    exact h.counted.processes
  · have hb : blocked (enqueueProcess k p) = blocked k := by
      ext r
      rw [mem_blocked, mem_blocked, hq, heq]
    rw [hb, heq]
    exact h.counted.softblock
  · intro r
    rw [nowhere_iff hasl, hpl, Places.nowhere_ready, ← nowhere_iff h.wf.asl, h.running,
      Finset.mem_erase, and_comm]

theorem aslWf_listSdel {k : Kernel} (hw : AslWf k) {h : ProcQ} {p : PcbId} (hp : p ∈ k.procq h)
    (hh : h = .readyQueueHi ∨ h = .readyQueueLo) : AslWf (listSdel k p) := by
  refine aslWf_ready hw (Queues.wf_del hw.procq p) (fun i => ?_) (fun r hr => ?_)
  · refine Queues.del_other hw.procq hp ?_
    rintro rfl
    rcases hh with hh | hh <;> exact absurd hh (by simp only [reduceCtorEq, not_false_eq_true])
  · rw [Queues.del_other hw.procq hp]
    · exact hr
    · rintro rfl
      rcases hh with hh | hh <;> exact absurd hh (by simp only [reduceCtorEq, not_false_eq_true])

/-- Taking a process from a ready queue. -/
theorem at_listSdel {k : Kernel} {s : Finset PcbId} {h : ProcQ} {p : PcbId} (hat : At k s)
    (hp : p ∈ k.procq h) (hh : h = .readyQueueHi ∨ h = .readyQueueLo) :
    At (listSdel k p) (insert p s) := by
  have hasl := aslWf_listSdel hat.wf.asl hp hh
  have hq : ∀ r, r ∈ (listSdel k p).procq .pcbFree ↔ r ∈ k.procq .pcbFree := by
    intro r
    change r ∈ k.procq.del p .pcbFree ↔ _
    rw [Queues.del_other hat.wf.asl.procq hp]
    rintro rfl
    rcases hh with hh | hh <;> exact absurd hh (by simp only [reduceCtorEq, not_false_eq_true])
  refine ⟨⟨hasl, pcbWf_of hat.wf.pcb hq (fun r => ⟨rfl, rfl⟩)
    (fun r hr => Or.inl (List.mem_of_mem_erase hr)) (fun r hr => Or.inl (List.mem_of_mem_erase hr)),
    treeWf_of hat.wf.tree hq rfl (fun _ => rfl)⟩, ⟨?_, ?_⟩, ?_⟩
  · rw [live_of hq]
    exact hat.counted.processes
  · have hb : blocked (listSdel k p) = blocked k := by
      ext r
      rw [mem_blocked, mem_blocked, hq]
      rfl
    rw [hb]
    exact hat.counted.softblock
  · intro r
    change (k.procq.del p).Null r ↔ _
    rw [Queues.null_del hat.wf.asl.procq, hat.running, Finset.mem_insert, or_comm]

/-! ## Semaphore to ready queue -/

/-- The longest waiting process of a semaphore was taken off it and put on its
    ready queue. -/
structure Woken (k : Kernel) (a : Word) (p : PcbId) (k' : Kernel) : Prop where
  head : ∃ ps, waiters k a = p :: ps
  asl : AslWf k'
  places : places k' = ((places k).remove p).ready (k.pcb p).pPrio p
  rest : ∃ q s, k' = { k with
    procq := q, slink := s, pcb := setSemAdd k p none
    softblockCount := k.softblockCount.decr }
  off : ∃ k₁, Unblocked k a p k₁ ∧ k' = enqueueProcess k₁ p

theorem Unblocked.woken {k k' : Kernel} {a : Word} {p : PcbId} {ps : List PcbId}
    (hu : Unblocked k a p k') (hw : AslWf k) (hp : waiters k a = p :: ps) :
    Woken k a p (enqueueProcess k' p) := by
  have hu' := hu
  rcases hu with ⟨_, hasl, hpl, s, rfl⟩
  have hnull : (k.procq.del p).Null p := (Queues.null_del hw.procq p p).mpr (Or.inr rfl)
  have hprio : (setSemAdd k p none p).pPrio = (k.pcb p).pPrio := (setSemAdd_fields k p p none).2.1
  refine ⟨⟨ps, hp⟩, aslWf_enqueueProcess hasl hnull, ?_, ⟨_, s, enqueueProcess_eq hnull⟩,
    ⟨_, hu', rfl⟩⟩
  rw [places_enqueueProcess, Places.remove_of_nowhere ((nowhere_iff hasl p).mp hnull), hpl, ← hprio]

/-- The process has high priority. -/
def isHigh (k : Kernel) (p : PcbId) : Bool := (k.pcb p).pPrio != 0

/-- Processes went to the ends of the ready queues of their priorities, one
    after the other. -/
structure Readied (k : Kernel) (ps : List PcbId) (k' : Kernel) : Prop where
  hi : k'.procq .readyQueueHi = k.procq .readyQueueHi ++ ps.filter (isHigh k')
  lo : k'.procq .readyQueueLo = k.procq .readyQueueLo ++ ps.filter (!isHigh k' ·)

theorem isHigh_congr {k k' : Kernel} (h : ∀ p, (k'.pcb p).pPrio = (k.pcb p).pPrio) :
    isHigh k' = isHigh k := by
  funext p
  rw [isHigh, isHigh, h]

theorem readied_of_same {k k' : Kernel} (h : k'.procq = k.procq) : Readied k [] k' := by
  constructor
  · rw [h, List.filter_nil, List.append_nil]
  · rw [h, List.filter_nil, List.append_nil]

theorem Readied.trans {k k₁ k' : Kernel} {ps qs : List PcbId} (h : Readied k ps k₁)
    (h' : Readied k₁ qs k') (hprio : ∀ p, (k'.pcb p).pPrio = (k₁.pcb p).pPrio) :
    Readied k (ps ++ qs) k' := by
  have hhigh := isHigh_congr hprio
  constructor
  · rw [h'.hi, h.hi, hhigh, List.filter_append, List.append_assoc]
  · rw [h'.lo, h.lo, hhigh, List.filter_append, List.append_assoc]

/-- One process on its ready queue. -/
theorem readied_of_places {k k' : Kernel} {p : PcbId}
    (hpl : places k' = (places k).ready (k'.pcb p).pPrio p) : Readied k [p] k' := by
  have hhi : k'.procq .readyQueueHi = _ := congrArg Places.hi hpl
  have hlo : k'.procq .readyQueueLo = _ := congrArg Places.lo hpl
  unfold Places.ready at hhi hlo
  by_cases hprio : (k'.pcb p).pPrio ≠ 0
  · have hhigh : isHigh k' p = true := bne_iff_ne.mpr hprio
    rw [if_pos hprio] at hhi hlo
    constructor
    · rw [hhi, List.filter_cons_of_pos hhigh, List.filter_nil]
      rfl
    · rw [hlo, List.filter_cons_of_neg (by rw [hhigh]; decide), List.filter_nil, List.append_nil]
      rfl
  · have hlow : isHigh k' p = false := bne_eq_false_iff_eq.mpr (not_not.mp hprio)
    rw [if_neg hprio] at hhi hlo
    constructor
    · rw [hhi, List.filter_cons_of_neg (by rw [hlow]; decide), List.filter_nil, List.append_nil]
      rfl
    · rw [hlo, List.filter_cons_of_pos (by rw [hlow]; decide), List.filter_nil]
      rfl

/-- A process that waited is in no ready queue, so waking it appends it. -/
theorem Woken.readied {k k' : Kernel} {a : Word} {p : PcbId} (hb : Woken k a p k')
    (hw : AslWf k) : Readied k [p] k' := by
  have hprio : (k'.pcb p).pPrio = (k.pcb p).pPrio := by
    rcases hb.rest with ⟨q, s, rfl⟩
    exact (setSemAdd_fields k p p none).2.1
  rcases hb.head with ⟨ps, hps⟩
  rcases (mem_waiters_iff hw a p).mp (hps ▸ List.mem_cons_self) with ⟨i, _, _, hq⟩
  have hout : ∀ h, h ≠ .sProcq i → p ∉ k.procq h :=
    fun h hne hm => hne (hw.procq.unique h (.sProcq i) p hm hq)
  have hpl : Readied (listSdel k p) [p] k' := readied_of_places (by
    rw [hprio, places_listSdel]
    exact hb.places)
  constructor
  · rw [hpl.hi, show (listSdel k p).procq .readyQueueHi = k.procq .readyQueueHi from
      List.erase_of_not_mem (hout _ (by simp only [ne_eq, reduceCtorEq, not_false_eq_true]))]
  · rw [hpl.lo, show (listSdel k p).procq .readyQueueLo = k.procq .readyQueueLo from
      List.erase_of_not_mem (hout _ (by simp only [ne_eq, reduceCtorEq, not_false_eq_true]))]

/-- Waking keeps the invariant: the process is in a queue before and after. -/
theorem Woken.at {k k' : Kernel} {s : Finset PcbId} {a : Word} {p : PcbId} (hb : Woken k a p k')
    (h : At k s) : At k' s := by
  rcases hb.off with ⟨k₁, hu, rfl⟩
  have hp : p ∉ s := by
    intro hp
    have hnull := (nowhere_iff h.wf.asl p).mp (h.null hp)
    exact hnull.2.2.2 a hu.waiting
  have hat := at_enqueueProcess (hu.at h) (Finset.mem_insert_self p s)
  rwa [Finset.erase_insert hp] at hat

end Pandos
