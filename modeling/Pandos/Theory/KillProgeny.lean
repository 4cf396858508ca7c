import Pandos.Theory.Moves

/-!
# Killing a Subtree

`kill_progeny` removes exactly a process and its descendants. `Kernel.killed`
says what a state looks like after a list of processes was killed, whatever
the order in which the recursion met them; a call of `kill_progeny` is shown
to produce such a state by induction on its fuel.

Every round of the recursion detaches a child from its parent, so the number
of processes that have a parent bounds the rounds. It is at most `MAX_PROC`,
which is why `killFuel` is never used up.

## Main definitions

* `detach`: A process is taken off the list of children of its parent.
* `Kernel.killed`: The state after a list of processes was killed.

## Theorems

* `wf_detach`: Detaching a process keeps the tables well formed.
* `killProcess_spec`: A process without children is killed alone.
* `killed_killed`: Killing a child first and the rest afterwards is killing all.
* `killProgeny_spec`: The recursion kills the subtree of its argument.
* `killed_at`: Killing keeps the invariant.
* `waiters_killed`: Killing removes the processes from the queue of every
  semaphore.
-/

namespace Pandos

open Forest

/-! ## Detaching -/

/-- A process is taken off the list of children of its parent. -/
def detach (k : Kernel) (c : PcbId) : Kernel :=
  { k.modPcb c (fun t => { t with pParent := none }) with child := k.child.del c }

theorem parentOf_detach (k : Kernel) (c : PcbId) :
    parentOf (detach k c) = cut (parentOf k) c := by
  funext q
  simp only [parentOf, detach, Kernel.modPcb, cut]
  by_cases h : q = c
  · rw [if_pos h, if_pos h]
  · rw [if_neg h, if_neg h]

/-- Detaching a process changes no other field of a record. -/
theorem detach_fields (k : Kernel) (c q : PcbId) :
    ((detach k c).pcb q).pSemAdd = (k.pcb q).pSemAdd ∧
      ((detach k c).pcb q).pPrio = (k.pcb q).pPrio ∧
      ((detach k c).pcb q).pPid = (k.pcb q).pPid := by
  simp only [detach, Kernel.modPcb]
  by_cases h : q = c
  · rw [if_pos h, h]
    exact ⟨rfl, rfl, rfl⟩
  · rw [if_neg h]
    exact ⟨rfl, rfl, rfl⟩

theorem wf_detach {k : Kernel} (hw : Wf k) (c : PcbId) : Wf (detach k c) := by
  have hf := detach_fields k c
  refine ⟨⟨hw.asl.procq, hw.asl.slink, hw.asl.listed, hw.asl.waiting, hw.asl.idle, hw.asl.aligned,
    hw.asl.key_inj, ?_, ?_⟩, pcbWf_of hw.pcb (fun _ => Iff.rfl) (fun q => ⟨(hf q).2.2, (hf q).2.1⟩)
      (fun _ hp => Or.inl hp) (fun _ hp => Or.inl hp), ?_⟩
  · intro i p hp
    rw [(hf p).1]
    exact hw.asl.queued i p hp
  · intro p a hp
    rw [(hf p).1] at hp
    exact hw.asl.blocked p a hp
  · constructor
    · intro q
      exact (hw.tree.nodup q).erase c
    · intro q r
      rw [parentOf_detach, cut_some, ← hw.tree.mem_iff]
      exact (hw.tree.nodup q).mem_erase_iff
    · rw [parentOf_detach]
      exact acyclic_mono (fun _ _ h => (cut_some.mp h).2) hw.tree.acyclic
    · intro q r h
      rw [parentOf_detach, cut_some] at h
      exact hw.tree.live q r h.2

/-- A child that stands in its list of children is detached. -/
theorem outChild_eq {k : Kernel} (hw : TreeWf k) {p c : PcbId} (hc : parentOf k c = some p) :
    outChild k c = (some c, detach k c) := by
  have hmem := (hw.mem_iff p c).mpr hc
  have hc' : (k.pcb c).pParent = some p := hc
  simp only [outChild, hc', if_pos hmem, detach]

/-- Detaching a root changes nothing. -/
theorem detach_root {k : Kernel} (hw : TreeWf k) {p : PcbId} (hp : parentOf k p = none) :
    detach k p = k := by
  have hpcb : (k.modPcb p (fun t => { t with pParent := none })).pcb = k.pcb := by
    funext q
    simp only [Kernel.modPcb]
    by_cases h : q = p
    · rw [if_pos h, h]
      have hp' : (k.pcb p).pParent = none := hp
      rw [← hp']
    · rw [if_neg h]
  have hchild : k.child.del p = k.child := by
    refine Queues.del_of_null (fun q hq => ?_)
    rw [hw.mem_iff, hp] at hq
    exact absurd hq (by simp only [reduceCtorEq, not_false_eq_true])
  unfold detach
  rw [hchild]
  change { k with pcb := (k.modPcb p (fun t => { t with pParent := none })).pcb } = k
  rw [hpcb]

theorem removeChild_none {k : Kernel} {p : PcbId} (h : k.child p = []) :
    removeChild k p = (none, k) := by
  simp only [removeChild, h, List.head?_nil]

theorem removeChild_some {k : Kernel} (hw : TreeWf k) {p c : PcbId} {cs : List PcbId}
    (h : k.child p = c :: cs) : parentOf k c = some p ∧ removeChild k p = (some c, detach k c) := by
  have hc : parentOf k c = some p := by
    rw [← hw.mem_iff, h]
    exact List.mem_cons_self
  refine ⟨hc, ?_⟩
  simp only [removeChild, h, List.head?_cons]
  exact outChild_eq hw hc

/-! ## The state after some processes were killed -/

/-- The records after some processes were killed. -/
def killedPcb (k : Kernel) (ks : List PcbId) : PcbId → Pcb :=
  fun q => if q ∈ ks then
    { k.pcb q with pParent := none, pSemAdd := none, pPid := NULL_PID }
  else k.pcb q

/-- The processes of a list that wait for a semaphore. -/
def waitingOf (k : Kernel) (ks : List PcbId) : List PcbId :=
  ks.filter (fun q => (k.pcb q).pSemAdd.isSome)

/-- The state after some processes were killed, the last one first. -/
def Kernel.killed (k : Kernel) (ks : List PcbId) (s : Queues SemdList SemdId) : Kernel :=
  { k with
    procq := fun h =>
      if h = .pcbFree then ks ++ k.procq .pcbFree else (k.procq h).filter (· ∉ ks)
    child := fun q => (k.child q).filter (· ∉ ks)
    pcb := killedPcb k ks
    slink := s
    processCount := Counter.decr^[ks.length] k.processCount
    softblockCount := Counter.decr^[(waitingOf k ks).length] k.softblockCount }

theorem killedPcb_of_not_mem (k : Kernel) {ks : List PcbId} {q : PcbId} (h : q ∉ ks) :
    killedPcb k ks q = k.pcb q := by
  simp only [killedPcb, if_neg h]

theorem parentOf_killed (k : Kernel) (ks : List PcbId) (s : Queues SemdList SemdId) :
    parentOf (k.killed ks s) = prune (parentOf k) (· ∈ ks) := by
  funext q
  simp only [parentOf, Kernel.killed, killedPcb, prune]
  by_cases h : q ∈ ks
  · rw [if_pos h, if_pos h]
  · rw [if_neg h, if_neg h]

theorem killed_free (k : Kernel) (ks : List PcbId) (s : Queues SemdList SemdId) :
    (k.killed ks s).procq .pcbFree = ks ++ k.procq .pcbFree := by
  simp only [Kernel.killed, if_true]

theorem killed_procq (k : Kernel) (ks : List PcbId) (s : Queues SemdList SemdId) {h : ProcQ}
    (hh : h ≠ .pcbFree) : (k.killed ks s).procq h = (k.procq h).filter (· ∉ ks) := by
  simp only [Kernel.killed, if_neg hh]

theorem erase_eq_filter {α : Type} [DecidableEq α] {l : List α} (h : l.Nodup) (a : α) :
    l.erase a = l.filter (· ∉ [a]) := by
  rw [h.erase_eq_filter]
  refine List.filter_congr (fun x _ => ?_)
  by_cases hx : x = a
  · simp only [hx, bne_self_eq_false, List.mem_singleton, not_true_eq_false, decide_false]
  · simp only [List.mem_singleton, hx, not_false_eq_true, decide_true, bne_iff_ne, ne_eq]

/-- Filtering with one list and then with another is filtering with both. -/
theorem filter_filter_not_mem {α : Type} [DecidableEq α] (l xs ys : List α) :
    (l.filter (· ∉ xs)).filter (· ∉ ys) = l.filter (· ∉ ys ++ xs) := by
  rw [List.filter_filter]
  refine List.filter_congr (fun x _ => ?_)
  simp only [List.mem_append, not_or, Bool.decide_and]

/-! ## Killing one process -/

theorem setSemAdd_id {k : Kernel} {p : PcbId} (h : (k.pcb p).pSemAdd = none) :
    setSemAdd k p none = k.pcb := by
  funext q
  by_cases hq : q = p
  · simp only [setSemAdd, hq, if_true]
    rw [← h]
  · rw [setSemAdd_other k p q none hq]

/-- A live process that stands in a queue but waits for nothing stands in the
    ready queue of its priority. -/
theorem mem_processQueue {k : Kernel} (hw : Wf k) {p : PcbId} (hf : p ∉ k.procq .pcbFree)
    (hs : (k.pcb p).pSemAdd = none) (hn : ¬ k.procq.Null p) : p ∈ k.procq (processQueue k p) := by
  unfold Queues.Null at hn
  push Not at hn
  rcases hn with ⟨h, hp⟩
  cases h with
  | pcbFree => exact absurd hp hf
  | readyQueueLo =>
      have hprio : ¬ (k.pcb p).pPrio ≠ 0 := fun hne => hne (hw.pcb.lo p hp)
      rwa [processQueue, if_neg hprio]
  | readyQueueHi =>
      have hprio : (k.pcb p).pPrio ≠ 0 := by
        rw [hw.pcb.hi p hp]
        decide
      rwa [processQueue, if_pos hprio]
  | sProcq i =>
      have hsome := hw.asl.queued i p hp
      rw [hs] at hsome
      exact absurd hsome (by simp only [reduceCtorEq, not_false_eq_true])

theorem waitingOf_singleton (k : Kernel) (p : PcbId) :
    waitingOf k [p] = if (k.pcb p).pSemAdd.isSome then [p] else [] := by
  simp only [waitingOf, List.filter_cons, List.filter_nil]

/-- Whichever queue the process stands in, it is taken out of it. -/
theorem killUnlink_spec {k : Kernel} (hw : Wf k) {p : PcbId} (hf : p ∉ k.procq .pcbFree) :
    ∃ s, killUnlink k p = { k with
        procq := k.procq.del p, slink := s, pcb := setSemAdd k p none
        softblockCount := Counter.decr^[(waitingOf k [p]).length] k.softblockCount } ∧
      AslWf { k with procq := k.procq.del p, slink := s, pcb := setSemAdd k p none } := by
  unfold killUnlink
  rw [waitingOf_singleton]
  by_cases hn : k.procq.Null p
  · have hs := semAdd_none_of_null hw.asl hn
    refine ⟨k.slink, ?_, ?_⟩
    · rw [if_pos hn, Queues.del_of_null hn, setSemAdd_id hs, hs]
      rfl
    · rw [Queues.del_of_null hn, setSemAdd_id hs]
      exact hw.asl
  · rw [if_neg hn]
    cases hs : (k.pcb p).pSemAdd with
    | none =>
        have hmem := mem_processQueue hw hf hs hn
        refine ⟨k.slink, ?_, ?_⟩
        · rw [if_neg (not_not_intro rfl), setSemAdd_id hs, dequeueProcess, outProcQ, if_pos hmem]
          rfl
        · rw [setSemAdd_id hs]
          exact aslWf_listSdel hw.asl hmem (processQueue_eq k p)
    | some a =>
        have hwait := mem_waiters_of_semAdd hw.asl hs hf
        rcases outBlocked_spec hw.asl hwait with ⟨s, heq, hwf, _⟩
        refine ⟨s, ?_, hwf⟩
        rw [if_pos (Option.some_ne_none a), heq]
        rfl

/-- A process that was taken out of its queue goes to the free list. -/
theorem freePcb_eq {k : Kernel} {p : PcbId} (hp : k.procq.Null p) :
    freePcb k p = { k.modPcb p (fun t => { t with pPid := NULL_PID }) with
      procq := k.procq.addHead .pcbFree p } := by
  rw [freePcb, if_neg (hp .pcbFree)]
  simp only [Kernel.modPcb, Queues.del_of_null hp]

theorem killed_singleton_procq {k : Kernel} (hw : AslWf k) {p : PcbId} (hf : p ∉ k.procq .pcbFree)
    (s : Queues SemdList SemdId) :
    (k.killed [p] s).procq = (k.procq.del p).addHead .pcbFree p := by
  funext h
  by_cases hh : h = .pcbFree
  · rw [hh, killed_free, Queues.addHead_self, Queues.del, List.erase_of_not_mem hf]
    rfl
  · rw [killed_procq k _ _ hh, Queues.addHead_other _ _ _ _ hh, Queues.del,
      erase_eq_filter (hw.procq.nodup h)]

/-- One call of `kill_process`, whichever queue the process stands in. -/
theorem killProcess_eq {k : Kernel} (hw : Wf k) {p : PcbId} (hf : p ∉ k.procq .pcbFree) :
    ∃ s, killProcess k p = (0, k.killed [p] s) ∧
      AslWf { detach k p with
        procq := k.procq.del p, slink := s, pcb := setSemAdd (detach k p) p none } := by
  have hw' := wf_detach hw p
  -- Taking the process from its parent is the same for a root and for a child.
  have hdet : killProcess k p = (0, freePcb (killUnlink
      { detach k p with processCount := (detach k p).processCount.decr } p) p) := by
    cases hp : (k.pcb p).pParent with
    | none =>
        rw [killProcess, hp, if_neg (fun h => h.1 rfl), if_neg (not_not_intro rfl),
          detach_root hw.tree hp]
    | some q =>
        rw [killProcess, hp, outChild_eq hw.tree hp, if_neg (fun h => h.2 rfl),
          if_pos (Option.some_ne_none q)]
  rcases killUnlink_spec (k := { detach k p with processCount := (detach k p).processCount.decr })
    ⟨⟨hw'.asl.procq, hw'.asl.slink, hw'.asl.listed, hw'.asl.waiting, hw'.asl.idle,
      hw'.asl.aligned, hw'.asl.key_inj, hw'.asl.queued, hw'.asl.blocked⟩,
      ⟨hw'.pcb.free_iff, hw'.pcb.lo, hw'.pcb.hi, hw'.pcb.prio⟩,
      ⟨hw'.tree.nodup, hw'.tree.mem_iff, hw'.tree.acyclic, hw'.tree.live⟩⟩ hf with ⟨s, heq, hasl⟩
  have hnull : (k.procq.del p).Null p := (Queues.null_del hw.asl.procq p p).mpr (Or.inr rfl)
  have hchild : (k.killed [p] s).child = k.child.del p := by
    funext q
    exact (erase_eq_filter (hw.tree.nodup q) p).symm
  have hwait : waitingOf (detach k p) [p] = waitingOf k [p] := by
    rw [waitingOf_singleton, waitingOf_singleton, (detach_fields k p p).1]
  -- Only the block of the process itself is written.
  have hpcb : (k.killed [p] s).pcb = fun q => if q = p then
      { k.pcb p with pParent := none, pSemAdd := none, pPid := NULL_PID } else k.pcb q := by
    funext q
    by_cases hq : q = p
    · simp only [Kernel.killed, killedPcb, hq, List.mem_singleton, if_true]
    · simp only [Kernel.killed, killedPcb, hq, List.mem_singleton, if_false]
  refine ⟨s, ?_, ⟨hasl.procq, hasl.slink, hasl.listed, hasl.waiting, hasl.idle, hasl.aligned,
    hasl.key_inj, hasl.queued, hasl.blocked⟩⟩
  rw [hdet, heq, freePcb_eq hnull]
  have hset : (fun q => if q = p then
      { (setSemAdd (detach k p) p none) p with pPid := NULL_PID }
      else (setSemAdd (detach k p) p none) q) = (k.killed [p] s).pcb := by
    rw [hpcb]
    funext q
    by_cases hq : q = p
    · simp only [hq, if_true, setSemAdd, detach, Kernel.modPcb]
    · simp only [hq, if_false, setSemAdd, detach, Kernel.modPcb]
  have hsoft : (k.killed [p] s).softblockCount
      = Counter.decr^[(waitingOf (detach k p) [p]).length] k.softblockCount := by
    rw [hwait]
    rfl
  refine congrArg (Prod.mk 0) ?_
  change { k with
    procq := (k.procq.del p).addHead .pcbFree p
    child := k.child.del p
    pcb := fun q => if q = p then { (setSemAdd (detach k p) p none) p with pPid := NULL_PID }
      else (setSemAdd (detach k p) p none) q
    slink := s
    processCount := k.processCount.decr
    softblockCount := Counter.decr^[(waitingOf (detach k p) [p]).length] k.softblockCount } = _
  rw [← killed_singleton_procq hw.asl hf s, ← hchild, hset, ← hsoft]
  rfl

theorem pcbWf_killed {k : Kernel} (hw : PcbWf k) (ks : List PcbId)
    (s : Queues SemdList SemdId) : PcbWf (k.killed ks s) := by
  have hprio : ∀ q, ((k.killed ks s).pcb q).pPrio = (k.pcb q).pPrio := by
    intro q
    simp only [Kernel.killed, killedPcb]
    by_cases hq : q ∈ ks
    · rw [if_pos hq]
    · rw [if_neg hq]
  constructor
  · intro q
    rw [killed_free, List.mem_append]
    change _ ↔ (killedPcb k ks q).pPid = NULL_PID
    by_cases hq : q ∈ ks
    · simp only [hq, true_or, killedPcb, if_true]
    · rw [killedPcb_of_not_mem k hq, ← hw.free_iff]
      simp only [hq, false_or]
  · intro q hq
    rw [killed_procq k ks s (by simp only [ne_eq, reduceCtorEq, not_false_eq_true])] at hq
    rw [hprio]
    exact hw.lo q (List.mem_of_mem_filter hq)
  · intro q hq
    rw [killed_procq k ks s (by simp only [ne_eq, reduceCtorEq, not_false_eq_true])] at hq
    rw [hprio]
    exact hw.hi q (List.mem_of_mem_filter hq)
  · intro q
    rw [hprio]
    exact hw.prio q

/-- Killing processes together with their children leaves a forest. -/
theorem treeWf_killed {k : Kernel} (hw : TreeWf k) {ks : List PcbId}
    (hc : Closed (parentOf k) (· ∈ ks)) (s : Queues SemdList SemdId) :
    TreeWf (k.killed ks s) := by
  constructor
  · intro q
    exact (hw.nodup q).filter _
  · intro q c
    rw [parentOf_killed, prune_some, ← hw.mem_iff]
    change c ∈ (k.child q).filter (· ∉ ks) ↔ _
    rw [List.mem_filter, decide_eq_true_iff, and_comm]
  · rw [parentOf_killed]
    exact acyclic_mono (fun _ _ h => (prune_some.mp h).2) hw.acyclic
  · intro q c h
    rw [parentOf_killed, prune_some] at h
    rcases hw.live q c h.2 with ⟨hc', hq'⟩
    rw [killed_free, List.mem_append, List.mem_append]
    exact ⟨not_or.mpr ⟨h.1, hc'⟩, not_or.mpr ⟨fun hq => h.1 (hc q c h.2 hq), hq'⟩⟩

/-- The tables stay well formed when a process without children is killed. -/
theorem killProcess_spec {k : Kernel} (hw : Wf k) {p : PcbId} (hf : p ∉ k.procq .pcbFree)
    (hc : k.child p = []) : ∃ s, killProcess k p = (0, k.killed [p] s) ∧ Wf (k.killed [p] s) := by
  rcases killProcess_eq hw hf with ⟨s, heq, hasl⟩
  have hnull : (k.procq.del p).Null p := (Queues.null_del hw.asl.procq p p).mpr (Or.inr rfl)
  refine ⟨s, heq, ?_, pcbWf_killed hw.pcb [p] s, treeWf_killed hw.tree ?_ s⟩
  · have hasl' := aslWf_ready hasl (Queues.wf_addHead hasl.procq .pcbFree hnull)
      (fun i => Queues.addHead_other _ _ _ _
        (by simp only [ne_eq, reduceCtorEq, not_false_eq_true]))
      (fun r hr => (Queues.mem_addHead _ _ _ _ r).mpr (Or.inl hr))
    refine aslWf_congr hasl' (killed_singleton_procq hw.asl hf s) rfl rfl (fun q => ?_)
    change (killedPcb k [p] q).pSemAdd = (setSemAdd (detach k p) p none q).pSemAdd
    by_cases hq : q = p
    · rw [hq, setSemAdd_self]
      simp only [killedPcb, List.mem_singleton, if_true]
    · rw [setSemAdd_other _ _ _ _ hq, killedPcb_of_not_mem k (by rwa [List.mem_singleton]),
        (detach_fields k p q).1]
  · intro q r hr hq
    rw [List.mem_singleton.mp hq, ← hw.tree.mem_iff, hc] at hr
    exact absurd hr List.not_mem_nil

/-! ## Killing a subtree -/

theorem killedPcb_detach (k : Kernel) {c : PcbId} {xs : List PcbId} (hc : c ∈ xs) :
    killedPcb (detach k c) xs = killedPcb k xs := by
  funext q
  by_cases hq : q = c
  · simp only [killedPcb, hq, hc, if_true, detach, Kernel.modPcb]
  · simp only [killedPcb, detach, Kernel.modPcb, hq, if_false]

/-- Killing the subtree of a detached child first and the remaining ones
    afterwards is killing them all. -/
theorem killed_killed {k : Kernel} (hw : TreeWf k) {c : PcbId} {xs ys : List PcbId}
    (hc : c ∈ xs) (hd : ∀ q ∈ ys, q ∉ xs) (s s' : Queues SemdList SemdId) :
    ((detach k c).killed xs s).killed ys s' = k.killed (ys ++ xs) s' := by
  have hprocq : (((detach k c).killed xs s).killed ys s').procq
      = (k.killed (ys ++ xs) s').procq := by
    funext h
    by_cases hh : h = .pcbFree
    · rw [hh, killed_free, killed_free, killed_free, List.append_assoc]
      rfl
    · rw [killed_procq _ _ _ hh, killed_procq _ _ _ hh, killed_procq _ _ _ hh,
        filter_filter_not_mem]
      rfl
  -- The links of the forest lose the nodes of both lists, and the child itself.
  have hchild : (((detach k c).killed xs s).killed ys s').child
      = (k.killed (ys ++ xs) s').child := by
    funext q
    change ((((k.child q).erase c).filter (· ∉ xs)).filter (· ∉ ys)) = (k.child q).filter _
    rw [filter_filter_not_mem, erase_eq_filter (hw.nodup q), filter_filter_not_mem]
    refine List.filter_congr (fun x _ => ?_)
    simp only [List.mem_append, List.mem_singleton]
    by_cases hx : x = c
    · simp only [hx, hc, or_true, not_true_eq_false, decide_false]
    · simp only [hx, or_false]
  have hpcb : (((detach k c).killed xs s).killed ys s').pcb = (k.killed (ys ++ xs) s').pcb := by
    funext q
    change killedPcb ((detach k c).killed xs s) ys q = killedPcb k (ys ++ xs) q
    by_cases hy : q ∈ ys
    · have hx := hd q hy
      have hqc : q ≠ c := fun h => hx (h ▸ hc)
      simp only [killedPcb, Kernel.killed, detach, Kernel.modPcb, List.mem_append, hy, hx, hqc,
        if_true, if_false, true_or]
    · rw [killedPcb_of_not_mem _ hy]
      change killedPcb (detach k c) xs q = _
      rw [killedPcb_detach k hc]
      simp only [killedPcb, List.mem_append, hy, false_or]
  have hcount : (((detach k c).killed xs s).killed ys s').processCount
      = (k.killed (ys ++ xs) s').processCount := by
    change Counter.decr^[ys.length] (Counter.decr^[xs.length] k.processCount)
      = Counter.decr^[(ys ++ xs).length] k.processCount
    rw [List.length_append, Function.iterate_add_apply]
  -- The second list counts as many waiting processes as before the first one was killed.
  have hwait : waitingOf ((detach k c).killed xs s) ys = waitingOf k ys := by
    refine List.filter_congr (fun q hq => ?_)
    change (killedPcb (detach k c) xs q).pSemAdd.isSome = _
    rw [killedPcb_of_not_mem _ (hd q hq), (detach_fields k c q).1]
  have hwait' : waitingOf (detach k c) xs = waitingOf k xs := by
    refine List.filter_congr (fun q _ => ?_)
    rw [(detach_fields k c q).1]
  have hsoft : (((detach k c).killed xs s).killed ys s').softblockCount
      = (k.killed (ys ++ xs) s').softblockCount := by
    change Counter.decr^[(waitingOf ((detach k c).killed xs s) ys).length]
        (Counter.decr^[(waitingOf (detach k c) xs).length] k.softblockCount)
      = Counter.decr^[(waitingOf k (ys ++ xs)).length] k.softblockCount
    rw [hwait, hwait', ← Function.iterate_add_apply, ← List.length_append]
    simp only [waitingOf, List.filter_append]
  change { k.killed (ys ++ xs) s' with
    procq := (((detach k c).killed xs s).killed ys s').procq
    child := (((detach k c).killed xs s).killed ys s').child
    pcb := (((detach k c).killed xs s).killed ys s').pcb
    processCount := (((detach k c).killed xs s).killed ys s').processCount
    softblockCount := (((detach k c).killed xs s).killed ys s').softblockCount } = _
  rw [hprocq, hchild, hpcb, hcount, hsoft]

/-- The processes that have a parent. Each round of the recursion detaches one
    of them. -/
def attached (k : Kernel) : Finset PcbId := Finset.univ.filter (fun p => parentOf k p ≠ none)

theorem mem_attached (k : Kernel) (p : PcbId) : p ∈ attached k ↔ parentOf k p ≠ none := by
  simp only [attached, Finset.mem_filter, Finset.mem_univ, true_and]

theorem card_attached_detach {k : Kernel} {c p : PcbId} (hc : parentOf k c = some p) :
    (attached (detach k c)).card < (attached k).card := by
  refine Finset.card_lt_card (Finset.ssubset_iff_subset_ne.mpr ⟨fun q hq => ?_, fun heq => ?_⟩)
  · rw [mem_attached, parentOf_detach] at hq
    rw [mem_attached]
    intro hn
    refine hq ?_
    simp only [cut, hn, ite_self]
  · have hmem : c ∈ attached k := (mem_attached k c).mpr (hc ▸ Option.some_ne_none p)
    rw [← heq, mem_attached, parentOf_detach, cut_self] at hmem
    exact hmem rfl

theorem card_attached_killed (k : Kernel) (ks : List PcbId) (s : Queues SemdList SemdId) :
    (attached (k.killed ks s)).card ≤ (attached k).card := by
  refine Finset.card_le_card (fun q hq => ?_)
  rw [mem_attached, parentOf_killed] at hq
  rw [mem_attached]
  intro hn
  refine hq ?_
  simp only [prune, hn, ite_self]

/-- The recursion kills exactly the subtree of its argument. The induction is
    on the fuel, which the processes that have a parent bound from above: the
    child that was removed is a root in the first recursive call, and its
    subtree is gone in the second. -/
theorem killProgeny_of_fuel (fuel : Nat) : ∀ k p, Wf k → p ∉ k.procq .pcbFree →
    (attached k).card < fuel → ∃ ks s, killProgeny fuel k p = some (0, k.killed ks s) ∧
      Wf (k.killed ks s) ∧ ks.Nodup ∧ ∀ q, q ∈ ks ↔ Below (parentOf k) p q := by
  induction fuel with
  | zero => exact fun k p _ _ h => absurd h (Nat.not_lt_zero _)
  | succ fuel ih =>
      intro k p hw hf hfuel
      cases hcs : k.child p with
      | nil =>
          rcases killProcess_spec hw hf hcs with ⟨s, heq, hwf⟩
          refine ⟨[p], s, ?_, hwf, List.nodup_singleton p, fun q => ?_⟩
          · rw [killProgeny, removeChild_none hcs]
            exact congrArg some heq
          · rw [List.mem_singleton]
            constructor
            · rintro rfl
              exact Below.self
            · refine below_of_no_child (fun c hc => ?_)
              rw [← hw.tree.mem_iff, hcs] at hc
              exact absurd hc List.not_mem_nil
      | cons c cs =>
          rcases removeChild_some hw.tree hcs with ⟨hc, hrem⟩
          have hcard := card_attached_detach hc
          have hcf : c ∉ k.procq .pcbFree := (hw.tree.live p c hc).1
          -- The subtree of the child is killed first.
          rcases ih (detach k c) c (wf_detach hw c) hcf (by omega) with
            ⟨xs, s, heq, hwf, hnd, hxs⟩
          have hxs' : ∀ q, q ∈ xs ↔ Below (parentOf k) c q := by
            intro q
            rw [hxs, parentOf_detach, below_cut hw.tree.acyclic]
          have hcx : c ∈ xs := (hxs c).mpr Below.self
          have hpx : p ∉ xs := fun h => hw.tree.acyclic p c hc ((hxs' p).mp h)
          have hpf : p ∉ ((detach k c).killed xs s).procq .pcbFree := by
            rw [killed_free, List.mem_append, not_or]
            exact ⟨hpx, hf⟩
          -- What is left of the subtree of the parent is killed next.
          have hle := card_attached_killed (detach k c) xs s
          rcases ih _ p hwf hpf (by omega) with ⟨ys, s', heq', hwf', hnd', hys⟩
          have hparent : parentOf ((detach k c).killed xs s) = prune (parentOf k) (· ∈ xs) := by
            rw [parentOf_killed, parentOf_detach]
            funext q
            by_cases hq : q ∈ xs
            · simp only [prune, hq, if_true]
            · simp only [prune, hq, if_false, cut, if_neg (fun h => hq (h ▸ hcx) : q ≠ c)]
          -- The first subtree is closed, so the second one is what is left below the parent.
          have hclosed : Closed (parentOf k) (· ∈ xs) := by
            intro q r hr hq
            exact (hxs' r).mpr (closed_below _ c q r hr ((hxs' q).mp hq))
          have hys' : ∀ q, q ∈ ys ↔ Below (parentOf k) p q ∧ q ∉ xs := by
            intro q
            rw [hys, hparent, below_prune hclosed hpx]
          have hdisj : ∀ q ∈ ys, q ∉ xs := fun q hq => ((hys' q).mp hq).2
          have hall := killed_killed hw.tree hcx hdisj s s'
          refine ⟨ys ++ xs, s', ?_, hall ▸ hwf', ?_, fun q => ?_⟩
          · rw [killProgeny, hrem]
            simp only [heq]
            rw [heq', hall]
          · exact hnd'.append hnd (fun q hq hq' => hdisj q hq hq')
          · rw [List.mem_append, hys']
            constructor
            · rintro (hq | hq)
              · exact hq.1
              · exact below_trans (Below.child hc Below.self) ((hxs' q).mp hq)
            · intro hq
              by_cases hqx : q ∈ xs
              · exact Or.inr hqx
              · exact Or.inl ⟨hq, hqx⟩

/-- More fuel does not change what the recursion computes. -/
theorem killProgeny_mono (n : Nat) : ∀ m k p r, killProgeny n k p = some r → n ≤ m →
    killProgeny m k p = some r := by
  induction n with
  | zero => exact fun m k p r h => absurd h (by simp only [killProgeny, reduceCtorEq,
      not_false_eq_true])
  | succ n ih =>
      intro m k p r h hm
      cases m with
      | zero => omega
      | succ m =>
          have hm' : n ≤ m := by omega
          rw [killProgeny] at h ⊢
          rcases hrem : removeChild k p with ⟨_ | c, k₁⟩
          · rw [hrem] at h
            exact h
          · rw [hrem] at h
            simp only [] at h ⊢
            cases hc : killProgeny n k₁ c with
            | none => simp only [hc, reduceCtorEq] at h
            | some r₁ =>
                rcases r₁ with ⟨code, k₂⟩
                simp only [ih m k₁ c _ hc hm']
                simp only [hc] at h
                cases code with
                | zero => exact ih m k₂ p r h hm'
                | succ _ => exact h

/-- `kill_progeny` terminates, succeeds, and kills the subtree of its argument. -/
theorem killProgeny_spec {k : Kernel} (hw : Wf k) {p : PcbId} (hf : p ∉ k.procq .pcbFree) :
    ∃ ks s, (∀ fuel, killFuel ≤ fuel → killProgeny fuel k p = some (0, k.killed ks s)) ∧
      Wf (k.killed ks s) ∧ ks.Nodup ∧ ∀ q, q ∈ ks ↔ Below (parentOf k) p q := by
  have hle := card_le_maxProc (attached k)
  rcases killProgeny_of_fuel killFuel k p hw hf (by unfold killFuel; omega) with
    ⟨ks, s, heq, hrest⟩
  exact ⟨ks, s, fun fuel hfuel => killProgeny_mono killFuel fuel k p _ heq hfuel, hrest⟩

/-! ## What is left -/

/-- The descendants of a live process are live. -/
theorem not_free_of_below {k : Kernel} (hw : TreeWf k) {p q : PcbId} (hp : p ∉ k.procq .pcbFree)
    (hq : Below (parentOf k) p q) : q ∉ k.procq .pcbFree := by
  cases hq with
  | self => exact hp
  | child hr _ => exact (hw.live _ q hr).1

theorem counter_is_iterate_decr (m : Nat) : ∀ {c : Counter} {n : Nat}, c.Is (n + m) →
    (Counter.decr^[m] c).Is n := by
  induction m with
  | zero => exact fun h => h
  | succ m ih =>
      intro c n h
      rw [Function.iterate_succ_apply]
      exact ih (counter_is_decr h)

/-- Killing live processes keeps the counters exact. -/
theorem counted_killed {k : Kernel} (hc : Counted k) {ks : List PcbId} (hn : ks.Nodup)
    (hl : ∀ q ∈ ks, q ∉ k.procq .pcbFree) (s : Queues SemdList SemdId) :
    Counted (k.killed ks s) := by
  have hfree : ∀ q, q ∉ (k.killed ks s).procq .pcbFree ↔ q ∉ k.procq .pcbFree ∧ q ∉ ks := by
    intro q
    rw [killed_free, List.mem_append, not_or, and_comm]
  constructor
  · have hlive : live k = live (k.killed ks s) ∪ ks.toFinset := by
      ext q
      rw [Finset.mem_union, List.mem_toFinset, mem_live, mem_live, hfree]
      by_cases hq : q ∈ ks
      · simp only [hq, hl q hq, not_true_eq_false, not_false_eq_true, and_false, or_true]
      · simp only [hq, not_false_eq_true, and_true, or_false]
    have hdisj : Disjoint (live (k.killed ks s)) ks.toFinset := by
      rw [Finset.disjoint_left]
      intro q hq hq'
      rw [mem_live, hfree] at hq
      exact hq.2 (List.mem_toFinset.mp hq')
    refine counter_is_iterate_decr ks.length ?_
    rw [← List.toFinset_card_of_nodup hn, ← Finset.card_union_of_disjoint hdisj, ← hlive]
    exact hc.processes
  · have hmem : ∀ q, q ∈ waitingOf k ks ↔ q ∈ ks ∧ (k.pcb q).pSemAdd ≠ none := by
      intro q
      rw [waitingOf, List.mem_filter, Option.isSome_iff_ne_none]
    have hblocked : Pandos.blocked k
        = Pandos.blocked (k.killed ks s) ∪ (waitingOf k ks).toFinset := by
      ext q
      rw [Finset.mem_union, List.mem_toFinset, mem_blocked, mem_blocked, hfree, hmem]
      by_cases hq : q ∈ ks
      · simp only [hq, hl q hq, not_false_eq_true, not_true_eq_false, and_false, false_and,
          true_and, false_or]
      · change _ ↔ (_ ∧ (killedPcb k ks q).pSemAdd ≠ none) ∨ _
        simp only [hq, killedPcb_of_not_mem k hq, not_false_eq_true, and_true, false_and, or_false]
    have hdisj : Disjoint (Pandos.blocked (k.killed ks s)) (waitingOf k ks).toFinset := by
      rw [Finset.disjoint_left]
      intro q hq hq'
      rw [mem_blocked, hfree] at hq
      exact hq.1.2 ((hmem q).mp (List.mem_toFinset.mp hq')).1
    refine counter_is_iterate_decr (waitingOf k ks).length ?_
    have hnw : (waitingOf k ks).Nodup := hn.filter _
    rw [← List.toFinset_card_of_nodup hnw, ← Finset.card_union_of_disjoint hdisj,
      ← hblocked]
    exact hc.softblock

theorem null_killed {k : Kernel} {ks : List PcbId} (s : Queues SemdList SemdId) (q : PcbId) :
    (k.killed ks s).procq.Null q ↔ k.procq.Null q ∧ q ∉ ks := by
  constructor
  · intro h
    have hf := h .pcbFree
    rw [killed_free, List.mem_append, not_or] at hf
    refine ⟨fun i hi => ?_, hf.1⟩
    by_cases hh : i = .pcbFree
    · exact hf.2 (hh ▸ hi)
    · refine h i ?_
      rw [killed_procq k ks s hh]
      exact List.mem_filter.mpr ⟨hi, decide_eq_true hf.1⟩
  · rintro ⟨h, hq⟩ i hi
    by_cases hh : i = .pcbFree
    · rw [hh, killed_free, List.mem_append] at hi
      exact hi.elim hq (h .pcbFree)
    · rw [killed_procq k ks s hh] at hi
      exact h i (List.mem_of_mem_filter hi)

/-- Killing live processes keeps the invariant. -/
theorem killed_at {k : Kernel} {t : Finset PcbId} (h : At k t) {ks : List PcbId}
    {s : Queues SemdList SemdId} (hw : Wf (k.killed ks s)) (hn : ks.Nodup)
    (hl : ∀ q ∈ ks, q ∉ k.procq .pcbFree) : At (k.killed ks s) (t \ ks.toFinset) := by
  refine ⟨hw, counted_killed h.counted hn hl s, fun q => ?_⟩
  rw [null_killed, h.running, Finset.mem_sdiff, List.mem_toFinset]

/-- Killing processes takes them out of the queue of every semaphore and keeps
    the order of the others. -/
theorem waiters_killed {k : Kernel} (hw : AslWf k) {ks : List PcbId} {s : Queues SemdList SemdId}
    (hw' : AslWf (k.killed ks s)) (a : Word) :
    waiters (k.killed ks s) a = (waiters k a).filter (· ∉ ks) := by
  have hq : ∀ i, (k.killed ks s).procq (.sProcq i) = (k.procq (.sProcq i)).filter (· ∉ ks) :=
    fun i => killed_procq k ks s (by simp only [ne_eq, reduceCtorEq, not_false_eq_true])
  -- A descriptor that is in use afterwards was in use before.
  have huse : ∀ i ∈ (k.killed ks s).slink .semdH, i ∈ k.slink .semdH := by
    intro i hi
    rcases List.exists_mem_of_ne_nil _ (hw'.waiting i hi) with ⟨p, hp⟩
    rw [hq] at hp
    exact semdH_of_mem_procq hw (List.mem_of_mem_filter hp)
  by_cases h : ∃ i ∈ k.slink .semdH, k.sKey i = a
  · rcases h with ⟨i, hi, hkey⟩
    rw [waiters_of_key hw.key_inj hi hkey]
    rcases hw'.listed i with hi' | hi'
    · rw [← hq, hw'.idle i hi', waiters_of_no_key]
      intro j hj hkey'
      have hji := hw.key_inj j (huse j hj) i hi (hkey'.trans hkey.symm)
      exact semdH_not_free hw' hj (hji ▸ hi')
    · rw [waiters_of_key hw'.key_inj hi' hkey, hq]
  · rw [waiters_of_no_key (k := k) (fun i hi hkey => h ⟨i, hi, hkey⟩), waiters_of_no_key]
    · rfl
    · intro i hi hkey
      exact h ⟨i, huse i hi, hkey⟩

end Pandos
