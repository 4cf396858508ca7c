import Pandos.Theory.Scheduler

/-!
# Creating Processes

`spawn_process` takes the first free block and puts it on a ready queue;
`CREATEPROCESS` then makes it a child of its caller. A free block has neither
parent nor children, so the tree does not change until the new process is
attached as a leaf.

## Main definitions

* `Spawned`: A process was created.
* `allocated`: The state after a block was allocated.
* `adopted`: The state after a process got a parent.

## Theorems

* `makePid_ne_null`: No process identifier is `NULL_PID`.
* `spawnProcess_none`, `spawnProcess_some`: `spawn_process` creates a process, or
  changes nothing if there is no free block.
* `at_adopted`: A new process becomes a child of a live one.
-/

namespace Pandos

open Forest

/-- The index of a process stands in the low bits of its identifier, and the
    count in the others. The index leaves room for the one that is added. -/
theorem makePid_toNat (p : PcbId) (recycleCount : Word) :
    (makePid (BitVec.ofNat 32 p.val) recycleCount).toNat
      = p.val + 32 * (recycleCount.toNat % 2 ^ 27) + 1 := by
  have hp : p.val < 20 := p.isLt
  have hor : (BitVec.ofNat 32 p.val ||| recycleCount <<< MAX_PROC_BITS).toNat
      = p.val + 32 * (recycleCount.toNat % 2 ^ 27) := by
    -- The shift drops the high bits of the count, and the two parts are disjoint.
    have hs : recycleCount.toNat <<< 5 % 2 ^ 32 = (recycleCount.toNat % 2 ^ 27) <<< 5 := by
      rw [Nat.shiftLeft_eq, Nat.shiftLeft_eq]
      omega
    have hm : p.val % 2 ^ 32 = p.val := by omega
    rw [BitVec.toNat_or, BitVec.toNat_shiftLeft, BitVec.toNat_ofNat, MAX_PROC_BITS, hs, hm,
      Nat.or_comm, ← Nat.shiftLeft_add_eq_or_of_lt (by omega), Nat.shiftLeft_eq]
    omega
  rw [makePid, BitVec.toNat_add, hor]
  change (_ + 1) % 2 ^ 32 = _
  omega

theorem makePid_ne_null (p : PcbId) (recycleCount : Word) :
    makePid (BitVec.ofNat 32 p.val) recycleCount ≠ NULL_PID := by
  intro h
  have hnat := congrArg BitVec.toNat h
  rw [makePid_toNat] at hnat
  exact absurd hnat (Nat.succ_ne_zero _)

/-- A free block has no parent and no children. -/
theorem no_family_of_free {k : Kernel} (hw : TreeWf k) {p : PcbId} (hp : p ∈ k.procq .pcbFree) :
    parentOf k p = none ∧ k.child p = [] ∧ ∀ q, p ∉ k.child q := by
  have hpar : parentOf k p = none := by
    cases h : parentOf k p with
    | none => rfl
    | some q => exact absurd hp (hw.live q p h).1
  refine ⟨hpar, ?_, fun q hq => ?_⟩
  · rw [List.eq_nil_iff_forall_not_mem]
    intro c hc
    exact (hw.live p c ((hw.mem_iff p c).mp hc)).2 hp
  · rw [hw.mem_iff, hpar] at hq
    exact absurd hq (by simp only [reduceCtorEq, not_false_eq_true])

/-- A process was created: it took the first free block, and everybody else
    stands where he stood. -/
structure Spawned (k : Kernel) (prio : Word) (p : PcbId) (k' : Kernel) : Prop where
  free : ∃ ps, k.procq .pcbFree = p :: ps ∧ k'.procq .pcbFree = ps
  self : k'.pcb p = { nullPcbRecord with
    pPid := makePid (BitVec.ofNat 32 p.val) k.recycleCount, pPrio := prio }
  other : ∀ q, q ≠ p → k'.pcb q = k.pcb q
  child : k'.child = k.child
  waiters : ∀ a, waiters k' a = waiters k a
  ready : Readied k [p] k'
  mem : k'.mem = k.mem
  active : k'.activeProcess = k.activeProcess
  yield : k'.yieldProcess = k.yieldProcess
  startTod : k'.startTod = k.startTod
  sup : k'.sup = k.sup
  bus : k'.bus = k.bus
  recycle : k'.recycleCount = k.recycleCount + 1

/-- The state after a block was allocated and given its identifier. -/
def allocated (k : Kernel) (prio : Word) (p : PcbId) : Kernel :=
  { k with
    procq := k.procq.del p
    pcb := fun q => if q = p then { nullPcbRecord with
      pPid := makePid (BitVec.ofNat 32 p.val) k.recycleCount, pPrio := prio } else k.pcb q
    processCount := k.processCount.incr
    recycleCount := k.recycleCount + 1 }

theorem allocated_self (k : Kernel) (prio : Word) (p : PcbId) :
    (allocated k prio p).pcb p = { nullPcbRecord with
      pPid := makePid (BitVec.ofNat 32 p.val) k.recycleCount, pPrio := prio } := by
  simp only [allocated, if_true]

theorem allocated_other (k : Kernel) (prio : Word) (p : PcbId) {q : PcbId} (h : q ≠ p) :
    (allocated k prio p).pcb q = k.pcb q := by
  simp only [allocated, if_neg h]

theorem aslWf_allocated {k : Kernel} (hw : AslWf k) (prio : Word) {p : PcbId}
    (hp : p ∈ k.procq .pcbFree) : AslWf (allocated k prio p) := by
  have hsem : ∀ i, k.procq.del p (.sProcq i) = k.procq (.sProcq i) := fun i =>
    Queues.del_other hw.procq hp (by simp only [ne_eq, reduceCtorEq, not_false_eq_true])
  constructor
  · exact Queues.wf_del hw.procq p
  · exact hw.slink
  · exact hw.listed
  · intro i hi
    change k.procq.del p (.sProcq i) ≠ []
    rw [hsem]
    exact hw.waiting i hi
  · intro i hi
    change k.procq.del p (.sProcq i) = []
    rw [hsem]
    exact hw.idle i hi
  · exact hw.aligned
  · exact hw.key_inj
  · intro i r hr
    change r ∈ k.procq.del p (.sProcq i) at hr
    have hrp : r ≠ p := ((Queues.mem_del hw.procq _ p r).mp hr).2
    rw [hsem] at hr
    rw [allocated_other k prio p hrp]
    exact hw.queued i r hr
  · intro r a hr hf
    have hrp : r ≠ p := by
      rintro rfl
      rw [allocated_self] at hr
      exact absurd hr (by simp only [nullPcbRecord, reduceCtorEq, not_false_eq_true])
    rw [allocated_other k prio p hrp] at hr
    have hf' : r ∉ k.procq .pcbFree :=
      fun h => hf ((Queues.mem_del hw.procq _ p r).mpr ⟨h, hrp⟩)
    rcases hw.blocked r a hr hf' with ⟨i, hi, hkey, hq⟩
    refine ⟨i, hi, hkey, ?_⟩
    change r ∈ k.procq.del p (.sProcq i)
    rw [hsem]
    exact hq

theorem pcbWf_allocated {k : Kernel} (hq : k.procq.Wf) (hw : PcbWf k) {prio : Word}
    (hprio : prio = PROCESS_PRIO_LOW ∨ prio = PROCESS_PRIO_HIGH) (p : PcbId) :
    PcbWf (allocated k prio p) := by
  constructor
  · intro r
    change r ∈ k.procq.del p .pcbFree ↔ _
    rw [Queues.mem_del hq]
    by_cases hr : r = p
    · rw [hr, allocated_self]
      simp only [ne_eq, not_true_eq_false, and_false, false_iff]
      exact makePid_ne_null p _
    · rw [allocated_other k prio p hr, hw.free_iff]
      simp only [ne_eq, hr, not_false_eq_true, and_true]
  · intro r hr
    rcases (Queues.mem_del hq _ p r).mp hr with ⟨hr, hne⟩
    rw [allocated_other k prio p hne]
    exact hw.lo r hr
  · intro r hr
    rcases (Queues.mem_del hq _ p r).mp hr with ⟨hr, hne⟩
    rw [allocated_other k prio p hne]
    exact hw.hi r hr
  · intro r
    by_cases hr : r = p
    · rw [hr, allocated_self]
      exact hprio
    · rw [allocated_other k prio p hr]
      exact hw.prio r

theorem treeWf_allocated {k : Kernel} (hw : TreeWf k) (prio : Word) {p : PcbId}
    (hp : p ∈ k.procq .pcbFree) : TreeWf (allocated k prio p) := by
  have hpar : parentOf (allocated k prio p) = parentOf k := by
    funext r
    by_cases hr : r = p
    · rw [hr, parentOf, allocated_self]
      exact (no_family_of_free hw hp).1.symm
    · rw [parentOf, allocated_other k prio p hr]
      rfl
  constructor
  · exact hw.nodup
  · rw [hpar]
    exact hw.mem_iff
  · rw [hpar]
    exact hw.acyclic
  · intro q c hc
    rw [hpar] at hc
    rcases hw.live q c hc with ⟨hc', hq'⟩
    exact ⟨fun h => hc' (List.mem_of_mem_erase h), fun h => hq' (List.mem_of_mem_erase h)⟩

theorem at_allocated {k : Kernel} {s : Finset PcbId} (h : At k s) {prio : Word}
    (hprio : prio = PROCESS_PRIO_LOW ∨ prio = PROCESS_PRIO_HIGH) {p : PcbId}
    (hp : p ∈ k.procq .pcbFree) : At (allocated k prio p) (insert p s) := by
  have hq := h.wf.asl.procq
  have hfree : ∀ r, r ∉ (allocated k prio p).procq .pcbFree ↔ r ∉ k.procq .pcbFree ∨ r = p := by
    intro r
    change r ∉ k.procq.del p .pcbFree ↔ _
    rw [Queues.mem_del hq, not_and_or, not_not]
  refine ⟨⟨aslWf_allocated h.wf.asl prio hp, pcbWf_allocated hq h.wf.pcb hprio p,
    treeWf_allocated h.wf.tree prio hp⟩, ⟨?_, ?_⟩, fun r => ?_⟩
  · have hlive : live (allocated k prio p) = insert p (live k) := by
      ext r
      rw [mem_live, hfree, Finset.mem_insert, mem_live, or_comm]
    rw [hlive, Finset.card_insert_of_notMem (by rw [mem_live]; exact not_not_intro hp)]
    exact counter_is_incr h.counted.processes (card_le_maxProc _)
  · have hb : blocked (allocated k prio p) = blocked k := by
      ext r
      rw [mem_blocked, mem_blocked, hfree]
      by_cases hr : r = p
      · rw [hr, allocated_self]
        simp only [nullPcbRecord, ne_eq, not_true_eq_false, and_false, hp, false_and]
      · rw [allocated_other k prio p hr]
        simp only [hr, or_false]
    rw [hb]
    exact h.counted.softblock
  · change (k.procq.del p).Null r ↔ _
    rw [Queues.null_del hq, h.running, Finset.mem_insert, or_comm]

theorem waiters_allocated {k : Kernel} (hw : AslWf k) (prio : Word) {p : PcbId}
    (hp : p ∈ k.procq .pcbFree) (a : Word) : waiters (allocated k prio p) a = waiters k a := by
  have hwait : waiters (allocated k prio p) a = (waiters k a).erase p :=
    congrFun (congrArg Places.wait (places_listSdel k p)) a
  rw [hwait]
  exact List.erase_of_not_mem (fun hm => not_free_of_mem_waiters hw hm hp)

/-- A free block is allocated. -/
theorem allocPcb_cons {k : Kernel} (hw : Wf k) {p : PcbId} {ps : List PcbId}
    (hf : k.procq .pcbFree = p :: ps) :
    allocPcb k = (some p, { k with
      procq := k.procq.del p
      pcb := fun q => if q = p then nullPcbRecord else k.pcb q }) := by
  have hp : p ∈ k.procq .pcbFree := hf ▸ List.mem_cons_self
  rcases no_family_of_free hw.tree hp with ⟨_, hnil, hnone⟩
  have hnull : (k.procq.del p).Null p := (Queues.null_del hw.asl.procq p p).mpr (Or.inr rfl)
  have hclear : k.child.clear p = k.child := by
    funext q
    by_cases hq : q = p
    · rw [hq, Queues.clear_self, hnil]
    · rw [Queues.clear_other _ _ _ hq]
  simp only [allocPcb, hf, nullPcb, Kernel.modPcb, Queues.del_of_null hnull, hclear,
    Queues.del_of_null hnone]

theorem spawnProcess_none {k : Kernel} {prio : Word}
    (hprio : prio = PROCESS_PRIO_LOW ∨ prio = PROCESS_PRIO_HIGH) (hf : k.procq .pcbFree = []) :
    spawnProcess k prio = (none, k) := by
  have hok : ¬ (prio ≠ PROCESS_PRIO_HIGH ∧ prio ≠ PROCESS_PRIO_LOW) := by
    rintro ⟨hh, hl⟩
    exact hprio.elim hl hh
  simp only [spawnProcess, if_neg hok, allocPcb, hf]

/-- The first free block becomes a process on its ready queue. -/
theorem spawnProcess_some {k : Kernel} {s : Finset PcbId} (h : At k s) {prio : Word}
    (hprio : prio = PROCESS_PRIO_LOW ∨ prio = PROCESS_PRIO_HIGH) {p : PcbId} {ps : List PcbId}
    (hf : k.procq .pcbFree = p :: ps) :
    ∃ k', spawnProcess k prio = (some p, k') ∧ Spawned k prio p k' ∧ At k' s := by
  have hp : p ∈ k.procq .pcbFree := hf ▸ List.mem_cons_self
  have hps : p ∉ s := fun hmem => h.not_free hmem hp
  have hat := at_allocated h hprio hp
  have henq := at_enqueueProcess hat (Finset.mem_insert_self p s)
  have hkept := kept_enqueueProcess hat (Finset.mem_insert_self p s)
  rw [Finset.erase_insert hps] at henq
  refine ⟨enqueueProcess (allocated k prio p) p, ?_, ?_, henq⟩
  · have hok : ¬ (prio ≠ PROCESS_PRIO_HIGH ∧ prio ≠ PROCESS_PRIO_LOW) := by
      rintro ⟨hh, hl⟩
      exact hprio.elim hl hh
    simp only [spawnProcess, if_neg hok, allocPcb_cons h.wf hf]
    refine congrArg (fun f => (some p, enqueueProcess { allocated k prio p with pcb := f } p)) ?_
    funext q
    by_cases hq : q = p
    · simp only [hq, if_true]
    · simp only [hq, if_false]
  · constructor
    · refine ⟨ps, hf, ?_⟩
      rw [hkept.free]
      exact Queues.del_head hf
    · exact allocated_self k prio p
    · exact fun q hq => allocated_other k prio p hq
    · rfl
    · exact fun a => (hkept.waiters a).trans (waiters_allocated h.wf.asl prio hp a)
    · -- The block leaves the free list, and no ready queue held it.
      have hother : ∀ r, r ≠ .pcbFree → (allocated k prio p).procq r = k.procq r :=
        fun r hr => Queues.del_other h.wf.asl.procq hp hr
      have hnull := (nowhere_iff hat.wf.asl p).mp (hat.null (Finset.mem_insert_self p s))
      have hready : Readied (allocated k prio p) [p] (enqueueProcess (allocated k prio p) p) := by
        refine readied_of_places ?_
        rw [places_enqueueProcess, Places.remove_of_nowhere hnull]
        rfl
      constructor
      · rw [hready.hi, hother _ (by simp only [ne_eq, reduceCtorEq, not_false_eq_true])]
      · rw [hready.lo, hother _ (by simp only [ne_eq, reduceCtorEq, not_false_eq_true])]
    all_goals rfl

/-! ## The child of the caller -/

/-- The state after a process got a parent. -/
def adopted (k : Kernel) (p c : PcbId) : Kernel :=
  { k with
    pcb := fun q => if q = c then { k.pcb c with pParent := some p } else k.pcb q
    child := k.child.addTail p c }

/-- Getting a parent changes no other field of a record. -/
theorem adopted_fields (k : Kernel) (p c q : PcbId) :
    ((adopted k p c).pcb q).pSemAdd = (k.pcb q).pSemAdd ∧
      ((adopted k p c).pcb q).pPid = (k.pcb q).pPid ∧
      ((adopted k p c).pcb q).pPrio = (k.pcb q).pPrio ∧
      ((adopted k p c).pcb q).pS = (k.pcb q).pS ∧
      ((adopted k p c).pcb q).pTime = (k.pcb q).pTime ∧
      ((adopted k p c).pcb q).pSupport = (k.pcb q).pSupport := by
  simp only [adopted]
  by_cases hq : q = c
  · rw [if_pos hq, hq]
    exact ⟨rfl, rfl, rfl, rfl, rfl, rfl⟩
  · rw [if_neg hq]
    exact ⟨rfl, rfl, rfl, rfl, rfl, rfl⟩

theorem parentOf_adopted (k : Kernel) (p c : PcbId) :
    parentOf (adopted k p c) = attach (parentOf k) p c := by
  funext q
  simp only [parentOf, adopted, attach]
  by_cases hq : q = c
  · rw [if_pos hq, if_pos hq]
  · rw [if_neg hq, if_neg hq]

/-- A process without a parent is made a child. -/
theorem insertChild_eq {k : Kernel} (hw : TreeWf k) {p c : PcbId} (hc : parentOf k c = none) :
    insertChild k p c = adopted k p c := by
  have hc' : (k.pcb c).pParent = none := hc
  have hmem : c ∉ k.child p := by
    rw [hw.mem_iff, hc]
    simp only [reduceCtorEq, not_false_eq_true]
  rw [insertChild, if_neg]
  · rfl
  · rintro (h | h)
    · exact h hc'
    · exact hmem h

theorem treeWf_adopted {k : Kernel} (hw : TreeWf k) {p c : PcbId} (hne : p ≠ c)
    (hc : parentOf k c = none) (hleaf : k.child c = []) (hp : p ∉ k.procq .pcbFree)
    (hcf : c ∉ k.procq .pcbFree) : TreeWf (adopted k p c) := by
  have hno : ∀ q, parentOf k q ≠ some c := by
    intro q hq
    rw [← hw.mem_iff, hleaf] at hq
    exact absurd hq List.not_mem_nil
  constructor
  · intro q
    change (k.child.addTail p c q).Nodup
    by_cases hq : q = p
    · rw [hq, Queues.addTail_self]
      refine (hw.nodup p).append (List.nodup_singleton c) ?_
      rw [List.disjoint_singleton, hw.mem_iff, hc]
      simp only [reduceCtorEq, not_false_eq_true]
    · rw [Queues.addTail_other _ _ _ _ hq]
      exact hw.nodup q
  · intro q r
    change r ∈ k.child.addTail p c q ↔ _
    rw [parentOf_adopted, Queues.mem_addTail, hw.mem_iff, attach]
    by_cases hr : r = c
    · rw [if_pos hr, hr, hc]
      simp only [reduceCtorEq, and_true, false_or, Option.some.injEq]
      exact eq_comm
    · rw [if_neg hr]
      simp only [hr, and_false, or_false]
  · rw [parentOf_adopted]
    exact acyclic_attach hw.acyclic hne hno
  · intro q r hr
    rw [parentOf_adopted, attach] at hr
    by_cases hrc : r = c
    · rw [if_pos hrc] at hr
      rw [hrc, ← Option.some.inj hr]
      exact ⟨hcf, hp⟩
    · rw [if_neg hrc] at hr
      exact hw.live q r hr

/-- A new process becomes a child of a live one. -/
theorem at_adopted {k : Kernel} {s : Finset PcbId} (h : At k s) {p c : PcbId} (hne : p ≠ c)
    (hc : parentOf k c = none) (hleaf : k.child c = []) (hp : p ∉ k.procq .pcbFree)
    (hcf : c ∉ k.procq .pcbFree) : At (adopted k p c) s := by
  have hf := adopted_fields k p c
  refine ⟨⟨aslWf_congr h.wf.asl rfl rfl rfl (fun q => (hf q).1),
    pcbWf_of h.wf.pcb (fun _ => Iff.rfl) (fun q => ⟨(hf q).2.1, (hf q).2.2.1⟩)
      (fun _ hq => Or.inl hq) (fun _ hq => Or.inl hq),
    treeWf_adopted h.wf.tree hne hc hleaf hp hcf⟩, ⟨h.counted.processes, ?_⟩, h.running⟩
  have hb : blocked (adopted k p c) = blocked k := by
    ext q
    rw [mem_blocked, mem_blocked, (hf q).1]
    rfl
  rw [hb]
  exact h.counted.softblock

end Pandos
