import Pandos.Theory.Exceptions

/-!
# Initialisation

The state `init` builds meets the invariant: all blocks and all descriptors are
free but the block of the first process, and every semaphore of the nucleus is
zero.

## Main definitions

* `Blank`: A state without processes.

## Theorems

* `initPcbs_eq`, `initAsl_eq`: The loops that fill the free lists.
* `initSemaphores_spec`: The loop that clears the semaphores.
* `aslWf_blank`, `blank_at`: A state without processes meets the invariant.
* `init_spec`: The state before the first dispatch.
* `main_spec`, `main_runs`: The first dispatch, which loads the first process.
* `main_kept`, `main_mem`: The state after the first dispatch.
* `machineWf_main`: The machine starts in a state that meets the invariant.
-/

namespace Pandos

open Forest

/-- The loop of `init_pcbs`. -/
theorem foldl_initPcbs (xs : List PcbId) : ∀ k : Kernel,
    xs.foldl (fun k i => { k.modPcb i (fun t => { t with pPid := NULL_PID }) with
      procq := k.procq.addHead .pcbFree i }) k
    = { k with
      procq := xs.foldl (fun q i => q.addHead .pcbFree i) k.procq
      pcb := fun q => if q ∈ xs then { k.pcb q with pPid := NULL_PID } else k.pcb q } := by
  induction xs with
  | nil =>
      intro k
      simp only [List.foldl_nil, List.not_mem_nil, if_false]
  | cons x xs ih =>
      intro k
      rw [List.foldl_cons, ih]
      refine congrArg (fun f => ({ k with
        procq := (x :: xs).foldl (fun q i => q.addHead .pcbFree i) k.procq, pcb := f } : Kernel)) ?_
      funext q
      simp only [Kernel.modPcb, List.mem_cons]
      by_cases hq : q = x
      · simp only [hq, if_true, true_or, ite_self]
      · simp only [hq, if_false, false_or]

theorem initPcbs_eq {k : Kernel} (hq : k.procq = fun _ => []) :
    initPcbs k = { k with
      procq := fun h => if h = .pcbFree then (List.finRange MAX_PROC).reverse else []
      pcb := fun q => { k.pcb q with pPid := NULL_PID } } := by
  have hclear : k.procq.clear .pcbFree = fun _ => [] := by
    funext h
    simp only [Queues.clear, hq, ite_self]
  rw [initPcbs, foldl_initPcbs, Queues.foldl_addHead, hclear]
  simp only [List.append_nil, List.mem_finRange, if_true]

/-- The loop of `init_asl`. -/
theorem foldl_initAsl (xs : List SemdId) : ∀ k : Kernel,
    xs.foldl (fun k i => { k with slink := k.slink.addHead .semdFree i }) k
    = { k with slink := xs.foldl (fun q i => q.addHead .semdFree i) k.slink } := by
  induction xs with
  | nil => exact fun k => rfl
  | cons x xs ih =>
      intro k
      rw [List.foldl_cons, ih]
      rfl

theorem initAsl_eq (k : Kernel) :
    initAsl k = { k with
      slink := fun h => if h = .semdFree then (List.finRange MAX_PROC).reverse else [] } := by
  rw [initAsl, foldl_initAsl, Queues.foldl_addHead]
  refine congrArg (fun f => ({ k with slink := f } : Kernel)) ?_
  funext h
  cases h with
  | semdFree => simp only [if_true, Queues.clear, reduceCtorEq, if_false, List.append_nil]
  | semdH => simp only [reduceCtorEq, if_false, Queues.clear, if_true]

/-- The loop of `init_semaphores`. -/
theorem foldl_initSemaphores (L : Layout) (xs : List Nat) : ∀ k : Kernel,
    ∃ f, xs.foldl (fun k i => k.store (L.semAddr i) 0) k = { k with mem := f } ∧
      ∀ a, (∃ i ∈ xs, a = L.semAddr i) ∨ k.mem a = 0 → f a = 0 := by
  induction xs with
  | nil =>
      intro k
      refine ⟨k.mem, rfl, ?_⟩
      rintro a (⟨i, hi, _⟩ | h)
      · exact absurd hi List.not_mem_nil
      · exact h
  | cons x xs ih =>
      intro k
      rcases ih (k.store (L.semAddr x) 0) with ⟨f, heq, hf⟩
      refine ⟨f, heq, fun a ha => hf a ?_⟩
      have hstore : a = L.semAddr x ∨ k.mem a = 0 → (k.store (L.semAddr x) 0).mem a = 0 := by
        intro h
        simp only [Kernel.store]
        by_cases hx : a = L.semAddr x
        · rw [if_pos hx]
        · rw [if_neg hx]
          exact h.resolve_left hx
      rcases ha with ⟨i, hi, hia⟩ | h
      · rcases List.mem_cons.mp hi with rfl | hi
        · exact Or.inr (hstore (Or.inl hia))
        · exact Or.inl ⟨i, hi, hia⟩
      · exact Or.inr (hstore (Or.inr h))

theorem initSemaphores_spec (L : Layout) (k : Kernel) :
    ∃ f, initSemaphores L k = { k with mem := f } ∧ ∀ i, i < SEMAPHORES_NUM →
      f (L.semAddr i) = 0 := by
  rcases foldl_initSemaphores L (List.range SEMAPHORES_NUM) k with ⟨f, heq, hf⟩
  exact ⟨f, heq, fun i hi => hf _ (Or.inl ⟨i, List.mem_range.mpr hi, rfl⟩)⟩

/-- A state without processes: every block and every descriptor is free. -/
structure Blank (k : Kernel) : Prop where
  procq : k.procq = fun h => if h = .pcbFree then (List.finRange MAX_PROC).reverse else []
  slink : k.slink = fun h => if h = .semdFree then (List.finRange MAX_PROC).reverse else []
  child : k.child = fun _ => []
  pcb : ∀ p, (k.pcb p).pParent = none ∧ (k.pcb p).pPid = NULL_PID ∧
    (k.pcb p).pPrio = PROCESS_PRIO_LOW ∧ (k.pcb p).pTime = 0
  counters : k.processCount = Counter.zero ∧ k.softblockCount = Counter.zero

/-- A family with one queue in which every node stands once. -/
theorem wf_single {ι : Type} [DecidableEq ι] (h₀ : ι) :
    Queues.Wf (fun h => if h = h₀ then (List.finRange MAX_PROC).reverse else [] :
      Queues ι (Fin MAX_PROC)) := by
  constructor
  · intro h
    by_cases hh : h = h₀
    · simp only [if_pos hh]
      exact List.nodup_reverse.mpr (List.nodup_finRange MAX_PROC)
    · simp only [if_neg hh]
      exact List.nodup_nil
  · intro h h' x hx hx'
    by_cases hh : h = h₀
    · by_cases hh' : h' = h₀
      · rw [hh, hh']
      · simp only [if_neg hh', List.not_mem_nil] at hx'
    · simp only [if_neg hh, List.not_mem_nil] at hx

theorem Blank.free {k : Kernel} (h : Blank k) (p : PcbId) : p ∈ k.procq .pcbFree := by
  rw [h.procq]
  simp only [if_true, List.mem_reverse, List.mem_finRange]

/-- The lists of descriptors are well formed while nobody waits. -/
theorem aslWf_blank {k : Kernel}
    (hq : k.procq = fun h => if h = .pcbFree then (List.finRange MAX_PROC).reverse else [])
    (hs : k.slink = fun h => if h = .semdFree then (List.finRange MAX_PROC).reverse else []) :
    AslWf k := by
  have hsem : ∀ i, k.procq (.sProcq i) = [] := by
    intro i
    rw [hq]
    simp only [reduceCtorEq, if_false]
  have hfree : ∀ p, p ∈ k.procq .pcbFree := by
    intro p
    rw [hq]
    simp only [if_true, List.mem_reverse, List.mem_finRange]
  have hH : k.slink .semdH = [] := by
    rw [hs]
    simp only [reduceCtorEq, if_false]
  refine ⟨?_, ?_, ?_, ?_, ?_, ?_, ?_, ?_, ?_⟩
  · rw [hq]
    exact wf_single _
  · rw [hs]
    exact wf_single _
  · intro i
    rw [hs]
    simp only [if_true, List.mem_reverse, List.mem_finRange, true_or]
  · intro i hi
    rw [hH] at hi
    exact absurd hi List.not_mem_nil
  · exact fun i _ => hsem i
  · intro i hi
    rw [hH] at hi
    exact absurd hi List.not_mem_nil
  · intro i hi
    rw [hH] at hi
    exact absurd hi List.not_mem_nil
  · intro i p hp
    rw [hsem] at hp
    exact absurd hp List.not_mem_nil
  · exact fun p a _ hp => absurd (hfree p) hp

/-- A state without processes meets the invariant. -/
theorem blank_at {k : Kernel} (h : Blank k) : At k ∅ := by
  have hpar : parentOf k = fun _ => none := funext (fun p => (h.pcb p).1)
  have hq : ∀ i, i ≠ .pcbFree → k.procq i = [] := by
    intro i hi
    rw [h.procq]
    simp only [if_neg hi]
  refine ⟨⟨aslWf_blank h.procq h.slink, ⟨?_, ?_, ?_, ?_⟩, ⟨?_, ?_, ?_, ?_⟩⟩, ⟨?_, ?_⟩, ?_⟩
  · exact fun p => ⟨fun _ => (h.pcb p).2.1, fun _ => h.free p⟩
  · exact fun p _ => (h.pcb p).2.2.1
  · intro p hp
    rw [hq _ (by simp only [ne_eq, reduceCtorEq, not_false_eq_true])] at hp
    exact absurd hp List.not_mem_nil
  · exact fun p => Or.inl (h.pcb p).2.2.1
  · intro q
    rw [h.child]
    exact List.nodup_nil
  · intro q c
    rw [h.child, hpar]
    simp only [List.not_mem_nil, reduceCtorEq]
  · intro p q hc
    rw [hpar] at hc
    exact absurd hc (by simp only [reduceCtorEq, not_false_eq_true])
  · intro q c hc
    rw [hpar] at hc
    exact absurd hc (by simp only [reduceCtorEq, not_false_eq_true])
  · have hlive : live k = ∅ := by
      ext p
      simp only [mem_live, h.free p, not_true_eq_false, Finset.notMem_empty]
    rw [hlive, h.counters.1]
    exact counter_is_zero
  · have hb : blocked k = ∅ := by
      ext p
      simp only [mem_blocked, h.free p, not_true_eq_false, false_and, Finset.notMem_empty]
    rw [hb, h.counters.2]
    exact counter_is_zero
  · intro p
    simp only [Finset.notMem_empty, iff_false]
    exact fun hn => hn .pcbFree (h.free p)

/-- The state before the first process is created. -/
theorem initTables_blank (L : Layout) (b : Boot) :
    ∃ k, initAsl (initPcbs (initSemaphores L (initScheduler (b.bss L) b.tod))) = k ∧ Blank k ∧
      (∀ i, i < SEMAPHORES_NUM → k.mem (L.semAddr i) = 0) ∧ k.recycleCount = 0 ∧
      k.yieldProcess = none := by
  refine ⟨_, rfl, ?_⟩
  rcases initSemaphores_spec L (initScheduler (b.bss L) b.tod) with ⟨f, heq, hf⟩
  have hempty : (initScheduler (b.bss L) b.tod).procq = fun _ => [] := by
    funext h
    simp only [initScheduler, mkEmptyProcQ, Queues.clear, Boot.bss, ite_self]
  rw [heq, initPcbs_eq (k := { initScheduler (b.bss L) b.tod with mem := f }) hempty, initAsl_eq]
  exact ⟨⟨rfl, rfl, rfl, fun _ => ⟨rfl, rfl, rfl, rfl⟩, rfl, rfl⟩, hf, rfl, rfl⟩

/-- Initialisation creates one process. -/
theorem init_spawned (L : Layout) (b : Boot) : ∃ k p k', Blank k ∧ k.recycleCount = 0 ∧
    Spawned k PROCESS_PRIO_LOW p k' ∧ Same k' (init L b) ∧
      (init L b).recycleCount = k'.recycleCount := by
  rcases initTables_blank L b with ⟨k, heq, hblank, _, hr, _⟩
  cases hf : k.procq .pcbFree with
  | nil =>
      have hfree := hblank.free 0
      rw [hf] at hfree
      exact absurd hfree List.not_mem_nil
  | cons p ps =>
      rcases spawnProcess_some (blank_at hblank) (Or.inl rfl) hf with ⟨k', hspawn, hs, _⟩
      refine ⟨k, p, k', hblank, hr, hs, ?_, ?_⟩
      · unfold init
        rw [heq]
        simp only [initProcess, hspawn]
        exact same_modPcb k' p (fun t => { t with pS :=
          { ((t.pS.setReg .sp b.ramTop).setReg .t9 b.initPc) with
            pcEpc := b.initPc
            status := statusKernelModeOnNucleus (statusInterruptsOnProcess t.pS.status) } })
          (fun _ => ⟨rfl, rfl, rfl, rfl⟩)
      · unfold init
        rw [heq]
        simp only [initProcess, hspawn]
        rfl

/-- The state before the first dispatch: one process, ready to run. -/
theorem init_spec (L : Layout) (b : Boot) :
    Ready { pcb := none, enqueue := false } (init L b) ∧
      (∀ i, i < SEMAPHORES_NUM → (init L b).mem (L.semAddr i) = 0) ∧
      (∀ p, ((init L b).pcb p).pTime = 0) ∧
      ∃ p ∈ live (init L b), p ∉ blocked (init L b) := by
  rcases initTables_blank L b with ⟨k, heq, hblank, hmem, _, hy⟩
  unfold init
  rw [heq]
  have hat := blank_at hblank
  cases hf : k.procq .pcbFree with
  | nil =>
      have hfree := hblank.free 0
      rw [hf] at hfree
      exact absurd hfree List.not_mem_nil
  | cons p ps =>
      rcases spawnProcess_some hat (Or.inl rfl) hf with ⟨k', hspawn, hs, hat'⟩
      have ht : Touched k' (initProcess b k) := by
        simp only [initProcess, hspawn]
        exact touched_modPcb k' p (fun t => { t with pS :=
          { ((t.pS.setReg .sp b.ramTop).setReg .t9 b.initPc) with
            pcEpc := b.initPc
            status := statusKernelModeOnNucleus (statusInterruptsOnProcess t.pS.status) } })
          (fun _ => ⟨rfl, rfl, rfl, rfl⟩)
      refine ⟨ready_of_at (hat'.of_same ht.same) ((ht.yield.trans hs.yield).trans hy), ?_, ?_, p,
        ?_, ?_⟩
      · intro i hi
        rw [ht.mem, hs.mem]
        exact hmem i hi
      · intro q
        have hq : ((initProcess b k).pcb q).pTime = (k'.pcb q).pTime := by
          simp only [initProcess, hspawn, Kernel.modPcb]
          split <;> rename_i h <;> simp only [h]
        rw [hq]
        by_cases hqp : q = p
        · rw [hqp, hs.self]
          rfl
        · rw [hs.other q hqp]
          exact (hblank.pcb q).2.2.2
      · rcases hs.free with ⟨qs, hq, hq'⟩
        have hnd := hat.wf.asl.procq.nodup .pcbFree
        rw [hq, List.nodup_cons] at hnd
        rw [mem_live, ht.free, hq']
        exact hnd.1
      · rw [mem_blocked, ht.same.semAdd, hs.self]
        simp only [nullPcbRecord, ne_eq, not_true_eq_false, and_false, not_false_eq_true]

/-- The first dispatch. -/
theorem main_spec (L : Layout) (b : Boot) : Scheduled b.hw (init L b) (main L b) :=
  schedule_spec (init_spec L b).1

/-- The first dispatch loads the first process. -/
theorem main_runs (L : Layout) (b : Boot) : ∃ k, main L b = .run k := by
  have hmain := main_spec L b
  rcases (init_spec L b).2.2.2 with ⟨p, hp, hnb⟩
  have hkept : ∀ k, Kept (init L b) k → p ∈ live k ∧ p ∉ blocked k := by
    intro k hk
    rw [mem_live] at hp ⊢
    rw [mem_blocked] at hnb ⊢
    rw [hk.free, hk.semAdd]
    exact ⟨hp, hnb⟩
  generalize main L b = o at hmain
  cases hmain with
  | run => exact ⟨_, rfl⟩
  | wait hk _ _ _ _ _ _ hall => exact absurd (hall p (hkept _ hk).1) (hkept _ hk).2
  | halt hk hlive =>
      have hmem := (hkept _ hk).1
      rw [hlive] at hmem
      exact absurd hmem (Finset.notMem_empty p)

/-- The state the first process starts in. -/
theorem main_kept {L : Layout} {b : Boot} {k : Kernel} (hk : (main L b).next = some k) :
    Kept (init L b) k ∧ Between k := by
  have hmain := main_spec L b
  generalize main L b = o at hmain hk
  cases hmain with
  | run hkept hb =>
      rw [Outcome.next, Option.some.injEq] at hk
      exact hk ▸ ⟨hkept, hb⟩
  | wait hkept hb =>
      rw [Outcome.next, Option.some.injEq] at hk
      exact hk ▸ ⟨hkept, hb⟩
  | halt => exact absurd hk (by simp only [Outcome.next, reduceCtorEq, not_false_eq_true])

/-- The semaphores of the nucleus are zero after the first dispatch. -/
theorem main_mem {L : Layout} {b : Boot} {k : Kernel} (hk : (main L b).next = some k) {i : Nat}
    (hi : i < SEMAPHORES_NUM) : k.mem (L.semAddr i) = 0 := by
  rw [(main_kept hk).1.mem]
  exact (init_spec L b).2.1 i hi

/-- The machine starts in a state that meets the invariant. -/
theorem machineWf_main {L : Layout} {b : Boot} {k : Kernel} (hk : (main L b).next = some k) :
    MachineWf L { kernel := k, pending := fun _ => none } := by
  refine ⟨(main_kept hk).2, Or.inl (main_mem hk (Nat.lt_succ_self 48)),
    fun u => Or.inl (main_mem hk (unit_lt u)), fun u hv => ?_, fun u p hp => ?_⟩
  · have hz : k.mem (L.semAddr u) = 0 := main_mem hk (unit_lt u)
    have hv' : k.mem (L.semAddr u) = 1 := hv
    rw [hz] at hv'
    exact absurd hv' (by decide)
  · exact absurd hp (by simp only [reduceCtorEq, not_false_eq_true])

end Pandos
