import Pandos.Theory.Boot
import Pandos.Theory.SchedulerHeap

/-!
# Initialisation in Memory

The loops that fill the free lists overwrite the link fields of every block and of
every descriptor, so nothing depends on what the memory held before.

## Main definitions

* `procThreads`: The queues of blocks, threaded through `p_list`.
* `Loaded`: The memory before `init`, whatever its pointers are.

## Theorems

* `initPcbs_loop`, `initAsl_loop`: The loops that fill the free lists.
* `initTables_keeps`: `init` prepares the tables in memory.
-/

namespace Pandos

/-- The queues of blocks, threaded through `p_list`. -/
def procThreads : Threads (Cell ProcQ PcbId) ProcQ PcbId where
  head := headCell
  field := .pList
  head_inj _ _ h := headCell_inj h
  field_inj _ _ h := Cell.pList.inj h
  apart q _ h := by cases q <;> cases h

variable {l : Links (Cell ProcQ PcbId)} {ready : Set ProcQ} {q : Queues ProcQ PcbId}

/-! ## The lists of the first state -/

/-- The block list behind each sentinel cell. -/
def queueAt (q : Queues ProcQ PcbId) : Queues (Cell ProcQ PcbId) PcbId
  | .pcbFree => q .pcbFree
  | .queue .pcbFree => []
  | .queue i => q i
  | _ => []

theorem queueAt_headCell (q : Queues ProcQ PcbId) (i : ProcQ) : queueAt q (headCell i) = q i := by
  cases i <;> rfl

theorem mem_queueAt {s : Cell ProcQ PcbId} {p : PcbId} (h : p ∈ queueAt q s) :
    ∃ i, s = headCell i ∧ p ∈ q i := by
  cases s with
  | pcbFree => exact ⟨.pcbFree, rfl, h⟩
  | queue i =>
      cases i with
      | pcbFree => exact absurd h List.not_mem_nil
      | readyQueueLo => exact ⟨.readyQueueLo, rfl, h⟩
      | readyQueueHi => exact ⟨.readyQueueHi, rfl, h⟩
      | sProcq d => exact ⟨.sProcq d, rfl, h⟩
  | pList p => exact absurd h List.not_mem_nil
  | pChild p => exact absurd h List.not_mem_nil
  | pSib p => exact absurd h List.not_mem_nil

/-- The lists behind the sentinels in use. -/
def listsOf (ready : Set ProcQ) (q : Queues ProcQ PcbId) (hq : q.Wf)
    (hout : ∀ i, i ∉ ready → q i = []) : PcbLists ProcQ PcbId where
  heads := headCell '' ready
  queue := queueAt q
  wf := by
    refine ⟨fun s => ?_, fun s s' p hp hp' => ?_⟩
    · by_cases hs : ∃ i, s = headCell i
      · rcases hs with ⟨i, rfl⟩
        rw [queueAt_headCell]
        exact hq.nodup i
      · have hnil : queueAt q s = [] := List.eq_nil_iff_forall_not_mem.mpr (fun p hp => by
          rcases mem_queueAt hp with ⟨i, hi, _⟩
          exact hs ⟨i, hi⟩)
        rw [hnil]
        exact List.nodup_nil
    · rcases mem_queueAt hp with ⟨i, rfl, hi⟩
      rcases mem_queueAt hp' with ⟨j, rfl, hj⟩
      rw [hq.unique i j p hi hj]
  outside s hs := List.eq_nil_iff_forall_not_mem.mpr (fun p hp => by
    rcases mem_queueAt hp with ⟨i, rfl, hi⟩
    by_cases hr : i ∈ ready
    · exact hs (Set.mem_image_of_mem headCell hr)
    · rw [hout i hr] at hi
      exact List.not_mem_nil hi)
  apart _ p _ := by
    rintro ⟨i, _, hi⟩
    exact (headCell_ne i p).1 hi
  child p := by
    rintro ⟨i, _, hi⟩
    exact (headCell_ne i p).2.1 hi
  sib p := by
    rintro ⟨i, _, hi⟩
    exact (headCell_ne i p).2.2 hi

theorem queue_listsOf (hq : q.Wf) (hout : ∀ i, i ∉ ready → q i = []) (i : ProcQ) :
    (listsOf ready q hq hout).queue (headCell i) = q i := queueAt_headCell q i

/-- If every block is in a list, the lists are all there is to say. -/
theorem represents_listsOf (h : procThreads.Carries l ready q) (hall : ∀ p, ¬ q.Null p) :
    Represents l (listsOf ready q h.wf h.outside) := by
  refine ⟨?_, fun p _ hp => ?_⟩
  · rintro s ⟨i, hi, rfl⟩
    change l.Ring (headCell i) ((queueAt q (headCell i)).map .pList)
    rw [queueAt_headCell]
    exact h.ring i hi
  · refine absurd (fun i hi => ?_) (hall p)
    exact hp (headCell i) (by
      change p ∈ queueAt q (headCell i)
      rwa [queueAt_headCell])

/-! ## The loops -/

/-- The loop of `init_pcbs`. -/
theorem initPcbs_loop (ps : List PcbId) : ∀ (m : PcbHeap ProcQ PcbId) (q : Queues ProcQ PcbId),
    procThreads.Carries m.links ready q → .pcbFree ∈ ready → ps.Nodup → (∀ p ∈ ps, q.Null p) →
    ∃ m', ps.foldlM (fun m i => do
        let links ← m.links.listAdd (some (.pList i)) (some .pcbFree)
        return { m with links := links }.modPcb i (fun t => { t with pPid := NULL_PID })) m =
          some m' ∧
      procThreads.Carries m'.links ready (ps.foldl (fun q p => q.addHead .pcbFree p) q) ∧
      ∀ p, m'.pcb p = if p ∈ ps then { m.pcb p with pPid := NULL_PID } else m.pcb p := by
  induction ps with
  | nil =>
      intro m q h _ _ _
      exact ⟨m, rfl, h, fun p => (if_neg List.not_mem_nil).symm⟩
  | cons x xs ih =>
      intro m q h hfree hxs hnull
      rcases Threads.listAdd_carries h (hnull x List.mem_cons_self) hfree with ⟨l, hadd, h₁, _⟩
      have hadd' : m.links.listAdd (some (.pList x)) (some .pcbFree) = some l := hadd
      have hx := List.nodup_cons.mp hxs
      have hnull' : ∀ p ∈ xs, (q.addHead .pcbFree x).Null p := by
        intro p hp i hi
        rcases (Queues.mem_addHead _ _ _ _ _).mp hi with hi | ⟨_, rfl⟩
        · exact hnull p (List.mem_cons_of_mem x hp) i hi
        · exact hx.1 hp
      rcases ih (PcbHeap.modPcb { m with links := l } x (fun t => { t with pPid := NULL_PID })) _
        h₁ hfree hx.2 hnull' with ⟨m', hrun, hcarries, hpcb⟩
      refine ⟨m', ?_, hcarries, fun p => ?_⟩
      · rw [List.foldlM_cons, hadd']
        exact hrun
      · rw [hpcb]
        by_cases hpx : p = x
        · rw [hpx, if_neg hx.1, if_pos List.mem_cons_self]
          exact Function.update_self _ _ _
        · have hsame : (PcbHeap.modPcb { m with links := l } x
              (fun t => { t with pPid := NULL_PID })).pcb p = m.pcb p :=
            Function.update_of_ne hpx _ _
          rw [hsame]
          simp only [List.mem_cons, hpx, false_or]

/-- The loop of `init_asl`. -/
theorem initAsl_loop (xs : List SemdId) : ∀ (m : Links (SemdCell SemdList SemdId))
    (q : Queues SemdList SemdId), semdThreads.Carries m Set.univ q → xs.Nodup →
    (∀ x ∈ xs, q.Null x) →
    ∃ m', xs.foldlM (fun m i => m.listAdd (some (.sLink i)) (some (.head .semdFree))) m =
        some m' ∧
      semdThreads.Carries m' Set.univ (xs.foldl (fun q x => q.addHead .semdFree x) q) := by
  induction xs with
  | nil => exact fun m q h _ _ => ⟨m, rfl, h⟩
  | cons x xs ih =>
      intro m q h hxs hnull
      have hx := List.nodup_cons.mp hxs
      rcases Threads.listAdd_carries h (hnull x List.mem_cons_self) (Set.mem_univ .semdFree) with
        ⟨m₁, hadd, h₁, _⟩
      have hadd' : m.listAdd (some (.sLink x)) (some (.head .semdFree)) = some m₁ := hadd
      have hnull' : ∀ y ∈ xs, (q.addHead .semdFree x).Null y := by
        intro y hy i hi
        rcases (Queues.mem_addHead _ _ _ _ _).mp hi with hi | ⟨_, rfl⟩
        · exact hnull y (List.mem_cons_of_mem x hy) i hi
        · exact hx.1 hy
      rcases ih m₁ _ h₁ hx.2 hnull' with ⟨m', hrun, hcarries⟩
      refine ⟨m', ?_, hcarries⟩
      rw [List.foldlM_cons, hadd']
      exact hrun

/-! ## `init` -/

/-- The memory before `init` has the fields, the keys and the semaphore words of
    the nucleus. Its pointers do not matter. -/
structure Loaded (m : NucleusHeap) (k : Kernel) : Prop where
  fields : ∀ p, m.pcbs.pcb p = fieldsOf (k.pcb p)
  keys : ∀ d, m.sKey d = k.sKey d
  mem : m.mem = k.mem

variable {m : NucleusHeap} {k : Kernel}

/-- The memory with the variables of the scheduler reset. -/
def NucleusHeap.fresh (m : NucleusHeap) (pcbs : PcbHeap ProcQ PcbId)
    (semds : Links (SemdCell SemdList SemdId)) (mem : Word → Word) : NucleusHeap :=
  { pcbs := pcbs
    semds := semds
    sKey := m.sKey
    processCount := Counter.zero
    softblockCount := Counter.zero
    activeProcess := none
    yieldProcess := none
    recycleCount := 0
    mem := mem }

theorem nothing_carried {C ι α : Type} (T : Threads C ι α) (l : Links C) :
    T.Carries l ∅ (fun _ => []) :=
  ⟨⟨fun _ => List.nodup_nil, fun _ _ _ hp => absurd hp List.not_mem_nil⟩,
    fun h hh => absurd hh (Set.notMem_empty h), fun _ _ => rfl⟩

/-- `init_scheduler`. -/
theorem initScheduler_carries (m : NucleusHeap) : ∃ pcbs,
    m.initScheduler = some (m.fresh pcbs m.semds m.mem) ∧
    procThreads.Carries pcbs.links {.readyQueueLo, .readyQueueHi} (fun _ => []) ∧
    pcbs.pcb = m.pcbs.pcb := by
  rcases Threads.initListHead_carries (h := .readyQueueHi)
    (nothing_carried procThreads m.pcbs.links) rfl with ⟨l₁, hhi, h₁, _⟩
  rcases Threads.initListHead_carries (h := .readyQueueLo) h₁ rfl with ⟨l₂, hlo, h₂, _⟩
  have hhi' : m.pcbs.links.initListHead (some (.queue .readyQueueHi)) = some l₁ := hhi
  have hlo' : l₁.initListHead (some (.queue .readyQueueLo)) = some l₂ := hlo
  refine ⟨{ m.pcbs with links := l₂ }, ?_, ?_, rfl⟩
  · simp only [NucleusHeap.initScheduler, PcbHeap.mkEmptyProcQ, hhi', hlo', Option.bind_eq_bind,
      Option.bind_some, Option.pure_def]
    rfl
  · rw [LawfulSingleton.insert_empty_eq] at h₂
    exact h₂

/-- `init_pcbs`. -/
theorem initPcbs_carries {pcbs : PcbHeap ProcQ PcbId}
    (h : procThreads.Carries pcbs.links ready (fun _ => [])) : ∃ pcbs', pcbs.initPcbs = some pcbs' ∧
    procThreads.Carries pcbs'.links (insert .pcbFree ready)
      (fun i => if i = .pcbFree then (List.finRange MAX_PROC).reverse else []) ∧
    ∀ p, pcbs'.pcb p = { pcbs.pcb p with pPid := NULL_PID } := by
  rcases Threads.initListHead_carries (h := .pcbFree) h rfl with ⟨l₁, hinit, h₁, _⟩
  have hinit' : pcbs.links.initListHead (some .pcbFree) = some l₁ := hinit
  rcases initPcbs_loop (List.finRange MAX_PROC) { pcbs with links := l₁ } _ h₁
    (Set.mem_insert _ _) (List.nodup_finRange _) (fun p _ i hp => absurd hp List.not_mem_nil) with
    ⟨pcbs', hrun, hcarries, hpcb⟩
  refine ⟨pcbs', ?_, ?_, fun p => ?_⟩
  · simp only [PcbHeap.initPcbs, hinit', Option.bind_eq_bind, Option.bind_some]
    exact hrun
  · rw [Queues.foldl_addHead] at hcarries
    simpa only [List.append_nil] using hcarries
  · rw [hpcb, if_pos (List.mem_finRange p)]

/-- `init_asl`. -/
theorem initAsl_carries (m : NucleusHeap) : ∃ semds, m.initAsl = some { m with semds := semds } ∧
    semdThreads.Carries semds Set.univ
      (fun i => if i = .semdFree then (List.finRange MAX_PROC).reverse else []) := by
  rcases Threads.initListHead_carries (h := .semdFree) (nothing_carried semdThreads m.semds) rfl
    with ⟨l₁, hfree, h₁, _⟩
  rcases Threads.initListHead_carries (h := .semdH) h₁ rfl with ⟨l₂, hused, h₂, _⟩
  have hfree' : m.semds.initListHead (some (.head .semdFree)) = some l₁ := hfree
  have hused' : l₁.initListHead (some (.head .semdH)) = some l₂ := hused
  have hall : insert SemdList.semdH (insert SemdList.semdFree ∅) = Set.univ := by
    ext i
    cases i <;> simp only [Set.mem_insert_iff, Set.mem_univ, reduceCtorEq, true_or, or_true]
  rw [hall] at h₂
  rcases initAsl_loop (List.finRange MAX_PROC) l₂ _ h₂ (List.nodup_finRange _)
    (fun d _ i hd => absurd hd List.not_mem_nil) with ⟨semds, hrun, hcarries⟩
  refine ⟨semds, ?_, ?_⟩
  · simp only [NucleusHeap.initAsl, hfree', hused', hrun, Option.bind_eq_bind, Option.bind_some,
      Option.pure_def]
  · rw [Queues.foldl_addHead] at hcarries
    simpa only [List.append_nil] using hcarries

theorem store_mem (h : m.mem = k.mem) (a v : Word) : (m.store a v).mem = (k.store a v).mem := by
  change Function.update m.mem a v = fun b => if b = a then v else k.mem b
  rw [h]
  funext b
  exact Function.update_apply _ _ _ _

/-- `init_semaphores` stores the same words on both sides and does nothing else. -/
theorem initSemaphores_stores (L : Layout) (xs : List Nat) : ∀ (m : NucleusHeap) (k : Kernel),
    m.mem = k.mem → ∃ f, xs.foldl (fun m i => m.store (L.semAddr i) 0) m = { m with mem := f } ∧
      xs.foldl (fun k i => k.store (L.semAddr i) 0) k = { k with mem := f } := by
  induction xs with
  | nil => exact fun m k h => ⟨m.mem, rfl, by rw [h]; rfl⟩
  | cons x xs ih =>
      intro m k h
      rcases ih (m.store (L.semAddr x) 0) (k.store (L.semAddr x) 0) (store_mem h _ _) with
        ⟨f, hm, hk⟩
      exact ⟨f, hm, hk⟩

/-- The tables after `init` prepared them. -/
def Boot.tables (L : Layout) (b : Boot) : Kernel :=
  initAsl (initPcbs (initSemaphores L (initScheduler (b.bss L) b.tod)))

theorem at_tables (L : Layout) (b : Boot) : At (b.tables L) ∅ := by
  rcases initTables_blank L b with ⟨k, hk, hblank, _⟩
  unfold Boot.tables
  rw [hk]
  exact blank_at hblank

/-- `init` prepares the tables, whatever the pointers were. -/
theorem initTables_keeps {L : Layout} {b : Boot} (h : Loaded m (b.bss L)) :
    ∃ m', m.initTables L = some m' ∧
      Keeps m' (b.tables L) := by
  unfold Boot.tables
  rcases initScheduler_carries m with ⟨pcbs₁, hsched, h₁, hpcb₁⟩
  rcases initPcbs_carries h₁ with ⟨pcbs₂, hinit, h₂, hpcb₂⟩
  rcases initSemaphores_stores L (List.range SEMAPHORES_NUM) (m.fresh pcbs₁ m.semds m.mem)
    (initScheduler (b.bss L) b.tod) h.mem with ⟨f, hm, hk⟩
  rcases initAsl_carries (m.fresh pcbs₂ m.semds f) with ⟨semds, hasl, h₃⟩
  refine ⟨m.fresh pcbs₂ semds f, ?_, ?_⟩
  · have hpcbs : (m.fresh pcbs₁ m.semds f).pcbs.initPcbs = some pcbs₂ := hinit
    unfold NucleusHeap.initTables NucleusHeap.initSemaphores
    rw [hsched, Option.bind_eq_bind, Option.bind_some, hm]
    change (m.fresh pcbs₁ m.semds f).pcbs.initPcbs.bind _ = _
    rw [hpcbs, Option.bind_some]
    exact hasl
  · have hempty : (initScheduler (b.bss L) b.tod).procq = fun _ => [] := by
      funext i
      simp only [initScheduler, mkEmptyProcQ, Queues.clear, Boot.bss, ite_self]
    have hall : ∀ p : PcbId, ¬ Queues.Null (fun i =>
        if i = ProcQ.pcbFree then (List.finRange MAX_PROC).reverse else []) p := by
      intro p hp
      have hmem : p ∈ (List.finRange MAX_PROC).reverse :=
        List.mem_reverse.mpr (List.mem_finRange p)
      exact hp .pcbFree hmem
    rw [initSemaphores, hk,
      initPcbs_eq (k := { initScheduler (b.bss L) b.tod with mem := f }) hempty, initAsl_eq]
    refine ⟨listsOf _ _ h₂.wf h₂.outside, ∅, represents_listsOf h₂ hall,
      ⟨fun i hi => ?_, ?_, fun i => ?_⟩,
      ⟨nothing_carried childThreads _, fun p hp => ?_⟩, h₃, ⟨fun p => ?_, h.keys, rfl⟩⟩
    · refine Set.mem_image_of_mem headCell ?_
      cases i with
      | pcbFree => exact Set.mem_insert _ _
      | readyQueueLo => exact Or.inr (Or.inl rfl)
      | readyQueueHi => exact Or.inr (Or.inr rfl)
      | sProcq d => exact absurd (hi d rfl) List.not_mem_nil
    · rintro s ⟨i, _, rfl⟩
      exact ⟨i, rfl⟩
    · exact queue_listsOf h₂.wf h₂.outside i
    · exact absurd (List.mem_reverse.mpr (List.mem_finRange p)) hp
    · have hfields : pcbs₂.pcb p =
          { fieldsOf ((b.bss L).pcb p) with pPid := NULL_PID } := by
        rw [hpcb₂, hpcb₁, h.fields]
      exact hfields

end Pandos
