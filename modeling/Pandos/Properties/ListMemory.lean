import Pandos.Theory.BootHeap
import Pandos.Theory.Replay

/-!
# The Lists of the Nucleus in Memory

The functions on processes, semaphores and the ready queues as two systems: one
on the tables the nucleus was modelled with, one on the pointers of memory. A
caller keeps the nucleus's discipline: a process that waits or is scheduled is in
no queue, one that is killed exists, and one that gets a parent has no family.

Every run on the tables is a run in memory with the same replies, whatever the
memory held before `init`, and no call within the discipline goes through a null
pointer or searches without end.

## Main definitions

* `NucleusCall`, `NucleusReply`: The calls and what they return.
* `NucleusCall.run`, `NucleusCall.load`: A call on the tables and in memory.
* `NucleusCall.Allowed`: The discipline.
* `nucleusLists`, `nucleusMemory`: The runs.

## Theorems

* `call_at`: A call within the discipline keeps the invariant of the tables.
* `call_keeps`: It does in memory what it does on the tables.
* `memory_keeps_lists`: The runs agree.
-/

namespace Pandos

/-! ## Calls -/

/-- A call, or what a handler writes into the other fields of a block. -/
inductive NucleusCall
  | spawn (priority : Word)
  | adopt (prnt p : PcbId)
  | fields (p : PcbId) (s : State) (time : Int) (support : Option Word)
  | passeren (semAddr : Word) (p : PcbId)
  | verhogen (semAddr : Word)
  | kill (p : PcbId)
  | yield
  | schedule (hw : Hw) (pcb : Option PcbId) (enqueue : Bool)

/-- What a call returns, or how `schedule` ends. -/
inductive NucleusReply
  | done
  | code (n : Nat)
  | block (p : Option PcbId)
  | control (ctrl : SchedulerControl)
  | takes (p : Option PcbId)
  | waits
  | halts
  | panics

/-- The nucleus goes on. -/
def NucleusReply.GoesOn : NucleusReply → Prop
  | halts => False
  | panics => False
  | _ => True

instance : DecidablePred NucleusReply.GoesOn
  | .halts => instDecidableFalse
  | .panics => instDecidableFalse
  | .done => instDecidableTrue
  | .code _ => instDecidableTrue
  | .block _ => instDecidableTrue
  | .control _ => instDecidableTrue
  | .takes _ => instDecidableTrue
  | .waits => instDecidableTrue

/-- The reply of a semaphore operation. -/
def NucleusReply.ofResult {β : Type} (reply : β → NucleusReply) (k : Kernel) :
    Result (β × Kernel) → NucleusReply × Kernel
  | .ok (b, k') => (reply b, k')
  | .error _ => (panics, k)

/-- How `schedule` ended. -/
def NucleusReply.ofOutcome (k : Kernel) : Outcome → NucleusReply × Kernel
  | .run k' => (takes k'.activeProcess, k')
  | .wait k' _ => (waits, k')
  | .halt k' => (halts, k')
  | _ => (panics, k)

/-- A call on the tables. -/
def NucleusCall.run (k : Kernel) : NucleusCall → NucleusReply × Kernel
  | spawn priority => (.block (spawnProcess k priority).1, (spawnProcess k priority).2)
  | adopt prnt p => (.done, insertChild k prnt p)
  | fields p s time support =>
    (.done, k.modPcb p (fun t => { t with pS := s, pTime := time, pSupport := support }))
  | passeren semAddr p => NucleusReply.ofResult .control k (P k (some semAddr) (some p))
  | verhogen semAddr => NucleusReply.ofResult .block k (V k (some semAddr))
  | kill p =>
    match killProgeny killFuel k p with
    | some (r, k') => (.code r, k')
    | none => (.panics, k)
  | yield => (.done, { k with yieldProcess := k.activeProcess })
  | schedule hw pcb enqueue =>
    NucleusReply.ofOutcome k (Pandos.schedule hw k pcb enqueue)

/-- `wait_or_die` in memory. -/
def NucleusHeap.waitOrDie (m : NucleusHeap) : NucleusReply × NucleusHeap :=
  if m.processCount.val = 0 then (.halts, m)
  else if m.softblockCount.val ≠ 0 then (.waits, { m with activeProcess := none })
  else (.panics, m)

/-- A call in memory, unless it goes through a null pointer or does not end. -/
def NucleusCall.load (m : NucleusHeap) : NucleusCall → Option (NucleusReply × NucleusHeap)
  | spawn priority => do
    let (p, m) ← m.spawnProcess priority
    return (.block p, m)
  | adopt prnt p => do
    let pcbs ← m.pcbs.insertChild listRounds (some prnt) (some p)
    return (.done, { m with pcbs := pcbs })
  | fields p s time support =>
    some (.done, m.modPcb p (fun t => { t with pS := s, pTime := time, pSupport := support }))
  | passeren semAddr p => do
    match ← m.P (some semAddr) (some p) with
    | .ok (ctrl, m) => return (.control ctrl, m)
    | .error _ => return (.panics, m)
  | verhogen semAddr => do
    match ← m.V (some semAddr) with
    | .ok (p, m) => return (.block p, m)
    | .error _ => return (.panics, m)
  | kill p => do
    let (r, m) ← m.killProgeny killFuel p
    return (.code r, m)
  | yield => some (.done, { m with yieldProcess := m.activeProcess })
  | schedule _ pcb enqueue => do
    let (next, m) ← m.schedule pcb enqueue
    match next with
    | some p => return (.takes m.activeProcess, m.schedulerTakeover p)
    | none => return m.waitOrDie

/-- The discipline of the nucleus. The processes in no queue when `schedule` is
    called are the one it gets and the one that yielded. -/
def NucleusCall.Allowed (k : Kernel) : NucleusCall → Prop
  | adopt prnt p => prnt ≠ p ∧ parentOf k p = none ∧ k.child p = [] ∧
      prnt ∉ k.procq .pcbFree ∧ p ∉ k.procq .pcbFree
  | passeren semAddr p => Aligned semAddr ∧ k.procq.Null p
  | verhogen semAddr => Aligned semAddr ∧ ∀ p, k.activeProcess = some p → k.procq.Null p
  | kill p => p ∉ k.procq .pcbFree
  | schedule _ pcb _ => (∀ p, k.procq.Null p ↔ pcb = some p ∨ k.yieldProcess = some p) ∧
      (pcb = none ∨ k.yieldProcess = none)
  | _ => True

/-- The runs on the tables. -/
def nucleusLists (L : Layout) (b : Boot) : System Kernel (NucleusCall × NucleusReply) where
  init k := k = b.tables L
  step k c k' := c.1.Allowed k ∧ c.1.run k = (c.2, k') ∧ c.2.GoesOn

/-- The runs in memory. -/
def nucleusMemory (L : Layout) (b : Boot) : System NucleusHeap (NucleusCall × NucleusReply) where
  init m := ∃ m₀, Loaded m₀ (b.bss L) ∧ m₀.initTables L = some m
  step m c m' := c.1.load m = some (c.2, m')

variable {m : NucleusHeap} {k : Kernel} {s : Finset PcbId} {c : NucleusCall}

/-! ## The invariant -/

/-- What `schedule` is called with. -/
theorem ready_of_allowed (h : At k s) {pcb : Option PcbId} (enqueue : Bool)
    (hnull : ∀ p, k.procq.Null p ↔ pcb = some p ∨ k.yieldProcess = some p)
    (hone : pcb = none ∨ k.yieldProcess = none) : Ready ⟨pcb, enqueue⟩ k := by
  refine ⟨⟨h.wf, h.counted, fun p => ?_⟩, hone⟩
  rw [hnull, Finset.mem_union, Option.mem_toFinset, Option.mem_toFinset]
  rfl

/-- A call within the discipline keeps the invariant of the tables. -/
theorem call_at (h : At k s) (hc : c.Allowed k) (hgo : (c.run k).1.GoesOn) :
    ∃ s', At (c.run k).2 s' := by
  cases c with
  | spawn priority =>
      change ∃ s', At (spawnProcess k priority).2 s'
      by_cases hprio : priority = PROCESS_PRIO_LOW ∨ priority = PROCESS_PRIO_HIGH
      · cases hf : k.procq .pcbFree with
        | nil =>
            rw [spawnProcess_none hprio hf]
            exact ⟨s, h⟩
        | cons p ps =>
            rcases spawnProcess_some h hprio hf with ⟨k', hk, _, hat⟩
            rw [hk]
            exact ⟨s, hat⟩
      · rw [not_or] at hprio
        have hres : spawnProcess k priority = (none, k) := if_pos ⟨hprio.2, hprio.1⟩
        rw [hres]
        exact ⟨s, h⟩
  | adopt prnt p =>
      rcases hc with ⟨hne, hpar, hleaf, hprnt, hp⟩
      change ∃ s', At (insertChild k prnt p) s'
      rw [insertChild_eq h.wf.tree hpar]
      exact ⟨s, at_adopted h hne hpar hleaf hprnt hp⟩
  | fields p st time support =>
      have hsame := same_modPcb k p
        (fun t => { t with pS := st, pTime := time, pSupport := support })
        (fun _ => ⟨rfl, rfl, rfl, rfl⟩)
      exact ⟨s, h.of_same hsame⟩
  | passeren a p =>
      rcases P_spec h.wf.asl hc.1 hc.2 with ⟨ctrl, k', hP, hstep⟩
      have hrun : NucleusCall.run k (.passeren a p) = (.control ctrl, k') := by
        unfold NucleusCall.run
        simp only [hP]
        rfl
      rw [hrun]
      cases hstep with
      | block _ hb => exact ⟨_, hb.at h ((h.running p).mp hc.2)⟩
      | wake _ hb => exact ⟨s, hb.at h⟩
      | lower => exact ⟨s, h.of_same (same_store k a _)⟩
  | verhogen a =>
      rcases V_spec h.wf.asl hc.1 hc.2 with ⟨r, k', hV, hstep⟩
      have hrun : NucleusCall.run k (.verhogen a) = (.block r, k') := by
        unfold NucleusCall.run
        simp only [hV]
        rfl
      rw [hrun]
      cases hstep with
      | block _ hp hb => exact ⟨_, hb.at h ((h.running _).mp (hc.2 _ hp))⟩
      | idle => exact ⟨s, h⟩
      | wake _ hb => exact ⟨s, hb.at h⟩
      | raise => exact ⟨s, h.of_same (same_store k a _)⟩
  | kill p =>
      rcases killProgeny_spec h.wf hc with ⟨ks, sl, heq, hwf, hnodup, hbelow⟩
      have hrun : NucleusCall.run k (.kill p) = (.code 0, k.killed ks sl) := by
        unfold NucleusCall.run
        simp only [heq killFuel (Nat.le_refl _)]
      rw [hrun]
      exact ⟨_, killed_at h hwf hnodup
        (fun q hq => not_free_of_below h.wf.tree hc ((hbelow q).mp hq))⟩
  | yield => exact ⟨s, h.of_same ⟨rfl, rfl, rfl, rfl, rfl, rfl, fun _ => rfl, fun _ => rfl,
      fun _ => rfl, fun _ => rfl⟩⟩
  | schedule hw pcb enqueue =>
      have hspec : Scheduled hw k (schedule hw k pcb enqueue) :=
        schedule_spec (ready_of_allowed h enqueue hc.1 hc.2)
      change (NucleusReply.ofOutcome k (schedule hw k pcb enqueue)).1.GoesOn at hgo
      change ∃ s', At (NucleusReply.ofOutcome k (schedule hw k pcb enqueue)).2 s'
      generalize schedule hw k pcb enqueue = o at hspec hgo
      cases hspec with
      | run _ hb => exact ⟨_, hb.at_⟩
      | wait _ hb => exact ⟨_, hb.at_⟩
      | halt => exact absurd hgo id

/-- The tables meet the invariant in every run. -/
theorem lists_at {L : Layout} {b : Boot} {es : List (NucleusCall × NucleusReply)}
    (h : (nucleusLists L b).Run es k) : ∃ s, At k s := by
  refine System.run_invariant (P := fun k => ∃ s, At k s) ?_ ?_ h
  · rintro k rfl
    exact ⟨∅, at_tables L b⟩
  · rintro es k e k' _ ⟨s, hat⟩ ⟨hc, hrun, hgo⟩
    have hat' := call_at hat hc (by rw [hrun]; exact hgo)
    rwa [hrun] at hat'

/-! ## The memory -/

theorem waitOrDie_keeps (h : Keeps m k) (hw : Hw) (k₀ : Kernel) :
    m.waitOrDie.1 = (NucleusReply.ofOutcome k₀ (waitOrDie hw k)).1 ∧
      (m.waitOrDie.1.GoesOn →
        Keeps m.waitOrDie.2 (NucleusReply.ofOutcome k₀ (waitOrDie hw k)).2) := by
  have hcount : m.processCount.val = k.processCount.val := congrArg Counter.val h.processCount
  have hsoft : m.softblockCount.val = k.softblockCount.val := congrArg Counter.val h.softblockCount
  unfold NucleusHeap.waitOrDie waitOrDie
  simp only [hcount, hsoft]
  by_cases hp : k.processCount.val = 0
  · simp only [if_pos hp, NucleusReply.ofOutcome]
    exact ⟨trivial, fun hgo => absurd hgo id⟩
  · by_cases hs : k.softblockCount.val = 0
    · simp only [if_neg hp, hs, ne_eq, not_true_eq_false, if_false, NucleusReply.ofOutcome]
      exact ⟨trivial, fun hgo => absurd hgo id⟩
    · simp only [if_neg hp, ne_eq, hs, not_false_eq_true, if_true, schedulerWait,
        NucleusReply.ofOutcome]
      exact ⟨trivial, fun _ => h.withGlobals ⟨rfl, rfl, rfl⟩ ⟨rfl, rfl, rfl, rfl, rfl⟩
        (congrArg (fun g : Globals => { g with activeProcess := none }) h.globals)⟩

/-- `schedule` to its end. -/
theorem schedule_load (h : Keeps m k) (hw : Hw) {pcb : Option PcbId} (enqueue : Bool)
    (hc : (NucleusCall.schedule hw pcb enqueue).Allowed k) :
    ∃ m', (NucleusCall.schedule hw pcb enqueue).load m =
        some (((NucleusCall.schedule hw pcb enqueue).run k).1, m') ∧
      (((NucleusCall.schedule hw pcb enqueue).run k).1.GoesOn →
        Keeps m' ((NucleusCall.schedule hw pcb enqueue).run k).2) := by
  have hp : ∀ p, pcb = some p → p ∉ k.procq .pcbFree :=
    fun p hp => (hc.1 p).mpr (Or.inl hp) .pcbFree
  have hy : ∀ y, k.yieldProcess = some y → y ∉ k.procq .pcbFree :=
    fun y hy => (hc.1 y).mpr (Or.inr hy) .pcbFree
  have hrun : (NucleusCall.schedule hw pcb enqueue).run k =
      NucleusReply.ofOutcome k (schedule hw k pcb enqueue) := rfl
  rw [hrun]
  rcases schedule_keeps h enqueue hp hy with ⟨p, m₁, k₁, hm, hk, h₁⟩ | ⟨m₁, k₁, hm, hk, h₁⟩
  · rcases schedulerTakeover_keeps h₁ hw p with ⟨k', htake, h', hactive⟩
    have hres : schedule hw k pcb enqueue = .run k' := (hk hw).trans htake
    rw [hres]
    refine ⟨m₁.schedulerTakeover p, ?_, fun _ => h'⟩
    simp only [NucleusCall.load, hm, NucleusReply.ofOutcome, hactive, h₁.activeProcess,
      Option.bind_eq_bind, Option.bind_some, Option.pure_def]
  · rcases waitOrDie_keeps h₁ hw k with ⟨hreply, hkeep⟩
    have hres : schedule hw k pcb enqueue = waitOrDie hw k₁ := hk hw
    rw [hres, ← hreply]
    refine ⟨m₁.waitOrDie.2, ?_, hkeep⟩
    simp only [NucleusCall.load, hm, Option.bind_eq_bind, Option.bind_some, Option.pure_def]

/-- A call within the discipline does in memory what it does on the tables. -/
theorem call_keeps (h : Keeps m k) (hat : At k s) (hc : c.Allowed k) :
    ∃ m', c.load m = some ((c.run k).1, m') ∧
      ((c.run k).1.GoesOn → Keeps m' (c.run k).2) := by
  cases c with
  | spawn priority =>
      rcases spawnProcess_keeps h hat.wf priority with ⟨m', hrun, hkeep⟩
      refine ⟨m', ?_, fun _ => hkeep⟩
      simp only [NucleusCall.load, NucleusCall.run, hrun, Option.bind_eq_bind, Option.bind_some,
        Option.pure_def]
  | adopt prnt p =>
      rcases insertChild_keeps h hat.wf.tree hc.2.2.2.1 p with ⟨pcbs, hrun, hkeep⟩
      refine ⟨{ m with pcbs := pcbs }, ?_, fun _ => hkeep⟩
      simp only [NucleusCall.load, NucleusCall.run, hrun, Option.bind_eq_bind, Option.bind_some,
        Option.pure_def]
  | fields p st time support =>
      have hfields := h.modPcb
        (f := fun t => { t with pS := st, pTime := time, pSupport := support })
        (g := fun t => { t with pS := st, pTime := time, pSupport := support }) p (fun _ => rfl)
      exact ⟨_, rfl, fun _ => hfields⟩
  | passeren a p =>
      have hrun : (NucleusCall.passeren a p).run k =
        NucleusReply.ofResult .control k (P k (some a) (some p)) := rfl
      rw [hrun]
      rcases P_keeps h hat.wf.asl (some a) (some p) (fun r hr => Option.some.inj hr ▸ hc.2) with
        ⟨ctrl, m', k', hm, hk, hkeep⟩ | ⟨msg, hm, hk⟩
      · rw [hk]
        refine ⟨m', ?_, fun _ => hkeep⟩
        simp only [NucleusCall.load, hm, NucleusReply.ofResult, Option.bind_eq_bind,
          Option.bind_some, Option.pure_def]
      · rw [hk]
        refine ⟨m, ?_, fun hgo => absurd hgo id⟩
        simp only [NucleusCall.load, hm, NucleusReply.ofResult, Option.bind_eq_bind,
          Option.bind_some, Option.pure_def]
  | verhogen a =>
      have hrun : (NucleusCall.verhogen a).run k =
        NucleusReply.ofResult .block k (V k (some a)) := rfl
      rw [hrun]
      rcases V_keeps h hat.wf.asl (some a) hc.2 with ⟨p, m', k', hm, hk, hkeep⟩ | ⟨msg, hm, hk⟩
      · rw [hk]
        refine ⟨m', ?_, fun _ => hkeep⟩
        simp only [NucleusCall.load, hm, NucleusReply.ofResult, Option.bind_eq_bind,
          Option.bind_some, Option.pure_def]
      · rw [hk]
        refine ⟨m, ?_, fun hgo => absurd hgo id⟩
        simp only [NucleusCall.load, hm, NucleusReply.ofResult, Option.bind_eq_bind,
          Option.bind_some, Option.pure_def]
  | kill p =>
      have hfuel : (attached k).card < killFuel := by
        have hle := card_le_maxProc (attached k)
        unfold killFuel
        omega
      rcases killProgeny_keeps killFuel m k p h hat.wf hc hfuel with ⟨r, k', m', hk, hm, hkeep⟩
      refine ⟨m', ?_, fun _ => ?_⟩
      · simp only [NucleusCall.load, NucleusCall.run, hm, hk, Option.bind_eq_bind, Option.bind_some,
          Option.pure_def]
      · simpa only [NucleusCall.run, hk] using hkeep
  | yield =>
      refine ⟨_, rfl, fun _ => h.withGlobals ⟨rfl, rfl, rfl⟩ ⟨rfl, rfl, rfl, rfl, rfl⟩ ?_⟩
      exact congrArg (fun g : Globals => { g with yieldProcess := g.activeProcess }) h.globals
  | schedule hw pcb enqueue => exact schedule_load h hw enqueue hc

/-- The runs in memory and those on the tables agree, whatever the pointers were
    before `init`: the same calls get the same replies, the memory stands for the
    tables, and every call within the discipline comes to its end. -/
theorem memory_keeps_lists {L : Layout} {b : Boot} {es : List (NucleusCall × NucleusReply)}
    (h : (nucleusLists L b).Run es k) :
    (∃ m, (nucleusMemory L b).Run es m) ∧
    ∀ es' m, (nucleusMemory L b).Run es' m → es'.map Prod.fst = es.map Prod.fst →
      es' = es ∧ Keeps m k ∧
        ∀ c : NucleusCall, c.Allowed k → ∃ m', c.load m = some ((c.run k).1, m') := by
  have hkeeps : (∃ m, (nucleusMemory L b).Run es m) ∧ ∀ es' m, (nucleusMemory L b).Run es' m →
      es'.map Prod.fst = es.map Prod.fst → es' = es ∧ Keeps m k := by
    induction h with
    | init hk =>
        cases hk
        constructor
        · let m₀ : NucleusHeap :=
            { pcbs := ⟨⟨fun _ => none, fun _ => none⟩, fun p => fieldsOf ((b.bss L).pcb p)⟩
              semds := ⟨fun _ => none, fun _ => none⟩
              sKey := (b.bss L).sKey
              processCount := Counter.zero
              softblockCount := Counter.zero
              activeProcess := none
              yieldProcess := none
              recycleCount := 0
              mem := (b.bss L).mem }
          have hload : Loaded m₀ (b.bss L) := ⟨fun _ => rfl, fun _ => rfl, rfl⟩
          rcases initTables_keeps hload with ⟨m, hm, _⟩
          exact ⟨m, System.Run.init ⟨m₀, hload, hm⟩⟩
        · intro es' m hrun hes
          cases hrun with
          | init hm =>
              rcases hm with ⟨m₀, hload, hinit⟩
              rcases initTables_keeps hload with ⟨m', hm', hkeep⟩
              rw [hinit] at hm'
              cases hm'
              exact ⟨rfl, hkeep⟩
          | step _ _ => cases hes
    | @step es k k' e hrun hstep ih =>
        rcases hstep with ⟨hc, hreply, hgo⟩
        rcases lists_at hrun with ⟨s, hat⟩
        have hgo' : (e.1.run k).1.GoesOn := by
          rw [hreply]
          exact hgo
        rcases ih with ⟨⟨m, hm⟩, hall⟩
        constructor
        · rcases call_keeps (hall es m hm rfl).2 hat hc with ⟨m', hload, _⟩
          rw [hreply] at hload
          exact ⟨m', System.Run.step hm hload⟩
        · intro es' m₂ hrun' hes
          cases hrun' with
          | init _ => cases hes
          | @step es₁ m₁ _ e' hrun₁ hstep₁ =>
              rw [List.map_cons, List.map_cons, List.cons.injEq] at hes
              rcases hall es₁ m₁ hrun₁ hes.2 with ⟨rfl, hkeep⟩
              rcases call_keeps hkeep hat hc with ⟨m', hload, hkeep'⟩
              -- The call in memory is the same, so its reply is the same too.
              rcases e' with ⟨call, reply⟩
              have hcall : call = e.1 := hes.1
              subst hcall
              change e.1.load m₁ = some (reply, m₂) at hstep₁
              rw [hload] at hstep₁
              cases hstep₁
              have hkeep₂ := hkeep' hgo'
              rw [hreply] at hkeep₂
              refine ⟨?_, hkeep₂⟩
              rw [hreply]
  rcases lists_at h with ⟨s, hat⟩
  refine ⟨hkeeps.1, fun es' m hrun hes => ?_⟩
  rcases hkeeps.2 es' m hrun hes with ⟨heq, hkeep⟩
  refine ⟨heq, hkeep, fun c hc => ?_⟩
  rcases call_keeps hkeep hat hc with ⟨m', hload, _⟩
  exact ⟨m', hload⟩

theorem run_call {L : Layout} {b : Boot} {es : List (NucleusCall × NucleusReply)}
    (h : (nucleusLists L b).Run es k) (hc : c.Allowed k) (hgo : (c.run k).1.GoesOn) :
    (nucleusLists L b).Run ((c, (c.run k).1) :: es) (c.run k).2 :=
  System.Run.step h ⟨hc, rfl, hgo⟩

/-- Two processes are created and the one of high priority takes over. -/
theorem memory_keeps_lists_sample : ∃ es k m,
    es.map Prod.fst = [.schedule quietHw none false, .spawn PROCESS_PRIO_HIGH,
      .spawn PROCESS_PRIO_LOW] ∧
    (nucleusLists sampleLayout sampleBoot).Run es k ∧ k.activeProcess = some 18 ∧
    (nucleusMemory sampleLayout sampleBoot).Run es m ∧ Keeps m k := by
  have h₀ : (nucleusLists sampleLayout sampleBoot).Run [] (sampleBoot.tables sampleLayout) :=
    System.Run.init rfl
  have h₁ := run_call (c := .spawn PROCESS_PRIO_LOW) h₀ trivial trivial
  have h₂ := run_call (c := .spawn PROCESS_PRIO_HIGH) h₁ trivial trivial
  have h₃ := run_call (c := .schedule quietHw none false) h₂ ⟨by decide +kernel, Or.inl rfl⟩
    (by decide +kernel)
  rcases memory_keeps_lists h₃ with ⟨⟨m, hm⟩, hall⟩
  exact ⟨_, _, m, rfl, h₃, by decide +kernel, hm, (hall _ m hm rfl).2.1⟩

end Pandos
