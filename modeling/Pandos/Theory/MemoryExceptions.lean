import Pandos.Theory.BootHeap
import Pandos.Theory.MemoryCalls
import Pandos.Theory.Runs

/-!
# Exceptions in Memory

The interrupt handlers, the scheduler and the initialisation in memory follow
those on queues, in every state the nucleus can be in between two exceptions.

## Main definitions

* `EndsAlike`: The ways an exception can end on both sides.

## Theorems

* `interruptHandler_follows`: Interrupts.
* `handleException_follows`: All exceptions, up to the call of `schedule`.
* `exceptionHandler_ends`: Whole exceptions.
* `main_ends`: Initialisation and the first dispatch.
-/

namespace Pandos

variable {L : Layout} {hw : Hw} {mem : Memory} {m : Machine} {e : Event} {k k' : Kernel}
  {p : PcbId} {a : Word}

/-! ## Interrupts -/

/-- The loop of `interrupt_timer`, when the one on queues comes to its end. -/
theorem drainTimer_follows (fuel : Nat) : ∀ mem k s, StandsFor mem k → At k s →
    (∀ p, k.activeProcess = some p → k.procq.Null p) → ∀ k', drainTimer L fuel k = .ok k' →
    ∃ mem', Memory.drainTimer L fuel mem = .ok mem' ∧ StandsFor mem' k' := by
  have hal : Aligned (getTimerSemaphore L) := semAddr_aligned L (Nat.lt_succ_self 48)
  induction fuel with
  | zero => exact fun mem k s _ _ _ k' hk => nomatch hk
  | succ fuel ih =>
      intro mem k s h hat hact k' hk
      unfold drainTimer at hk
      unfold Memory.drainTimer
      rw [h.mem]
      by_cases hone : k.mem (getTimerSemaphore L) = 1
      · rw [if_neg (not_not_intro hone)] at hk ⊢
        cases hk
        exact ⟨mem, rfl, h⟩
      · rw [if_pos hone] at hk ⊢
        rcases V_follows h hat.wf.asl hal hact with ⟨r, mem₁, k₁, hmem, hV, h₁, hstep⟩
        simp only [hV] at hk
        simp only [hmem, bind, Except.bind]
        cases hstep with
        | block hv => exact absurd hv hone
        | idle hv => exact absurd hv hone
        | wake _ hb =>
            have hat₁ := hb.at hat
            refine ih mem₁ k₁ s h₁ hat₁ (fun p hp => ?_) k' hk
            rw [(hb.frame hat.wf.asl).activeProcess] at hp
            rw [hat₁.running, ← hat.running]
            exact hact p hp
        | raise => exact ih mem₁ _ s h₁ (hat.of_same (same_store k _ _)) hact k' hk

/-- `return_status`, for a process that was released or the active one. -/
theorem returnStatus_follows (h : StandsFor mem k) {r : Option PcbId}
    (hr : r = none → k.activeProcess = none) (status : Word) :
    Corresponds (mem.returnStatus r status) (returnStatus k r status) := by
  unfold Memory.returnStatus returnStatus
  rw [h.active]
  refine Corresponds.ite (fun _ => ?_) (fun hne => ?_)
  · rw [h.reschedule]
    cases k.activeProcess with
    | none => exact Corresponds.panics _ rfl rfl
    | some q => exact Corresponds.returns _ _ _ rfl rfl (h.setResult q status)
  · cases r with
    | none => exact absurd (hr rfl).symm hne
    | some q => exact Corresponds.returns _ _ _ rfl rfl (h.setResult q status)

/-- An operation that does not find the value one releases a process or returns
    the active one. -/
theorem VStep.returned {r : Option PcbId} (h : VStep k a r k') (hv : k.mem a ≠ 1) :
    r = none → k'.activeProcess = none := by
  intro hr
  cases h with
  | block h1 => exact absurd h1 hv
  | idle h1 => exact absurd h1 hv
  | wake => cases hr
  | raise => exact hr

/-- `interrupt_generic`. -/
theorem interruptGeneric_follows (h : StandsFor mem k) (hok : e.Ok L m) (hwf : AslWf k)
    (hact : ∀ p, k.activeProcess = some p → k.procq.Null p)
    (hv : ∀ u, m.pending u ≠ none → k.mem (L.semAddr u) ≠ 1)
    (hline : e.hw.cause &&& (CAUSE_IP IL_DISK ||| CAUSE_IP IL_FLASH ||| CAUSE_IP IL_ETHERNET |||
      CAUSE_IP IL_PRINTER) ≠ 0) :
    Corresponds (mem.interruptGeneric L e.hw) (interruptGeneric L e.hw k) := by
  rcases genericLine_spec hline with ⟨h1, h2, hbit⟩
  rcases hok.line _ h1 (Nat.le_succ_of_le h2) hbit with ⟨hne, hlt⟩
  rcases findDeviceNumber_spec hne hlt with ⟨d, hd, hset⟩
  have hpend := hok.generic _ d h1 h2 hset
  rcases V_follows h hwf (semAddr_aligned L (unit_lt (genericUnit (genericLine e.hw.cause) d)))
    hact with ⟨r, mem₁, k₁, hmem, hk, h₁, hstep⟩
  unfold Memory.interruptGeneric interruptGeneric Memory.getSemaphore
  simp only [hd, getSemaphore_generic L h1 h2 d, bind, Except.bind, pure, Except.pure]
  refine Corresponds.ite (fun _ => Corresponds.panics _ rfl rfl) (fun _ => ?_)
  simp only [hmem, hk]
  rcases returnStatus_follows h₁ (hstep.returned (hv _ hpend))
    (e.hw.devreg (genericLine e.hw.cause) d).status with
    ⟨ctrl, mem₂, k₂, hmem₂, hk₂, h₂⟩ | ⟨msg, hmem₂, hk₂⟩ | ⟨mem₂, k₂, ctx, hmem₂, hk₂, h₂⟩
  · simp only [hmem₂, hk₂]
    exact Corresponds.returns _ _ _ rfl rfl (h₂.send _ _)
  · simp only [hmem₂, hk₂]
    exact Corresponds.panics msg rfl rfl
  · simp only [hmem₂, hk₂]
    exact Corresponds.loads mem₂ k₂ ctx rfl rfl h₂

/-- The end of a terminal operation. -/
theorem terminalDone_follows (h : StandsFor mem k) (r : Option PcbId) (status command : Word) :
    Corresponds (mem.terminalDone r status command) (terminalDone k r status command) := by
  unfold Memory.terminalDone terminalDone
  simp only [h.active, h.reschedule]
  cases r with
  | none =>
      cases k.activeProcess with
      | none => exact Corresponds.panics _ rfl rfl
      | some q => exact Corresponds.returns _ _ _ rfl rfl ((h.setResult q status).send _ _)
  | some q =>
      by_cases hq : k.activeProcess = some q
      · simp only [if_pos hq]
        exact Corresponds.returns _ _ _ rfl rfl ((h.setResult q status).send _ _)
      · simp only [if_neg hq]
        exact Corresponds.returns _ _ _ rfl rfl ((h.setResult q status).send _ _)

/-- `interrupt_terminal`. -/
theorem interruptTerminal_follows (h : StandsFor mem k) (hok : e.Ok L m) (hwf : AslWf k)
    (hact : ∀ p, k.activeProcess = some p → k.procq.Null p)
    (hline : e.hw.cause &&& CAUSE_IP IL_TERMINAL ≠ 0) :
    Corresponds (mem.interruptTerminal L e.hw) (interruptTerminal L e.hw k) := by
  rcases hok.line IL_TERMINAL (by decide) (Nat.le_refl _) hline with ⟨hne, hlt⟩
  rcases findDeviceNumber_spec hne hlt with ⟨d, hd, hset⟩
  unfold Memory.interruptTerminal interruptTerminal Memory.getSemaphore
  simp only [hd, (getSemaphore_terminal L d).1, (getSemaphore_terminal L d).2, bind, Except.bind]
  refine Corresponds.ite (fun _ => Corresponds.panics _ rfl rfl) (fun _ => ?_)
  refine Corresponds.ite (fun _ => ?_) (fun _ => ?_)
  · rcases V_follows h hwf (semAddr_aligned L (unit_lt (transmUnit d))) hact with
      ⟨r, mem₁, k₁, hmem, hk, h₁, _⟩
    simp only [hmem, hk]
    exact terminalDone_follows h₁ r _ _
  refine Corresponds.ite (fun _ => Corresponds.panics _ rfl rfl) (fun _ => ?_)
  refine Corresponds.ite (fun _ => ?_) (fun _ => Corresponds.panics _ rfl rfl)
  rcases V_follows h hwf (semAddr_aligned L (unit_lt (recvUnit d))) hact with
    ⟨r, mem₁, k₁, hmem, hk, h₁, _⟩
  simp only [hmem, hk]
  exact terminalDone_follows h₁ r _ _

/-- `interrupt_handler`. -/
theorem interruptHandler_follows (h : StandsFor mem k) (hok : e.Ok L m)
    (hat : At k k.activeProcess.toFinset)
    (hbin : k.mem (getTimerSemaphore L) = 0 ∨ k.mem (getTimerSemaphore L) = 1)
    (hv : ∀ u, m.pending u ≠ none → k.mem (L.semAddr u) ≠ 1) :
    Corresponds (mem.interruptHandler L e.hw) (interruptHandler L e.hw k) := by
  have hact : ∀ p, k.activeProcess = some p → k.procq.Null p := by
    intro p hp
    rw [hat.running, hp]
    exact Finset.mem_singleton_self p
  unfold Memory.interruptHandler interruptHandler
  -- The lines are looked at in the order of the handler.
  refine Corresponds.ite (fun _ => ?_) (fun _ => ?_)
  · rw [Memory.interruptIpi, h.active]
    exact Corresponds.returns _ _ _ rfl rfl h
  refine Corresponds.ite (fun _ => ?_) (fun _ => ?_)
  · rw [Memory.interruptLocalTimer, h.reschedule]
    exact Corresponds.returns _ _ _ rfl rfl h
  refine Corresponds.ite (fun _ => ?_) (fun _ => ?_)
  · rcases drainTimer_spec hat hact hbin with ⟨k', hk, _, _⟩
    rcases drainTimer_follows drainFuel mem k _ h hat hact k' hk with ⟨mem', hmem, h'⟩
    unfold Memory.interruptTimer interruptTimer
    simp only [hmem, hk, bind, Except.bind, pure, Except.pure, h'.active]
    exact Corresponds.returns _ _ _ rfl rfl h'
  refine Corresponds.ite (fun h3 => interruptGeneric_follows h hok hat.wf.asl hact hv h3)
    (fun _ => ?_)
  refine Corresponds.ite (fun h4 => interruptTerminal_follows h hok hat.wf.asl hact h4)
    (fun _ => ?_)
  rw [h.reschedule]
  exact Corresponds.returns _ _ _ rfl rfl h

/-! ## Exceptions -/

/-- The state a handler starts from. -/
theorem charged_follows (h : StandsFor mem m.kernel) (e : Event) :
    StandsFor ((mem.entry e).chargeAndSave e.hw) (charged m e) := by
  have hentry : StandsFor (mem.entry e) (m.entry e) := by
    refine ⟨h.lists.withGlobals ⟨rfl, rfl, rfl⟩ ⟨rfl, rfl, rfl, rfl, rfl⟩ ?_, h.startTod, rfl, rfl⟩
    exact congrArg (fun g : Globals => { g with mem := e.mem }) h.lists.globals
  unfold Memory.chargeAndSave charged chargeAndSave
  rw [hentry.active, hentry.startTod]
  cases (m.entry e).activeProcess with
  | none => exact hentry
  | some p => exact hentry.modPcb p (fun _ => rfl)

/-- The system call branch. -/
theorem syscallException_follows (h : StandsFor mem m.kernel) (hwf : MachineWf L m)
    (hok : e.Ok L m) (hc : excClass e.hw.cause = .syscall) :
    Corresponds (((mem.entry e).chargeAndSave e.hw).syscallException L e.hw)
      (syscallException L e.hw (charged m e)) := by
  have hcharged := charged_follows h e
  have hact : ((mem.entry e).chargeAndSave e.hw).activeProcess = m.kernel.activeProcess :=
    hcharged.active.trans (charged_active m e)
  unfold Memory.syscallException
  rw [hact]
  cases hp : m.kernel.activeProcess with
  | none =>
      refine Corresponds.panics _ rfl ?_
      rw [syscallException, charged_active, hp]
  | some p =>
      have hcalling : StandsFor
          { (mem.entry e).chargeAndSave e.hw with startTod := e.hw.todSyscall } (calling m e) :=
        ⟨hcharged.lists.withGlobals ⟨rfl, rfl, rfl⟩ ⟨rfl, rfl, rfl, rfl, rfl⟩
          hcharged.lists.globals, rfl, hcharged.sup, hcharged.bus⟩
      have hcall : Corresponds (Memory.syscallHandler L e.hw
          { (mem.entry e).chargeAndSave e.hw with startTod := e.hw.todSyscall } p)
          (syscallHandler L e.hw (calling m e) p) :=
        syscallHandler_follows hcalling (calling_spec hwf.between hp) (calling_addressed hok hc hp)
      rcases hcall with ⟨ctrl, mem₁, k₁, hmem, hk, h₁⟩ | ⟨msg, hmem, hk⟩ |
        ⟨mem₁, k₁, ctx, hmem, hk, h₁⟩
      · have hafter : StandsFor (mem₁.afterSyscall e.hw p) (afterSyscall e.hw k₁ p) := by
          unfold Memory.afterSyscall afterSyscall
          rw [h₁.startTod]
          exact h₁.modPcb p (fun _ => rfl)
        refine Corresponds.returns ctrl _ _ ?_ (syscallException_ok hp hk) hafter
        simp only [hmem, bind, Except.bind, pure, Except.pure]
      · refine Corresponds.panics msg ?_ (syscallException_error hp hk)
        simp only [hmem, bind, Except.bind]
      · refine Corresponds.loads mem₁ k₁ ctx ?_ (syscallException_error hp hk) h₁
        simp only [hmem, bind, Except.bind]

/-- The handler of an exception, up to the call of `schedule`. -/
theorem handleException_follows (h : StandsFor mem m.kernel) (hwf : MachineWf L m)
    (hok : e.Ok L m) :
    Corresponds ((mem.entry e).handleException L e.hw) (handleException L e.hw (m.entry e)) := by
  have hat := charged_at hwf.between e
  have hlive : ∀ p, (charged m e).activeProcess = some p → p ∉ (charged m e).procq .pcbFree := by
    intro p hp
    rw [hp] at hat
    exact hat.not_free (Finset.mem_singleton_self p)
  have hcharged := charged_follows h e
  have hentry : chargeAndSave e.hw (m.entry e) = charged m e := rfl
  unfold Memory.handleException handleException
  simp only [hentry]
  cases hc : excClass e.hw.cause with
  | interrupt =>
      refine interruptHandler_follows hcharged hok hat ?_ (fun u hu hv => ?_)
      · rw [charged_timer hok.toTrusted]
        exact hwf.timer
      · rw [charged_sem hok.toTrusted (unit_lt u)] at hv
        exact hu (hwf.raised u hv).2
  | tlb => exact passUpOrDie_follows hcharged hat.wf hlive _
  | other => exact passUpOrDie_follows hcharged hat.wf hlive _
  | syscall => exact syscallException_follows h hwf hok hc

/-! ## The end of an exception -/

/-- An exception in memory and one on queues end in the same way. Once the machine
    has halted only the stores to device registers matter. -/
inductive EndsAlike (o : MemoryOutcome) (o' : Outcome) : Prop
  | run (mem : Memory) (k : Kernel) (hm : o = .run mem) (hk : o' = .run k) (h : StandsFor mem k)
  | context (mem : Memory) (k : Kernel) (ctx : Context) (hm : o = .context mem ctx)
      (hk : o' = .context k ctx) (h : StandsFor mem k)
  | wait (mem : Memory) (k : Kernel) (status : Word) (hm : o = .wait mem status)
      (hk : o' = .wait k status) (h : StandsFor mem k)
  | halt (mem : Memory) (k : Kernel) (hm : o = .halt mem) (hk : o' = .halt k)
      (h : mem.bus = k.bus)
  | panic (msg : String) (hm : o = .panic msg) (hk : o' = .panic msg)

/-- Both sides go on, from a memory and a state that belong together, or neither
    does. -/
theorem EndsAlike.next {o : MemoryOutcome} {o' : Outcome} (h : EndsAlike o o') :
    (∃ mem k, o.next = some mem ∧ o'.next = some k ∧ StandsFor mem k) ∨
      (o.next = none ∧ o'.next = none) := by
  rcases h with ⟨mem, k, rfl, rfl, h⟩ | ⟨mem, k, ctx, rfl, rfl, h⟩ | ⟨mem, k, status, rfl, rfl, h⟩ |
    ⟨mem, k, rfl, rfl, h⟩ | ⟨msg, rfl, rfl⟩
  · exact Or.inl ⟨mem, k, rfl, rfl, h⟩
  · exact Or.inl ⟨mem, k, rfl, rfl, h⟩
  · exact Or.inl ⟨mem, k, rfl, rfl, h⟩
  · exact Or.inr ⟨rfl, rfl⟩
  · exact Or.inr ⟨rfl, rfl⟩

/-- `wait_or_die`, from states that hold the same lists. -/
theorem waitOrDie_ends {heap : NucleusHeap} (h : StandsFor mem k) (hlists : Keeps heap k')
    (hsched : Scheduled hw k (waitOrDie hw k')) :
    EndsAlike ({ mem with toNucleusHeap := heap }.waitOrDie hw) (waitOrDie hw k') := by
  have hcount : heap.processCount.val = k'.processCount.val :=
    congrArg Counter.val hlists.processCount
  have hsoft : heap.softblockCount.val = k'.softblockCount.val :=
    congrArg Counter.val hlists.softblockCount
  unfold Memory.waitOrDie waitOrDie at *
  simp only [hcount, hsoft]
  by_cases hp : k'.processCount.val = 0
  · rw [if_pos hp] at hsched ⊢
    rw [if_pos hp]
    cases hsched with
    | halt hkept => exact EndsAlike.halt _ _ rfl rfl (h.bus.trans hkept.bus.symm)
  · rw [if_neg hp] at hsched ⊢
    rw [if_neg hp]
    by_cases hs : k'.softblockCount.val = 0
    · rw [if_neg (not_not_intro hs), if_neg (not_not_intro hs)]
      exact EndsAlike.panic _ rfl rfl
    · rw [if_pos hs] at hsched ⊢
      rw [if_pos hs]
      unfold schedulerWait at hsched ⊢
      cases hsched with
      | wait hkept _ _ htod =>
          refine EndsAlike.wait _ _ _ rfl rfl ⟨?_, h.startTod.trans htod.symm,
            h.sup.trans hkept.sup.symm, h.bus.trans hkept.bus.symm⟩
          exact hlists.withGlobals ⟨rfl, rfl, rfl⟩ ⟨rfl, rfl, rfl, rfl, rfl⟩
            (congrArg (fun g : Globals => { g with activeProcess := none }) hlists.globals)

/-- `schedule`, on what a handler hands over. -/
theorem schedule_ends (h : StandsFor mem k) {ctrl : SchedulerControl} (hready : Ready ctrl k) :
    EndsAlike (mem.schedule hw ctrl.pcb ctrl.enqueue) (schedule hw k ctrl.pcb ctrl.enqueue) := by
  have hsched : Scheduled hw k (schedule hw k ctrl.pcb ctrl.enqueue) := schedule_spec hready
  have hlive : ∀ q, ctrl.pcb = some q ∨ k.yieldProcess = some q → q ∉ k.procq .pcbFree := by
    intro q hq
    refine hready.at_.not_free ?_
    rwa [Finset.mem_union, Option.mem_toFinset, Option.mem_toFinset]
  unfold Memory.schedule
  rcases schedule_keeps h.lists ctrl.enqueue (fun q hq => hlive q (Or.inl hq))
    (fun q hq => hlive q (Or.inr hq)) with ⟨p, heap, k', hm, hk, hkeep⟩ | ⟨heap, k', hm, hk, hkeep⟩
  · have hres : schedule hw k ctrl.pcb ctrl.enqueue = schedulerTakeover hw k' p := hk hw
    rw [hres] at hsched ⊢
    rw [hm]
    rcases schedulerTakeover_keeps hkeep hw p with ⟨k₁, htake, hkeep₁, _⟩
    rw [htake] at hsched ⊢
    cases hsched with
    | run hkept _ _ htod =>
        exact EndsAlike.run _ _ rfl rfl ⟨hkeep₁, htod.symm, h.sup.trans hkept.sup.symm,
          h.bus.trans hkept.bus.symm⟩
  · have hres : schedule hw k ctrl.pcb ctrl.enqueue = waitOrDie hw k' := hk hw
    rw [hres] at hsched ⊢
    rw [hm]
    exact waitOrDie_ends h hkeep hsched

/-- A whole exception. -/
theorem exceptionHandler_ends (h : StandsFor mem m.kernel) (hwf : MachineWf L m) (hok : e.Ok L m) :
    EndsAlike (mem.outcome L e) (m.outcome L e) := by
  have hh := handleException_spec hwf hok
  unfold Memory.outcome Memory.exceptionHandler Machine.outcome exceptionHandler
  rcases handleException_follows h hwf hok with ⟨ctrl, mem₁, k₁, hm, hk, h₁⟩ | ⟨msg, hm, hk⟩ |
    ⟨mem₁, k₁, ctx, hm, hk, h₁⟩
  · rw [hk] at hh
    simp only [hm, hk]
    exact schedule_ends h₁ (hh.ready hwf.between)
  · simp only [hm, hk]
    exact EndsAlike.panic msg rfl rfl
  · simp only [hm, hk]
    exact EndsAlike.context mem₁ k₁ ctx rfl rfl h₁

/-! ## Initialisation -/

/-- What `init` leaves in the other data. -/
theorem tables_frame (L : Layout) (b : Boot) : (b.tables L).startTod = b.tod ∧
    (b.tables L).sup = b.sup ∧ (b.tables L).bus = [] := by
  rcases initSemaphores_spec L (initScheduler (b.bss L) b.tod) with ⟨f, heq, _⟩
  have hempty : (initScheduler (b.bss L) b.tod).procq = fun _ => [] := by
    funext h
    simp only [initScheduler, mkEmptyProcQ, Queues.clear, Boot.bss, ite_self]
  rw [Boot.tables, heq,
    initPcbs_eq (k := { initScheduler (b.bss L) b.tod with mem := f }) hempty, initAsl_eq]
  exact ⟨rfl, rfl, rfl⟩

/-- `init`, whatever the pointers were. -/
theorem init_follows {b : Boot} (hload : Loaded mem.toNucleusHeap (b.bss L))
    (hsup : mem.sup = b.sup) (hbus : mem.bus = []) :
    ∃ mem', mem.init L b = .ok mem' ∧ StandsFor mem' (init L b) := by
  rcases tables_frame L b with ⟨htod, hsup', hbus'⟩
  rcases initTables_keeps hload with ⟨heap, hinit, hkeep⟩
  have h : StandsFor { mem with toNucleusHeap := heap, startTod := b.tod } (b.tables L) :=
    ⟨hkeep, htod.symm, hsup.trans hsup'.symm, hbus.trans hbus'.symm⟩
  have hat := at_tables L b
  rcases spawnProcess_keeps h.lists hat.wf PROCESS_PRIO_LOW with ⟨heap₁, hrun, hkeep₁⟩
  have hspawn : (spawnProcess (b.tables L) PROCESS_PRIO_LOW).2.startTod = (b.tables L).startTod ∧
      (spawnProcess (b.tables L) PROCESS_PRIO_LOW).2.sup = (b.tables L).sup ∧
      (spawnProcess (b.tables L) PROCESS_PRIO_LOW).2.bus = (b.tables L).bus := by
    cases hf : (b.tables L).procq .pcbFree with
    | nil =>
        rw [spawnProcess_none (Or.inl rfl) hf]
        exact ⟨rfl, rfl, rfl⟩
    | cons p ps =>
        rcases spawnProcess_some hat (Or.inl rfl) hf with ⟨k', heq, hs, _⟩
        rw [heq]
        exact ⟨hs.startTod, hs.sup, hs.bus⟩
  have h₁ := h.relist hkeep₁ hspawn
  have hinit' : mem.init L b = Memory.initProcess b
      { mem with toNucleusHeap := heap, startTod := b.tod } := by
    unfold Memory.init
    rw [hinit]
    rfl
  have hkernel : init L b = initProcess b (b.tables L) := rfl
  rw [hinit', hkernel]
  unfold Memory.initProcess initProcess
  rw [hrun]
  generalize spawnProcess (b.tables L) PROCESS_PRIO_LOW = r at h₁
  rcases r with ⟨_ | p, k₁⟩
  · exact ⟨_, rfl, h₁⟩
  · exact ⟨_, rfl, h₁.modPcb p (fun _ => rfl)⟩

/-- `main`, up to the first dispatch. -/
theorem main_ends {b : Boot} (hload : Loaded mem.toNucleusHeap (b.bss L)) (hsup : mem.sup = b.sup)
    (hbus : mem.bus = []) : EndsAlike (mem.main L b) (main L b) := by
  rcases init_follows hload hsup hbus with ⟨mem', hinit, h⟩
  unfold Memory.main main
  rw [hinit]
  exact schedule_ends h (init_spec L b).1

end Pandos
