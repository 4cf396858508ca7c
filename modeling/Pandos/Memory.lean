import Pandos.Machine
import Pandos.NucleusHeap

/-!
# The Handlers in Memory

The exception handler of `phase2/src/exception.c` with the system calls of
`os/src/syscall.c`, `pass_up_or_die` of `os/src/puod.c` and the initialisation of
`os/src/init.c`, over the pointers of all lists. `Exception` and `Syscall` have
the same functions on queues.

A function on lists that goes through a null pointer, applies `container_of` to a
sentinel or searches without end leaves its handler `stuck`.

## Main definitions

* `Memory`: The static data of the nucleus, the support structures and the stores
  to device registers.
* `MemoryExit`, `MemoryOutcome`: How a handler leaves, and how an exception ends.
* `syscallHandler`, `interruptHandler`, `exceptionHandler`: The handlers.
* `main`: Initialisation and the first dispatch.
* `Memory.outcome`: How the next exception ends.
-/

namespace Pandos

/-- The nucleus in memory. -/
structure Memory extends NucleusHeap where
  startTod : Int
  /-- Support structures. -/
  sup : Word → Support
  /-- Stores to device registers, newest first. -/
  bus : List (Word × Word)

/-- The ways a handler leaves without returning. -/
inductive MemoryExit
  | panic (msg : String)
  | loadContext (m : Memory) (ctx : Context)
  | trap (m : Memory)
  | stuck

/-- A handler either returns or leaves. -/
abbrev MemoryResult (α : Type) := Except MemoryExit α

/-- How an exception ends. -/
inductive MemoryOutcome
  | run (m : Memory)
  | context (m : Memory) (ctx : Context)
  | trap (m : Memory)
  | wait (m : Memory) (status : Word)
  | halt (m : Memory)
  | panic (msg : String)
  | stuck

namespace Memory

/-- A function on lists that comes to its end. -/
def attempt {α : Type} (m : Memory) : Option (α × NucleusHeap) → MemoryResult (α × Memory)
  | some (x, heap) => .ok (x, { m with toNucleusHeap := heap })
  | none => .error .stuck

/-- An operation on a semaphore, which may panic. -/
def operate {α : Type} (m : Memory) :
    Option (Except String (α × NucleusHeap)) → MemoryResult (α × Memory)
  | some (.ok (x, heap)) => .ok (x, { m with toNucleusHeap := heap })
  | some (.error msg) => .error (.panic msg)
  | none => .error .stuck

/-- Change the fields of one block. -/
def modPcb (m : Memory) (p : PcbId) (f : PcbFields PcbId → PcbFields PcbId) : Memory :=
  { m with toNucleusHeap := m.toNucleusHeap.modPcb p f }

/-! ## `puod.c` and `syscall.c` -/

/-- `pass_up_or_die`. -/
def passUpOrDie (hw : Hw) (m : Memory) (type : Fin 2) :
    MemoryResult (SchedulerControl × Memory) :=
  match m.activeProcess with
  | none => .ok (CONTROL_BLOCK, m)
  | some p =>
    match (m.pcbs.pcb p).pSupport with
    | some s =>
      let sup := { m.sup s with
        supExceptState := fun t => if t = type then hw.bios else (m.sup s).supExceptState t }
      .error (.loadContext { m with sup := fun a => if a = s then sup else m.sup a }
        (sup.supExceptContext type))
    | none => do
      let (_, m) ← m.attempt (m.killProgeny killFuel p)
      return (CONTROL_BLOCK, m)

/-- `CONTROL_RESCHEDULE`. -/
def controlReschedule (m : Memory) : SchedulerControl :=
  { pcb := m.activeProcess, enqueue := true }

/-- Store the result of a system call in `reg_v0` of the caller. -/
def setResult (m : Memory) (p : PcbId) (v : Word) : Memory :=
  m.modPcb p (fun t => { t with pS := t.pS.setReg .v0 v })

/-- `find_process`. -/
def findProcess (m : Memory) (pid : Word) : Option PcbId :=
  if h : (maskPidId pid).toNat < MAX_PROC then
    if (m.pcbs.pcb ⟨(maskPidId pid).toNat, h⟩).pPid ≠ pid then none
    else some ⟨(maskPidId pid).toNat, h⟩
  else none

/-- `syscall_create_process`. -/
def syscallCreateProcess (L : Layout) (hw : Hw) (m : Memory) (p : PcbId) :
    MemoryResult (SchedulerControl × Memory) :=
  let regs := (m.pcbs.pcb p).pS.gpr
  if (regs .a2 ≠ PROCESS_PRIO_LOW ∧ regs .a2 ≠ PROCESS_PRIO_HIGH) ∨ L.ptr (regs .a1) = none then
    m.passUpOrDie hw GENERALEXCEPT
  else do
    let (c, m) ← m.attempt (m.spawnProcess (regs .a2))
    match c with
    | none => return (CONTROL_PRESERVE m.activeProcess, m.setResult p NULL_PID)
    | some c =>
      let m := m.modPcb c (fun t =>
        { t with pSupport := L.ptr (regs .a3), pS := hw.readState (regs .a1) })
      let (_, m) ← m.attempt ((m.pcbs.insertChild listRounds (some p) (some c)).map
        (fun pcbs => ((), { m.toNucleusHeap with pcbs := pcbs })))
      return (CONTROL_PRESERVE m.activeProcess, m.setResult p (m.pcbs.pcb c).pPid)

/-- `syscall_terminate_process`. -/
def syscallTerminateProcess (L : Layout) (hw : Hw) (m : Memory) (p : PcbId) :
    MemoryResult (SchedulerControl × Memory) :=
  let pid := (m.pcbs.pcb p).pS.gpr .a1
  if pid = L.null then m.passUpOrDie hw GENERALEXCEPT
  else
    match if pid = 0 then some p else m.findProcess pid with
    | none => m.passUpOrDie hw GENERALEXCEPT
    | some target => do
      let (r, m) ← m.attempt (m.killProgeny killFuel target)
      if r ≠ 0 then throw (.panic "Kill progeny failed!")
      return (if pid = 0 ∨ (m.pcbs.pcb p).pPid = NULL_PID then CONTROL_BLOCK
        else m.controlReschedule, m)

/-- `syscall_passeren`. -/
def syscallPasseren (L : Layout) (hw : Hw) (m : Memory) (p : PcbId) :
    MemoryResult (SchedulerControl × Memory) :=
  match L.ptr ((m.pcbs.pcb p).pS.gpr .a1) with
  | none => m.passUpOrDie hw GENERALEXCEPT
  | some a => m.operate (m.P (some a) (some p))

/-- `syscall_verhogen`. -/
def syscallVerhogen (L : Layout) (hw : Hw) (m : Memory) (p : PcbId) :
    MemoryResult (SchedulerControl × Memory) :=
  match L.ptr ((m.pcbs.pcb p).pS.gpr .a1) with
  | none => m.passUpOrDie hw GENERALEXCEPT
  | some a => do
    let (r, m) ← m.operate (m.V (some a))
    return (if r = none then CONTROL_BLOCK else m.controlReschedule, m)

/-- `get_iodev` reads no memory. -/
def getIodev (L : Layout) (cmdAddr : Word) : MemoryResult Iodev :=
  match Pandos.getIodev L cmdAddr with
  | .ok dev => .ok dev
  | .error (.panic msg) => .error (.panic msg)
  | .error _ => .error .stuck

/-- `syscall_do_io`. -/
def syscallDoIo (L : Layout) (hw : Hw) (m : Memory) (p : PcbId) :
    MemoryResult (SchedulerControl × Memory) :=
  let cmdAddr := (m.pcbs.pcb p).pS.gpr .a1
  let cmdValue := (m.pcbs.pcb p).pS.gpr .a2
  match L.ptr cmdAddr with
  | none => m.passUpOrDie hw GENERALEXCEPT
  | some _ => do
    let dev ← getIodev L cmdAddr
    if L.ptr dev.semaphore = none then m.passUpOrDie hw GENERALEXCEPT
    else do
      let (head, _) ← m.attempt ((m.headBlocked (some dev.semaphore)).map
        (fun head => (head, m.toNucleusHeap)))
      if head ≠ none then m.passUpOrDie hw GENERALEXCEPT
      else if (m.mem dev.semaphore).toInt > 0 then
        throw (.panic "A device syncronization semaphore has a value > 0")
      else do
        let (ctrl, m) ← m.operate (m.P (some dev.semaphore) (some p))
        let m := m.modPcb p (fun t =>
          { t with pS := { t.pS with status := ioStatus t.pPrio t.pS.status dev.interruptLine } })
        if Aligned cmdAddr then return (ctrl, { m with bus := (cmdAddr, cmdValue) :: m.bus })
        else throw (.trap m)

/-- `syscall_get_cpu_time`. -/
def syscallGetCpuTime (m : Memory) (p : PcbId) : MemoryResult (SchedulerControl × Memory) :=
  .ok (m.controlReschedule, m.setResult p (BitVec.ofInt 32 (m.pcbs.pcb p).pTime))

/-- `syscall_wait_for_clock`. -/
def syscallWaitForClock (L : Layout) (m : Memory) (p : PcbId) :
    MemoryResult (SchedulerControl × Memory) :=
  m.operate (m.P (some (getTimerSemaphore L)) (some p))

/-- `syscall_get_support_data`. -/
def syscallGetSupportData (L : Layout) (m : Memory) (p : PcbId) :
    MemoryResult (SchedulerControl × Memory) :=
  .ok (m.controlReschedule, m.setResult p (L.word (m.pcbs.pcb p).pSupport))

/-- `syscall_get_process_id`. -/
def syscallGetProcessId (hw : Hw) (m : Memory) (p : PcbId) :
    MemoryResult (SchedulerControl × Memory) :=
  let parent := (m.pcbs.pcb p).pS.gpr .a1
  if parent ≠ 0 ∧ parent ≠ 1 then m.passUpOrDie hw GENERALEXCEPT
  else
    let pid :=
      if parent = 0 then (m.pcbs.pcb p).pPid
      else match (m.pcbs.pcb p).pParent with
        | some q => (m.pcbs.pcb q).pPid
        | none => 0
    .ok (m.controlReschedule, m.setResult p pid)

/-- `syscall_yield`. -/
def syscallYield (m : Memory) : MemoryResult (SchedulerControl × Memory) :=
  .ok (CONTROL_BLOCK, { m with yieldProcess := m.activeProcess })

/-- `syscall_handler`, for the active process `p`. -/
def syscallHandler (L : Layout) (hw : Hw) (m : Memory) (p : PcbId) :
    MemoryResult (SchedulerControl × Memory) :=
  let id := ((m.pcbs.pcb p).pS.gpr .a0).toInt
  if id ≤ 0 ∧ isUserMode (m.pcbs.pcb p).pS then
    let m := m.modPcb p (fun t => { t with
      pS := { t.pS with cause := causeReservedInstruction (causeClean t.pS.cause) } })
    m.passUpOrDie hw GENERALEXCEPT
  else if id = CREATEPROCESS then m.syscallCreateProcess L hw p
  else if id = TERMPROCESS then m.syscallTerminateProcess L hw p
  else if id = PASSEREN then m.syscallPasseren L hw p
  else if id = VERHOGEN then m.syscallVerhogen L hw p
  else if id = DOIO then m.syscallDoIo L hw p
  else if id = GETTIME then m.syscallGetCpuTime p
  else if id = CLOCKWAIT then m.syscallWaitForClock L p
  else if id = GETSUPPORTPTR then m.syscallGetSupportData L p
  else if id = GETPROCESSID then m.syscallGetProcessId hw p
  else if id = YIELD then m.syscallYield
  else m.passUpOrDie hw GENERALEXCEPT

/-! ## `exception.c` -/

/-- `interrupt_ipi`. -/
def interruptIpi (m : Memory) : MemoryResult (SchedulerControl × Memory) :=
  .ok (CONTROL_PRESERVE m.activeProcess, m)

/-- `interrupt_local_timer`. -/
def interruptLocalTimer (m : Memory) : MemoryResult (SchedulerControl × Memory) :=
  .ok (m.controlReschedule, m)

/-- The loop of `interrupt_timer`, with a bound on its rounds. -/
def drainTimer (L : Layout) : Nat → Memory → MemoryResult Memory
  | 0, _ => .error .stuck
  | fuel + 1, m =>
    if m.mem (getTimerSemaphore L) ≠ 1 then do
      let (_, m) ← m.operate (m.V (some (getTimerSemaphore L)))
      drainTimer L fuel m
    else .ok m

/-- `interrupt_timer`. -/
def interruptTimer (L : Layout) (m : Memory) : MemoryResult (SchedulerControl × Memory) := do
  let m ← drainTimer L drainFuel m
  return (CONTROL_PRESERVE m.activeProcess, m)

/-- `return_status`. -/
def returnStatus (m : Memory) (p : Option PcbId) (status : Word) :
    MemoryResult (SchedulerControl × Memory) :=
  if p = m.activeProcess then
    match m.activeProcess with
    | none => .error (.panic "No active process (Interrupt Generic)\n")
    | some q => .ok (m.controlReschedule, m.setResult q status)
  else
    match p with
    | none => .error .stuck
    | some q => .ok (CONTROL_PRESERVE m.activeProcess, m.setResult q status)

/-- `get_semaphore` reads no memory. -/
def getSemaphore (L : Layout) (intL : Int) (devN : Nat) (isW : Bool) : MemoryResult Word :=
  match Pandos.getSemaphore L intL devN isW with
  | .ok sem => .ok sem
  | .error (.panic msg) => .error (.panic msg)
  | .error _ => .error .stuck

/-- A store to a device register. -/
def send (m : Memory) (a v : Word) : Memory := { m with bus := (a, v) :: m.bus }

/-- `interrupt_generic`. -/
def interruptGeneric (L : Layout) (hw : Hw) (m : Memory) :
    MemoryResult (SchedulerControl × Memory) := do
  let il := genericLine hw.cause
  let devN := findDeviceNumber (hw.bitmap il)
  let sem ← getSemaphore L il devN false
  let status := (hw.devreg il devN).status
  if status &&& TERMSTATMASK = DEV_STATUS_NOTINSTALLED then
    throw (.panic "Device is not installed!\n")
  else do
    let (p, m) ← m.operate (m.V (some sem))
    let (ctrl, m) ← m.returnStatus p status
    return (ctrl, m.send (devRegAddr il devN + 4) DEV_C_ACK)

/-- The end of a terminal operation: the process `V` released gets the status,
    the device its acknowledgement. -/
def terminalDone (m : Memory) (p : Option PcbId) (status command : Word) :
    MemoryResult (SchedulerControl × Memory) := do
  let (ctrl, m) ←
    match p with
    | none =>
      match m.activeProcess with
      | none => throw (.panic "No active process (Interrupt Terminal)\n")
      | some q => pure (m.controlReschedule, m.setResult q status)
    | some q =>
      if m.activeProcess = some q then pure (m.controlReschedule, m.setResult q status)
      else pure (CONTROL_PRESERVE m.activeProcess, m.setResult q status)
  return (ctrl, m.send command DEV_C_ACK)

/-- `interrupt_terminal`: the transmitter is looked at first, then the
    receiver. -/
def interruptTerminal (L : Layout) (hw : Hw) (m : Memory) :
    MemoryResult (SchedulerControl × Memory) := do
  let devN := findDeviceNumber (hw.bitmap IL_TERMINAL)
  let reg := hw.devreg IL_TERMINAL devN
  let base := devRegAddr IL_TERMINAL devN
  let transm ← getSemaphore L IL_TERMINAL devN true
  let recv ← getSemaphore L IL_TERMINAL devN false
  if reg.transmStatus &&& TERMSTATMASK = DEV_STATUS_NOTINSTALLED then
    throw (.panic "Device is not installed!\n")
  else if reg.transmStatus &&& TERMSTATMASK = DEV_STATUS_TERMINAL_OK then do
    let (p, m) ← m.operate (m.V (some transm))
    m.terminalDone p reg.transmStatus (base + 12)
  else if reg.status &&& TERMSTATMASK = DEV_STATUS_NOTINSTALLED then
    throw (.panic "Device is not installed!\n")
  else if reg.status &&& TERMSTATMASK = DEV_STATUS_TERMINAL_OK then do
    let (p, m) ← m.operate (m.V (some recv))
    m.terminalDone p reg.status (base + 4)
  else throw (.panic "Unexpected interrupt from terminal device %d\n")

/-- `interrupt_handler`. -/
def interruptHandler (L : Layout) (hw : Hw) (m : Memory) :
    MemoryResult (SchedulerControl × Memory) :=
  let cause := hw.cause
  if cause &&& CAUSE_IP IL_IPI ≠ 0 then m.interruptIpi
  else if cause &&& CAUSE_IP IL_CPUTIMER ≠ 0 then m.interruptLocalTimer
  else if cause &&& CAUSE_IP IL_TIMER ≠ 0 then m.interruptTimer L
  else if cause &&& (CAUSE_IP IL_DISK ||| CAUSE_IP IL_FLASH ||| CAUSE_IP IL_ETHERNET |||
      CAUSE_IP IL_PRINTER) ≠ 0 then m.interruptGeneric L hw
  else if cause &&& CAUSE_IP IL_TERMINAL ≠ 0 then m.interruptTerminal L hw
  else .ok (m.controlReschedule, m)

/-- The charge for the time since `start_tod` and the copy of the saved state,
    at the entry of `exception_handler`. -/
def chargeAndSave (hw : Hw) (m : Memory) : Memory :=
  match m.activeProcess with
  | none => m
  | some p => m.modPcb p (fun t =>
      { t with pTime := t.pTime + (hw.todEntry - m.startTod), pS := hw.bios })

/-- What follows a system call that returned. -/
def afterSyscall (hw : Hw) (m : Memory) (p : PcbId) : Memory :=
  m.modPcb p (fun t => { t with
    pTime := t.pTime + (hw.todReturn - m.startTod)
    pS := { t.pS.setReg .t9 (t.pS.gpr .t9 + WORD_SIZE) with pcEpc := t.pS.pcEpc + WORD_SIZE } })

/-- The system call branch of `exception_handler`. -/
def syscallException (L : Layout) (hw : Hw) (m : Memory) :
    MemoryResult (SchedulerControl × Memory) :=
  match m.activeProcess with
  | none => .error (.panic "A syscall happened while active_process was NULL\n")
  | some p => do
    let (ctrl, m) ← syscallHandler L hw { m with startTod := hw.todSyscall } p
    return (ctrl, m.afterSyscall hw p)

/-- The body of `exception_handler` up to the call of `schedule`. -/
def handleException (L : Layout) (hw : Hw) (m : Memory) :
    MemoryResult (SchedulerControl × Memory) :=
  let m := m.chargeAndSave hw
  match excClass hw.cause with
  | .interrupt => m.interruptHandler L hw
  | .tlb => m.passUpOrDie hw PGFAULTEXCEPT
  | .syscall => m.syscallException L hw
  | .other => m.passUpOrDie hw GENERALEXCEPT

/-! ## `scheduler.c` -/

/-- `scheduler_takeover` for the active process. -/
def schedulerTakeover (hw : Hw) (m : Memory) (p : PcbId) : MemoryOutcome :=
  .run { m with
    toNucleusHeap := m.toNucleusHeap.schedulerTakeover p
    startTod := hw.todTakeover }

/-- `scheduler_wait` up to `WAIT`. -/
def schedulerWait (hw : Hw) (m : Memory) : MemoryOutcome :=
  .wait { m with activeProcess := none } (statusIlOnAll (statusInterruptsOnNucleus hw.status))

/-- `wait_or_die`. -/
def waitOrDie (hw : Hw) (m : Memory) : MemoryOutcome :=
  if m.processCount.val = 0 then .halt m
  else if m.softblockCount.val ≠ 0 then m.schedulerWait hw
  else .panic "Deadlock detected\n"

/-- `schedule`. -/
def schedule (hw : Hw) (m : Memory) (pcb : Option PcbId) (enqueue : Bool) : MemoryOutcome :=
  match m.attempt (m.toNucleusHeap.schedule pcb enqueue) with
  | .ok (some p, m) => m.schedulerTakeover hw p
  | .ok (none, m) => m.waitOrDie hw
  | .error _ => .stuck

/-- `exception_handler`. -/
def exceptionHandler (L : Layout) (hw : Hw) (m : Memory) : MemoryOutcome :=
  match m.handleException L hw with
  | .ok (ctrl, m) => m.schedule hw ctrl.pcb ctrl.enqueue
  | .error (.panic msg) => .panic msg
  | .error (.loadContext m ctx) => .context m ctx
  | .error (.trap m) => .trap m
  | .error .stuck => .stuck

/-! ## `init.c` -/

/-- `init_process`. -/
def initProcess (b : Boot) (m : Memory) : MemoryResult Memory := do
  let (p, m) ← m.attempt (m.spawnProcess PROCESS_PRIO_LOW)
  match p with
  | none => return m
  | some p =>
    return m.modPcb p (fun t => { t with pS :=
      { ((t.pS.setReg .sp b.ramTop).setReg .t9 b.initPc) with
        pcEpc := b.initPc
        status := statusKernelModeOnNucleus (statusInterruptsOnProcess t.pS.status) } })

/-- `init`. -/
def init (L : Layout) (b : Boot) (m : Memory) : MemoryResult Memory := do
  let (_, m) ← m.attempt ((m.initTables L).map (fun heap => ((), heap)))
  initProcess b { m with startTod := b.tod }

/-- `main`. -/
def main (L : Layout) (b : Boot) (m : Memory) : MemoryOutcome :=
  match m.init L b with
  | .ok m => m.schedule b.hw none false
  | .error _ => .stuck

/-! ## Runs -/

/-- The state the exception handler starts from. -/
def entry (m : Memory) (e : Event) : Memory :=
  { m with mem := e.mem, sup := e.sup, bus := [] }

/-- How the next exception ends. -/
def outcome (L : Layout) (m : Memory) (e : Event) : MemoryOutcome :=
  (m.entry e).exceptionHandler L e.hw

end Memory

/-- The memory in which an exception leaves the nucleus, if it goes on. -/
def MemoryOutcome.next : MemoryOutcome → Option Memory
  | .run m => some m
  | .context m _ => some m
  | .wait m _ => some m
  | _ => none

end Pandos
