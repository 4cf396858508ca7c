import Pandos.Syscall

/-!
# Exceptions

The exception handler of `phase2/src/exception.c` with its interrupt handlers,
and the initialisation of `os/src/init.c` and `phase2/src/main.c`.

## Main definitions

* `interruptHandler`: The interrupt of highest priority is handled.
* `exceptionHandler`: One exception, from the saved state to its `Outcome`.
* `main`: Initialisation and the first dispatch.
-/

namespace Pandos

/-- The loop of `find_device_number`. -/
def findDeviceNumberLoop : Nat → Word → Nat → Nat
  | 0, _, deviceN => deviceN
  | n + 1, val, deviceN =>
    if val > 1 then findDeviceNumberLoop n (val >>> 1) (deviceN + 1) else deviceN

/-- `find_device_number`: the position of the highest bit of a bitmap. -/
def findDeviceNumber (bitmap : Word) : Nat := findDeviceNumberLoop N_DEV_PER_IL bitmap 0

/-- `interrupt_ipi`. -/
def interruptIpi (k : Kernel) : Result (SchedulerControl × Kernel) :=
  .ok (CONTROL_PRESERVE k.activeProcess, k)

/-- `interrupt_local_timer`. -/
def interruptLocalTimer (k : Kernel) : Result (SchedulerControl × Kernel) :=
  .ok (CONTROL_RESCHEDULE k, k)

/-- The loop of `interrupt_timer`, with a bound on its rounds. -/
def drainTimer (L : Layout) : Nat → Kernel → Result Kernel
  | 0, _ => .error .diverge
  | fuel + 1, k =>
    if k.mem (getTimerSemaphore L) ≠ 1 then
      match V k (some (getTimerSemaphore L)) with
      | .error e => .error e
      | .ok (_, k) => drainTimer L fuel k
    else .ok k

/-- Rounds that suffice to drain a timer semaphore that is zero or one. -/
def drainFuel : Nat := MAX_PROC + 2

/-- `interrupt_timer`. -/
def interruptTimer (L : Layout) (k : Kernel) : Result (SchedulerControl × Kernel) :=
  match drainTimer L drainFuel k with
  | .error e => .error e
  | .ok k => .ok (CONTROL_PRESERVE k.activeProcess, k)

/-- `return_status`. -/
def returnStatus (k : Kernel) (p : Option PcbId) (status : Word) :
    Result (SchedulerControl × Kernel) :=
  if p = k.activeProcess then
    match k.activeProcess with
    | none => .error (.panic "No active process (Interrupt Generic)\n")
    | some q => .ok (CONTROL_RESCHEDULE k, setResult k q status)
  else
    match p with
    | none => .error .fault
    | some q => .ok (CONTROL_PRESERVE k.activeProcess, setResult k q status)

/-- The line `interrupt_generic` serves: the lowest pending one. -/
def genericLine (cause : Word) : Nat :=
  match [IL_DISK, IL_FLASH, IL_ETHERNET, IL_PRINTER].find?
      (fun i => cause &&& CAUSE_IP i != 0) with
  | some i => i
  | none => IL_DISK

/-- `interrupt_generic`. -/
def interruptGeneric (L : Layout) (hw : Hw) (k : Kernel) : Result (SchedulerControl × Kernel) :=
  let il := genericLine hw.cause
  let devN := findDeviceNumber (hw.bitmap il)
  match getSemaphore L il devN false with
  | .error e => .error e
  | .ok sem =>
    let status := (hw.devreg il devN).status
    if status &&& TERMSTATMASK = DEV_STATUS_NOTINSTALLED then
      .error (.panic "Device is not installed!\n")
    else
      match V k (some sem) with
      | .error e => .error e
      | .ok (p, k) =>
        match returnStatus k p status with
        | .error e => .error e
        | .ok (ctrl, k) =>
            .ok (ctrl, { k with bus := (devRegAddr il devN + 4, DEV_C_ACK) :: k.bus })

/-- The end of a terminal operation: the process `V` released gets the status,
    the device its acknowledgement. -/
def terminalDone (k : Kernel) (p : Option PcbId) (status command : Word) :
    Result (SchedulerControl × Kernel) :=
  let r : Result (SchedulerControl × Kernel) :=
    match p with
    | none =>
      match k.activeProcess with
      | none => .error (.panic "No active process (Interrupt Terminal)\n")
      | some q => .ok (CONTROL_RESCHEDULE k, setResult k q status)
    | some q =>
      if k.activeProcess = some q then .ok (CONTROL_RESCHEDULE k, setResult k q status)
      else .ok (CONTROL_PRESERVE k.activeProcess, setResult k q status)
  match r with
  | .error e => .error e
  | .ok (ctrl, k) => .ok (ctrl, { k with bus := (command, DEV_C_ACK) :: k.bus })

/-- `interrupt_terminal`: the transmitter is looked at first, then the
    receiver. -/
def interruptTerminal (L : Layout) (hw : Hw) (k : Kernel) : Result (SchedulerControl × Kernel) :=
  let devN := findDeviceNumber (hw.bitmap IL_TERMINAL)
  let reg := hw.devreg IL_TERMINAL devN
  let base := devRegAddr IL_TERMINAL devN
  match getSemaphore L IL_TERMINAL devN true, getSemaphore L IL_TERMINAL devN false with
  | .ok transm, .ok recv =>
    if reg.transmStatus &&& TERMSTATMASK = DEV_STATUS_NOTINSTALLED then
      .error (.panic "Device is not installed!\n")
    else if reg.transmStatus &&& TERMSTATMASK = DEV_STATUS_TERMINAL_OK then
      match V k (some transm) with
      | .error e => .error e
      | .ok (p, k) => terminalDone k p reg.transmStatus (base + 12)
    else if reg.status &&& TERMSTATMASK = DEV_STATUS_NOTINSTALLED then
      .error (.panic "Device is not installed!\n")
    else if reg.status &&& TERMSTATMASK = DEV_STATUS_TERMINAL_OK then
      match V k (some recv) with
      | .error e => .error e
      | .ok (p, k) => terminalDone k p reg.status (base + 4)
    else .error (.panic "Unexpected interrupt from terminal device %d\n")
  | .error e, _ => .error e
  | _, .error e => .error e

/-- `interrupt_handler`. -/
def interruptHandler (L : Layout) (hw : Hw) (k : Kernel) : Result (SchedulerControl × Kernel) :=
  let cause := hw.cause
  if cause &&& CAUSE_IP IL_IPI ≠ 0 then interruptIpi k
  else if cause &&& CAUSE_IP IL_CPUTIMER ≠ 0 then interruptLocalTimer k
  else if cause &&& CAUSE_IP IL_TIMER ≠ 0 then interruptTimer L k
  else if cause &&& (CAUSE_IP IL_DISK ||| CAUSE_IP IL_FLASH ||| CAUSE_IP IL_ETHERNET |||
      CAUSE_IP IL_PRINTER) ≠ 0 then interruptGeneric L hw k
  else if cause &&& CAUSE_IP IL_TERMINAL ≠ 0 then interruptTerminal L hw k
  else .ok (CONTROL_RESCHEDULE k, k)

/-- The charge for the time since `start_tod` and the copy of the saved state,
    at the entry of `exception_handler`. -/
def chargeAndSave (hw : Hw) (k : Kernel) : Kernel :=
  match k.activeProcess with
  | none => k
  | some p => k.modPcb p (fun t =>
      { t with pTime := t.pTime + (hw.todEntry - k.startTod), pS := hw.bios })

/-- What follows a system call that returned: its time is charged and the
    program counter moves past the instruction. -/
def afterSyscall (hw : Hw) (k : Kernel) (p : PcbId) : Kernel :=
  k.modPcb p (fun t => { t with
    pTime := t.pTime + (hw.todReturn - k.startTod)
    pS := { t.pS.setReg .t9 (t.pS.gpr .t9 + WORD_SIZE) with pcEpc := t.pS.pcEpc + WORD_SIZE } })

/-- The system call branch of `exception_handler`. -/
def syscallException (L : Layout) (hw : Hw) (k : Kernel) : Result (SchedulerControl × Kernel) :=
  match k.activeProcess with
  | none => .error (.panic "A syscall happened while active_process was NULL\n")
  | some p =>
    match syscallHandler L hw { k with startTod := hw.todSyscall } p with
    | .error e => .error e
    | .ok (ctrl, k) => .ok (ctrl, afterSyscall hw k p)

/-- The exception codes `exception_handler` tells apart. -/
inductive ExcClass
  | interrupt
  | tlb
  | syscall
  | other
  deriving DecidableEq

/-- The `switch` of `exception_handler`. -/
def excClass (cause : Word) : ExcClass :=
  let code := CAUSE_GET_EXCCODE cause
  if code = 0 then .interrupt
  else if code = 1 ∨ code = 2 ∨ code = 3 then .tlb
  else if code = 8 then .syscall
  else .other

/-- The body of `exception_handler` up to the call of `schedule`. -/
def handleException (L : Layout) (hw : Hw) (k : Kernel) : Result (SchedulerControl × Kernel) :=
  let k := chargeAndSave hw k
  match excClass hw.cause with
  | .interrupt => interruptHandler L hw k
  | .tlb => passUpOrDie hw k PGFAULTEXCEPT
  | .syscall => syscallException L hw k
  | .other => passUpOrDie hw k GENERALEXCEPT

/-- `exception_handler`. -/
def exceptionHandler (L : Layout) (hw : Hw) (k : Kernel) : Outcome :=
  match handleException L hw k with
  | .ok (ctrl, k) => schedule hw k ctrl.pcb ctrl.enqueue
  | .error (.panic msg) => .panic msg
  | .error (.loadContext k ctx) => .context k ctx
  | .error (.trap k) => .trap k
  | .error .fault => .fault
  | .error .diverge => .diverge

/-! ## Initialisation -/

/-- What the machine provides at boot: the content of memory, the clock, the
    first address behind RAM and the entry point of the first process. -/
structure Boot where
  mem : Word → Word
  sup : Word → Support
  tod : Int
  ramTop : Word
  initPc : Word
  hw : Hw

/-- The zeroed static data of the nucleus. The zero word need not be the null
    pointer; the link fields of a block are reset before anything reads them. -/
def Boot.bss (L : Layout) (b : Boot) : Kernel :=
  { procq := fun _ => []
    child := fun _ => []
    pcb := fun _ => { nullPcbRecord with pSemAdd := L.ptr 0, pSupport := L.ptr 0 }
    slink := fun _ => []
    sKey := fun _ => 0
    processCount := Counter.zero
    softblockCount := Counter.zero
    activeProcess := none
    yieldProcess := none
    startTod := 0
    recycleCount := 0
    mem := b.mem
    sup := b.sup
    bus := [] }

/-- `init_process`. The first process can always be allocated. -/
def initProcess (b : Boot) (k : Kernel) : Kernel :=
  match spawnProcess k PROCESS_PRIO_LOW with
  | (none, k) => k
  | (some p, k) =>
    k.modPcb p (fun t => { t with pS :=
      { ((t.pS.setReg .sp b.ramTop).setReg .t9 b.initPc) with
        pcEpc := b.initPc
        status := statusKernelModeOnNucleus (statusInterruptsOnProcess t.pS.status) } })

/-- `init`. -/
def init (L : Layout) (b : Boot) : Kernel :=
  initProcess b (initAsl (initPcbs (initSemaphores L (initScheduler (b.bss L) b.tod))))

/-- `main`: initialisation and the first dispatch. -/
def main (L : Layout) (b : Boot) : Outcome := schedule b.hw (init L b) none false

end Pandos
