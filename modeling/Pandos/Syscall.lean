import Pandos.Semaphores

/-!
# System Calls

`pass_up_or_die` of `os/src/puod.c` and the handlers of `os/src/syscall.c`.
Every handler works on the active process, which `syscall_handler` has checked
to exist; it reads its arguments from the registers saved in the control block
and stores its result there.
-/

namespace Pandos

/-- `pass_up_or_die`. -/
def passUpOrDie (hw : Hw) (k : Kernel) (type : Fin 2) : Result (SchedulerControl × Kernel) :=
  match k.activeProcess with
  | none => .ok (CONTROL_BLOCK, k)
  | some p =>
    match (k.pcb p).pSupport with
    | some s =>
      let sup := { k.sup s with
        supExceptState := fun t => if t = type then hw.bios else (k.sup s).supExceptState t }
      .error (.loadContext { k with sup := fun a => if a = s then sup else k.sup a }
        (sup.supExceptContext type))
    | none =>
      match killProgeny killFuel k p with
      | none => .error .diverge
      | some (_, k) => .ok (CONTROL_BLOCK, k)

/-- Store the result of a system call in `reg_v0` of the caller. -/
def setResult (k : Kernel) (p : PcbId) (v : Word) : Kernel :=
  k.modPcb p (fun t => { t with pS := t.pS.setReg .v0 v })

/-- `syscall_create_process`. -/
def syscallCreateProcess (L : Layout) (hw : Hw) (k : Kernel) (p : PcbId) :
    Result (SchedulerControl × Kernel) :=
  let regs := (k.pcb p).pS.gpr
  if (regs .a2 ≠ PROCESS_PRIO_LOW ∧ regs .a2 ≠ PROCESS_PRIO_HIGH) ∨ L.ptr (regs .a1) = none then
    passUpOrDie hw k GENERALEXCEPT
  else
    match spawnProcess k (regs .a2) with
    | (none, k) => .ok (CONTROL_PRESERVE k.activeProcess, setResult k p NULL_PID)
    | (some c, k) =>
      let k := k.modPcb c (fun t =>
        { t with pSupport := L.ptr (regs .a3), pS := hw.readState (regs .a1) })
      let k := insertChild k p c
      .ok (CONTROL_PRESERVE k.activeProcess, setResult k p (k.pcb c).pPid)

/-- `syscall_terminate_process`. -/
def syscallTerminateProcess (L : Layout) (hw : Hw) (k : Kernel) (p : PcbId) :
    Result (SchedulerControl × Kernel) :=
  let pid := (k.pcb p).pS.gpr .a1
  if pid = L.null then passUpOrDie hw k GENERALEXCEPT
  else
    match if pid = 0 then some p else findProcess k pid with
    | none => passUpOrDie hw k GENERALEXCEPT
    | some target =>
      match killProgeny killFuel k target with
      | none => .error .diverge
      | some (0, k) =>
        .ok (if pid = 0 ∨ (k.pcb p).pPid = NULL_PID then CONTROL_BLOCK else CONTROL_RESCHEDULE k, k)
      | some (_ + 1, _) => .error (.panic "Kill progeny failed!")

/-- `syscall_passeren`. -/
def syscallPasseren (L : Layout) (hw : Hw) (k : Kernel) (p : PcbId) :
    Result (SchedulerControl × Kernel) :=
  match L.ptr ((k.pcb p).pS.gpr .a1) with
  | none => passUpOrDie hw k GENERALEXCEPT
  | some a => P k (some a) (some p)

/-- `syscall_verhogen`. -/
def syscallVerhogen (L : Layout) (hw : Hw) (k : Kernel) (p : PcbId) :
    Result (SchedulerControl × Kernel) :=
  match L.ptr ((k.pcb p).pS.gpr .a1) with
  | none => passUpOrDie hw k GENERALEXCEPT
  | some a =>
    match V k (some a) with
    | .error e => .error e
    | .ok (none, k) => .ok (CONTROL_BLOCK, k)
    | .ok (some _, k) => .ok (CONTROL_RESCHEDULE k, k)

/-- The status of a process that waits for a device: the lines it has to
    listen on are enabled. -/
def ioStatus (prio status : Word) (line : Int) : Word :=
  if prio ≠ 0 then statusIlOn status line.toNat else statusIlOnAll status

/-- `syscall_do_io`. -/
def syscallDoIo (L : Layout) (hw : Hw) (k : Kernel) (p : PcbId) :
    Result (SchedulerControl × Kernel) :=
  let cmdAddr := (k.pcb p).pS.gpr .a1
  let cmdValue := (k.pcb p).pS.gpr .a2
  match L.ptr cmdAddr with
  | none => passUpOrDie hw k GENERALEXCEPT
  | some _ =>
    match getIodev L cmdAddr with
    | .error e => .error e
    | .ok dev =>
      if L.ptr dev.semaphore = none ∨ headBlocked k (some dev.semaphore) ≠ none then
        passUpOrDie hw k GENERALEXCEPT
      else if (k.mem dev.semaphore).toInt > 0 then
        .error (.panic "A device syncronization semaphore has a value > 0")
      else
        match P k (some dev.semaphore) (some p) with
        | .error e => .error e
        | .ok (ctrl, k) =>
          let k := k.modPcb p (fun t =>
            { t with pS := { t.pS with status := ioStatus t.pPrio t.pS.status dev.interruptLine } })
          -- A word is stored at a multiple of four, or not at all.
          if Aligned cmdAddr then .ok (ctrl, { k with bus := (cmdAddr, cmdValue) :: k.bus })
          else .error (.trap k)

/-- `syscall_get_cpu_time`. -/
def syscallGetCpuTime (k : Kernel) (p : PcbId) : Result (SchedulerControl × Kernel) :=
  .ok (CONTROL_RESCHEDULE k, setResult k p (BitVec.ofInt 32 (k.pcb p).pTime))

/-- `syscall_wait_for_clock`. -/
def syscallWaitForClock (L : Layout) (k : Kernel) (p : PcbId) :
    Result (SchedulerControl × Kernel) :=
  P k (some (getTimerSemaphore L)) (some p)

/-- `syscall_get_support_data`. -/
def syscallGetSupportData (L : Layout) (k : Kernel) (p : PcbId) :
    Result (SchedulerControl × Kernel) :=
  .ok (CONTROL_RESCHEDULE k, setResult k p (L.word (k.pcb p).pSupport))

/-- `syscall_get_process_id`. -/
def syscallGetProcessId (hw : Hw) (k : Kernel) (p : PcbId) :
    Result (SchedulerControl × Kernel) :=
  let parent := (k.pcb p).pS.gpr .a1
  if parent ≠ 0 ∧ parent ≠ 1 then passUpOrDie hw k GENERALEXCEPT
  else
    let pid :=
      if parent = 0 then (k.pcb p).pPid
      else match (k.pcb p).pParent with
        | some q => (k.pcb q).pPid
        | none => 0
    .ok (CONTROL_RESCHEDULE k, setResult k p pid)

/-- `syscall_yield`. -/
def syscallYield (k : Kernel) : Result (SchedulerControl × Kernel) :=
  .ok (CONTROL_BLOCK, { k with yieldProcess := k.activeProcess })

/-- `syscall_handler`, for the active process `p`. -/
def syscallHandler (L : Layout) (hw : Hw) (k : Kernel) (p : PcbId) :
    Result (SchedulerControl × Kernel) :=
  let id := ((k.pcb p).pS.gpr .a0).toInt
  if id ≤ 0 ∧ isUserMode (k.pcb p).pS then
    let k := k.modPcb p (fun t => { t with
      pS := { t.pS with cause := causeReservedInstruction (causeClean t.pS.cause) } })
    passUpOrDie hw k GENERALEXCEPT
  else if id = CREATEPROCESS then syscallCreateProcess L hw k p
  else if id = TERMPROCESS then syscallTerminateProcess L hw k p
  else if id = PASSEREN then syscallPasseren L hw k p
  else if id = VERHOGEN then syscallVerhogen L hw k p
  else if id = DOIO then syscallDoIo L hw k p
  else if id = GETTIME then syscallGetCpuTime k p
  else if id = CLOCKWAIT then syscallWaitForClock L k p
  else if id = GETSUPPORTPTR then syscallGetSupportData L k p
  else if id = GETPROCESSID then syscallGetProcessId hw k p
  else if id = YIELD then syscallYield k
  else passUpOrDie hw k GENERALEXCEPT

end Pandos
