import Pandos.Asl

/-!
# Scheduler

The functions of `os/src/scheduler.c`.

`schedule` never returns to the exception handler. It loads the state of the
process it picked, halts, panics, or waits for an interrupt; `Outcome` lists
these together with the other ways an exception ends. `WAIT` ends with an
interrupt, whose handler starts on a fresh stack and does not come back, so
the call of `schedule` behind it is not part of the model.

`kill_progeny` is a recursion over a tree that it takes apart while it runs.
It is modelled with a bound on its calls, and `KillProgeny` shows that the
bound `killFuel` is never reached.

## Main definitions

* `spawnProcess`, `killProcess`, `killProgeny`, `findProcess`: Processes come
  and go.
* `schedule`: The choice of the next process.
* `Outcome`: How an exception ends.
* `Hw`: What the nucleus reads from the hardware during one exception.
-/

namespace Pandos

/-- The registers of one device the nucleus reads. The status of a disk,
    flash, network or printer device and the receiver status of a terminal
    share an offset. -/
structure DevReg where
  status : Word
  transmStatus : Word

/-- What the nucleus reads from the hardware during one exception: the state
    saved in the BIOS data page, the Cause and Status registers, the clock at
    the points where it is read, the interrupt bitmaps, the device registers,
    and the memory a process handed to `CREATEPROCESS` by address. -/
structure Hw where
  bios : State
  cause : Word
  status : Word
  todEntry : Int
  todSyscall : Int
  todReturn : Int
  todTakeover : Int
  bitmap : Nat → Word
  devreg : Nat → Nat → DevReg
  readState : Word → State

/-- How an exception ends: `LDST` of the active process, `LDCXT`, an exception
    inside the nucleus, `WAIT` with the given Status register, `HALT` or `PANIC`. -/
inductive Outcome
  | run (k : Kernel)
  | context (k : Kernel) (ctx : Context)
  | trap (k : Kernel)
  | wait (k : Kernel) (status : Word)
  | halt (k : Kernel)
  | panic (msg : String)
  | fault
  | diverge

/-- The macro `process_queue`. -/
def processQueue (k : Kernel) (p : PcbId) : ProcQ :=
  if (k.pcb p).pPrio ≠ 0 then .readyQueueHi else .readyQueueLo

/-- `enqueue_process`. -/
def enqueueProcess (k : Kernel) (p : PcbId) : Kernel :=
  insertProcQ k (processQueue k p) p

/-- `dequeue_process`. -/
def dequeueProcess (k : Kernel) (p : PcbId) : Option PcbId × Kernel :=
  outProcQ k (processQueue k p) p

def PID_ID_MASK : Word := (1 <<< MAX_PROC_BITS) - 1

/-- The macro `make_pid`. -/
def makePid (id recycleCount : Word) : Word := (id ||| (recycleCount <<< MAX_PROC_BITS)) + 1

/-- The macro `mask_pid_id`. -/
def maskPidId (pid : Word) : Word := (pid - 1) &&& PID_ID_MASK

/-- `find_process`. -/
def findProcess (k : Kernel) (pid : Word) : Option PcbId :=
  if h : (maskPidId pid).toNat < MAX_PROC then
    if (k.pcb ⟨(maskPidId pid).toNat, h⟩).pPid ≠ pid then none
    else some ⟨(maskPidId pid).toNat, h⟩
  else none

/-- `spawn_process`. -/
def spawnProcess (k : Kernel) (priority : Word) : Option PcbId × Kernel :=
  if priority ≠ PROCESS_PRIO_HIGH ∧ priority ≠ PROCESS_PRIO_LOW then (none, k)
  else
    match allocPcb k with
    | (none, k) => (none, k)
    | (some p, k) =>
      let pid := makePid (BitVec.ofNat 32 p.val) k.recycleCount
      let k := { k with
        processCount := k.processCount.incr
        recycleCount := k.recycleCount + 1 }
      let k := k.modPcb p (fun t => { t with pPid := pid, pPrio := priority })
      (some p, enqueueProcess k p)

/-- The part of `kill_process` that takes the process out of the queue it
    stands in. -/
def killUnlink (k : Kernel) (p : PcbId) : Kernel :=
  if k.procq.Null p then k
  else if (k.pcb p).pSemAdd ≠ none then
    match outBlocked k (some p) with
    | (some _, k) => { k with softblockCount := k.softblockCount.decr }
    | (none, k) => (dequeueProcess k p).2
  else (dequeueProcess k p).2

/-- `kill_process`: zero, or the number of the check that failed. -/
def killProcess (k : Kernel) (p : PcbId) : Nat × Kernel :=
  if (k.pcb p).pParent ≠ none ∧ (outChild k p).1 ≠ some p then (2, (outChild k p).2)
  else
    let k := if (k.pcb p).pParent ≠ none then (outChild k p).2 else k
    let k := { k with processCount := k.processCount.decr }
    (0, freePcb (killUnlink k p) p)

/-- `kill_progeny`, with a bound on the number of nested calls and loop
    rounds. A round of the loop that removed and killed a child goes on like a
    fresh call on the same process. -/
def killProgeny : Nat → Kernel → PcbId → Option (Nat × Kernel)
  | 0, _, _ => none
  | fuel + 1, k, p =>
    match removeChild k p with
    | (none, k) => some (killProcess k p)
    | (some child, k) =>
      match killProgeny fuel k child with
      | none => none
      | some (0, k) => killProgeny fuel k p
      | some (_ + 1, k) => some (3, k)

/-- Rounds and calls that suffice for every reachable process tree. -/
def killFuel : Nat := MAX_PROC + 1

/-- `init_scheduler`. -/
def initScheduler (k : Kernel) (tod : Int) : Kernel :=
  { (mkEmptyProcQ (mkEmptyProcQ k .readyQueueHi) .readyQueueLo) with
    processCount := Counter.zero
    softblockCount := Counter.zero
    activeProcess := none
    yieldProcess := none
    startTod := tod
    recycleCount := 0 }

/-- `scheduler_wait` up to `WAIT`. -/
def schedulerWait (hw : Hw) (k : Kernel) : Outcome :=
  .wait { k with activeProcess := none } (statusIlOnAll (statusInterruptsOnNucleus hw.status))

/-- The status `scheduler_takeover` gives a process of the given priority. -/
def takeoverStatus (prio status : Word) : Word :=
  let status := statusInterruptsOnProcess status
  if prio ≠ 0 then statusLocalTimerOn status else status

/-- `scheduler_takeover` for the active process. -/
def schedulerTakeover (hw : Hw) (k : Kernel) (p : PcbId) : Outcome :=
  .run { k.modPcb p (fun t =>
      { t with pS := { t.pS with status := takeoverStatus t.pPrio t.pS.status } }) with
    startTod := hw.todTakeover }

/-- `wait_or_die`. -/
def waitOrDie (hw : Hw) (k : Kernel) : Outcome :=
  if k.processCount.val = 0 then .halt k
  else if k.softblockCount.val ≠ 0 then schedulerWait hw k
  else .panic "Deadlock detected\n"

/-- The end of `schedule`, once a process was selected: a process that yielded
    goes back to its ready queue, the selected one takes over. -/
def dispatch (hw : Hw) (k : Kernel) (p : PcbId) : Outcome :=
  let k := { k with activeProcess := some p }
  let k := match k.yieldProcess with
    | none => k
    | some y => { insertProcQ k (processQueue k y) y with yieldProcess := none }
  schedulerTakeover hw k p

/-- The part of `schedule` that takes the next process from the ready queues,
    or the one that yielded if both are empty. -/
def selectReady (hw : Hw) (k : Kernel) : Outcome :=
  match removeProcQ k .readyQueueHi with
  | (some p, k) => dispatch hw k p
  | (none, k) =>
    match removeProcQ k .readyQueueLo with
    | (some p, k) => dispatch hw k p
    | (none, k) =>
      match k.yieldProcess with
      | some y => dispatch hw { k with yieldProcess := none } y
      | none => waitOrDie hw k

/-- `schedule`. -/
def schedule (hw : Hw) (k : Kernel) (pcb : Option PcbId) (enqueue : Bool) : Outcome :=
  match pcb, enqueue with
  | some p, false => dispatch hw k p
  | some p, true => selectReady hw (enqueueProcess k p)
  | none, _ => selectReady hw k

end Pandos
