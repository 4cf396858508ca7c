import Pandos.Scheduler

/-!
# Semaphores

`P` and `V` of `os/src/semaphores.c`, the device semaphores of
`phase2/src/semaphores.c`, and the map from a command register to its
semaphore of `phase2/src/devices.c`.

Both operations can block. `P` blocks its caller at zero and `V` blocks the
active process at one; at any other value an operation releases the longest
waiting process if there is one, and changes the word otherwise.

## Main definitions

* `P`, `V`: The two operations.
* `getSemaphore`, `getTimerSemaphore`: The addresses of device semaphores.
* `getIodev`: The semaphore and the interrupt line of a command address.
* `devRegAddr`: The address of the registers of a device.
-/

namespace Pandos

/-- `P`. -/
def P (k : Kernel) (semAddr : Option Word) (p : Option PcbId) :
    Result (SchedulerControl × Kernel) :=
  match semAddr, p with
  | some a, some p =>
    if k.mem a = 0 then
      let k := if k.procq.Null p then k else (dequeueProcess k p).2
      match insertBlocked k (some a) (some p) with
      | (0, k) => .ok (CONTROL_BLOCK, { k with softblockCount := k.softblockCount.incr })
      | (_ + 1, _) => .error (.panic "PASSEREN failed %d\n")
    else
      match removeBlocked k (some a) with
      | (some t, k) =>
        let k := enqueueProcess k t
        .ok (CONTROL_RESCHEDULE k, { k with softblockCount := k.softblockCount.decr })
      | (none, k) => .ok (CONTROL_RESCHEDULE k, k.store a (k.mem a - 1))
  | _, _ => .ok (CONTROL_RESCHEDULE k, k)

/-- `V`: the process it released, the active process if it only raised the
    value, and nothing if it blocked. -/
def V (k : Kernel) (semAddr : Option Word) : Result (Option PcbId × Kernel) :=
  match semAddr with
  | none => .ok (none, k)
  | some a =>
    if k.mem a = 1 then
      match k.activeProcess with
      | none => .ok (none, k)
      | some p =>
        if (k.pcb p).pSemAdd = none then
          let k := if k.procq.Null p then k else (dequeueProcess k p).2
          let k := { k with softblockCount := k.softblockCount.incr }
          match insertBlocked k (some a) (some p) with
          | (0, k) => .ok (none, k)
          | (_ + 1, _) => .error (.panic "VERHOGEN failed\n")
        else .ok (none, k)
    else
      match removeBlocked k (some a) with
      | (some p, k) =>
        let k := { k with softblockCount := k.softblockCount.decr }
        .ok (some p, enqueueProcess k p)
      | (none, k) => .ok (k.activeProcess, k.store a (k.mem a + 1))

/-- `init_semaphores`. -/
def initSemaphores (L : Layout) (k : Kernel) : Kernel :=
  (List.range SEMAPHORES_NUM).foldl (fun k i => k.store (L.semAddr i) 0) k

/-- `get_semaphore`. -/
def getSemaphore (L : Layout) (intL : Int) (devN : Nat) (isW : Bool) : Result Word :=
  if intL > IL_TERMINAL ∨ intL < IL_DISK then .error (.panic "Semaphore not found\n")
  else
    let sem := (intL - IL_DISK).toNat * DEVPERINT
    if intL = IL_TERMINAL then .ok (L.semAddr (sem + (2 * devN + if isW then 1 else 0)))
    else .ok (L.semAddr (sem + devN))

/-- `get_timer_semaphore`. -/
def getTimerSemaphore (L : Layout) : Word := L.semAddr (SEMAPHORES_NUM - 1)

/-- `is_in_line`. -/
def isInLine (dev : Nat) (il : Nat) : Bool :=
  let il := if il = IL_TERMINAL then il * 2 else il
  dev < (il + 1 - IL_DISK) * DEVPERINT

/-- An I/O device (`iodev_t`). -/
structure Iodev where
  semaphore : Word
  interruptLine : Int

/-- `get_iodev`. -/
def getIodev (L : Layout) (cmdAddr : Word) : Result Iodev :=
  let devN := ((cmdAddr - DEV_REG_START) / DEV_REG_SIZE).toNat
  let intL : Int :=
    match [IL_DISK, IL_FLASH, IL_ETHERNET, IL_PRINTER, IL_TERMINAL].find? (isInLine devN) with
    | some i => i
    | none => -1
  let base := DEV_REG_SIZE * BitVec.ofNat 32 devN + DEV_REG_START
  let isW := base + 12 == cmdAddr
  match getSemaphore L intL (devN % DEVPERINT) isW with
  | .error e => .error e
  | .ok sem => .ok { semaphore := sem, interruptLine := intL }

/-- The address of the registers of a device, as `devregarea_t` places them. -/
def devRegAddr (il devN : Nat) : Word :=
  DEV_REG_START + BitVec.ofNat 32 (16 * ((il - IL_DISK) * DEVPERINT + devN))

end Pandos
