import Pandos.Exception
import Pandos.Lib.Systems

/-!
# The Machine

The nucleus between two exceptions, together with what surrounds it: processes
that run and change their memory, and devices that execute the commands
`DOIO` wrote and answer with interrupts.

An `Event` is all that happens from the end of one exception to the end of the
next. `Event.Trusted` lists what the machine and the processes are trusted with:
a process does not write the semaphores of the nucleus and passes word aligned
addresses of semaphores that belong to no device, an interrupt line is raised
by devices that have a command to answer, and a device with a command is
installed. `Event.Ok` asks besides that the addresses of commands are word
aligned too: `DOIO` does not look at that, and its store raises an exception
inside the nucleus, after the caller was blocked.

`pending` remembers the command each sub-unit has yet to answer, as the
process that issued it. When that process is terminated the command stays
behind without an owner. A device that is given a new command may ignore it,
execute it on the spot, or replace what it was doing.

## Main definitions

* `DevUnit`: A device sub-unit, numbered by its semaphore.
* `commandReg`: The address of the command register of a sub-unit.
* `Machine`: The nucleus and the pending commands.
* `Event`, `Event.Trusted`, `Event.Ok`: One exception and what leads up to it.
* `Machine.resolved`: How an exception ends once one it raises itself is handled.
* `nucleus`: The transition system of all runs from `main`.
-/

namespace Pandos

/-- A device sub-unit, numbered by its semaphore: the disks, flash devices,
    network adapters and printers, then receiver and transmitter of each
    terminal. -/
abbrev DevUnit := Fin 48

/-- The sub-unit of a device on one of the lines of disks, flash devices,
    network adapters and printers. -/
def genericUnit (il : Nat) (devN : Fin 8) : DevUnit :=
  Fin.ofNat 48 ((il - IL_DISK) * DEVPERINT + devN)

/-- The receiver of a terminal. -/
def recvUnit (devN : Fin 8) : DevUnit := Fin.ofNat 48 (32 + 2 * devN)

/-- The transmitter of a terminal. -/
def transmUnit (devN : Fin 8) : DevUnit := Fin.ofNat 48 (32 + 2 * devN + 1)

/-- The address of the command register of a sub-unit. -/
def commandReg (u : DevUnit) : Word :=
  if u.val < 32 then DEV_REG_START + BitVec.ofNat 32 (16 * u.val) + 4
  else
    let base := DEV_REG_START + BitVec.ofNat 32 (16 * (32 + (u.val - 32) / 2))
    if u.val % 2 = 1 then base + 12 else base + 4

/-- Who wrote a command that has not been answered yet. -/
inductive Issuer
  | process (p : PcbId)
  | terminated
  deriving DecidableEq

/-- The nucleus and the commands that have not been answered yet. -/
structure Machine where
  kernel : Kernel
  pending : DevUnit → Option Issuer

/-- What a device does with a new command. -/
inductive Accept
  | ignore
  | finish
  | start
  deriving DecidableEq

/-- From the end of one exception to the end of the next: the memory and the
    support structures as the running process left them, what the hardware
    shows the nucleus, and what the device does that a command is written to. -/
structure Event where
  mem : Word → Word
  sup : Word → Support
  hw : Hw
  accept : Accept

/-- The state the exception handler starts from. -/
def Machine.entry (m : Machine) (e : Event) : Kernel :=
  { m.kernel with mem := e.mem, sup := e.sup, bus := [] }

/-- The bit of a device in the bitmap of its line. -/
def deviceBit (bitmap : Word) (devN : Fin 8) : Bool := bitmap.getLsbD devN

/-- What the machine and the processes are trusted with. -/
structure Event.Trusted (L : Layout) (m : Machine) (e : Event) : Prop where
  /-- Processes do not write the semaphores of the nucleus. -/
  mem : ∀ i, i < SEMAPHORES_NUM → e.mem (L.semAddr i) = m.kernel.mem (L.semAddr i)
  /-- `PASSEREN` and `VERHOGEN` are called on words that are no device
      semaphores. -/
  request : excClass e.hw.cause = .syscall → isUserMode e.hw.bios = false →
    (e.hw.bios.gpr .a0).toInt = PASSEREN ∨ (e.hw.bios.gpr .a0).toInt = VERHOGEN →
    e.hw.bios.gpr .a1 ≠ L.null →
    Aligned (e.hw.bios.gpr .a1) ∧ ∀ u : DevUnit, e.hw.bios.gpr .a1 ≠ L.semAddr u
  /-- A line is raised when one of its eight devices is. -/
  line : ∀ il, IL_DISK ≤ il → il ≤ IL_TERMINAL → e.hw.cause &&& CAUSE_IP il ≠ 0 →
    e.hw.bitmap il ≠ 0 ∧ (e.hw.bitmap il).toNat < 2 ^ N_DEV_PER_IL
  /-- A device raises its bit when it has a command to answer. -/
  generic : ∀ il devN, IL_DISK ≤ il → il ≤ IL_PRINTER → deviceBit (e.hw.bitmap il) devN →
    m.pending (genericUnit il devN) ≠ none
  terminal : ∀ devN, deviceBit (e.hw.bitmap IL_TERMINAL) devN →
    m.pending (transmUnit devN) ≠ none ∨ m.pending (recvUnit devN) ≠ none
  /-- A terminal that reports the end of an operation was given a command. -/
  transm : ∀ devN : Fin 8,
    (e.hw.devreg IL_TERMINAL devN).transmStatus &&& TERMSTATMASK = DEV_STATUS_TERMINAL_OK →
    m.pending (transmUnit devN) ≠ none
  recv : ∀ devN : Fin 8,
    (e.hw.devreg IL_TERMINAL devN).status &&& TERMSTATMASK = DEV_STATUS_TERMINAL_OK →
    m.pending (recvUnit devN) ≠ none
  /-- A device with a command is installed. -/
  installed : ∀ il devN, IL_DISK ≤ il → il ≤ IL_PRINTER → m.pending (genericUnit il devN) ≠ none →
    (e.hw.devreg il devN).status &&& TERMSTATMASK ≠ DEV_STATUS_NOTINSTALLED
  installedTerm : ∀ devN : Fin 8,
    m.pending (transmUnit devN) ≠ none ∨ m.pending (recvUnit devN) ≠ none →
    (e.hw.devreg IL_TERMINAL devN).transmStatus &&& TERMSTATMASK ≠ DEV_STATUS_NOTINSTALLED ∧
      (e.hw.devreg IL_TERMINAL devN).status &&& TERMSTATMASK ≠ DEV_STATUS_NOTINSTALLED

/-- Besides, `DOIO` is called with the address of a word where it finds a
    device. -/
structure Event.Ok (L : Layout) (m : Machine) (e : Event) : Prop extends e.Trusted L m where
  command : excClass e.hw.cause = .syscall → isUserMode e.hw.bios = false →
    (e.hw.bios.gpr .a0).toInt = DOIO → e.hw.bios.gpr .a1 ≠ L.null →
    (e.hw.bios.gpr .a1 - DEV_REG_START).toNat < 96 * 16 → Aligned (e.hw.bios.gpr .a1)

/-- The command a sub-unit has to answer after the stores of one exception. An
    interrupt handler stores acknowledgements only, `DOIO` a command of the
    active process. -/
def Machine.devices (m : Machine) (e : Event) (k : Kernel) (u : DevUnit) : Option Issuer :=
  if k.bus.any (fun st => st.1 == commandReg u) then
    if excClass e.hw.cause = .syscall then
      match e.accept with
      | .ignore => m.pending u
      | .finish => none
      | .start => m.kernel.activeProcess.map .process
    else none
  else m.pending u

/-- A command whose issuer was terminated loses its owner. -/
def disown (k : Kernel) : Option Issuer → Option Issuer
  | some (.process p) => some (if p ∈ k.procq .pcbFree then .terminated else .process p)
  | i => i

/-- The state in which an exception leaves the nucleus, if it goes on. -/
def Outcome.next : Outcome → Option Kernel
  | .run k => some k
  | .context k _ => some k
  | .wait k _ => some k
  | _ => none

/-- How the next exception ends. -/
def Machine.outcome (L : Layout) (m : Machine) (e : Event) : Outcome :=
  exceptionHandler L e.hw (m.entry e)

/-- How the next exception is handled. If the handler raises an exception itself,
    that one is handled in turn, with what the hardware shows by then. -/
def Machine.resolved (L : Layout) (m : Machine) (e : Event) (nested : Hw) :
    Result (SchedulerControl × Kernel) :=
  match handleException L e.hw (m.entry e) with
  | .error (.trap k) => handleException L nested k
  | r => r

/-- The machine after an exception that left the nucleus in state `k`. -/
def Machine.after (m : Machine) (e : Event) (k : Kernel) : Machine :=
  { kernel := k, pending := fun u => disown k (m.devices e k u) }

/-- The runs of the nucleus from `main`, up to the first exception that does
    not go on. -/
def nucleus (L : Layout) (b : Boot) : System Machine Event where
  init m := (main L b).next = some m.kernel ∧ m.pending = fun _ => none
  step m e m' := e.Ok L m ∧ ∃ k, (m.outcome L e).next = some k ∧ m' = m.after e k

end Pandos
