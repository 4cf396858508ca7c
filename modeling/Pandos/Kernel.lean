import Mathlib.Data.Fintype.Basic
import Mathlib.Data.List.FinRange
import Pandos.Arch
import Pandos.Lib.Queues

/-!
# Nucleus State

The static data of the nucleus: the table of process control blocks with the
three link fields of each one, the table of semaphore descriptors, the globals
of the scheduler, and the words the nucleus reaches through pointers.

The link fields are not stored per block. `procq` holds every queue threaded
through `p_list` (the free list, the two ready queues and the queue of every
semaphore descriptor), `child` every list of children threaded through
`p_sib`, and `slink` the two lists of descriptors threaded through `s_link`.
A block whose `p_list` is null is one that stands in no queue of `procq`.

Semaphore words live in `mem`, device semaphores and the words of processes
alike. `bus` logs the stores to device command registers, newest first; the
devices react to it between exceptions.

The two process counters remember whether a decrement ever ran at zero. The
flag is not part of the source: it turns the absence of an underflow into a
property of the state.

## Main definitions

* `Pcb`: A process control block without its link fields.
* `ProcQ`: The sentinels of the queues threaded through `p_list`.
* `SemdList`: The sentinels of the lists threaded through `s_link`.
* `Counter`: A 32-bit counter that records underflow.
* `Kernel`: The state of the nucleus.
* `SchedulerControl`: What a handler tells the scheduler.
* `Exit`: The ways a handler leaves without returning.
-/

namespace Pandos

/-- An index into `pcb_table`. -/
abbrev PcbId := Fin MAX_PROC

instance : LawfulBEq PcbId := inferInstance

/-- An index into `semd_table`. -/
abbrev SemdId := Fin MAX_PROC

/-- A process control block (`pcb_t`) without its link fields. -/
structure Pcb where
  pParent : Option PcbId
  pS : State
  pTime : Int
  pSemAdd : Option Word
  pSupport : Option Word
  pPrio : Word
  pPid : Word

/-- The sentinels of the queues threaded through `p_list`. -/
inductive ProcQ
  | pcbFree
  | readyQueueLo
  | readyQueueHi
  | sProcq (sem : SemdId)
  deriving DecidableEq

instance : Fintype ProcQ :=
  Fintype.ofList ([.pcbFree, .readyQueueLo, .readyQueueHi] ++ (List.finRange MAX_PROC).map .sProcq)
    (by
      intro h
      cases h <;> simp only [List.cons_append, List.nil_append, List.mem_cons, List.mem_map,
        List.mem_finRange, true_and, reduceCtorEq, false_or, true_or, or_true,
        ProcQ.sProcq.injEq, exists_eq])

/-- The sentinels of the lists threaded through `s_link`. -/
inductive SemdList
  | semdFree
  | semdH
  deriving DecidableEq

/-- A 32-bit counter, with a flag raised by a decrement at zero. -/
structure Counter where
  val : Word
  underflow : Bool

def Counter.zero : Counter := { val := 0, underflow := false }

/-- `++counter`. -/
def Counter.incr (c : Counter) : Counter := { c with val := c.val + 1 }

/-- `--counter`. -/
def Counter.decr (c : Counter) : Counter :=
  { val := c.val - 1, underflow := c.underflow || c.val == 0 }

/-- The state of the nucleus. -/
structure Kernel where
  /-- Queues threaded through `p_list`. -/
  procq : Queues ProcQ PcbId
  /-- Lists of children threaded through `p_sib`. -/
  child : Queues PcbId PcbId
  /-- The remaining fields of `pcb_table`. -/
  pcb : PcbId → Pcb
  /-- Lists of descriptors threaded through `s_link`. -/
  slink : Queues SemdList SemdId
  /-- The field `s_key` of `semd_table`. -/
  sKey : SemdId → Word
  processCount : Counter
  softblockCount : Counter
  activeProcess : Option PcbId
  yieldProcess : Option PcbId
  startTod : Int
  recycleCount : Word
  /-- Semaphore words. -/
  mem : Word → Word
  /-- Support structures. -/
  sup : Word → Support
  /-- Stores to device registers, newest first. -/
  bus : List (Word × Word)

/-- Change the record of one process. -/
def Kernel.modPcb (k : Kernel) (p : PcbId) (f : Pcb → Pcb) : Kernel :=
  { k with pcb := fun q => if q = p then f (k.pcb p) else k.pcb q }

/-- Store a semaphore word. -/
def Kernel.store (k : Kernel) (a v : Word) : Kernel :=
  { k with mem := fun b => if b = a then v else k.mem b }

/-- What a handler tells the scheduler (`scheduler_control_t`). -/
structure SchedulerControl where
  pcb : Option PcbId
  enqueue : Bool
  deriving DecidableEq

def CONTROL_BLOCK : SchedulerControl := { pcb := none, enqueue := false }

def CONTROL_PRESERVE (p : Option PcbId) : SchedulerControl := { pcb := p, enqueue := false }

def CONTROL_RESCHEDULE (k : Kernel) : SchedulerControl :=
  { pcb := k.activeProcess, enqueue := true }

/-- The ways a handler leaves without returning: `PANIC`, and `LDCXT` into a
    support level handler. `trap` stands for a store to an address that is not
    aligned, which raises an exception in the state the handler has reached,
    `fault` for an access through the null pointer and `diverge` for a loop that
    never ends. -/
inductive Exit
  | panic (msg : String)
  | loadContext (k : Kernel) (ctx : Context)
  | trap (k : Kernel)
  | fault
  | diverge

/-- A handler either returns or leaves. -/
abbrev Result (α : Type) := Except Exit α

end Pandos
