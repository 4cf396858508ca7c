import Pandos.Exception
import Pandos.PcbHeap
import Pandos.SemdHeap

/-!
# The Nucleus in Memory

The functions of `os/src/asl.c`, `os/src/scheduler.c` and `os/src/semaphores.c`
that work on lists, over the pointers of all `list_head` cells. The model of the
nucleus has queues in their place.

The cells of the blocks and the queues of blocks are those of `PcbHeap`. The
cells of the descriptors' lists only ever point at each other, so they are kept
apart.

A result `none` stands for an access through a null pointer, for a
`container_of` on a sentinel, and for a search that does not end.

## Main definitions

* `NucleusHeap`: The static data of the nucleus, with its pointers.
* `findSemd`, `insertBlocked`, `outBlocked`, `removeBlocked`: The active
  semaphore list.
* `spawnProcess`, `killProcess`, `killProgeny`: Processes come and go.
* `P`, `V`: The operations on semaphores.
* `schedule`: The choice of the next process.
* `initTables`: The tables at the start.
-/

namespace Pandos

/-- The static data of the nucleus, with its pointers. -/
structure NucleusHeap where
  /-- `pcb_table`, `pcb_free`, the ready queues and the queues of descriptors. -/
  pcbs : PcbHeap ProcQ PcbId
  /-- `semd_free`, `semd_h` and the field `s_link` of `semd_table`. -/
  semds : Links (SemdCell SemdList SemdId)
  /-- The field `s_key` of `semd_table`. -/
  sKey : SemdId → Word
  processCount : Counter
  softblockCount : Counter
  activeProcess : Option PcbId
  yieldProcess : Option PcbId
  recycleCount : Word
  /-- Semaphore words. -/
  mem : Word → Word

/-- Rounds that suffice for a search in any list of the nucleus. -/
def listRounds : Nat := MAX_PROC + 1

namespace NucleusHeap

/-- Store a semaphore word. -/
def store (m : NucleusHeap) (a v : Word) : NucleusHeap :=
  { m with mem := Function.update m.mem a v }

/-- Change the fields of one block. -/
def modPcb (m : NucleusHeap) (p : PcbId) (f : PcbFields PcbId → PcbFields PcbId) :
    NucleusHeap :=
  { m with pcbs := m.pcbs.modPcb p f }

/-! ## `asl.c` -/

/-- `alloc_semd`. -/
def allocSemd (m : NucleusHeap) : Option Word → Option (Option SemdId × NucleusHeap)
  | none => some (none, m)
  | some semAddr => do
    if ← m.semds.listEmpty (some (.head .semdFree)) then return (none, m)
    let next ← m.semds.getNext (some (.head .semdFree))
    let sem ← SemdHeap.containerOf next
    let semds ← m.semds.listDel (some (.sLink sem))
    let semds ← semds.listAdd (some (.sLink sem)) (some (.head .semdH))
    let links ← m.pcbs.links.initListHead (some (.queue (.sProcq sem)))
    return (some sem, { m with
      semds := semds
      sKey := Function.update m.sKey sem semAddr
      pcbs := { m.pcbs with links := links } })

/-- `free_semd`: true when the descriptor still has waiters. -/
def freeSemd (m : NucleusHeap) : Option SemdId → Option (Bool × NucleusHeap)
  | none => some (true, m)
  | some sem => do
    if !(← m.pcbs.links.listEmpty (some (.queue (.sProcq sem)))) then return (true, m)
    let semds ← m.semds.listDel (some (.sLink sem))
    let semds ← semds.listAdd (some (.sLink sem)) (some (.head .semdFree))
    return (false, { m with semds := semds })

/-- The key of the descriptor around a cell. The one on the stack of `find_semd`
    has the key it looks for. -/
def keyAt (m : NucleusHeap) (semAddr : Word) : Option (SemdCell SemdList SemdId) → Option Word
  | some (.sLink d) => some (m.sKey d)
  | some .dummy => some semAddr
  | _ => none

/-- `key_cmp`. -/
def keyCmp (m : NucleusHeap) (semAddr : Word) (first second : Option (SemdCell SemdList SemdId)) :
    Option Word := do
  let p ← m.keyAt semAddr first
  let q ← m.keyAt semAddr second
  return Pandos.keyCmp p q

/-- `find_semd`. -/
def findSemd (m : NucleusHeap) :
    Option (SemdCell SemdList SemdId) → Option Word → Option (Option SemdId)
  | some list, some semAddr => do
    let item ← m.semds.listSearch listRounds (some .dummy) (some list)
      (fun first second => m.keyCmp semAddr first second != some 0)
    return SemdHeap.containerOf item
  | _, _ => some none

/-- `init_asl`. -/
def initAsl (m : NucleusHeap) : Option NucleusHeap := do
  let semds ← m.semds.initListHead (some (.head .semdFree))
  let semds ← semds.initListHead (some (.head .semdH))
  let semds ← (List.finRange MAX_PROC).foldlM
    (fun semds i => semds.listAdd (some (.sLink i)) (some (.head .semdFree))) semds
  return { m with semds := semds }

/-- `insert_blocked`: zero, or the number of the check that failed. -/
def insertBlocked (m : NucleusHeap) :
    Option Word → Option PcbId → Option (Nat × NucleusHeap)
  | none, _ => some (1, m)
  | some _, none => some (2, m)
  | some semAddr, some p =>
    if (m.pcbs.pcb p).pSemAdd.isSome then some (3, m)
    else do
      let found ← m.findSemd (some (.head .semdH)) (some semAddr)
      let (sem, m) ← if found.isSome then some (found, m) else m.allocSemd (some semAddr)
      match sem with
      | none => return (4, m)
      | some sem =>
        let links ← m.pcbs.links.listAddTail (some (.pList p)) (some (.queue (.sProcq sem)))
        let m := { m with pcbs := { m.pcbs with links := links } }
        return (0, m.modPcb p (fun t => { t with pSemAdd := some semAddr }))

/-- `out_blocked`. -/
def outBlocked (m : NucleusHeap) : Option PcbId → Option (Option PcbId × NucleusHeap)
  | none => some (none, m)
  | some p => do
    match ← m.findSemd (some (.head .semdH)) (m.pcbs.pcb p).pSemAdd with
    | none => return (none, m)
    | some sem =>
      if !(← m.pcbs.links.listContains listRounds (some (.pList p))
          (some (.queue (.sProcq sem)))) then
        return (none, m)
      let links ← m.pcbs.links.listSdel (some (.pList p))
      let m := { m with pcbs := { m.pcbs with links := links } }
      let m := m.modPcb p (fun t => { t with pSemAdd := none })
      if ← m.pcbs.links.listEmpty (some (.queue (.sProcq sem))) then
        let (failed, m) ← m.freeSemd (some sem)
        return (if failed then none else some p, m)
      else return (some p, m)

/-- `head_blocked`. -/
def headBlocked (m : NucleusHeap) : Option Word → Option (Option PcbId)
  | none => some none
  | some semAddr => do
    match ← m.findSemd (some (.head .semdH)) (some semAddr) with
    | none => return none
    | some sem =>
      let next ← m.pcbs.links.getNext (some (.queue (.sProcq sem)))
      let p ← PcbHeap.containerOf next
      return some p

/-- `remove_blocked`. -/
def removeBlocked (m : NucleusHeap) (semAddr : Option Word) :
    Option (Option PcbId × NucleusHeap) := do
  let p ← m.headBlocked semAddr
  m.outBlocked p

/-! ## `scheduler.c` -/

/-- The macro `process_queue`. -/
def processQueue (m : NucleusHeap) (p : PcbId) : Cell ProcQ PcbId :=
  if (m.pcbs.pcb p).pPrio ≠ 0 then .queue .readyQueueHi else .queue .readyQueueLo

/-- `insert_proc_q` on the blocks of the nucleus. -/
def insertProcQ (m : NucleusHeap) (head : Cell ProcQ PcbId) (p : PcbId) :
    Option NucleusHeap := do
  let pcbs ← m.pcbs.insertProcQ (some head) (some p)
  return { m with pcbs := pcbs }

/-- `enqueue_process`. -/
def enqueueProcess (m : NucleusHeap) : Option PcbId → Option NucleusHeap
  | none => some m
  | some p => m.insertProcQ (m.processQueue p) p

/-- `dequeue_process`. -/
def dequeueProcess (m : NucleusHeap) : Option PcbId → Option (Option PcbId × NucleusHeap)
  | none => some (none, m)
  | some p => do
    let (q, pcbs) ← m.pcbs.outProcQ listRounds (some (m.processQueue p)) (some p)
    return (q, { m with pcbs := pcbs })

/-- `spawn_process`. -/
def spawnProcess (m : NucleusHeap) (priority : Word) : Option (Option PcbId × NucleusHeap) :=
  if priority ≠ PROCESS_PRIO_HIGH ∧ priority ≠ PROCESS_PRIO_LOW then some (none, m)
  else do
    let (p, pcbs) ← m.pcbs.allocPcb
    let m := { m with pcbs := pcbs }
    match p with
    | none => return (none, m)
    | some p =>
      let pid := makePid (BitVec.ofNat 32 p.val) m.recycleCount
      let m := { m with
        processCount := m.processCount.incr
        recycleCount := m.recycleCount + 1 }
      let m := m.modPcb p (fun t => { t with pPid := pid, pPrio := priority })
      let m ← m.enqueueProcess (some p)
      return (some p, m)

/-- The part of `kill_process` that takes the process out of the queue it
    stands in. -/
def killUnlink (m : NucleusHeap) (p : PcbId) : Option NucleusHeap := do
  if ← m.pcbs.links.listNull (some (.pList p)) then return m
  if (m.pcbs.pcb p).pSemAdd.isSome then
    let (q, m) ← m.outBlocked (some p)
    if q = some p then return { m with softblockCount := m.softblockCount.decr }
    let (_, m) ← m.dequeueProcess (some p)
    return m
  else
    let (_, m) ← m.dequeueProcess (some p)
    return m

/-- `kill_process`: zero, or the number of the check that failed. -/
def killProcess (m : NucleusHeap) : Option PcbId → Option (Nat × NucleusHeap)
  | none => some (1, m)
  | some p => do
    let (out, pcbs) ←
      if (m.pcbs.pcb p).pParent.isSome then m.pcbs.outChild listRounds (some p)
      else some (some p, m.pcbs)
    let m := { m with pcbs := pcbs }
    if out ≠ some p then return (2, m)
    let m := { m with processCount := m.processCount.decr }
    let m ← m.killUnlink p
    let pcbs ← m.pcbs.freePcb listRounds (some p)
    return (0, { m with pcbs := pcbs })

/-- `kill_progeny`, with a bound on the number of nested calls and loop
    rounds. A round of the loop that removed and killed a child goes on like a
    fresh call on the same process. -/
def killProgeny : Nat → NucleusHeap → PcbId → Option (Nat × NucleusHeap)
  | 0, _, _ => none
  | fuel + 1, m, p => do
    let (child, pcbs) ← m.pcbs.removeChild listRounds (some p)
    let m := { m with pcbs := pcbs }
    match child with
    | none => m.killProcess (some p)
    | some child =>
      let (r, m) ← killProgeny fuel m child
      if r ≠ 0 then return (3, m)
      killProgeny fuel m p

/-- `remove_proc_q` on a ready queue. -/
def removeProcQ (m : NucleusHeap) (head : Cell ProcQ PcbId) :
    Option (Option PcbId × NucleusHeap) := do
  let (p, pcbs) ← m.pcbs.removeProcQ listRounds (some head)
  return (p, { m with pcbs := pcbs })

/-- The part of `schedule` that takes the next process from the ready queues, or
    the one that yielded if both are empty. -/
def selectReady (m : NucleusHeap) : Option (Option PcbId × NucleusHeap) := do
  if !(← m.pcbs.links.listEmpty (some (.queue .readyQueueHi))) then
    m.removeProcQ (.queue .readyQueueHi)
  else if !(← m.pcbs.links.listEmpty (some (.queue .readyQueueLo))) then
    m.removeProcQ (.queue .readyQueueLo)
  else return (m.yieldProcess, { m with yieldProcess := none })

/-- A process that yielded goes back to its ready queue. -/
def requeueYield (m : NucleusHeap) : Option NucleusHeap :=
  match m.yieldProcess with
  | none => some m
  | some y => do
    let m ← m.insertProcQ (m.processQueue y) y
    return { m with yieldProcess := none }

/-- The end of `schedule`, once a process was selected. -/
def dispatch (m : NucleusHeap) (p : PcbId) : Option NucleusHeap :=
  { m with activeProcess := some p }.requeueYield

/-- `schedule` up to `scheduler_takeover`, with the process that takes over, or
    up to `wait_or_die`. -/
def schedule (m : NucleusHeap) (pcb : Option PcbId) (enqueue : Bool) :
    Option (Option PcbId × NucleusHeap) := do
  let m ← if enqueue && pcb.isSome then m.enqueueProcess pcb else some m
  let (next, m) ← if pcb.isSome && !enqueue then some (pcb, m) else m.selectReady
  match next with
  | none => return (none, m)
  | some p =>
    let m ← m.dispatch p
    return (some p, m)

/-- `scheduler_takeover` for the active process. -/
def schedulerTakeover (m : NucleusHeap) (p : PcbId) : NucleusHeap :=
  m.modPcb p (fun t =>
    { t with pS := { t.pS with status := takeoverStatus t.pPrio t.pS.status } })

/-- `init_scheduler`. -/
def initScheduler (m : NucleusHeap) : Option NucleusHeap := do
  let pcbs ← m.pcbs.mkEmptyProcQ (some (.queue .readyQueueHi))
  let pcbs ← pcbs.mkEmptyProcQ (some (.queue .readyQueueLo))
  return { m with
    pcbs := pcbs
    processCount := Counter.zero
    softblockCount := Counter.zero
    activeProcess := none
    yieldProcess := none
    recycleCount := 0 }

/-! ## `semaphores.c` -/

/-- `init_semaphores`. -/
def initSemaphores (L : Layout) (m : NucleusHeap) : NucleusHeap :=
  (List.range SEMAPHORES_NUM).foldl (fun m i => m.store (L.semAddr i) 0) m

/-- `CONTROL_RESCHEDULE`. -/
def controlReschedule (m : NucleusHeap) : SchedulerControl :=
  { pcb := m.activeProcess, enqueue := true }

/-- Take a process from its ready queue unless its list pointers are null. -/
def dequeueLinked (m : NucleusHeap) (p : PcbId) : Option NucleusHeap := do
  if ← m.pcbs.links.listNull (some (.pList p)) then return m
  let (_, m) ← m.dequeueProcess (some p)
  return m

/-- `P`, with the message of a panic. -/
def P (m : NucleusHeap) :
    Option Word → Option PcbId → Option (Except String (SchedulerControl × NucleusHeap))
  | some semAddr, some p =>
    if m.mem semAddr = 0 then do
      let m ← m.dequeueLinked p
      let (r, m) ← m.insertBlocked (some semAddr) (some p)
      if r > 0 then return .error "PASSEREN failed %d\n"
      return .ok (CONTROL_BLOCK, { m with softblockCount := m.softblockCount.incr })
    else do
      let (t, m) ← m.removeBlocked (some semAddr)
      match t with
      | some t =>
        let m ← m.enqueueProcess (some t)
        return .ok (m.controlReschedule, { m with softblockCount := m.softblockCount.decr })
      | none => return .ok (m.controlReschedule, m.store semAddr (m.mem semAddr - 1))
  | _, _ => some (.ok (m.controlReschedule, m))

/-- `V`: the process it released, the active process if it only raised the
    value, and nothing if it blocked. -/
def V (m : NucleusHeap) :
    Option Word → Option (Except String (Option PcbId × NucleusHeap))
  | none => some (.ok (none, m))
  | some semAddr =>
    if m.mem semAddr = 1 then
      match m.activeProcess with
      | none => some (.ok (none, m))
      | some p =>
        if (m.pcbs.pcb p).pSemAdd.isSome then some (.ok (none, m))
        else do
          let m ← m.dequeueLinked p
          let m := { m with softblockCount := m.softblockCount.incr }
          let (r, m) ← m.insertBlocked (some semAddr) (some p)
          if r > 0 then return .error "VERHOGEN failed\n"
          return .ok (none, m)
    else do
      let (p, m) ← m.removeBlocked (some semAddr)
      match p with
      | some p =>
        let m := { m with softblockCount := m.softblockCount.decr }
        let m ← m.enqueueProcess (some p)
        return .ok (some p, m)
      | none => return .ok (m.activeProcess, m.store semAddr (m.mem semAddr + 1))

/-! ## `init.c` -/

/-- The part of `init` that prepares the tables. -/
def initTables (L : Layout) (m : NucleusHeap) : Option NucleusHeap := do
  let m ← m.initScheduler
  let m := m.initSemaphores L
  let pcbs ← m.pcbs.initPcbs
  { m with pcbs := pcbs }.initAsl

end NucleusHeap

end Pandos
