import Pandos.Pcb

/-!
# Active Semaphore List

The functions of `os/src/asl.c`. A descriptor in `semd_h` is found by
comparing keys through a scaled pointer difference, as `key_cmp` does on the
32-bit target.

`headBlocked` returns nothing where the source would turn the sentinel of an
empty queue into a block; no reachable descriptor of `semd_h` has an empty
queue, so the difference is never seen.

## Main definitions

* `findSemd`: The descriptor of a key.
* `insertBlocked`, `outBlocked`, `headBlocked`, `removeBlocked`: The interface
  of the list.
-/

namespace Pandos

/-- `init_asl`. -/
def initAsl (k : Kernel) : Kernel :=
  (List.finRange MAX_PROC).foldl
    (fun k i => { k with slink := k.slink.addHead .semdFree i })
    { k with slink := (k.slink.clear .semdFree).clear .semdH }

/-- `alloc_semd`. -/
def allocSemd (k : Kernel) (semAddr : Option Word) : Option SemdId × Kernel :=
  match semAddr, k.slink .semdFree with
  | none, _ => (none, k)
  | some _, [] => (none, k)
  | some a, sem :: _ =>
    (some sem, { k with
      slink := (k.slink.del sem).addHead .semdH sem
      sKey := fun i => if i = sem then a else k.sKey i
      procq := k.procq.clear (.sProcq sem) })

/-- `free_semd`: true when the descriptor still has waiters. -/
def freeSemd (k : Kernel) (sem : SemdId) : Bool × Kernel :=
  if k.procq (.sProcq sem) ≠ [] then (true, k)
  else (false, { k with slink := (k.slink.del sem).addHead .semdFree sem })

/-- `key_cmp`: the difference of two `int` pointers, narrowed to an `int`. -/
def keyCmp (first second : Word) : Word := (first - second).sshiftRight 2

/-- `find_semd`. -/
def findSemd (k : Kernel) (list : SemdList) (semAddr : Option Word) : Option SemdId :=
  match semAddr with
  | none => none
  | some a => (k.slink list).find? (fun i => keyCmp a (k.sKey i) == 0)

/-- `insert_blocked`: zero, or the number of the check that failed. -/
def insertBlocked (k : Kernel) (semAddr : Option Word) (p : Option PcbId) : Nat × Kernel :=
  match semAddr, p with
  | none, _ => (1, k)
  | some _, none => (2, k)
  | some a, some p =>
    if (k.pcb p).pSemAdd ≠ none then (3, k)
    else
      let r := match findSemd k .semdH (some a) with
        | some sem => (some sem, k)
        | none => allocSemd k (some a)
      match r with
      | (none, k) => (4, k)
      | (some sem, k) =>
        let k := { k with procq := k.procq.addTail (.sProcq sem) p }
        (0, k.modPcb p (fun t => { t with pSemAdd := some a }))

/-- `out_blocked`. -/
def outBlocked (k : Kernel) (p : Option PcbId) : Option PcbId × Kernel :=
  match p with
  | none => (none, k)
  | some p =>
    match findSemd k .semdH (k.pcb p).pSemAdd with
    | none => (none, k)
    | some sem =>
      if p ∈ k.procq (.sProcq sem) then
        let k := (listSdel k p).modPcb p (fun t => { t with pSemAdd := none })
        if k.procq (.sProcq sem) = [] then
          match freeSemd k sem with
          | (true, k) => (none, k)
          | (false, k) => (some p, k)
        else (some p, k)
      else (none, k)

/-- `head_blocked`. -/
def headBlocked (k : Kernel) (semAddr : Option Word) : Option PcbId :=
  match findSemd k .semdH semAddr with
  | none => none
  | some sem => (k.procq (.sProcq sem)).head?

/-- `remove_blocked`. -/
def removeBlocked (k : Kernel) (semAddr : Option Word) : Option PcbId × Kernel :=
  outBlocked k (headBlocked k semAddr)

end Pandos
