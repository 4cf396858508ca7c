import Mathlib.Data.List.FinRange
import Pandos.Arch
import Pandos.Lists

/-!
# Process Control Blocks in Memory

The functions of `os/src/pcb.c` over blocks and `list_head` cells that point at
each other. The model of the nucleus looks at the queues only; here are the
pointers.

The lists of a block's children and siblings are cells like all others. The
functions on queues leave them alone, except `null_pcb`, which resets them.

## Main definitions

* `Cell`: The `list_head` cells.
* `PcbFields`: A process control block without its cells.
* `PcbHeap`: The pointers and the blocks.
* `freePcb`, `allocPcb`, `insertProcQ`, `removeProcQ`, `outProcQ`: The
  operations on queues.
* `insertChild`, `removeChild`, `outChild`: The operations on trees.
-/

namespace Pandos

/-- The `list_head` cells: the sentinel of the free list, all other sentinels,
    and the three cells of each block. -/
inductive Cell (ι α : Type)
  | pcbFree
  | queue (h : ι)
  | pList (p : α)
  | pChild (p : α)
  | pSib (p : α)
  deriving DecidableEq

/-- A process control block (`pcb_t`) without its cells. -/
structure PcbFields (α : Type) where
  pParent : Option α
  pS : State
  pTime : Int
  pSemAdd : Option Word
  pSupport : Option Word
  pPrio : Word
  pPid : Word

/-- The memory the functions of `pcb.c` work on. -/
structure PcbHeap (ι α : Type) where
  links : Links (Cell ι α)
  pcb : α → PcbFields α

namespace PcbHeap

variable {ι α : Type} [DecidableEq ι] [DecidableEq α]

/-- `container_of` for the field `p_list`. Nothing else is a block. -/
def containerOf : Option (Cell ι α) → Option α
  | some (.pList p) => some p
  | _ => none

/-- Change the fields of one block. -/
def modPcb (m : PcbHeap ι α) (p : α) (f : PcbFields α → PcbFields α) : PcbHeap ι α :=
  { m with pcb := Function.update m.pcb p (f (m.pcb p)) }

/-- `init_pcbs`. -/
def initPcbs (m : PcbHeap ι (Fin MAX_PROC)) : Option (PcbHeap ι (Fin MAX_PROC)) := do
  let links ← m.links.initListHead (some .pcbFree)
  (List.finRange MAX_PROC).foldlM
    (fun m i => do
      let links ← m.links.listAdd (some (.pList i)) (some .pcbFree)
      return { m with links := links }.modPcb i (fun t => { t with pPid := NULL_PID }))
    { m with links := links }

/-- `free_pcb`. -/
def freePcb (rounds : Nat) (m : PcbHeap ι α) : Option α → Option (PcbHeap ι α)
  | none => some m
  | some p => do
    if ← m.links.listContains rounds (some (.pList p)) (some .pcbFree) then return m
    let m := m.modPcb p (fun t => { t with pPid := NULL_PID })
    let links ← m.links.listSdel (some (.pList p))
    let links ← links.listAdd (some (.pList p)) (some .pcbFree)
    return { m with links := links }

/-- `null_pcb`. -/
def nullPcb (m : PcbHeap ι α) : Option α → Option (Option α × PcbHeap ι α)
  | none => some (none, m)
  | some t => do
    let links ← m.links.listHeadNull (some (.pList t))
    let links ← links.initListHead (some (.pChild t))
    let links ← links.listHeadNull (some (.pSib t))
    let m := { m with links := links }
    return (some t, m.modPcb t (fun _ =>
      { pParent := none
        pTime := 0
        pSemAdd := none
        pS := nullState
        pSupport := none
        pPrio := 0
        pPid := NULL_PID }))

/-- `alloc_pcb`. -/
def allocPcb (m : PcbHeap ι α) : Option (Option α × PcbHeap ι α) := do
  if ← m.links.listEmpty (some .pcbFree) then return (none, m)
  let next ← m.links.getNext (some .pcbFree)
  let first ← containerOf next
  let links ← m.links.listDel next
  { m with links := links }.nullPcb (some first)

/-- `mk_empty_proc_q`. -/
def mkEmptyProcQ (m : PcbHeap ι α) : Option (Cell ι α) → Option (PcbHeap ι α)
  | none => some m
  | some head => do
    let links ← m.links.initListHead (some head)
    return { m with links := links }

/-- `empty_proc_q`. -/
def emptyProcQ (m : PcbHeap ι α) : Option (Cell ι α) → Option Bool
  | none => some true
  | some head => m.links.listEmpty (some head)

/-- `insert_proc_q`. -/
def insertProcQ (m : PcbHeap ι α) : Option (Cell ι α) → Option α → Option (PcbHeap ι α)
  | some head, some p => do
    let links ← m.links.listSdel (some (.pList p))
    let links ← links.listAddTail (some (.pList p)) (some head)
    return { m with links := links }
  | _, _ => some m

/-- `head_proc_q`. -/
def headProcQ (m : PcbHeap ι α) : Option (Cell ι α) → Option (Option α)
  | none => some none
  | some head => do
    if ← m.links.listEmpty (some head) then return none
    let next ← m.links.listNext (some head)
    return containerOf next

/-- `out_proc_q`. -/
def outProcQ (rounds : Nat) (m : PcbHeap ι α) :
    Option (Cell ι α) → Option α → Option (Option α × PcbHeap ι α)
  | some head, some p => do
    if ← m.links.listEmpty (some head) then return (none, m)
    if !(← m.links.listContains rounds (some (.pList p)) (some head)) then return (none, m)
    let links ← m.links.listSdel (some (.pList p))
    return (some p, { m with links := links })
  | _, _ => some (none, m)

/-- `remove_proc_q`. -/
def removeProcQ (rounds : Nat) (m : PcbHeap ι α) :
    Option (Cell ι α) → Option (Option α × PcbHeap ι α)
  | none => some (none, m)
  | some head => do
    if ← m.links.listEmpty (some head) then return (none, m)
    let toRemove ← m.links.listNext (some head)
    let p := containerOf toRemove
    m.outProcQ rounds (some head) p

/-! ## Trees -/

/-- `container_of` for the field `p_sib`. -/
def siblingOf : Option (Cell ι α) → Option α
  | some (.pSib p) => some p
  | _ => none

/-- `empty_child`. -/
def emptyChild (m : PcbHeap ι α) : Option α → Option Bool
  | none => some true
  | some p => m.links.listEmpty (some (.pChild p))

/-- `insert_child`. -/
def insertChild (rounds : Nat) (m : PcbHeap ι α) :
    Option α → Option α → Option (PcbHeap ι α)
  | some prnt, some p => do
    if (m.pcb p).pParent.isSome then return m
    if ← m.links.listContains rounds (some (.pSib p)) (some (.pChild prnt)) then return m
    let m := m.modPcb p (fun t => { t with pParent := some prnt })
    let links ← m.links.listAddTail (some (.pSib p)) (some (.pChild prnt))
    return { m with links := links }
  | _, _ => some m

/-- `out_child`. -/
def outChild (rounds : Nat) (m : PcbHeap ι α) : Option α → Option (Option α × PcbHeap ι α)
  | none => some (none, m)
  | some p =>
    match (m.pcb p).pParent with
    | none => some (none, m)
    | some prnt => do
      if ← m.links.listEmpty (some (.pChild prnt)) then return (none, m)
      if !(← m.links.listContains rounds (some (.pSib p)) (some (.pChild prnt))) then
        return (none, m)
      let links ← m.links.listSdel (some (.pSib p))
      let m := { m with links := links }
      return (some p, m.modPcb p (fun t => { t with pParent := none }))

/-- `remove_child`. -/
def removeChild (rounds : Nat) (m : PcbHeap ι α) : Option α → Option (Option α × PcbHeap ι α)
  | none => some (none, m)
  | some p => do
    if ← m.links.listEmpty (some (.pChild p)) then return (none, m)
    let next ← m.links.listNext (some (.pChild p))
    let child ← siblingOf next
    m.outChild rounds (some child)

end PcbHeap

end Pandos
