import Pandos.Kernel

/-!
# Process Control Blocks

The functions of `os/src/pcb.c` over the queue families of `Kernel`.
-/

namespace Pandos

/-- `LIST_HEAD_NULL(&t->p_list)` after an unlink, and `list_sdel`: the block
    stands in no queue afterwards. -/
def listSdel (k : Kernel) (p : PcbId) : Kernel :=
  { k with procq := k.procq.del p }

/-- `init_pcbs`. -/
def initPcbs (k : Kernel) : Kernel :=
  (List.finRange MAX_PROC).foldl
    (fun k i => { k.modPcb i (fun t => { t with pPid := NULL_PID }) with
      procq := k.procq.addHead .pcbFree i })
    { k with procq := k.procq.clear .pcbFree }

/-- `free_pcb`. -/
def freePcb (k : Kernel) (p : PcbId) : Kernel :=
  if p ∈ k.procq .pcbFree then k
  else
    let k := k.modPcb p (fun t => { t with pPid := NULL_PID })
    { k with procq := (k.procq.del p).addHead .pcbFree p }

/-- The record `null_pcb` leaves behind. -/
def nullPcbRecord : Pcb :=
  { pParent := none, pS := nullState, pTime := 0, pSemAdd := none, pSupport := none,
    pPrio := 0, pPid := NULL_PID }

/-- `null_pcb`: the link fields and the record are reset. -/
def nullPcb (k : Kernel) (t : PcbId) : Kernel :=
  { k.modPcb t (fun _ => nullPcbRecord) with
    procq := k.procq.del t
    child := (k.child.clear t).del t }

/-- `alloc_pcb`. -/
def allocPcb (k : Kernel) : Option PcbId × Kernel :=
  match k.procq .pcbFree with
  | [] => (none, k)
  | first :: _ => (some first, nullPcb { k with procq := k.procq.del first } first)

/-- `mk_empty_proc_q`. -/
def mkEmptyProcQ (k : Kernel) (head : ProcQ) : Kernel :=
  { k with procq := k.procq.clear head }

/-- `insert_proc_q`. -/
def insertProcQ (k : Kernel) (head : ProcQ) (p : PcbId) : Kernel :=
  { k with procq := (k.procq.del p).addTail head p }

/-- `head_proc_q`. -/
def headProcQ (k : Kernel) (head : ProcQ) : Option PcbId :=
  (k.procq head).head?

/-- `out_proc_q`. -/
def outProcQ (k : Kernel) (head : ProcQ) (p : PcbId) : Option PcbId × Kernel :=
  if p ∈ k.procq head then (some p, listSdel k p) else (none, k)

/-- `remove_proc_q`. -/
def removeProcQ (k : Kernel) (head : ProcQ) : Option PcbId × Kernel :=
  match headProcQ k head with
  | none => (none, k)
  | some p => outProcQ k head p

/-- `insert_child`. -/
def insertChild (k : Kernel) (prnt p : PcbId) : Kernel :=
  if (k.pcb p).pParent ≠ none ∨ p ∈ k.child prnt then k
  else
    let k := k.modPcb p (fun t => { t with pParent := some prnt })
    { k with child := k.child.addTail prnt p }

/-- `out_child`. -/
def outChild (k : Kernel) (p : PcbId) : Option PcbId × Kernel :=
  match (k.pcb p).pParent with
  | none => (none, k)
  | some prnt =>
    if p ∈ k.child prnt then
      (some p, { k.modPcb p (fun t => { t with pParent := none }) with
        child := k.child.del p })
    else (none, k)

/-- `remove_child`. -/
def removeChild (k : Kernel) (p : PcbId) : Option PcbId × Kernel :=
  match (k.child p).head? with
  | none => (none, k)
  | some c => outChild k c

end Pandos
