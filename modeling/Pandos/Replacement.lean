import Pandos.Lib.Systems
import Pandos.Pager

/-!
# The Page Replacement Algorithm

The swap pool as `pick_page` of `phase3/src/pager.c` sees it: the swap pool table
and the static index behind which the search for a victim goes on. U-procs load
pages, each into the frame `pick_page` returns, and terminate, which frees their
frames.

An observer notes at which time the page of each frame was loaded. Only loads
take time.

## Main definitions

* `SwapPool`: The swap pool table and the static index of `pick_page`.
* `SwapPool.pickPage`: `pick_page`.
* `PoolEvent`, `swapPool`: Loads and terminations.
* `LoadTimes`, `timedRuns`: The pool with the times of the loads.
-/

namespace Pandos

/-- The swap pool table and the static index of `pick_page`. -/
structure SwapPool (n : Nat) where
  swapPoolTable : Nat → Swap n
  fifo : Word

/-- What happens to the pool: the U-proc `asid` loads a page, whose entry is in
    the page table of the support structure `t`, or it terminates. -/
inductive PoolEvent (n : Nat)
  | load (asid : Fin n) (vpn : Word) (t : Fin n)
  | terminate (asid : Fin n)

variable {n : Nat}

namespace SwapPool

/-- The pool at boot. -/
def start (n : Nat) : SwapPool n := { swapPoolTable := initSwapPoolTable, fifo := -1 }

/-- A frame of the pool is occupied. -/
def Occupied (s : SwapPool n) (f : Nat) : Prop := checkFrameOccupied (s.swapPoolTable f) = true

/-- `pick_page`. -/
def pickPage (s : SwapPool n) : Nat × SwapPool n :=
  match (List.range (POOLSIZE n)).find? (fun i => !checkFrameOccupied (s.swapPoolTable i)) with
  | some index => (index, s)
  | none =>
    let i := (s.fifo + 1).toNat % POOLSIZE n
    (i, { s with fifo := BitVec.ofNat 32 i })

/-- The pool after an event. A page number outside the program is no page. -/
def next (s : SwapPool n) : PoolEvent n → Option (SwapPool n)
  | .load asid vpn t =>
    match addEntrySwapPoolTable s.pickPage.2.swapPoolTable s.pickPage.1 asid vpn t with
    | .error _ => none
    | .ok swapPoolTable => some { s.pickPage.2 with swapPoolTable := swapPoolTable }
  | .terminate asid =>
    some { s with swapPoolTable := markFramesAsUnoccupied s.swapPoolTable asid }

end SwapPool

/-- The pool as a transition system. -/
def swapPool (n : Nat) : System (SwapPool n) (PoolEvent n) where
  init s := s = SwapPool.start n
  step s e s' := s.next e = some s'

/-! ## The times of the loads -/

/-- When the page of each frame was loaded, and the present time. -/
structure LoadTimes where
  loadedAt : Nat → Nat
  now : Nat

/-- A load fills the frame that is picked. -/
def noteLoad (s : SwapPool n) (e : PoolEvent n) (_ : SwapPool n) (t : LoadTimes) : LoadTimes :=
  match e with
  | .load _ _ _ =>
    { loadedAt := Function.update t.loadedAt s.pickPage.1 t.now, now := t.now + 1 }
  | .terminate _ => t

/-- The pool with the times of the loads. -/
def timedRuns (n : Nat) : System (SwapPool n × LoadTimes) (PoolEvent n) :=
  (swapPool n).observed (fun _ => { loadedAt := fun _ => 0, now := 0 }) noteLoad

end Pandos
