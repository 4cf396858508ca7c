import Pandos.Lib.Rings

/-!
# Lists of the Kernel

The functions of `os/list.h` and `os/util.h` on circular lists, over the
pointers of all `list_head` cells. A pointer is a cell or null, and following a
null pointer is an error: the result is `none`. A traversal gets a number of
rounds it may make and fails if it is not through by then.

## Main definitions

* `Links.setNext`, `Links.getNext`: Accesses through a pointer.
* `Links.listAdd`, `Links.listAddTail`, `Links.listDel`, `Links.listSdel`: The
  writers of `list.h` and `util.h`.
* `Links.listEmpty`, `Links.listNull`, `Links.listContains`: The tests.
-/

namespace Pandos

namespace Links

variable {C : Type} [DecidableEq C]

/-! ## Accesses -/

def getNext (m : Links C) (p : Option C) : Option (Option C) := p.map m.next

def getPrev (m : Links C) (p : Option C) : Option (Option C) := p.map m.prev

def setNext (m : Links C) (p v : Option C) : Option (Links C) :=
  p.map (fun c => { m with next := Function.update m.next c v })

def setPrev (m : Links C) (p v : Option C) : Option (Links C) :=
  p.map (fun c => { m with prev := Function.update m.prev c v })

/-! ## `list.h` -/

/-- `INIT_LIST_HEAD`. -/
def initListHead (m : Links C) (list : Option C) : Option (Links C) := do
  let m ← m.setNext list list
  m.setPrev list list

/-- `__list_add`. -/
def listAddBetween (m : Links C) (new prev next : Option C) : Option (Links C) := do
  let m ← m.setPrev next new
  let m ← m.setNext new next
  let m ← m.setPrev new prev
  m.setNext prev new

/-- `list_add`. -/
def listAdd (m : Links C) (new head : Option C) : Option (Links C) := do
  let next ← m.getNext head
  m.listAddBetween new head next

/-- `list_add_tail`. -/
def listAddTail (m : Links C) (new head : Option C) : Option (Links C) := do
  let prev ← m.getPrev head
  m.listAddBetween new prev head

/-- `__list_del`. -/
def listDelBetween (m : Links C) (prev next : Option C) : Option (Links C) := do
  let m ← m.setPrev next prev
  m.setNext prev next

/-- `list_del`. -/
def listDel (m : Links C) (entry : Option C) : Option (Links C) := do
  let prev ← m.getPrev entry
  let next ← m.getNext entry
  m.listDelBetween prev next

/-- `list_empty`. -/
def listEmpty (m : Links C) (head : Option C) : Option Bool := do
  let next ← m.getNext head
  return next == head

/-- `list_next`. -/
def listNext (m : Links C) (current : Option C) : Option (Option C) := do
  if ← m.listEmpty current then return none
  m.getNext current

/-! ## `util.h` -/

/-- `LIST_HEAD_NULL`. -/
def listHeadNull (m : Links C) (l : Option C) : Option (Links C) := do
  let m ← m.setNext l none
  m.setPrev l none

/-- `list_null`. -/
def listNull (m : Links C) (head : Option C) : Option Bool := do
  let prev ← m.getPrev head
  let next ← m.getNext head
  return prev.isNone && next.isNone

/-- `list_sdel`. -/
def listSdel (m : Links C) (entry : Option C) : Option (Links C) := do
  if ← m.listNull entry then return m
  let m ← m.listDel entry
  m.listHeadNull entry

/-- The loop of `list_search`, from `iter` on, in as many rounds as given. -/
def searchFrom (m : Links C) (element head : Option C) (cmp : Option C → Option C → Bool) :
    Nat → Option C → Option (Option C)
  | 0, _ => none
  | rounds + 1, iter =>
    if iter = head then some none
    else if !cmp element iter then some iter
    else do
      let iter ← m.getNext iter
      searchFrom m element head cmp rounds iter

/-- `list_search`. -/
def listSearch (rounds : Nat) (m : Links C) (element head : Option C)
    (cmp : Option C → Option C → Bool) : Option (Option C) := do
  let iter ← m.getNext head
  m.searchFrom element head cmp rounds iter

/-- `exact_cmp`. -/
def exactCmp (first second : Option C) : Bool := first != second

/-- `list_contains`. -/
def listContains (rounds : Nat) (m : Links C) (element head : Option C) : Option Bool := do
  let found ← m.listSearch rounds element head exactCmp
  return found.isSome

end Links

end Pandos
