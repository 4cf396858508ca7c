import Mathlib.Data.List.FinRange
import Pandos.Lists
import Pandos.SupportSyscall

/-!
# The Free Support Structures in Memory

`allocate` and `deallocate` of `test.c`, access by access. Both work on the list
`support_free` with interrupts on and without a semaphore, so a time slice can
end between any two accesses, and whoever runs next may call one of them too.

The state puts the pointers of the list and the calls that are under way beside
the support level. A step of a process that is in one of the two functions is
one access to the pointers, with what it does to the registers; all other steps
are steps of the support level, whose own list is not used here.

Messages to the debug log are left out, and with them the calls of `list_size`.

## Main definitions

* `ListCell`: The `list_head` cells.
* `DeallocPc`, `AllocPc`: Where a process is in the two functions.
* `FreeList`: The pointers and the calls.
* `FreeList.deallocate`, `FreeList.allocate`: The next access.
* `SupportMemory`, `supportMemory`: The support level with the pointers.
* `CallMemory`, `callMemory`: The same with the handlers of the system calls.
-/

namespace Pandos

/-- The `list_head` cells: `support_free`, and the one of each support structure. -/
inductive ListCell (n : Nat)
  | supportFree
  | pList (t : Fin n)
  deriving DecidableEq

/-- Where a U-proc is in `deallocate`: at an access of `list_contains` with its
    iterator, of `list_add`, or at one of the four stores of `__list_add`. -/
inductive DeallocPc (n : Nat)
  | idle
  | search (iter : ListCell n)
  | add
  | nextPrev (next : ListCell n)
  | newNext (next : ListCell n)
  | newPrev
  | headNext
  deriving DecidableEq

/-- Where `test` is in `allocate`: at an access of `list_next`, of `list_del`, or
    at one of the two stores of `__list_del`. -/
inductive AllocPc (n : Nat)
  | idle
  | first
  | entryPrev (lh : ListCell n)
  | entryNext (lh prev : ListCell n)
  | nextPrev (lh prev next : ListCell n)
  | prevNext (lh prev next : ListCell n)
  | done (lh : ListCell n)
  deriving DecidableEq

/-- The pointers of the list, and where the processes are in the calls. -/
structure FreeList (n : Nat) where
  links : Links (ListCell n)
  dealloc : Fin n → DeallocPc n
  alloc : AllocPc n

/-- A call of `allocate` for a U-proc, or of `deallocate` by one. -/
inductive ListCall (n : Nat)
  | allocate (i : Fin n)
  | deallocate (i : Fin n)

section SupportMemory

variable {n : Nat}

namespace FreeList

def setDealloc (m : FreeList n) (i : Fin n) (pc : DeallocPc n) : FreeList n :=
  { m with dealloc := Function.update m.dealloc i pc }

/-- The store `c->next = v`. -/
def storeNext (m : FreeList n) (c v : ListCell n) : FreeList n :=
  { m with links := { m.links with next := Function.update m.links.next c (some v) } }

/-- The store `c->prev = v`. -/
def storePrev (m : FreeList n) (c v : ListCell n) : FreeList n :=
  { m with links := { m.links with prev := Function.update m.links.prev c (some v) } }

/-- `list_contains` looks at the next cell of the list. -/
def visit (m : FreeList n) (i t : Fin n) (iter : ListCell n) : Except String (FreeList n) :=
  if iter = .supportFree then .ok (m.setDealloc i .add)
  else if iter = .pList t then .error "Double support_t %p deallocation.\n"
  else .ok (m.setDealloc i (.search iter))

/-- The next access of U-proc `i` in `deallocate`. A null pointer is an error. -/
def deallocate (m : FreeList n) (i t : Fin n) : Option (Except String (FreeList n)) :=
  match m.dealloc i with
  | .idle => (m.links.next .supportFree).map (m.visit i t)
  | .search iter => (m.links.next iter).map (m.visit i t)
  | .add =>
    (m.links.next .supportFree).map (fun next => .ok (m.setDealloc i (.nextPrev next)))
  | .nextPrev next => some (.ok ((m.storePrev next (.pList t)).setDealloc i (.newNext next)))
  | .newNext next => some (.ok ((m.storeNext (.pList t) next).setDealloc i .newPrev))
  | .newPrev => some (.ok ((m.storePrev (.pList t) .supportFree).setDealloc i .headNext))
  | .headNext => some (.ok ((m.storeNext .supportFree (.pList t)).setDealloc i .idle))

/-- The next access of `test` in `allocate`. -/
def allocate (m : FreeList n) : Option (Except String (FreeList n)) :=
  match m.alloc with
  | .idle =>
    (m.links.next .supportFree).map (fun next =>
      if next = .supportFree then .error "Out of support_t\n" else .ok { m with alloc := .first })
  | .first =>
    (m.links.next .supportFree).map (fun lh => .ok { m with alloc := .entryPrev lh })
  | .entryPrev lh => (m.links.prev lh).map (fun prev => .ok { m with alloc := .entryNext lh prev })
  | .entryNext lh prev =>
    (m.links.next lh).map (fun next => .ok { m with alloc := .nextPrev lh prev next })
  | .nextPrev lh prev next =>
    some (.ok { m.storePrev next prev with alloc := .prevNext lh prev next })
  | .prevNext lh prev next => some (.ok { m.storeNext prev next with alloc := .done lh })
  | .done _ => none

/-- A call has not begun. -/
def Begins (m : FreeList n) : ListCall n → Prop
  | .allocate _ => m.alloc = .idle
  | .deallocate i => m.dealloc i = .idle

/-- No call is under way. -/
def Quiet (m : FreeList n) : Prop := m.alloc = .idle ∧ ∀ i, m.dealloc i = .idle

instance (m : FreeList n) : (c : ListCall n) → Decidable (m.Begins c)
  | .allocate _ => inferInstanceAs (Decidable (_ = _))
  | .deallocate _ => inferInstanceAs (Decidable (_ = _))

instance (m : FreeList n) : Decidable m.Quiet := inferInstanceAs (Decidable (_ ∧ _))

/-- `init_supports`, which runs before there is any U-proc. -/
def initSupports : Option (Links (ListCell n)) := do
  let links ← Links.initListHead { next := fun _ => none, prev := fun _ => none }
    (some .supportFree)
  (List.finRange n).foldlM
    (fun links t => do
      if ← links.listContains (n + 1) (some (.pList t)) (some .supportFree) then none
      else links.listAdd (some (.pList t)) (some .supportFree))
    links

end FreeList

/-- The call of `allocate` or `deallocate` a step belongs to. -/
def SupportLevel.listCall (s : SupportLevel n) : UEvent n → Option (ListCall n)
  | .step i => if s.pc i = .free then some (.deallocate i) else none
  | .test =>
    match s.test with
    | .alloc i => if h : i < n then some (.allocate ⟨i, h⟩) else none
    | _ => none
  | _ => none

/-! ## The support level -/

/-- The support level with the pointers of `support_free`. -/
structure SupportMemory (n : Nat) where
  level : SupportLevel n
  free : FreeList n

namespace SupportMemory

/-- An access of a U-proc. It goes on when its call is over. -/
def deallocStep (x : SupportMemory n) (i : Fin n) : Option (SupportMemory n) :=
  match x.free.deallocate i (x.level.support i) with
  | none => none
  | some (.error msg) => some { x with level := x.level.panic msg }
  | some (.ok free) =>
    some {
      level := if free.dealloc i = .idle then x.level.setPc i .post else x.level
      free := free }

/-- An access of `test`, or the store of the ASID behind the call. -/
def allocStep (x : SupportMemory n) (i : Fin n) : Option (SupportMemory n) :=
  match x.free.alloc with
  | .done (.pList t) =>
    some {
      level := { x.level with
        supportTable := Function.update x.level.supportTable t
          { x.level.supportTable t with supAsid := some i }
        test := .header i t }
      free := { x.free with alloc := .idle } }
  | _ =>
    match x.free.allocate with
    | none => none
    | some (.error msg) => some { x with level := x.level.panic msg }
    | some (.ok free) => some { x with free := free }

/-- The next state, if the event is possible. -/
def next (S : Platform n) (x : SupportMemory n) (e : UEvent n) : Option (SupportMemory n) :=
  match x.level.listCall e with
  | none => (x.level.next S e).map (fun level => { x with level := level })
  | some c =>
    match x.level.down with
    | some _ => none
    | none =>
      match c with
      | .allocate i => x.allocStep i
      | .deallocate i => x.deallocStep i

/-- A call of `allocate` or `deallocate` begins only when no other one is under
    way. -/
def Orderly (x : SupportMemory n) (e : UEvent n) : Prop :=
  ∀ c ∈ x.level.listCall e, x.free.Begins c → x.free.Quiet

instance (x : SupportMemory n) (e : UEvent n) : Decidable (x.Orderly e) :=
  inferInstanceAs (Decidable (∀ _ ∈ _, _))

/-- The state in which `test` starts its first loop. -/
def start (S : Platform n) (links : Links (ListCell n)) : SupportMemory n :=
  { level := SupportLevel.start S []
    free := { links := links, dealloc := fun _ => .idle, alloc := .idle } }

end SupportMemory

/-- The support level with the pointers as a transition system. -/
def supportMemory (S : Platform n) : System (SupportMemory n) (UEvent n) where
  init x := ∃ links, FreeList.initSupports = some links ∧ x = SupportMemory.start S links
  step x e x' := x.next S e = some x'

/-! ## The system calls -/

/-- The handlers of the system calls over the support level with the pointers. -/
structure CallMemory (n : Nat) where
  calls : CallLevel n
  free : FreeList n

namespace CallMemory

def memory (x : CallMemory n) : SupportMemory n :=
  { level := x.calls.level
    free := x.free }

/-- The next state, if the event is possible. -/
def next (S : Platform n) (x : CallMemory n) : CallEvent n → Option (CallMemory n)
  | .level e s =>
    if x.calls.Allows e then
      (x.memory.next S e).map (fun y =>
        { calls := x.calls.follow S e s y.level
          free := y.free })
    else none
  | .trap i s => (x.calls.trap i s).map (fun c => { x with calls := c })
  | .call i a answer => (x.calls.handle i a answer).map (fun c => { x with calls := c })

/-- The steps of the support level are orderly. -/
def Orderly (x : CallMemory n) : CallEvent n → Prop
  | .level e _ => x.memory.Orderly e
  | _ => True

instance (x : CallMemory n) : (e : CallEvent n) → Decidable (x.Orderly e)
  | .level _ _ => inferInstanceAs (Decidable (SupportMemory.Orderly _ _))
  | .trap _ _ => .isTrue trivial
  | .call _ _ _ => .isTrue trivial

end CallMemory

/-- The handlers over the support level with the pointers as a transition
    system. -/
def callMemory (S : Platform n) : System (CallMemory n) (CallEvent n) where
  init x := (supportMemory S).init x.memory ∧ x.calls.call = fun _ => .user
  step x e x' := x.next S e = some x'

end SupportMemory

end Pandos
