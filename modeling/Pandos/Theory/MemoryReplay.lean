import Pandos.SupportMemory
import Pandos.Theory.UprocReplay

/-!
# Replaying Accesses to the Free Structures

Runs of the support level with the pointers that are computed from a list of
events.

## Main definitions

* `memoryStart`: The state in which `test` starts its first loop.
* `memoryReplay`: The state after a list of events that all meet a condition.
* `createUproc`, `createUprocs`: Pieces of runs.

## Theorems

* `exists_memory_run`: A replay shows that a run exists.
-/

namespace Pandos

section MemoryReplay

variable {n : Nat}

/-- The state in which `test` starts its first loop. -/
def memoryStart (S : Platform n) : Option (SupportMemory n) :=
  FreeList.initSupports.map (SupportMemory.start S)

/-- The state after a list of events that all meet the condition. -/
def memoryReplay (S : Platform n) (ok : SupportMemory n → UEvent n → Prop)
    [∀ x e, Decidable (ok x e)] (x : SupportMemory n) (es : List (UEvent n)) :
    Option (SupportMemory n) :=
  es.foldlM (fun x e => if ok x e then x.next S e else none) x

theorem init_of_memoryStart {S : Platform n} {x : SupportMemory n} (h : memoryStart S = some x) :
    (supportMemory S).init x := by
  rcases Option.map_eq_some_iff.mp h with ⟨links, hlinks, rfl⟩
  exact ⟨links, hlinks, rfl⟩

/-- A replay whose last state has a property shows that such a state is
    reached. -/
theorem exists_memory_run (S : Platform n) (ok : SupportMemory n → UEvent n → Prop)
    [∀ x e, Decidable (ok x e)] (es : List (UEvent n)) (P : SupportMemory n → Prop)
    [DecidablePred P]
    (h : ((memoryStart S).bind (fun x => memoryReplay S ok x es)).any
      (fun x => decide (P x)) = true) :
    ∃ es x, ((supportMemory S).restrict ok).Run es x ∧ P x := by
  have hsteps := System.step_of_checked (S := supportMemory S) ok (f := fun x e => x.next S e)
    (fun _ _ _ hstep => hstep)
  exact System.exists_run_of_replay (S := (supportMemory S).restrict ok)
    (fun _ => init_of_memoryStart) hsteps es P h

/-- `test` allocates a structure, fills it and creates a U-proc. -/
def createUproc (i : Fin n) : List (UEvent n) :=
  List.replicate 8 .test ++ [.flash i true, .test, .test]

end MemoryReplay

/-- `test` creates both U-procs. -/
def createUprocs : List (UEvent 2) :=
  createUproc ⟨0, Nat.zero_lt_two⟩ ++ createUproc ⟨1, Nat.one_lt_two⟩ ++ [.test]

end Pandos
