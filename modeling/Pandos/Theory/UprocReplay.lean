import Pandos.Theory.UprocSteps

/-!
# Replaying Steps of the Support Level

Runs of the support level that are computed from a list of events.

The platform of the samples has two U-procs, so its swap pool has four frames.
The first page of both programs is text, and every word of a page tells the
device and the block it came from.

## Main definitions

* `uprocStart`: The state in which `test` starts its first loop.
* `uprocReplay`: The state after a list of events that all meet a condition.
* `samplePlatform`: The platform of the samples.
* `bootUprocs`, `fillPool`, `pageFault`, `loadPage`, `evictPage`: Pieces of runs.

## Theorems

* `exists_uproc_run`: A replay shows that a run exists.
-/

namespace Pandos

section UprocReplay

variable {n : Nat}

open SupportLevel

/-- The state in which `test` starts its first loop. -/
def uprocStart (S : Platform n) : Option (SupportLevel n) :=
  (initSupports.map (start S)).toOption

/-- The state after a list of events that all meet the condition. -/
def uprocReplay (S : Platform n) (ok : SupportLevel n → UEvent n → Prop)
    [∀ s e, Decidable (ok s e)] (s : SupportLevel n) (es : List (UEvent n)) :
    Option (SupportLevel n) :=
  es.foldlM (fun s e => if ok s e then s.next S e else none) s

theorem init_of_uprocStart {S : Platform n} {s : SupportLevel n} (h : uprocStart S = some s) :
    (supportLevel S).init s := by
  unfold uprocStart at h
  cases hf : (initSupports : Except String (List (Fin n))) with
  | error msg =>
      rw [hf] at h
      cases h
  | ok free =>
      rw [hf] at h
      cases h
      exact ⟨free, hf, rfl⟩

/-- A replay whose last state has a property shows that such a state is
    reached. -/
theorem exists_uproc_run (S : Platform n) (ok : SupportLevel n → UEvent n → Prop)
    [∀ s e, Decidable (ok s e)] (es : List (UEvent n)) (P : SupportLevel n → Prop)
    [DecidablePred P]
    (h : ((uprocStart S).bind (fun s => uprocReplay S ok s es)).any
      (fun s => decide (P s)) = true) :
    ∃ es s, ((supportLevel S).restrict ok).Run es s ∧ P s := by
  -- Each event that is replayed is a step that meets the condition.
  have hsteps := System.step_of_checked (S := supportLevel S) ok (f := fun s e => s.next S e)
    (fun _ _ _ hstep => hstep)
  exact System.exists_run_of_replay (S := (supportLevel S).restrict ok)
    (fun _ => init_of_uprocStart) hsteps es P h

end UprocReplay

/-! ## Samples -/

/-- Two U-procs whose programs have one page of text each. -/
def samplePlatform : Platform 2 :=
  { swapPoolAddr := 0x20020000
    tlbSize := 8
    blocks := fun i b w => if w = 5 then PAGESIZE else BitVec.ofNat 32 (100 * (i.val + 1) + b) }

/-- `test` creates both U-procs. -/
def bootUprocs : List (UEvent 2) :=
  [.test, .test, .flash ⟨0, by decide⟩ true, .test, .test, .test, .test,
    .flash ⟨1, by decide⟩ true, .test, .test, .test]

/-- A U-proc touches a page, first without and then with an entry in the TLB,
    and has the swap pool table after the last step. -/
def pageFault (i : Fin 2) (page slot : Nat) : List (UEvent 2) :=
  let addr := KUSEG + BitVec.ofNat 32 page * PAGESIZE
  [.touch i addr .load (TLBINVLDL <<< CAUSESHIFT) slot,
    .touch i addr .load (TLBINVLDL <<< CAUSESHIFT) slot, .step i, .step i, .step i]

/-- A U-proc picks a frame after looking at some that are occupied, and prepares
    to use it. -/
def pickFrame (i : Fin 2) (occupied : Nat) : List (UEvent 2) :=
  List.replicate (occupied + 2) (.step i)

/-- A U-proc writes its victim to a device. -/
def evictPage (i owner : Fin 2) : List (UEvent 2) := [.step i, .step i, .flash owner true]

/-- A U-proc reads the missing page and returns to user mode. -/
def loadPage (i : Fin 2) : List (UEvent 2) := [.step i, .flash i true, .step i, .step i, .step i]

/-- The first U-proc loads its first four pages, which fills the swap pool. -/
def fillPool : List (UEvent 2) :=
  (List.range 4).flatMap (fun p =>
    pageFault ⟨0, by decide⟩ p p ++ pickFrame ⟨0, by decide⟩ p ++ loadPage ⟨0, by decide⟩)

end Pandos
