import Pandos.Exception

/-!
# Places of Processes

Where the nucleus keeps its processes, without the descriptors in between: the
free list, the two ready queues, and for every semaphore address the queue of
the processes blocked on it.

`places` reads this view off a nucleus state. Everything the scheduler and the
semaphores do to processes is one of four moves on it, and the later theory
speaks about the moves only.

## Main definitions

* `waiters`: The processes queued on a key.
* `Places`: The places of processes.
* `Places.block`, `Places.ready`, `Places.release`, `Places.remove`: The moves.
* `Places.Nowhere`: A process that stands in no place.
* `places`: The view of a nucleus state.

## Theorems

* `Places.nowhere_block`, `Places.nowhere_ready`, `Places.nowhere_remove`: Who
  stands nowhere after a move.
* `places_listSdel`: Unlinking removes a process from wherever it stands.
* `places_enqueueProcess`: Enqueueing moves a process to its ready queue.
-/

namespace Pandos

/-- The processes queued on a key, the longest waiting one first. -/
def waiters (k : Kernel) (a : Word) : List PcbId :=
  match (k.slink .semdH).find? (fun i => k.sKey i == a) with
  | none => []
  | some i => k.procq (.sProcq i)

/-- The places of processes. -/
structure Places where
  free : List PcbId
  lo : List PcbId
  hi : List PcbId
  wait : Word → List PcbId

namespace Places

/-- A process goes to the end of the queue of a semaphore. -/
def block (v : Places) (a : Word) (p : PcbId) : Places :=
  { v with wait := fun b => if b = a then v.wait a ++ [p] else v.wait b }

/-- A process goes to the end of the ready queue of its priority. -/
def ready (v : Places) (prio : Word) (p : PcbId) : Places :=
  if prio ≠ 0 then { v with hi := v.hi ++ [p] } else { v with lo := v.lo ++ [p] }

/-- A process goes to the head of the free list. -/
def release (v : Places) (p : PcbId) : Places := { v with free := p :: v.free }

/-- A process is taken from wherever it stands. -/
def remove (v : Places) (p : PcbId) : Places :=
  { free := v.free.erase p, lo := v.lo.erase p, hi := v.hi.erase p,
    wait := fun a => (v.wait a).erase p }

/-- A process that stands in no place. -/
def Nowhere (v : Places) (p : PcbId) : Prop :=
  p ∉ v.free ∧ p ∉ v.lo ∧ p ∉ v.hi ∧ ∀ a, p ∉ v.wait a

theorem remove_of_nowhere {v : Places} {p : PcbId} (h : v.Nowhere p) : v.remove p = v := by
  rcases h with ⟨hf, hl, hh, hw⟩
  cases v with
  | mk free lo hi wait =>
      simp only [remove, Places.mk.injEq]
      refine ⟨List.erase_of_not_mem hf, List.erase_of_not_mem hl, List.erase_of_not_mem hh, ?_⟩
      funext a
      exact List.erase_of_not_mem (hw a)

/-- No place holds a process twice. -/
structure Nodup (v : Places) : Prop where
  free : v.free.Nodup
  lo : v.lo.Nodup
  hi : v.hi.Nodup
  wait : ∀ a, (v.wait a).Nodup

theorem nowhere_block (v : Places) (a : Word) (p r : PcbId) :
    (v.block a p).Nowhere r ↔ v.Nowhere r ∧ r ≠ p := by
  constructor
  · rintro ⟨hf, hl, hh, hw⟩
    refine ⟨⟨hf, hl, hh, fun b hb => ?_⟩, ?_⟩
    · have h := hw b
      simp only [block] at h
      by_cases hba : b = a
      · rw [if_pos hba] at h
        exact h (List.mem_append_left _ (hba ▸ hb))
      · rw [if_neg hba] at h
        exact h hb
    · rintro rfl
      have h := hw a
      simp only [block, if_true] at h
      exact h (List.mem_append_right _ (List.mem_singleton_self r))
  · rintro ⟨⟨hf, hl, hh, hw⟩, hne⟩
    refine ⟨hf, hl, hh, fun b hb => ?_⟩
    simp only [block] at hb
    by_cases hba : b = a
    · rw [if_pos hba] at hb
      rcases List.mem_append.mp hb with hb | hb
      · exact hw a hb
      · exact hne (List.mem_singleton.mp hb)
    · rw [if_neg hba] at hb
      exact hw b hb

theorem nowhere_ready (v : Places) (prio : Word) (p r : PcbId) :
    (v.ready prio p).Nowhere r ↔ v.Nowhere r ∧ r ≠ p := by
  unfold ready Nowhere
  by_cases h : prio ≠ 0
  · simp only [if_pos h, List.mem_append, List.mem_singleton, not_or]
    tauto
  · simp only [if_neg h, List.mem_append, List.mem_singleton, not_or]
    tauto

theorem nowhere_remove {v : Places} (hn : v.Nodup) (p r : PcbId) :
    (v.remove p).Nowhere r ↔ v.Nowhere r ∨ r = p := by
  unfold remove Nowhere
  simp only [hn.free.mem_erase_iff, hn.lo.mem_erase_iff, hn.hi.mem_erase_iff,
    (hn.wait _).mem_erase_iff]
  by_cases h : r = p
  · simp only [h, ne_eq, not_true_eq_false, false_and, not_false_eq_true, implies_true, and_self,
      or_true]
  · simp only [h, ne_eq, not_false_eq_true, true_and, or_false]

end Places

/-- The places of the processes of a nucleus state. -/
def places (k : Kernel) : Places :=
  { free := k.procq .pcbFree
    lo := k.procq .readyQueueLo
    hi := k.procq .readyQueueHi
    wait := waiters k }

/-- The view depends on the queues and the descriptors only. -/
theorem places_congr {k k' : Kernel} (hq : k'.procq = k.procq) (hs : k'.slink = k.slink)
    (hk : k'.sKey = k.sKey) : places k' = places k := by
  have hw : waiters k' = waiters k := by
    funext a
    rw [waiters, waiters, hq, hs, hk]
  rw [places, places, hw, hq]

theorem places_listSdel (k : Kernel) (p : PcbId) :
    places (listSdel k p) = (places k).remove p := by
  have hw : waiters (listSdel k p) = fun a => (waiters k a).erase p := by
    funext a
    simp only [waiters, listSdel]
    cases (k.slink .semdH).find? (fun i => k.sKey i == a) with
    | none => rfl
    | some i => rfl
  simp only [places, hw, Places.remove]
  rfl

/-- Inserting a process into a queue that is neither the free list nor the
    queue of a semaphore moves it there. -/
theorem places_enqueueProcess (k : Kernel) (p : PcbId) :
    places (enqueueProcess k p) = ((places k).remove p).ready (k.pcb p).pPrio p := by
  have hdel := places_listSdel k p
  unfold Places.ready
  rw [← hdel]
  by_cases hprio : (k.pcb p).pPrio ≠ 0
  · rw [if_pos hprio]
    simp only [enqueueProcess, processQueue, if_pos hprio, insertProcQ]
    rfl
  · rw [if_neg hprio]
    simp only [enqueueProcess, processQueue, if_neg hprio, insertProcQ]
    rfl

end Pandos
