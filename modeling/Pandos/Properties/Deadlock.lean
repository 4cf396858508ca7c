import Pandos.Theory.Replay

/-!
# Deadlock Detection

With nobody ready, `wait_or_die` halts if there is no process, waits for an
interrupt if `softblock_count` is not zero, and else reports a deadlock. The
counter counts every blocked process, whatever it waits for. A live process
that is not ready is blocked, so the counter is never zero there, and a deadlock
is never reported.

## Main definitions

* `AwaitsInterrupt`: A process waits for a device or for the timer.
* `NoCandidate`: `schedule` has nobody to choose.
* `DetectsDeadlock`: `schedule` tells waiting from deadlock.

## Theorems

* `waits_of_noCandidate`: Without a candidate, `schedule` waits.
* `deadlock_detected_iff`: It decides rightly exactly when some process waits
  for a device or for the timer.
* `deadlock_missed`: A process that waits for itself waits for ever.
-/

namespace Pandos

/-- The process waits on a semaphore of the nucleus, for a device or for the
    timer. Only an interrupt handler can release it. -/
def AwaitsInterrupt (L : Layout) (k : Kernel) (p : PcbId) : Prop :=
  ∃ i, i < SEMAPHORES_NUM ∧ (k.pcb p).pSemAdd = some (L.semAddr i)

instance (L : Layout) (k : Kernel) (p : PcbId) : Decidable (AwaitsInterrupt L k p) :=
  inferInstanceAs (Decidable (∃ i, i < SEMAPHORES_NUM ∧ _))

/-- No process to preserve, none in the ready queues, and none that yielded. -/
structure NoCandidate (ctrl : SchedulerControl) (k : Kernel) : Prop where
  pcb : ctrl.pcb = none
  hi : k.procq .readyQueueHi = []
  lo : k.procq .readyQueueLo = []
  yield : k.yieldProcess = none

/-- The nucleus waits if some live process waits for a device or for the timer,
    and reports a deadlock if every live process waits for another process. -/
structure DetectsDeadlock (L : Layout) (k : Kernel) (o : Outcome) : Prop where
  waits : (∃ p ∈ live k, AwaitsInterrupt L k p) → ∃ k' status, o = .wait k' status
  reports : (∀ p ∈ live k, (k.pcb p).pSemAdd ≠ none ∧ ¬ AwaitsInterrupt L k p) →
    o = .panic "Deadlock detected\n"

/-- Without a candidate every live process is blocked, and if there is one the
    nucleus waits. -/
theorem waits_of_noCandidate {hw : Hw} {ctrl : SchedulerControl} {k : Kernel} (hr : Ready ctrl k)
    (hn : NoCandidate ctrl k) (hl : (live k).Nonempty) :
    (∀ p ∈ live k, (k.pcb p).pSemAdd ≠ none) ∧
      ∃ k' status, schedule hw k ctrl.pcb ctrl.enqueue = .wait k' status := by
  have hat : At k ∅ := by
    have h := hr.at_
    rwa [hn.pcb, hn.yield, Option.toFinset_none, Finset.union_empty] at h
  -- A live process in no queue and on no semaphore would be in the ready queues.
  have hblocked : ∀ p ∈ live k, (k.pcb p).pSemAdd ≠ none :=
    fun p hp => ((mem_blocked k p).mp (blocked_of_idle hat hn.lo hn.hi hp)).2
  refine ⟨hblocked, ?_⟩
  have hsched : schedule hw k ctrl.pcb ctrl.enqueue = waitOrDie hw k := by
    rw [hn.pcb]
    unfold schedule selectReady
    rw [removeProcQ_nil hn.hi]
    simp only [removeProcQ_nil hn.lo, hn.yield]
  have hcount : k.processCount.val ≠ 0 := by
    rw [ne_eq, counter_eq_zero_iff hat.counted.processes, Finset.card_eq_zero]
    exact hl.ne_empty
  -- The counter sees the blocked processes, not what they wait for.
  have hsoft : k.softblockCount.val ≠ 0 := by
    rcases hl with ⟨p, hp⟩
    rw [ne_eq, counter_eq_zero_iff hat.counted.softblock, Finset.card_eq_zero]
    intro hempty
    have hmem := blocked_of_idle hat hn.lo hn.hi hp
    rw [hempty] at hmem
    exact absurd hmem (Finset.notMem_empty p)
  rw [hsched, waitOrDie, if_neg hcount, if_pos hsoft]
  exact ⟨_, _, rfl⟩

/-- Whenever the scheduler is called without a candidate while some process is
    alive, it tells waiting from deadlock if and only if some live process waits
    for a device or for the timer. -/
theorem deadlock_detected_iff {L : Layout} {b : Boot} {es : List Event} {m : Machine}
    (h : (nucleus L b).Run es m) {e : Event} (hok : e.Ok L m) {ctrl : SchedulerControl}
    {k : Kernel} (hk : handleException L e.hw (m.entry e) = .ok (ctrl, k))
    (hn : NoCandidate ctrl k) (hl : (live k).Nonempty) :
    DetectsDeadlock L k (schedule e.hw k ctrl.pcb ctrl.enqueue) ↔
      ∃ p ∈ live k, AwaitsInterrupt L k p := by
  have hwf := machineWf_run h
  have hh := handleException_spec hwf hok
  rw [hk] at hh
  rcases waits_of_noCandidate (hh.ready hwf.between) hn hl with ⟨hblocked, k', status, hwait⟩
  rw [hwait]
  constructor
  · intro hd
    by_contra hnone
    have hrep := hd.reports (fun p hp => ⟨hblocked p hp, fun ha => hnone ⟨p, hp, ha⟩⟩)
    exact absurd hrep (by simp only [reduceCtorEq, not_false_eq_true])
  · rintro ⟨p, hp, ha⟩
    exact ⟨fun _ => ⟨k', status, rfl⟩, fun hall => absurd ha (hall p hp).2⟩

/-! ## A deadlock that is not reported -/

instance (ctrl : SchedulerControl) (k : Kernel) : Decidable (NoCandidate ctrl k) :=
  decidable_of_iff (ctrl.pcb = none ∧ k.procq .readyQueueHi = [] ∧ k.procq .readyQueueLo = [] ∧
    k.yieldProcess = none)
    ⟨fun ⟨h₁, h₂, h₃, h₄⟩ => ⟨h₁, h₂, h₃, h₄⟩, fun h => ⟨h.pcb, h.hi, h.lo, h.yield⟩⟩

/-- The next exception of a run calls the scheduler without a candidate, in a
    state with the given property. -/
theorem exists_noCandidate (x : Hw × Accept) (A : Kernel → Prop) [DecidablePred A]
    (h : (Machine.start sampleLayout sampleBoot).any (fun m =>
      decide ((Event.quiet m x).Ok sampleLayout m) &&
        (handleException sampleLayout x.1 (m.entry (Event.quiet m x))).toOption.any (fun r =>
          decide (NoCandidate r.1 r.2 ∧ A r.2))) = true) :
    ∃ es m e ctrl k, (nucleus sampleLayout sampleBoot).Run es m ∧ e.Ok sampleLayout m ∧
      handleException sampleLayout e.hw (m.entry e) = .ok (ctrl, k) ∧ NoCandidate ctrl k ∧ A k := by
  rw [Option.any_eq_true] at h
  rcases h with ⟨m, hm, h⟩
  rw [Bool.and_eq_true, decide_eq_true_iff, Option.any_eq_true] at h
  rcases h with ⟨hok, ⟨ctrl, k⟩, hr, h⟩
  rw [decide_eq_true_iff] at h
  refine ⟨[], m, Event.quiet m x, ctrl, k, System.Run.init (init_of_start hm), hok, ?_, h⟩
  change handleException sampleLayout x.1 (m.entry (Event.quiet m x)) = _
  cases hx : handleException sampleLayout x.1 (m.entry (Event.quiet m x)) with
  | error =>
      rw [hx] at hr
      exact absurd hr (by simp only [Except.toOption, reduceCtorEq, not_false_eq_true])
  | ok r =>
      rw [hx] at hr
      exact congrArg Except.ok (Option.some.inj hr)

/-- The first process waits for the clock, and so does the nucleus. -/
theorem deadlock_detected_iff_sample : ∃ es m e ctrl k,
    (nucleus sampleLayout sampleBoot).Run es m ∧
    handleException sampleLayout e.hw (m.entry e) = .ok (ctrl, k) ∧ NoCandidate ctrl k ∧
    DetectsDeadlock sampleLayout k (schedule e.hw k ctrl.pcb ctrl.enqueue) := by
  rcases exists_noCandidate (callHw CLOCKWAIT 0 0 0, .ignore)
    (fun k => (live k).Nonempty ∧ ∃ p ∈ live k, AwaitsInterrupt sampleLayout k p)
    (by decide +kernel) with ⟨es, m, e, ctrl, k, hrun, hok, hk, hn, hl, ha⟩
  exact ⟨es, m, e, ctrl, k, hrun, hk, hn, (deadlock_detected_iff hrun hok hk hn hl).mpr ha⟩

/-- The only process waits on a semaphore of its own that is zero. The nucleus
    waits for an interrupt that cannot help instead of reporting the deadlock. -/
theorem deadlock_missed : ∃ es m e ctrl k,
    (nucleus sampleLayout sampleBoot).Run es m ∧ e.Ok sampleLayout m ∧
    handleException sampleLayout e.hw (m.entry e) = .ok (ctrl, k) ∧ NoCandidate ctrl k ∧
    (live k).Nonempty ∧
    (∀ p ∈ live k, (k.pcb p).pSemAdd ≠ none ∧ ¬ AwaitsInterrupt sampleLayout k p) ∧
    (∃ k' status, schedule e.hw k ctrl.pcb ctrl.enqueue = .wait k' status) ∧
    ¬ DetectsDeadlock sampleLayout k (schedule e.hw k ctrl.pcb ctrl.enqueue) := by
  rcases exists_noCandidate (callHw PASSEREN 0x20004000 0 0, .ignore)
    (fun k => (live k).Nonempty ∧
      ∀ p ∈ live k, (k.pcb p).pSemAdd ≠ none ∧ ¬ AwaitsInterrupt sampleLayout k p)
    (by decide +kernel) with ⟨es, m, e, ctrl, k, hrun, hok, hk, hn, hl, hall⟩
  have hwf := machineWf_run hrun
  have hh := handleException_spec hwf hok
  rw [hk] at hh
  rcases (waits_of_noCandidate (hh.ready hwf.between) hn hl).2 with ⟨k', status, hwait⟩
  refine ⟨es, m, e, ctrl, k, hrun, hok, hk, hn, hl, hall, ⟨k', status, hwait⟩, fun hd => ?_⟩
  have hrep := hd.reports hall
  rw [hwait] at hrep
  exact absurd hrep (by simp only [reduceCtorEq, not_false_eq_true])

end Pandos
