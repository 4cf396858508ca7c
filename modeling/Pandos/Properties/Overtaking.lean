import Pandos.Properties.Scheduling
import Pandos.Properties.TimeSlices

/-!
# Waiting for the Processor

A process in a ready queue, watched until it is dispatched or dies. `schedule`
takes processes from the head of a queue, handlers and `schedule` itself put
them at its end, and a subtree that is killed leaves the queue without changing
the order of the others. So whoever is taken from the queue before the process
stood ahead of it from the beginning, and each of those is taken at most once.

A process that only goes on after its exception is not taken from a queue.

## Main definitions

* `turnOf`: The queue an exception takes its next process from.
* `waitingRuns`: The runs in which a process waits, with those taken from its
  queue.

## Theorems

* `ahead_step`: One exception.
* `no_overtaking`: Whole runs.
-/

namespace Pandos

open TwoLevel

section Overtaking

variable {L : Layout} {b : Boot} {m m' : Machine} {e : Event} {p : PcbId} {l : Bool}
  {xs : List PcbId}

/-- The queue `schedule` takes the next process from after an exception, if it
    takes one from a queue. -/
def turnOf (L : Layout) (m : Machine) (e : Event) : Option Bool :=
  match handleException L e.hw (m.entry e) with
  | .ok (ctrl, k) => (ready k).turn (isHigh k) ctrl.pcb ctrl.enqueue
  | .error _ => none

/-- The process an exception takes from one of the queues. -/
def takenFrom (L : Layout) (l : Bool) (m : Machine) (e : Event) (m' : Machine) : List PcbId :=
  if turnOf L m e = some l then m'.kernel.activeProcess.toList else []

/-- `schedule` leaves the list of free blocks alone. -/
theorem free_of_scheduled {hw : Hw} {k k' : Kernel} {o : Outcome} (h : Scheduled hw k o)
    (hnext : o.next = some k') : k'.procq .pcbFree = k.procq .pcbFree := by
  cases h with
  | run hk =>
      rw [Outcome.next, Option.some.injEq] at hnext
      exact hnext ▸ hk.free
  | wait hk =>
      rw [Outcome.next, Option.some.injEq] at hnext
      exact hnext ▸ hk.free
  | halt => cases hnext

/-- One exception lets nobody overtake a process that waits. -/
theorem ahead_step (hwf : MachineWf L m) (hstep : (nucleus L b).step m e m')
    (h : (ready m.kernel).Ahead l p xs) (hp : m'.kernel.activeProcess ≠ some p)
    (hlive : p ∉ m'.kernel.procq .pcbFree) : ∃ ys, (ready m'.kernel).Ahead l p ys ∧
      (takenFrom L l m e m' ++ ys).Sublist xs := by
  rcases hstep with ⟨hok, k', hnext, rfl⟩
  have hh := handleException_spec hwf hok
  unfold Machine.outcome exceptionHandler at hnext
  unfold takenFrom turnOf
  rcases hr : handleException L e.hw (m.entry e) with x | ⟨ctrl, k⟩ <;> rw [hr] at hh hnext
  · -- A context is loaded, and the ready queues are what they were.
    cases x with
    | panic => exact absurd hnext (by simp only [Outcome.next, reduceCtorEq, not_false_eq_true])
    | trap => exact absurd hnext (by simp only [Outcome.next, reduceCtorEq, not_false_eq_true])
    | fault => exact absurd hnext (by simp only [Outcome.next, reduceCtorEq, not_false_eq_true])
    | diverge => exact absurd hnext (by simp only [Outcome.next, reduceCtorEq, not_false_eq_true])
    | loadContext k ctx =>
        simp only [Outcome.next, Option.some.injEq] at hnext
        subst hnext
        have ht := (hh.context hwf.between).2.1
        have hready : ready k = ready m.kernel := by
          rw [ready, ready, ht.same.procq, ht.yield]
          rfl
        refine ⟨xs, ?_, ?_⟩
        · change (ready k).Ahead l p xs
          rw [hready]
          exact h
        · simp only [reduceCtorEq, if_false, List.nil_append]
          exact List.Sublist.refl _
  · have hc := hh.changed hwf.between
    have hready := hh.ready hwf.between
    have hcall := step_of_call hc hready hnext []
    change _ = (((ready m.kernel).change _).schedule _ _ _ |>.2,
      (((ready m.kernel).change _).schedule _ _ _).1.toList ++ []) at hcall
    rw [Prod.mk.injEq, List.append_nil, List.append_nil] at hcall
    rcases hcall with ⟨hlists, hactive⟩
    -- Between the handler and the end of `schedule` nobody dies.
    have hgone : p ∉ k.procq .pcbFree := by
      rw [← free_of_scheduled (schedule_spec hready) hnext]
      exact hlive
    have hother : (((ready m.kernel).change (callOf m.kernel k ctrl.pcb ctrl.enqueue)).schedule
        (isHigh k) ctrl.pcb ctrl.enqueue).1 ≠ some p := by
      intro hp'
      rw [callOf] at hp'
      refine hp ?_
      have hlist : k'.activeProcess.toList = [p] := hactive.trans (by rw [callOf, hp']; rfl)
      change k'.activeProcess = some p
      rw [← Option.mem_toList, hlist]
      exact List.mem_singleton_self p
    rcases h.call (callOf m.kernel k ctrl.pcb ctrl.enqueue) hgone hother with ⟨ys, hys, hsub⟩
    refine ⟨ys, ?_, ?_⟩
    · change (ready k').Ahead l p ys
      rw [hlists]
      exact hys
    · change ((if (ready k).turn (isHigh k) ctrl.pcb ctrl.enqueue = some l then
        k'.activeProcess.toList else []) ++ ys).Sublist xs
      rw [hactive, ← hc.call ctrl.pcb ctrl.enqueue]
      exact hsub

/-- The runs in which a process waits in a queue behind the given ones, from a
    reachable state on, with the processes taken from its queue since then. It is
    neither dispatched nor killed. -/
def waitingRuns (L : Layout) (b : Boot) (l : Bool) (p : PcbId) (xs : List PcbId) :
    System (Machine × List PcbId) Event where
  init x := (∃ es, (nucleus L b).Run es x.1) ∧ (ready x.1.kernel).Ahead l p xs ∧ x.2 = []
  step x e x' := (nucleus L b).step x.1 e x'.1 ∧ x'.1.kernel.activeProcess ≠ some p ∧
    p ∉ x'.1.kernel.procq .pcbFree ∧ x'.2 = x.2 ++ takenFrom L l x.1 e x'.1

/-- In every run a process that waits in a ready queue stays there until it is
    dispatched or dies, whoever was taken from its queue before it stood ahead of
    it, and they were taken in the order in which they stood there, each at most
    once, before those who are still ahead. -/
theorem no_overtaking {es : List Event} {taken : List PcbId}
    (h : (waitingRuns L b l p xs).Run es (m, taken)) :
    ∃ ys, (ready m.kernel).Ahead l p ys ∧ (taken ++ ys).Sublist xs := by
  have hinv : (∃ es, (nucleus L b).Run es m) ∧
      ∃ ys, (ready m.kernel).Ahead l p ys ∧ (taken ++ ys).Sublist xs := by
    refine System.run_invariant (P := fun x => (∃ es, (nucleus L b).Run es x.1) ∧
      ∃ ys, (ready x.1.kernel).Ahead l p ys ∧ (x.2 ++ ys).Sublist xs) (fun x hx => ?_)
      (fun es x e x' _ hx hs => ?_) h
    · rcases hx with ⟨hrun, hahead, htaken⟩
      refine ⟨hrun, xs, hahead, ?_⟩
      rw [htaken, List.nil_append]
    · rcases hx with ⟨⟨es₀, hrun⟩, ys, hahead, hsub⟩
      rcases hs with ⟨hstep, hp, hlive, htaken⟩
      rcases ahead_step (machineWf_run hrun) hstep hahead hp hlive with ⟨zs, hzs, hsub'⟩
      refine ⟨⟨_, System.Run.step hrun hstep⟩, zs, hzs, ?_⟩
      rw [htaken, List.append_assoc]
      exact ((List.append_sublist_append_left _).mpr hsub').trans hsub
  exact hinv.2

end Overtaking

/-- Two processes wait, and the first one of them is dispatched. -/
theorem no_overtaking_sample : ∃ es m ys,
    (waitingRuns sampleLayout sampleBoot false 17 [18]).Run es (m, [18]) ∧
    (ready m.kernel).Ahead false 17 ys ∧ ([18] ++ ys).Sublist [18] := by
  rcases exists_run (L := sampleLayout) (b := sampleBoot)
    [(callHw CREATEPROCESS 0x20002000 0 0x20003000, .ignore),
      (callHw CREATEPROCESS 0x20002000 0 0x20003000, .ignore)]
    (fun m => (Event.quiet m yieldCall).Ok sampleLayout m ∧
      m.kernel.procq .readyQueueLo = [18, 17] ∧
      turnOf sampleLayout m (Event.quiet m yieldCall) = some false ∧
      (m.outcome sampleLayout (Event.quiet m yieldCall)).dispatched.any (fun k =>
        decide (k.activeProcess = some 18 ∧ 17 ∉ k.procq .pcbFree)) = true)
    (by decide +kernel) with ⟨es, m, hrun, hok, hlo, hturn, hout⟩
  rcases run_of_dispatched hout with ⟨k, hk, hall⟩
  rw [decide_eq_true_iff] at hall
  have hstart : (waitingRuns sampleLayout sampleBoot false 17 [18]).Run [] (m, []) :=
    System.Run.init ⟨⟨es, hrun⟩, ⟨[], hlo⟩, rfl⟩
  have htaken : takenFrom sampleLayout false m (Event.quiet m yieldCall)
      (m.after (Event.quiet m yieldCall) k) = [18] := by
    rw [takenFrom, if_pos hturn]
    change k.activeProcess.toList = [18]
    rw [hall.1]
    rfl
  have hstep : (waitingRuns sampleLayout sampleBoot false 17 [18]).Run
      [Event.quiet m yieldCall] (m.after (Event.quiet m yieldCall) k, [18]) := by
    refine System.Run.step hstart ⟨⟨hok, k, by rw [hk]; rfl, rfl⟩, ?_, hall.2, ?_⟩
    · change k.activeProcess ≠ some 17
      rw [hall.1]
      decide
    · rw [List.nil_append, htaken]
  rcases no_overtaking hstep with ⟨ys, hahead, hsub⟩
  exact ⟨_, _, ys, hstep, hahead, hsub⟩

end Pandos
