import Pandos.Theory.Ready
import Pandos.Theory.Replay

/-!
# Scheduling Order

`schedule` as a first-in first-out scheduler with two priorities and a yield.
One call takes over the process the two-level scheduler dispatches and leaves
the ready queues as that scheduler does. Over a whole run, the processes that
were dispatched are those the two-level scheduler dispatches when it is told,
before each call, which processes died and which became ready in the meantime.

## Main definitions

* `RefinesCall`: What one call does, in terms of the two-level scheduler.
* `History`: The calls of a run and the processes they dispatched.
* `scheduled`: The nucleus with its history.

## Theorems

* `refinesCall`: Every call refines the one of the two-level scheduler.
* `history_system`: The history of a run is one of the two-level scheduler.
* `schedule_refines`: Both, for every call and for every run.
-/

namespace Pandos

open TwoLevel

/-- A call of `schedule` is one of the two-level scheduler. Whoever it
    dispatches is in neither queue, and nobody is left that yielded; the other
    processes keep their order; and a process that yielded goes on only when no
    other one is ready. -/
structure RefinesCall (hw : Hw) (k : Kernel) (pcb : Option PcbId) (enqueue : Bool) : Prop where
  follows : Follows hw k ((ready k).schedule (isHigh k) pcb enqueue) (schedule hw k pcb enqueue)
  out : ∀ k' p, schedule hw k pcb enqueue = .run k' → k'.activeProcess = some p →
    k'.yieldProcess = none ∧ p ∉ k'.procq .readyQueueHi ∧ p ∉ k'.procq .readyQueueLo
  order : ∀ k' p, schedule hw k pcb enqueue = .run k' → k'.activeProcess = some p →
    ((ready k).offer (isHigh k) pcb enqueue).hi.erase p <+: k'.procq .readyQueueHi ∧
    ((ready k).offer (isHigh k) pcb enqueue).lo.erase p <+: k'.procq .readyQueueLo
  again : ∀ k' y, k.yieldProcess = some y → schedule hw k pcb enqueue = .run k' →
    k'.activeProcess = some y → ((ready k).offer (isHigh k) pcb enqueue).hi = [] ∧
      ((ready k).offer (isHigh k) pcb enqueue).lo = []

/-- The calls of a run with the processes they dispatched, the latest ones
    first. -/
structure History where
  calls : List (Call PcbId)
  dispatched : List PcbId

/-- The first call of `schedule`, made by `main`. -/
def firstCall (L : Layout) (b : Boot) : Call PcbId := callOf (b.bss L) (init L b) none false

/-- An exception whose handler returns ends in a call of `schedule`. -/
def noteCall (L : Layout) (m : Machine) (e : Event) (m' : Machine) (r : History) : History :=
  match handleException L e.hw (m.entry e) with
  | .ok (ctrl, k) =>
    { calls := callOf m.kernel k ctrl.pcb ctrl.enqueue :: r.calls
      dispatched := m'.kernel.activeProcess.toList ++ r.dispatched }
  | .error _ => r

/-- The nucleus with its history. -/
def scheduled (L : Layout) (b : Boot) : System (Machine × History) Event :=
  (nucleus L b).observed
    (fun m => { calls := [firstCall L b], dispatched := m.kernel.activeProcess.toList })
    (noteCall L)

/-! ## One call -/

section Call

variable {hw : Hw} {k : Kernel}

/-- Nobody is ready twice, and a process that yielded is in no queue. -/
theorem wf_ready {s : Finset PcbId} (h : At k s) (hy : k.yieldProcess.toFinset ⊆ s) :
    (ready k).Wf := by
  refine ⟨fun l => ?_, fun p hhi hlo => ?_, fun p hp => ?_⟩
  · cases l with
    | true => exact h.wf.asl.procq.nodup .readyQueueHi
    | false => exact h.wf.asl.procq.nodup .readyQueueLo
  · exact absurd (h.wf.asl.procq.unique _ _ p hhi hlo)
      (by simp only [reduceCtorEq, not_false_eq_true])
  · have hnull : k.procq.Null p := h.null (hy (Option.mem_toFinset.mpr hp))
    exact ⟨hnull .readyQueueHi, hnull .readyQueueLo⟩

theorem wf_offer {pcb : Option PcbId} (h : Handed k pcb) (enqueue : Bool) :
    ((ready k).offer (isHigh k) pcb enqueue).Wf := by
  have hwf : (ready k).Wf := wf_ready h.at_ Finset.subset_union_right
  cases pcb with
  | none => exact hwf
  | some p =>
      cases enqueue with
      | false => exact hwf
      | true =>
          -- The process handed over stands in no queue until it is queued here.
          have hmem : p ∈ (some p).toFinset ∪ k.yieldProcess.toFinset :=
            Finset.mem_union_left _ (Finset.mem_singleton_self p)
          have henq := wf_ready (at_enqueueProcess h.at_ hmem) (fun r hr => by
            have hr' : r ∈ k.yieldProcess.toFinset := hr
            refine Finset.mem_erase.mpr ⟨?_, Finset.mem_union_right _ hr'⟩
            rintro rfl
            exact h.ne r rfl (Option.mem_toFinset.mp hr'))
          rw [ready_enqueueProcess (h.at_.null hmem)] at henq
          exact henq

/-- A call that dispatches a process ends in the state of the two-level
    scheduler. -/
theorem Follows.run {r : Option PcbId × TwoLevel PcbId} {k' : Kernel} {p : PcbId}
    (h : Follows hw k r (.run k')) (hp : k'.activeProcess = some p) : r = (some p, ready k') := by
  generalize ho : Outcome.run k' = o at h
  cases h with
  | @dispatch q k₁ hr ha =>
      rw [Outcome.run.injEq] at ho
      subst ho
      rw [hp, Option.some.injEq] at ha
      rw [hr, ha]
  | idle =>
      unfold waitOrDie schedulerWait at ho
      split at ho
      · exact absurd ho (by simp only [reduceCtorEq, not_false_eq_true])
      · split at ho <;> exact absurd ho (by simp only [reduceCtorEq, not_false_eq_true])

theorem refinesCall {pcb : Option PcbId} (h : Handed k pcb) (enqueue : Bool) :
    RefinesCall hw k pcb enqueue := by
  have hfollows := schedule_follows hw h enqueue
  have hwf := wf_offer h enqueue
  -- Whoever takes over was picked by the two-level scheduler.
  have hpick : ∀ {k' p}, schedule hw k pcb enqueue = .run k' → k'.activeProcess = some p →
      (ready k).pick (isHigh k) pcb enqueue = some p ∧
        ((ready k).schedule (isHigh k) pcb enqueue).2 = ready k' := by
    intro k' p hrun hp
    rw [hrun] at hfollows
    have hr := hfollows.run hp
    rw [← schedule_fst, hr]
    exact ⟨rfl, rfl⟩
  refine ⟨hfollows, fun k' p hrun hp => ?_, fun k' p hrun hp => ?_, fun k' y hy hrun hp => ?_⟩
  · rcases hpick hrun hp with ⟨hpk, hready⟩
    have hout := not_mem_schedule hwf hpk
    have hnone := yielded_schedule hpk
    rw [hready] at hout hnone
    exact ⟨hnone, hout true, hout false⟩
  · rcases hpick hrun hp with ⟨hpk, hready⟩
    have hpre := prefix_schedule hpk
    rw [hready] at hpre
    exact ⟨hpre true, hpre false⟩
  · have hne : pcb ≠ some y := fun hc => h.ne y hc hy
    exact idle_of_again hwf hy hne (hpick hrun hp).1

end Call

/-! ## Whole runs -/

section Run

variable {L : Layout} {b : Boot}

/-- One call in a run is a step of the two-level scheduler. -/
theorem step_of_call {hw : Hw} {k k₁ k' : Kernel} {ctrl : SchedulerControl} (hc : Changed k k₁)
    (hr : Ready ctrl k₁) (hnext : (schedule hw k₁ ctrl.pcb ctrl.enqueue).next = some k')
    (ds : List PcbId) :
    TwoLevel.system.step (ready k, ds) (callOf k k₁ ctrl.pcb ctrl.enqueue)
      (ready k', k'.activeProcess.toList ++ ds) := by
  have hfollows := schedule_follows hw hr.handed ctrl.enqueue
  have hsched : Scheduled hw k₁ _ := schedule_spec hr
  change _ = (((ready k).change _).schedule _ _ _ |>.2,
    (((ready k).change _).schedule _ _ _).1.toList ++ ds)
  rw [hc.call]
  change _ = (((ready k₁).schedule (isHigh k₁) ctrl.pcb ctrl.enqueue).2,
    ((ready k₁).schedule (isHigh k₁) ctrl.pcb ctrl.enqueue).1.toList ++ ds)
  generalize schedule hw k₁ ctrl.pcb ctrl.enqueue = o at hfollows hsched hnext
  cases hsched with
  | @run k₂ p _ _ hp _ =>
      rw [Outcome.next, Option.some.injEq] at hnext
      subst hnext
      rw [hfollows.run hp, hp]
  | @wait k₂ status hkept _ hp _ _ hlo hhi _ =>
      -- Nobody is ready, before and after.
      rw [Outcome.next, Option.some.injEq] at hnext
      subst hnext
      generalize ho : Outcome.wait k₂ status = o at hfollows
      cases hfollows with
      | dispatch => exact absurd ho (by simp only [reduceCtorEq, not_false_eq_true])
      | idle hidle =>
          have hready : ready k₂ = ready k₁ := by
            unfold waitOrDie schedulerWait at ho
            split at ho
            · exact absurd ho (by simp only [reduceCtorEq, not_false_eq_true])
            · split at ho
              · rw [Outcome.wait.injEq] at ho
                rw [ho.1]
                rfl
              · exact absurd ho (by simp only [reduceCtorEq, not_false_eq_true])
          rw [hidle, hready, hp]
  | halt => exact absurd hnext (by simp only [Outcome.next, reduceCtorEq, not_false_eq_true])

/-- What `main` does before the first call: the first process becomes ready. -/
theorem changed_init (L : Layout) (b : Boot) : Changed (b.bss L) (init L b) := by
  have hpcb := (init_spec L b).1.at_.wf.pcb
  have hnil : ∀ h, (b.bss L).procq h = [] := fun _ => rfl
  refine ⟨(init L b).procq .readyQueueHi ++ (init L b).procq .readyQueueLo, fun p _ => ?_, ?_, ?_⟩
  · rw [hnil, hnil]
    exact ⟨List.not_mem_nil, List.not_mem_nil⟩
  · rw [hnil, List.filter_nil, List.nil_append, List.filter_append, List.filter_eq_self.mpr,
      List.filter_eq_nil_iff.mpr, List.append_nil]
    · intro p hp
      rw [isHigh, hpcb.lo p hp]
      decide
    · intro p hp
      rw [isHigh, hpcb.hi p hp]
      decide
  · rw [hnil, List.filter_nil, List.nil_append, List.filter_append, List.filter_eq_nil_iff.mpr,
      List.filter_eq_self.mpr, List.nil_append]
    · intro p hp
      rw [isHigh, hpcb.lo p hp]
      decide
    · intro p hp
      rw [isHigh, hpcb.hi p hp]
      decide

/-- An exception is one call, or none if it was passed up. -/
theorem history_step {m m' : Machine} {e : Event} {r : History} (hwf : MachineWf L m)
    (hrun : TwoLevel.system.Run r.calls (ready m.kernel, r.dispatched))
    (hstep : (nucleus L b).step m e m') :
    TwoLevel.system.Run (noteCall L m e m' r).calls
      (ready m'.kernel, (noteCall L m e m' r).dispatched) := by
  rcases hstep with ⟨hok, k', hnext, rfl⟩
  have hh := handleException_spec hwf hok
  unfold Machine.outcome exceptionHandler at hnext
  unfold noteCall
  rcases hr : handleException L e.hw (m.entry e) with x | ⟨ctrl, k⟩ <;> rw [hr] at hh hnext
  · -- A context is loaded, and the ready queues are what they were.
    cases x with
    | panic => exact absurd hnext (by simp only [Outcome.next, reduceCtorEq, not_false_eq_true])
    | trap => exact absurd hnext (by simp only [Outcome.next, reduceCtorEq, not_false_eq_true])
    | fault => exact absurd hnext (by simp only [Outcome.next, reduceCtorEq, not_false_eq_true])
    | diverge => exact absurd hnext (by simp only [Outcome.next, reduceCtorEq, not_false_eq_true])
    | loadContext k ctx =>
        simp only [Outcome.next, Option.some.injEq] at hnext
        subst hnext
        have ht := (hh.context hwf.between).2.1
        have hready : ready k = ready m.kernel := by
          rw [ready, ready, ht.same.procq, ht.yield]
          rfl
        change TwoLevel.system.Run r.calls (ready k, r.dispatched)
        rw [hready]
        exact hrun
  · exact System.Run.step hrun
      (step_of_call (hh.changed hwf.between) (hh.ready hwf.between) hnext r.dispatched)

/-- The history of a run is a run of the two-level scheduler. -/
theorem history_system {es : List Event} {m : Machine} {r : History}
    (h : (scheduled L b).Run es (m, r)) :
    TwoLevel.system.Run r.calls (ready m.kernel, r.dispatched) := by
  refine System.run_invariant
    (P := fun s : Machine × History =>
      TwoLevel.system.Run s.2.calls (ready s.1.kernel, s.2.dispatched))
    (fun s hs => ?_) (fun es s e s' hrun ih hs => ?_) h
  · -- The run starts with the call of `main`, before which nobody was ready.
    rcases s with ⟨m, r⟩
    rcases hs with ⟨⟨hk, _⟩, hr⟩
    have hr' : r = { calls := [firstCall L b], dispatched := m.kernel.activeProcess.toList } := hr
    subst hr'
    have hstart : TwoLevel.system.Run [] (ready (b.bss L), ([] : List PcbId)) :=
      System.Run.init ⟨rfl, rfl, rfl, rfl⟩
    have hcall := step_of_call (changed_init L b) (init_spec L b).1 hk []
    rw [List.append_nil] at hcall
    exact System.Run.step hstart hcall
  · rcases s with ⟨m, r⟩
    rcases s' with ⟨m', r'⟩
    rcases hs with ⟨hstep, hr⟩
    have hr' : r' = noteCall L m e m' r := hr
    subst hr'
    exact history_step (machineWf_run (System.run_of_observed hrun)) ih hstep

end Run

/-- In every state in which the process handed over and the one that yielded are
    the only ones in no queue, a call of `schedule` is one of the two-level
    scheduler; and over every run of the nucleus the processes that were
    dispatched are those the two-level scheduler dispatches. -/
theorem schedule_refines :
    (∀ (hw : Hw) (k : Kernel) (pcb : Option PcbId) (enqueue : Bool), Handed k pcb →
      RefinesCall hw k pcb enqueue) ∧
    (∀ (L : Layout) (b : Boot) (es : List Event) (m : Machine) (r : History),
      (scheduled L b).Run es (m, r) →
      TwoLevel.system.Run r.calls (ready m.kernel, r.dispatched)) :=
  ⟨fun _ _ _ enqueue h => refinesCall h enqueue, fun _ _ _ _ _ h => history_system h⟩

/-- The call of `main`, and a run in which the first process yields to a second
    one. -/
theorem schedule_refines_sample :
    RefinesCall quietHw (init sampleLayout sampleBoot) none false ∧
    ∃ es m r, (scheduled sampleLayout sampleBoot).Run es (m, r) ∧
      m.kernel.activeProcess = some 18 ∧
      TwoLevel.system.Run r.calls (ready m.kernel, r.dispatched) := by
  have hhanded := (init_spec sampleLayout sampleBoot).1.handed
  refine ⟨schedule_refines.1 quietHw _ none false hhanded, ?_⟩
  rcases exists_run (L := sampleLayout) (b := sampleBoot)
    [(callHw CREATEPROCESS 0x20002000 0 0x20003000, .ignore), (callHw YIELD 0 0 0, .ignore)]
    (fun m => m.kernel.activeProcess = some 18) (by decide +kernel) with ⟨es, m, hrun, hp⟩
  rcases System.run_observed
    (fun m : Machine => ({ calls := [firstCall sampleLayout sampleBoot]
                           dispatched := m.kernel.activeProcess.toList } : History))
    (noteCall sampleLayout) hrun with ⟨r, hr⟩
  exact ⟨es, m, r, hr, hp, schedule_refines.2 sampleLayout sampleBoot es m r hr⟩

end Pandos
