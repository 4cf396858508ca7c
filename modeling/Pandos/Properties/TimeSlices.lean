import Pandos.Theory.Replay
import Pandos.Theory.States

/-!
# Time Slices

`scheduler_takeover` means to disable the local timer for processes of high
priority, and enables it for them instead. It leaves the status of all others
alone, so whether they are time-sliced is up to the status they were created
with or saved.

## Main definitions

* `Dispatch`: A dispatch, with the status that was last saved.
* `Sliced`: Only a process of low priority runs with the local timer.

## Theorems

* `dispatch_sliced_iff`: When the right status is loaded.
* `first_dispatch_unsliced`: It is not loaded at boot.
* `high_priority_sliced`: The local timer takes the processor from a process of
  high priority.
-/

namespace Pandos

/-- A dispatch of a process that was created with or last saved the given
    status: the one at boot, or one behind an exception. -/
inductive Dispatch (L : Layout) (b : Boot) (p : PcbId) : Word → Kernel → Prop
  | boot {k : Kernel} (h : main L b = .run k) (hp : k.activeProcess = some p) :
      Dispatch L b p ((init L b).pcb p).pS.status k
  | exception {es : List Event} {m : Machine} {e : Event} {k : Kernel}
      (hrun : (nucleus L b).Run es m) (hok : e.Ok L m) (h : m.outcome L e = .run k)
      (hp : k.activeProcess = some p) : Dispatch L b p (savedState m e p).status k

/-- The local timer is disabled for a process of high priority and enabled for
    one of low priority. -/
def Sliced (k : Kernel) (p : PcbId) : Prop :=
  (isHigh k p = true → (k.pcb p).pS.status &&& STATUS_TE = 0) ∧
    (isHigh k p = false → (k.pcb p).pS.status &&& STATUS_TE ≠ 0)

section TimeSlices

variable {L : Layout} {b : Boot}

theorem takeoverStatus_high {prio : Word} (h : prio ≠ 0) (status : Word) :
    takeoverStatus prio status &&& STATUS_TE ≠ 0 := by
  unfold takeoverStatus statusLocalTimerOn
  rw [if_pos h]
  intro hzero
  -- The bit of the local timer is set.
  have hbit := congrArg (fun w => BitVec.getLsbD w 27) hzero
  simp only [BitVec.getLsbD_and, BitVec.getLsbD_or] at hbit
  have hte : STATUS_TE.getLsbD 27 = true := by decide
  rw [hte, Bool.true_or, Bool.or_true] at hbit
  exact absurd hbit (by decide)

theorem takeoverStatus_low (status : Word) :
    takeoverStatus 0 status &&& STATUS_TE = status &&& STATUS_TE := by
  have hoff : STATUS_IEp &&& STATUS_TE = 0 := by decide
  have hzero : ∀ y : Word, y ||| 0 = y := fun y => BitVec.or_zero
  unfold takeoverStatus statusInterruptsOnProcess
  rw [if_neg (not_not_intro rfl), BitVec.and_comm, BitVec.and_or_distrib_left,
    BitVec.and_comm STATUS_TE STATUS_IEp, hoff, hzero, BitVec.and_comm]

/-- The scheduler decides by the priority whether it looks at the status. -/
theorem Loads.sliced_iff {k₁ k : Kernel} {p : PcbId} (h : Loads k₁ k p) {status : Word}
    (hs : (k₁.pcb p).pS.status &&& STATUS_TE = status &&& STATUS_TE) :
    Sliced k p ↔ isHigh k p = false ∧ status &&& STATUS_TE ≠ 0 := by
  have hstatus : (k.pcb p).pS.status =
      takeoverStatus (k₁.pcb p).pPrio (k₁.pcb p).pS.status := by
    rw [h.self]
    rfl
  have hprio : isHigh k p = ((k₁.pcb p).pPrio != 0) := by
    rw [isHigh, h.self]
    rfl
  unfold Sliced
  rw [hstatus]
  by_cases hhigh : isHigh k p = true
  · rw [hhigh]
    rw [hhigh] at hprio
    refine iff_of_false (fun hc => ?_) (fun hc => absurd hc.1 (by decide))
    exact takeoverStatus_high (bne_iff_ne.mp hprio.symm) _ (hc.1 rfl)
  · rw [Bool.not_eq_true] at hhigh
    rw [hhigh] at hprio
    have hzero : (k₁.pcb p).pPrio = 0 := by
      by_contra hne
      rw [bne_iff_ne.mpr hne] at hprio
      exact Bool.false_ne_true hprio
    rw [hhigh, hzero, takeoverStatus_low, hs]
    exact ⟨fun hc => ⟨rfl, hc.2 rfl⟩, fun hc => ⟨fun ht => absurd ht (by decide), fun _ => hc.2⟩⟩

/-- A process is loaded with the right status exactly if it has low priority and
    its own status enables the local timer. -/
theorem dispatch_sliced_iff {p : PcbId} {status : Word} {k : Kernel}
    (h : Dispatch L b p status k) :
    Sliced k p ↔ isHigh k p = false ∧ status &&& STATUS_TE ≠ 0 := by
  cases h with
  | boot h hp =>
      rcases schedule_run h with ⟨q, hloads⟩
      have hqp : q = p := Option.some.inj (hloads.active.symm.trans hp)
      subst hqp
      exact hloads.sliced_iff rfl
  | exception hrun hok h hp =>
      rcases dispatched (machineWf_run hrun) hok h hp with ⟨k₁, hmoved, hloads⟩
      exact hloads.sliced_iff hmoved.timer

/-- The first process starts with the local timer disabled. -/
theorem first_status (q : PcbId) (hq : q ∉ (init L b).procq .pcbFree) :
    ((init L b).pcb q).pS.status &&& STATUS_TE = 0 := by
  rcases initTables_blank L b with ⟨k, heq, hblank, -, -, -⟩
  unfold init at hq ⊢
  rw [heq] at hq ⊢
  cases hf : k.procq .pcbFree with
  | nil =>
      have hfree := hblank.free 0
      rw [hf] at hfree
      exact absurd hfree List.not_mem_nil
  | cons p ps =>
      rcases spawnProcess_some (blank_at hblank) (Or.inl rfl) hf with ⟨k', hspawn, hs, -⟩
      have hnull : statusKernelModeOnNucleus (statusInterruptsOnProcess nullState.status) &&&
          STATUS_TE = 0 := by decide
      have hself : (k'.pcb p).pS = nullState := by rw [hs.self]; rfl
      simp only [initProcess, hspawn, Kernel.modPcb] at hq ⊢
      by_cases hqp : q = p
      · simp only [if_pos hqp]
        rw [hself]
        exact hnull
      · -- Nobody else was created.
        exfalso
        rcases hs.free with ⟨cs, hcs, hcs'⟩
        have hmem := hblank.free q
        rw [hcs, List.mem_cons] at hmem
        rw [hcs'] at hq
        exact hq (hmem.resolve_left hqp)

/-- The first dispatch loads a process of low priority that is not time-sliced. -/
theorem first_dispatch_unsliced {k : Kernel} (h : main L b = .run k) {p : PcbId}
    (hp : k.activeProcess = some p) : ¬ Sliced k p := by
  have hnext : (main L b).next = some k := by rw [h]; rfl
  rcases main_kept hnext with ⟨hkept, hbet⟩
  have hlive : p ∉ (init L b).procq .pcbFree := by
    have hat := hbet.at_
    rw [hp] at hat
    rw [← hkept.free]
    exact hat.not_free (Finset.mem_singleton_self p)
  rcases schedule_run h with ⟨q, hloads⟩
  have hqp : q = p := Option.some.inj (hloads.active.symm.trans hp)
  subst hqp
  rw [hloads.sliced_iff rfl]
  exact fun hc => hc.2 (first_status q hlive)

end TimeSlices

/-! ## Samples -/

/-- The state a dispatch loads. -/
def Outcome.dispatched : Outcome → Option Kernel
  | .run k => some k
  | _ => none

theorem run_of_dispatched {o : Outcome} {f : Kernel → Bool} (h : o.dispatched.any f = true) :
    ∃ k, o = .run k ∧ f k = true := by
  cases o with
  | run k => exact ⟨k, rfl, h⟩
  | _ => exact absurd h Bool.false_ne_true

/-- A call of `YIELD`. -/
def yieldCall : Hw × Accept := (callHw YIELD 0 0 0, .ignore)

/-- An interrupt of the local timer. -/
def localTimer : Hw × Accept :=
  (interruptHw IL_CPUTIMER 0 { status := 1, transmStatus := 1 }, .ignore)

/-- The creation of a process that enables the local timer. -/
def createSliced : Hw × Accept :=
  ({ callHw CREATEPROCESS 0x20002000 PROCESS_PRIO_LOW 0x20003000 with
    readState := fun _ => { nullState with status := STATUS_TE } }, .ignore)

/-- The creation of a process of high priority. -/
def createHigh : Hw × Accept :=
  (callHw CREATEPROCESS 0x20002000 PROCESS_PRIO_HIGH 0x20003000, .ignore)

/-- A process of low priority that enables the local timer takes over. -/
theorem dispatch_sliced_sample : ∃ status k, Dispatch sampleLayout sampleBoot 18 status k ∧
    Sliced k 18 := by
  rcases exists_run (L := sampleLayout) (b := sampleBoot) [createSliced]
    (fun m => (Event.quiet m yieldCall).Ok sampleLayout m ∧
      (m.kernel.pcb 18).pS.status &&& STATUS_TE ≠ 0 ∧ m.kernel.activeProcess ≠ some 18 ∧
      (m.outcome sampleLayout (Event.quiet m yieldCall)).dispatched.any
        (fun k => k.activeProcess == some 18 && !isHigh k 18) = true)
    (by decide +kernel) with ⟨es, m, hrun, hok, hte, hact, hout⟩
  rcases run_of_dispatched hout with ⟨k, hk, hactive⟩
  rw [Bool.and_eq_true, Bool.not_eq_true'] at hactive
  have hd := Dispatch.exception hrun hok hk (beq_iff_eq.mp hactive.1)
  refine ⟨_, k, hd, (dispatch_sliced_iff hd).mpr ⟨hactive.2, ?_⟩⟩
  unfold savedState
  rw [if_neg hact]
  exact hte

/-- The first process creates two processes of high priority and yields. The one
    that takes over runs with the local timer enabled, and the interrupt of the
    local timer puts it behind the other one. -/
theorem high_priority_sliced : ∃ (m : Machine) (e : Event) (status : Word) (k k' : Kernel),
    Dispatch sampleLayout sampleBoot 18 status k ∧
    isHigh k 18 = true ∧ ¬ Sliced k 18 ∧
    (m.after e k).outcome sampleLayout (Event.quiet (m.after e k) localTimer) = .run k' ∧
    k'.activeProcess = some 17 ∧ k'.procq .readyQueueHi = [18] := by
  rcases exists_run (L := sampleLayout) (b := sampleBoot) [createHigh, createHigh]
    (fun m => (Event.quiet m yieldCall).Ok sampleLayout m ∧
      (m.outcome sampleLayout (Event.quiet m yieldCall)).dispatched.any (fun k =>
        decide (k.activeProcess = some 18 ∧ isHigh k 18 = true ∧
          (k.pcb 18).pS.status &&& STATUS_TE ≠ 0) &&
        ((m.after (Event.quiet m yieldCall) k).outcome sampleLayout
          (Event.quiet (m.after (Event.quiet m yieldCall) k) localTimer)).dispatched.any (fun k' =>
            decide (k'.activeProcess = some 17 ∧ k'.procq .readyQueueHi = [18]))) = true)
    (by decide +kernel) with ⟨es, m, hrun, hok, hout⟩
  rcases run_of_dispatched hout with ⟨k, hk, hall⟩
  rw [Bool.and_eq_true, decide_eq_true_iff] at hall
  rcases run_of_dispatched hall.2 with ⟨k', hk', hback⟩
  rw [decide_eq_true_iff] at hback
  rcases hall.1 with ⟨hactive, hhigh, hte⟩
  exact ⟨m, _, _, k, k', Dispatch.exception hrun hok hk hactive, hhigh,
    fun hsliced => hte (hsliced.1 hhigh), hk', hback.1, hback.2⟩

end Pandos
