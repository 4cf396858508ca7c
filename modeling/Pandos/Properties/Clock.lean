import Pandos.Theory.Replay

/-!
# Waiting for the Clock

`CLOCKWAIT` is a `P` on the timer semaphore, and the interrupt of the interval
timer calls `V` until the value is one. That wakes every waiter, but it leaves
the value at one, so the first `CLOCKWAIT` after a tick does not wait at all.

Processes touch the timer semaphore through `CLOCKWAIT` only here.

## Main definitions

* `ClockWait`, `Tick`: The two exceptions the clock is about.
* `clockRuns`: The runs in which only `CLOCKWAIT` touches the timer semaphore.
* `Punctual`: A call waits for the next tick, and a tick wakes every waiter.

## Theorems

* `clock_idle`: Nobody waits while the value is one.
* `left_on_tick`: Only a tick releases waiters.
* `tick_releases`: A tick releases all of them.
* `blocks_iff`: A call waits exactly when the value is zero.
* `clockwait_punctual_iff`: In every run the next exception is punctual exactly
  when it is no call at value one.
* `clockwait_returns_at_once`: A call after a tick does not wait.
-/

namespace Pandos

/-- The exception is a `CLOCKWAIT` of the active process. -/
abbrev ClockWait (m : Machine) (e : Event) : Prop := KernelCall CLOCKWAIT m e

/-- The exception is an interrupt of the interval timer. -/
def Tick (e : Event) : Prop :=
  excClass e.hw.cause = .interrupt ∧ intClass e.hw.cause = .tick

/-- The exception touches the timer semaphore through `CLOCKWAIT` only. -/
def LeavesClock (L : Layout) (m : Machine) (e : Event) : Prop :=
  ∀ op, asked L m e = some (op, getTimerSemaphore L) → ClockWait m e

/-- The runs in which processes touch the timer semaphore through `CLOCKWAIT`
    only. -/
def clockRuns (L : Layout) (b : Boot) : System Machine Event :=
  (nucleus L b).restrict (LeavesClock L)

/-- A call of `CLOCKWAIT` puts its caller at the end of the queue of the timer
    semaphore, whoever leaves this queue alive leaves it on a tick, and a tick
    makes all that wait there ready. -/
structure Punctual (L : Layout) (m : Machine) (e : Event) : Prop where
  waits : ClockWait m e → ∃ p k, m.kernel.activeProcess = some p ∧
    (m.outcome L e).next = some k ∧
    waiters k (getTimerSemaphore L) = waiters m.kernel (getTimerSemaphore L) ++ [p]
  leaves : ∀ k, (m.outcome L e).next = some k → ∀ q ∈ waiters m.kernel (getTimerSemaphore L),
    q ∉ waiters k (getTimerSemaphore L) → q ∉ k.procq .pcbFree → Tick e
  wakes : Tick e → ∀ q ∈ waiters m.kernel (getTimerSemaphore L), ∃ k,
    (m.outcome L e).next = some k ∧ waiters k (getTimerSemaphore L) = [] ∧
    (q ∈ k.procq .readyQueueHi ∨ q ∈ k.procq .readyQueueLo ∨ k.activeProcess = some q)

theorem asked_clock {L : Layout} {m : Machine} {e : Event} (h : ClockWait m e) :
    asked L m e = some (.P, getTimerSemaphore L) := by
  rcases h with ⟨hc, hp, hid, hu⟩
  rw [asked, if_pos ⟨hc, hp⟩, semRequest_clock hu hid]

section Clock

variable {L : Layout} {m : Machine} {e : Event}

theorem timer_unchanged (hok : e.Ok L m) :
    e.mem (getTimerSemaphore L) = m.kernel.mem (getTimerSemaphore L) :=
  hok.mem _ (Nat.lt_succ_self 48)

/-- Nobody but a caller of `CLOCKWAIT` operates on the timer semaphore. -/
theorem Why.clockWait (hl : LeavesClock L m e) {op : SemOp} {a : Word} {bus : List (Word × Word)}
    (h : Why L m e op a bus) (ha : a = getTimerSemaphore L) : op = .P ∧ ClockWait m e := by
  subst ha
  rcases h.asked with ⟨p, _, hask⟩ | ⟨_, u, hu⟩
  · have hcall := hl op hask
    rw [asked_clock hcall, Option.some.injEq, Prod.mk.injEq] at hask
    exact ⟨hask.1.symm, hcall⟩
  · exact absurd hu.symm (semAddr_ne_timer L u)

/-- Nobody waits for the clock while its semaphore is one. -/
def ClockIdle (L : Layout) (k : Kernel) : Prop :=
  k.mem (getTimerSemaphore L) = 1 → waiters k (getTimerSemaphore L) = []

/-- One exception keeps the queue empty while the semaphore is one. -/
theorem Effect.clockIdle (hok : e.Ok L m) (hl : LeavesClock L m e)
    (hidle : ClockIdle L m.kernel) {k : Kernel} (h : Effect L m e k) : ClockIdle L k := by
  have hmem₀ := timer_unchanged hok
  have hold : ∀ {k : Kernel}, k.mem = e.mem → k.mem (getTimerSemaphore L) = 1 →
      waiters m.kernel (getTimerSemaphore L) = [] := by
    intro k hmem hv
    rw [hmem, hmem₀] at hv
    exact hidle hv
  intro hv
  cases h with
  | still _ _ hwait hmem => rw [hwait, hold hmem hv]
  | create _ _ hwait hmem => rw [hwait, hold hmem hv]
  | kill _ _ _ _ hwait hmem =>
      rw [hwait, hold hmem hv]
      rfl
  | @block op a bus p why _ hb _ hwait hmem =>
      by_cases ha : a = getTimerSemaphore L
      · rcases why.clockWait hl ha with ⟨rfl, _⟩
        rw [hmem, ← ha, hb] at hv
        exact absurd hv (by decide)
      · rw [hwait, if_neg (fun h => ha h.symm), hold hmem hv]
  | @wake op a bus t ts why ht _ _ hwait hmem =>
      by_cases ha : a = getTimerSemaphore L
      · rw [ha, hold hmem hv] at ht
        exact absurd ht (List.cons_ne_nil t ts).symm
      · rw [hwait, if_neg (fun h => ha h.symm), hold hmem hv]
  | @change op a bus why hn _ _ hwait hmem =>
      by_cases ha : a = getTimerSemaphore L
      · rw [hwait, ← ha, hn]
      · rw [hmem] at hv
        simp only [if_neg (fun h : getTimerSemaphore L = a => ha h.symm)] at hv
        rw [hmem₀] at hv
        rw [hwait, hidle hv]
  | drain _ _ _ _ hwait => rw [hwait, if_pos rfl]

/-- Whoever leaves the queue of the timer semaphore alive leaves it on a tick. -/
theorem left_on_tick (hok : e.Ok L m) (hl : LeavesClock L m e) (hwf : MachineWf L m)
    (hidle : ClockIdle L m.kernel) {k : Kernel} (h : Effect L m e k) {q : PcbId}
    (hq : q ∈ waiters m.kernel (getTimerSemaphore L))
    (hgone : q ∉ waiters k (getTimerSemaphore L)) (hlive : q ∉ k.procq .pcbFree) : Tick e := by
  cases h with
  | still _ _ hwait => exact absurd (by rw [hwait]; exact hq) hgone
  | create _ _ hwait => exact absurd (by rw [hwait]; exact hq) hgone
  | @kill t ks _ _ _ hfree hwait =>
      exfalso
      rw [hwait, List.mem_filter, not_and] at hgone
      have hks := hgone hq
      rw [decide_eq_true_iff, not_not] at hks
      rw [hfree, List.mem_append, not_or] at hlive
      exact hlive.1 hks
  | @block op a bus p why _ _ _ hwait =>
      refine absurd ?_ hgone
      rw [hwait]
      by_cases ha : getTimerSemaphore L = a
      · rw [if_pos ha, ← ha]
        exact List.mem_append_left _ hq
      · rw [if_neg ha]
        exact hq
  | @wake op a bus t ts why ht hv _ hwait =>
      by_cases ha : a = getTimerSemaphore L
      · -- A call at value one finds nobody.
        rcases why.clockWait hl ha with ⟨rfl, _⟩
        rw [ha, timer_unchanged hok] at hv
        rw [ha, hidle (hwf.timer.resolve_left hv)] at ht
        exact absurd ht (List.cons_ne_nil t ts).symm
      · refine absurd ?_ hgone
        rw [hwait, if_neg (fun h => ha h.symm)]
        exact hq
  | change _ _ _ _ hwait => exact absurd (by rw [hwait]; exact hq) hgone
  | drain hc hi => exact ⟨hc, hi⟩

/-- The queues after a tick: that of the timer semaphore is empty, the others
    are as they were. -/
theorem tick_queues (hok : e.Ok L m) (hwf : MachineWf L m) (hidle : ClockIdle L m.kernel)
    (ht : Tick e) {ctrl : SchedulerControl} {k : Kernel} (h : Handled L m e (.ok (ctrl, k))) :
    k.procq .pcbFree = m.kernel.procq .pcbFree ∧ ∀ a, waiters k a =
      if a = getTimerSemaphore L then [] else waiters m.kernel a := by
  have hfree : (charged m e).procq .pcbFree = m.kernel.procq .pcbFree :=
    (base_charged hwf.between e).free
  cases h.interrupted ht.1 with
  | resume _ hi => exact absurd (hi.symm.trans ht.2) IntClass.noConfusion
  | tick _ _ hd =>
      rcases hd with ⟨_, hd⟩ | ⟨hone, rfl⟩
      · refine ⟨hd.frame.free.trans hfree, fun a => ?_⟩
        by_cases ha : a = getTimerSemaphore L
        · rw [if_pos ha, ha, hd.none]
        · rw [if_neg ha, hd.other a ha, charged_waiters]
      · rw [charged_mem, timer_unchanged hok] at hone
        refine ⟨hfree, fun a => ?_⟩
        rw [charged_waiters]
        by_cases ha : a = getTimerSemaphore L
        · rw [if_pos ha, ha, hidle hone]
        · rw [if_neg ha]
  | device hi => exact absurd (hi.symm.trans ht.2) IntClass.noConfusion

theorem tick_handled (ht : Tick e) {r : Result (SchedulerControl × Kernel)}
    (h : Handled L m e r) : ∃ ctrl k, r = .ok (ctrl, k) := by
  cases h.interrupted ht.1 with
  | resume => exact ⟨_, _, rfl⟩
  | tick => exact ⟨_, _, rfl⟩
  | device hi => exact absurd (hi.symm.trans ht.2) IntClass.noConfusion
  | unexpected hi => exact absurd (hi.symm.trans ht.2) IntClass.noConfusion

/-- A tick releases every waiter of the timer semaphore. -/
theorem tick_releases (hok : e.Ok L m) (hwf : MachineWf L m) (hidle : ClockIdle L m.kernel)
    (ht : Tick e) {q : PcbId} (hq : q ∈ waiters m.kernel (getTimerSemaphore L)) :
    ∃ k, (m.outcome L e).next = some k ∧ waiters k (getTimerSemaphore L) = [] ∧
      (q ∈ k.procq .readyQueueHi ∨ q ∈ k.procq .readyQueueLo ∨ k.activeProcess = some q) := by
  have hasl := hwf.between.at_.wf.asl
  have hlive := not_free_of_mem_waiters hasl hq
  have hend := outcome_spec hwf hok
  generalize m.outcome L e = o at hend
  have hafter : ∀ {ctrl : SchedulerControl} {k₁ k : Kernel}, Handled L m e (.ok (ctrl, k₁)) →
      Kept k₁ k → Between k → waiters k (getTimerSemaphore L) = [] ∧
      (q ∈ k.procq .readyQueueHi ∨ q ∈ k.procq .readyQueueLo ∨ k.activeProcess = some q) := by
    intro ctrl k₁ k hh hkept hbet
    rcases tick_queues hok hwf hidle ht hh with ⟨hfree, hwait⟩
    have hlive' : q ∉ k.procq .pcbFree := by
      rw [hkept.free, hfree]
      exact hlive
    refine ⟨by rw [hkept.waiters, hwait, if_pos rfl], hbet.ready_or_active hlive' ?_⟩
    -- If it waited now, it would have waited for two semaphores before.
    cases hs : (k.pcb q).pSemAdd with
    | none => rfl
    | some a =>
        exfalso
        have hmem := mem_waiters_of_semAdd hbet.at_.wf.asl hs hlive'
        rw [hkept.waiters, hwait] at hmem
        by_cases ha : a = getTimerSemaphore L
        · rw [if_pos ha] at hmem
          exact List.not_mem_nil hmem
        · rw [if_neg ha] at hmem
          exact ha (Option.some.inj
            ((semAdd_of_mem_waiters hasl hmem).symm.trans (semAdd_of_mem_waiters hasl hq)))
  cases hend with
  | @scheduled ctrl k₁ _ hh _ hs =>
      cases hs with
      | run hkept hbet => exact ⟨_, rfl, hafter hh hkept hbet⟩
      | wait hkept hbet => exact ⟨_, rfl, hafter hh hkept hbet⟩
      | halt hkept hdead =>
          rw [← (tick_queues hok hwf hidle ht hh).1, ← hkept.free, ← mem_live, hdead] at hlive
          exact absurd hlive (Finset.notMem_empty q)
  | context hh =>
      rcases tick_handled ht hh with ⟨_, _, heq⟩
      exact absurd heq (by simp only [reduceCtorEq, not_false_eq_true])
  | panic hh =>
      rcases tick_handled ht hh with ⟨_, _, heq⟩
      exact absurd heq (by simp only [reduceCtorEq, not_false_eq_true])

/-- A call waits exactly when the value of the timer semaphore is zero. -/
theorem blocks_iff (hok : e.Ok L m) (hwf : MachineWf L m)
    (hcall : ClockWait m e) : (∃ p k, m.kernel.activeProcess = some p ∧
      (m.outcome L e).next = some k ∧
      waiters k (getTimerSemaphore L) = waiters m.kernel (getTimerSemaphore L) ++ [p]) ↔
      m.kernel.mem (getTimerSemaphore L) = 0 := by
  have hask := asked_clock (L := L) hcall
  have hsome : asked L m e ≠ none := by
    rw [hask]
    exact Option.some_ne_none _
  -- The operation the exception carries out is the one of the call.
  have hwhy : ∀ {op a bus}, Why L m e op a bus → a = getTimerSemaphore L ∧ op = .P := by
    intro op a bus h
    rcases h.asked with ⟨_, _, h⟩ | ⟨h, _⟩
    · rw [hask, Option.some.injEq, Prod.mk.injEq] at h
      exact ⟨h.2.symm, h.1.symm⟩
    · exact absurd h hsome
  constructor
  · rintro ⟨p, k, _, hk, hwait'⟩
    have hlen := congrArg List.length hwait'
    rw [List.length_append, List.length_singleton] at hlen
    cases (effect_of_next hwf hok hk).1 with
    | still h => exact absurd h hsome
    | create h => exact absurd h hsome
    | kill h => exact absurd h hsome
    | block why _ hv =>
        rcases hwhy why with ⟨rfl, rfl⟩
        rw [← timer_unchanged hok]
        exact hv
    | wake why ht _ _ hwait =>
        rcases hwhy why with ⟨rfl, rfl⟩
        rw [hwait, if_pos rfl, ht, List.length_cons] at hlen
        omega
    | change why _ _ _ hwait =>
        rw [hwait] at hlen
        omega
    | drain hc => exact absurd (asked_other (by rw [hc]; exact ExcClass.noConfusion)) hsome
  · intro hzero
    rcases next_of_asked hwf hok hsome with ⟨k, hk⟩
    rw [← timer_unchanged hok] at hzero
    cases (effect_of_next hwf hok hk).1 with
    | still h => exact absurd h hsome
    | create h => exact absurd h hsome
    | kill h => exact absurd h hsome
    | block why hp _ _ hwait =>
        rcases hwhy why with ⟨rfl, rfl⟩
        exact ⟨_, k, hp, hk, by rw [hwait, if_pos rfl]⟩
    | wake why _ hv =>
        rcases hwhy why with ⟨rfl, rfl⟩
        exact absurd hzero hv
    | change why _ hv =>
        rcases hwhy why with ⟨rfl, rfl⟩
        exact absurd hzero hv
    | drain hc => exact absurd (asked_other (by rw [hc]; exact ExcClass.noConfusion)) hsome

end Clock

/-! ## Runs -/

/-- Nobody waits for the clock while its semaphore is one, in every run. -/
theorem clock_idle {L : Layout} {b : Boot} {es : List Event} {m : Machine}
    (h : (clockRuns L b).Run es m) : ClockIdle L m.kernel := by
  refine System.run_invariant (P := fun m => ClockIdle L m.kernel) (fun m hm => ?_)
    (fun es m e m' hrun hidle hstep => ?_) h
  · intro hv
    have hz : m.kernel.mem (getTimerSemaphore L) = 0 := main_mem hm.1 (Nat.lt_succ_self 48)
    rw [hz] at hv
    exact absurd hv (by decide)
  · rcases hstep with ⟨⟨hok, k, hk, rfl⟩, hl⟩
    have hwf := machineWf_run (System.run_of_restrict hrun)
    exact (effect_of_next hwf hok hk).1.clockIdle hok hl hidle

/-- In every run in which processes touch the timer semaphore through
    `CLOCKWAIT` only, the next exception is punctual if and only if it is no call
    made while the value of the timer semaphore is not zero. -/
theorem clockwait_punctual_iff {L : Layout} {b : Boot} {es : List Event} {m : Machine}
    (h : (clockRuns L b).Run es m) {e : Event} (hok : e.Ok L m) (hl : LeavesClock L m e) :
    Punctual L m e ↔ (ClockWait m e → m.kernel.mem (getTimerSemaphore L) = 0) := by
  have hwf := machineWf_run (System.run_of_restrict h)
  have hidle := clock_idle h
  constructor
  · intro hp hcall
    exact (blocks_iff hok hwf hcall).mp (hp.waits hcall)
  · intro hz
    refine ⟨fun hcall => (blocks_iff hok hwf hcall).mpr (hz hcall), fun k hk q hq hgone hlive => ?_,
      fun ht q hq => tick_releases hok hwf hidle ht hq⟩
    exact left_on_tick hok hl hwf hidle (effect_of_next hwf hok hk).1 hq hgone hlive

/-! ## A call after a tick -/

/-- The interrupt of the interval timer. -/
def tick : Hw × Accept := (interruptHw IL_TIMER 0 { status := 1, transmStatus := 1 }, .ignore)

/-- A call of `CLOCKWAIT`. -/
def clockWait : Hw × Accept := (callHw CLOCKWAIT 0 0 0, .ignore)

/-- A call of `CREATEPROCESS`. -/
def createSecond : Hw × Accept := (callHw CREATEPROCESS 0x20002000 0 0x20003000, .ignore)

theorem leavesClock_tick (L : Layout) (m : Machine) : LeavesClock L m (Event.quiet m tick) := by
  intro op hask
  have hc : excClass tick.1.cause ≠ .syscall := by decide
  have hnone : asked L m (Event.quiet m tick) = none := asked_other hc
  rw [hnone] at hask
  exact absurd hask (by simp only [reduceCtorEq, not_false_eq_true])

theorem leavesClock_wait (L : Layout) (m : Machine) :
    LeavesClock L m (Event.quiet m clockWait) := by
  intro op hask
  have hc : excClass clockWait.1.cause = .syscall := by decide
  have hid : (clockWait.1.bios.gpr .a0).toInt = CLOCKWAIT := by decide
  have hu : isUserMode clockWait.1.bios = false := by decide
  refine ⟨hc, fun hn => ?_, hid, hu⟩
  rw [asked, if_neg (fun h => h.2 hn)] at hask
  exact absurd hask (by simp only [reduceCtorEq, not_false_eq_true])

/-- A call with another number leaves the clock alone. -/
theorem leavesClock_create (L : Layout) (m : Machine) :
    LeavesClock L m (Event.quiet m createSecond) := by
  intro op hask
  have hid : (createSecond.1.bios.gpr .a0).toInt = CREATEPROCESS := by decide
  have hnone : semRequest L createSecond.1.bios = none := semRequest_other hid (by decide)
  have hbios : (Event.quiet m createSecond).hw.bios = createSecond.1.bios := rfl
  rw [asked, hbios, hnone, ite_self] at hask
  exact absurd hask (by simp only [reduceCtorEq, not_false_eq_true])

theorem exists_clock_run (xs : List (Hw × Accept))
    (hxs : ∀ x ∈ xs, ∀ m, LeavesClock sampleLayout m (Event.quiet m x))
    (P : Machine → Prop) [DecidablePred P]
    (h : ((Machine.start sampleLayout sampleBoot).bind (fun m => replay sampleLayout m xs)).any
      (fun m => decide (P m)) = true) :
    ∃ es m, (clockRuns sampleLayout sampleBoot).Run es m ∧ P m := by
  exact exists_run_of (S := clockRuns sampleLayout sampleBoot) (fun _ hm => init_of_start hm) xs
    (fun x hx m m' hok hn => ⟨step_iff_next.mpr ⟨hok, hn⟩, hxs x hx m⟩) P h

/-- After a tick the first process takes the value that was left, and the second
    one waits. Then another call of the first process is punctual, and so is
    another tick. -/
theorem clockwait_punctual_iff_sample : ∃ es m, (clockRuns sampleLayout sampleBoot).Run es m ∧
    waiters m.kernel (getTimerSemaphore sampleLayout) = [18] ∧
    ClockWait m (Event.quiet m clockWait) ∧ Tick (Event.quiet m tick) ∧
    Punctual sampleLayout m (Event.quiet m clockWait) ∧
    Punctual sampleLayout m (Event.quiet m tick) := by
  have hcalls : ∀ x ∈ [createSecond, tick, clockWait, clockWait], ∀ m,
      LeavesClock sampleLayout m (Event.quiet m x) := by
    simp only [List.forall_mem_cons, List.not_mem_nil, false_implies, implies_true, and_true]
    exact ⟨leavesClock_create _, leavesClock_tick _, leavesClock_wait _, leavesClock_wait _⟩
  rcases exists_clock_run [createSecond, tick, clockWait, clockWait] hcalls
    (fun m => (Event.quiet m clockWait).Ok sampleLayout m ∧ (Event.quiet m tick).Ok sampleLayout m ∧
      ClockWait m (Event.quiet m clockWait) ∧
      waiters m.kernel (getTimerSemaphore sampleLayout) = [18] ∧
      m.kernel.mem (getTimerSemaphore sampleLayout) = 0) (by decide +kernel) with
    ⟨es, m, hrun, hok, hok', hcall, hwait, hz⟩
  have htick : Tick (Event.quiet m tick) := by
    change excClass tick.1.cause = .interrupt ∧ intClass tick.1.cause = .tick
    decide
  exact ⟨es, m, hrun, hwait, hcall, htick,
    (clockwait_punctual_iff hrun hok (leavesClock_wait _ m)).mpr (fun _ => hz),
    (clockwait_punctual_iff hrun hok' (leavesClock_tick _ m)).mpr (fun _ => hz)⟩

/-- After a tick the caller goes on at once, although no other tick came. -/
theorem clockwait_returns_at_once : ∃ es m e k, (clockRuns sampleLayout sampleBoot).Run es m ∧
    e.Ok sampleLayout m ∧ LeavesClock sampleLayout m e ∧ ClockWait m e ∧
    m.kernel.activeProcess = some 19 ∧ (m.outcome sampleLayout e).next = some k ∧
    waiters k (getTimerSemaphore sampleLayout) = [] ∧ k.activeProcess = some 19 ∧
    ¬ Punctual sampleLayout m e := by
  rcases exists_clock_run [tick] (fun x hx => List.mem_singleton.mp hx ▸ leavesClock_tick _)
    (fun m => (Event.quiet m clockWait).Ok sampleLayout m ∧ ClockWait m (Event.quiet m clockWait) ∧
      m.kernel.activeProcess = some 19 ∧
      (m.outcome sampleLayout (Event.quiet m clockWait)).next.any (fun k =>
        decide (waiters k (getTimerSemaphore sampleLayout) = [] ∧
          k.activeProcess = some 19)) = true)
    (by decide +kernel) with ⟨es, m, hrun, hok, hcall, hact, hnext⟩
  rw [Option.any_eq_true] at hnext
  rcases hnext with ⟨k, hk, hdec⟩
  rw [decide_eq_true_iff] at hdec
  refine ⟨es, m, Event.quiet m clockWait, k, hrun, hok, leavesClock_wait _ m, hcall, hact, hk,
    hdec.1, hdec.2, fun hp => ?_⟩
  rcases hp.waits hcall with ⟨p, k', _, hk', hwait⟩
  rw [Option.some.inj (hk'.symm.trans hk), hdec.1] at hwait
  exact absurd hwait (List.append_ne_nil_of_right_ne_nil _ (List.cons_ne_nil p [])).symm

end Pandos
