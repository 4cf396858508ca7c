import Pandos.Theory.Ready
import Pandos.Theory.Replay

/-!
# Preemption by Interrupts

What an interrupt does to a process of low priority that it interrupts. The
handlers of the interval timer and of a device that somebody waits for return
`CONTROL_PRESERVE`, so the interrupted process goes on whoever was woken. The
handlers of a device nobody waits for return `CONTROL_RESCHEDULE`, so it loses
the processor to any other ready process, and an unexpected status of a terminal
ends in a panic.

## Main definitions

* `Interrupts`: A tick or a device interrupts a process of low priority.
* `Raised`: The handler woke a process of high priority.
* `Preempts`: A process of high priority preempts, and nobody else does.
* `Calm`: The interrupts after which this holds.

## Theorems

* `schedule_preserve`, `schedule_reschedule`: Who takes over after a handler.
* `preempts_iff`: When an interrupt does what it should.
* `preemption_missed`: A process of high priority is woken and has to wait.
-/

namespace Pandos

open TwoLevel

/-- The exception is a tick or the interrupt of a device, and the process it
    interrupts has low priority. -/
structure Interrupts (m : Machine) (e : Event) (p : PcbId) : Prop where
  active : m.kernel.activeProcess = some p
  low : isHigh m.kernel p = false
  cause : excClass e.hw.cause = .interrupt
  source : intClass e.hw.cause = .tick ∨ intClass e.hw.cause = .device

/-- The handler moved a process of high priority to its ready queue. -/
def Raised (m : Machine) (k : Kernel) : Prop :=
  ∃ q, isHigh k q = true ∧ q ∉ m.kernel.procq .readyQueueHi ∧ q ∈ k.procq .readyQueueHi

/-- If the handler woke a process of high priority, such a process takes over
    and the interrupted one is ready. Otherwise the interrupted one goes on. -/
def Preempts (L : Layout) (m : Machine) (e : Event) (p : PcbId) : Prop :=
  ∃ ctrl k k', handleException L e.hw (m.entry e) = .ok (ctrl, k) ∧ m.outcome L e = .run k' ∧
    (Raised m k → (∃ q, k'.activeProcess = some q ∧ isHigh k' q = true) ∧
      p ∈ k'.procq .readyQueueLo) ∧
    (¬ Raised m k → k'.activeProcess = some p)

/-- The tick releases nobody of high priority; or the device answers somebody of
    low priority, or it answers nobody while nobody is ready. -/
def Calm (L : Layout) (m : Machine) (e : Event) : Prop :=
  (intClass e.hw.cause = .tick ∧ (m.kernel.mem (getTimerSemaphore L) = 0 →
    ∀ q ∈ waiters m.kernel (getTimerSemaphore L), isHigh m.kernel q = false)) ∨
  (intClass e.hw.cause = .device ∧ ∃ u status, answer e.hw = some (u, status) ∧
    ((∃ t ts, waiters m.kernel (L.semAddr u) = t :: ts ∧ isHigh m.kernel t = false) ∨
      (waiters m.kernel (L.semAddr u) = [] ∧ m.kernel.procq .readyQueueHi = [] ∧
        m.kernel.procq .readyQueueLo = [])))

section Handler

variable {L : Layout} {m : Machine} {e : Event} {p : PcbId} {k : Kernel}

/-- After `CONTROL_PRESERVE` the process takes over whoever else is ready. -/
theorem schedule_preserve (hw : Hw) (h : Handed k (some p)) :
    ∃ k', schedule hw k (some p) false = .run k' ∧ k'.activeProcess = some p := by
  have hfollows := schedule_follows hw h false
  have hr : ((ready k).schedule (isHigh k) (some p) false).1 = some p := rfl
  generalize schedule hw k (some p) false = o at hfollows
  cases hfollows with
  | @dispatch q k' heq ha =>
      rw [heq, Option.some.injEq] at hr
      exact ⟨k', rfl, hr ▸ ha⟩
  | idle heq =>
      rw [heq] at hr
      exact absurd hr (Option.some_ne_none p).symm

/-- After `CONTROL_RESCHEDULE` a process of low priority takes over again only if
    nobody else is ready. -/
theorem schedule_reschedule (hw : Hw) (h : Handed k (some p)) (hlow : isHigh k p = false) :
    ∃ k' q, schedule hw k (some p) true = .run k' ∧ k'.activeProcess = some q ∧
      (q = p ↔ k.procq .readyQueueHi = [] ∧ k.procq .readyQueueLo = []) := by
  have hfollows := schedule_follows hw h true
  have hnull : k.procq.Null p := h.at_.null
    (Finset.mem_union_left _ (Finset.mem_singleton_self p))
  have hr : ((ready k).schedule (isHigh k) (some p) true).1
      = ((ready k).enqueue (isHigh k) p).next := schedule_fst _ _ _
  have hoffer : (ready k).enqueue (isHigh k) p
      = { ready k with lo := k.procq .readyQueueLo ++ [p] } := by
    simp only [TwoLevel.enqueue, hlow, Bool.false_eq_true, if_false, ready]
  -- The head of either queue comes first, and is another process.
  have hnext : ∃ q, ((ready k).enqueue (isHigh k) p).next = some q ∧
      (q = p ↔ k.procq .readyQueueHi = [] ∧ k.procq .readyQueueLo = []) := by
    rw [hoffer]
    cases hhi : k.procq .readyQueueHi with
    | cons q qs =>
        refine ⟨q, next_hi (s := { ready k with lo := k.procq .readyQueueLo ++ [p] }) hhi, ?_⟩
        refine iff_of_false (fun hq => hnull .readyQueueHi ?_) (fun hc => List.cons_ne_nil _ _ hc.1)
        rw [hhi, hq]
        exact List.mem_cons_self
    | nil =>
        cases hlo : k.procq .readyQueueLo with
        | cons q qs =>
            have hlist : q :: qs ++ [p] = q :: (qs ++ [p]) := rfl
            refine ⟨q, next_lo (s := { ready k with lo := q :: qs ++ [p] }) hhi hlist, ?_⟩
            refine iff_of_false (fun hq => hnull .readyQueueLo ?_)
              (fun hc => List.cons_ne_nil _ _ hc.2)
            rw [hlo, hq]
            exact List.mem_cons_self
        | nil =>
            exact ⟨p, next_lo (s := { ready k with lo := [] ++ [p] }) hhi (List.nil_append [p]),
              iff_of_true rfl ⟨rfl, rfl⟩⟩
  rcases hnext with ⟨q, hq, hiff⟩
  rw [hq] at hr
  generalize schedule hw k (some p) true = o at hfollows
  cases hfollows with
  | @dispatch r k' heq ha =>
      rw [heq, Option.some.injEq] at hr
      exact ⟨k', q, rfl, hr ▸ ha, hiff⟩
  | idle heq =>
      rw [heq] at hr
      exact absurd hr (Option.some_ne_none q).symm

/-- The processes a handler woke: it raised somebody if one of them has high
    priority. -/
theorem raised_iff {ws : List PcbId}
    (hr : Readied m.kernel ws k) (hprio : ∀ q, (k.pcb q).pPrio = (m.kernel.pcb q).pPrio)
    (hws : ∀ q ∈ ws, q ∉ m.kernel.procq .readyQueueHi) :
    Raised m k ↔ ∃ q ∈ ws, isHigh m.kernel q = true := by
  have hhigh := isHigh_congr hprio
  unfold Raised
  rw [hr.hi, hhigh]
  constructor
  · rintro ⟨q, hq, hout, hin⟩
    have hmem := (List.mem_append.mp hin).resolve_left hout
    exact ⟨q, List.mem_of_mem_filter hmem, hq⟩
  · rintro ⟨q, hq, hh⟩
    exact ⟨q, hh, hws q hq, List.mem_append_right _ (List.mem_filter.mpr ⟨hq, hh⟩)⟩

/-- A handler that preserves the interrupted process does what it should if and
    only if it woke nobody of high priority. -/
theorem preempts_of_preserve (hint : Interrupts m e p)
    (heq : handleException L e.hw (m.entry e) = .ok (CONTROL_PRESERVE (some p), k))
    (hready : Ready (CONTROL_PRESERVE (some p)) k)
    (hprio : ∀ q, (k.pcb q).pPrio = (m.kernel.pcb q).pPrio) :
    Preempts L m e p ↔ ¬ Raised m k := by
  rcases schedule_preserve e.hw hready.handed with ⟨k', hrun, hact⟩
  have hout : m.outcome L e = .run k' := by
    simp only [Machine.outcome, exceptionHandler, heq]
    exact hrun
  have hlow : isHigh k' p = false := by
    have hkept : Scheduled e.hw k _ := schedule_spec hready
    rw [show schedule e.hw k (CONTROL_PRESERVE (some p)).pcb (CONTROL_PRESERVE (some p)).enqueue
      = .run k' from hrun] at hkept
    cases hkept with
    | run hk =>
        rw [isHigh, hk.prio, hprio]
        exact hint.low
  constructor
  · rintro ⟨ctrl, k₁, k₂, heq', hout', hyes, _⟩ hraised
    rw [heq, Except.ok.injEq, Prod.mk.injEq] at heq'
    rw [hout, Outcome.run.injEq] at hout'
    rw [← heq'.2, ← hout'] at hyes
    -- The process that goes on has low priority.
    rcases (hyes hraised).1 with ⟨q, hq, hhigh⟩
    rw [hact, Option.some.injEq] at hq
    rw [← hq, hlow] at hhigh
    exact absurd hhigh Bool.false_ne_true
  · intro hn
    exact ⟨_, k, k', heq, hout, fun hc => absurd hc hn, fun _ => hact⟩

/-- The processes a tick released. -/
theorem tick_raised (hwf : MachineWf L m) (hok : e.Ok L m)
    (hd : (charged m e).mem (getTimerSemaphore L) = 0 ∧ Drained L (charged m e) k ∨
      (charged m e).mem (getTimerSemaphore L) = 1 ∧ k = charged m e) :
    (∀ q, (k.pcb q).pPrio = (m.kernel.pcb q).pPrio) ∧
    (Raised m k ↔ ¬ (m.kernel.mem (getTimerSemaphore L) = 0 →
      ∀ q ∈ waiters m.kernel (getTimerSemaphore L), isHigh m.kernel q = false)) := by
  have hsame := same_charged m e
  have hasl : AslWf m.kernel := hwf.between.at_.wf.asl
  rw [charged_timer hok.toTrusted] at hd
  rcases hd with ⟨hz, hd⟩ | ⟨hone, rfl⟩
  · have hprio : ∀ q, (k.pcb q).pPrio = (m.kernel.pcb q).pPrio :=
      fun q => (hd.frame.prio q).trans (hsame.prio q)
    have hready : Readied m.kernel (waiters m.kernel (getTimerSemaphore L)) k := by
      have h := hd.ready
      rw [charged_waiters] at h
      exact ⟨h.hi.trans (by rw [hsame.procq]), h.lo.trans (by rw [hsame.procq])⟩
    refine ⟨hprio, ?_⟩
    rw [raised_iff hready hprio
      (fun q hq => (not_ready_of_waiting hasl hq).1)]
    constructor
    · rintro ⟨q, hq, hhigh⟩ hall
      rw [hall hz q hq] at hhigh
      exact absurd hhigh Bool.false_ne_true
    · intro hn
      by_contra hc
      exact hn (fun _ q hq => Bool.eq_false_iff.mpr (fun hh => hc ⟨q, hq, hh⟩))
  · refine ⟨hsame.prio, iff_of_false ?_ (fun hn => hn (fun hz => ?_))⟩
    · rw [raised_iff (readied_of_same hsame.procq) hsame.prio
        (fun q hq => absurd hq List.not_mem_nil)]
      rintro ⟨q, hq, _⟩
      exact absurd hq List.not_mem_nil
    · rw [hz] at hone
      exact absurd hone (by decide)

/-- The process a device interrupt released. -/
theorem wake_raised (hwf : MachineWf L m) {u : DevUnit} {t : PcbId} (status : Word) {k₁ : Kernel}
    (hb : Woken (charged m e) (L.semAddr u) t k₁) :
    (∀ q, ((acked (setResult k₁ t status) u).pcb q).pPrio = (m.kernel.pcb q).pPrio) ∧
    (Raised m (acked (setResult k₁ t status) u) ↔ isHigh m.kernel t = true) := by
  have hsame := same_charged m e
  have hcasl : AslWf (charged m e) := (charged_at hwf.between e).wf.asl
  have htouch := touched_trans (touched_setResult k₁ t status) (touched_acked _ u)
  have hprio₁ : ∀ q, (k₁.pcb q).pPrio = (m.kernel.pcb q).pPrio :=
    fun q => ((hb.frame hcasl).prio q).trans (hsame.prio q)
  have hprio : ∀ q, ((acked (setResult k₁ t status) u).pcb q).pPrio = (m.kernel.pcb q).pPrio :=
    fun q => (htouch.same.prio q).trans (hprio₁ q)
  have hwait : t ∈ waiters m.kernel (L.semAddr u) := by
    rcases hb.head with ⟨ts, hts⟩
    rw [charged_waiters] at hts
    exact hts ▸ List.mem_cons_self
  have hready : Readied m.kernel [t] (acked (setResult k₁ t status) u) := by
    have h := hb.readied hcasl
    have hhigh : isHigh (acked (setResult k₁ t status) u) = isHigh k₁ :=
      isHigh_congr htouch.same.prio
    constructor
    · rw [htouch.same.procq, hhigh, h.hi, hsame.procq]
    · rw [htouch.same.procq, hhigh, h.lo, hsame.procq]
  refine ⟨hprio, ?_⟩
  rw [raised_iff hready hprio (fun q hq => by
    rw [List.mem_singleton.mp hq]
    exact (not_ready_of_waiting hwf.between.at_.wf.asl hwait).1)]
  constructor
  · rintro ⟨q, hq, hh⟩
    exact List.mem_singleton.mp hq ▸ hh
  · exact fun hh => ⟨t, List.mem_singleton_self t, hh⟩

/-- A device nobody waits for makes the interrupted process stand in line. -/
theorem preempts_of_stray (hint : Interrupts m e p) {u : DevUnit}
    {status : Word}
    (heq : handleException L e.hw (m.entry e) = .ok (CONTROL_RESCHEDULE (charged m e),
      acked (setResult ((charged m e).store (L.semAddr u) ((charged m e).mem (L.semAddr u) + 1)) p
        status) u))
    (hready : Ready (CONTROL_RESCHEDULE (charged m e)) (acked (setResult ((charged m e).store
      (L.semAddr u) ((charged m e).mem (L.semAddr u) + 1)) p status) u)) :
    Preempts L m e p ↔
      m.kernel.procq .readyQueueHi = [] ∧ m.kernel.procq .readyQueueLo = [] := by
  have hactive : (charged m e).activeProcess = some p := (charged_active m e).trans hint.active
  have hsame : Same m.kernel (acked (setResult ((charged m e).store (L.semAddr u)
      ((charged m e).mem (L.semAddr u) + 1)) p status) u) :=
    same_trans (same_charged m e) (same_trans (same_store _ _ _)
      (touched_trans (touched_setResult _ p status) (touched_acked _ u)).same)
  generalize acked (setResult ((charged m e).store (L.semAddr u)
    ((charged m e).mem (L.semAddr u) + 1)) p status) u = k at heq hready hsame
  have hctrl : CONTROL_RESCHEDULE (charged m e) = { pcb := some p, enqueue := true } := by
    rw [CONTROL_RESCHEDULE, hactive]
  rw [hctrl] at heq hready
  have hlow : isHigh k p = false := by
    rw [isHigh_congr hsame.prio]
    exact hint.low
  rcases schedule_reschedule e.hw hready.handed hlow with ⟨k', q, hrun, hact, hiff⟩
  rw [hsame.procq] at hiff
  have hout : m.outcome L e = .run k' := by
    simp only [Machine.outcome, exceptionHandler, heq]
    exact hrun
  have hcalm : ¬ Raised m k := by
    rw [raised_iff (readied_of_same hsame.procq) hsame.prio
      (fun q hq => absurd hq List.not_mem_nil)]
    rintro ⟨q, hq, _⟩
    exact absurd hq List.not_mem_nil
  rw [← hiff]
  constructor
  · rintro ⟨ctrl, k₁, k₂, heq', hout', _, hno⟩
    rw [heq, Except.ok.injEq, Prod.mk.injEq] at heq'
    rw [hout, Outcome.run.injEq] at hout'
    rw [← heq'.2, ← hout'] at hno
    have hp := hno hcalm
    rw [hact, Option.some.injEq] at hp
    exact hp
  · rintro rfl
    exact ⟨_, k, k', heq, hout, fun hc => absurd hc hcalm, fun _ => hact⟩

end Handler

/-- In every run, an interrupt does what it should to a process of low priority
    if and only if it wakes nobody of high priority and, when nobody waits for
    the device, nobody else is ready. -/
theorem preempts_iff {L : Layout} {b : Boot} {es : List Event} {m : Machine}
    (hrun : (nucleus L b).Run es m) {e : Event} (hok : e.Ok L m) {p : PcbId}
    (hint : Interrupts m e p) : Preempts L m e p ↔ Calm L m e := by
  have hwf := machineWf_run hrun
  have hh := handleException_spec hwf hok
  have hactive : (charged m e).activeProcess = some p := (charged_active m e).trans hint.active
  -- Without a state to go on from there is no process to preempt.
  have hfail : ∀ x, handleException L e.hw (m.entry e) = .error x → ¬ Preempts L m e p := by
    rintro x hx ⟨ctrl, k, k', heq, _⟩
    rw [hx] at heq
    cases heq
  generalize hr : handleException L e.hw (m.entry e) = r at hh
  have hready : ∀ {ctrl k}, r = .ok (ctrl, k) → Ready ctrl k := by
    rintro ctrl k rfl
    exact hh.ready hwf.between
  unfold Calm
  cases hh.interrupted hint.cause with
  | resume _ hc =>
      rcases hint.source with hs | hs <;> exact absurd (hc.symm.trans hs) IntClass.noConfusion
  | tick hc _ hd =>
      rcases tick_raised hwf hok hd with ⟨hprio, hraised⟩
      have hctrl := hready rfl
      rw [hactive] at hr hctrl
      rw [preempts_of_preserve hint hr hctrl hprio, hraised, not_not, or_iff_left]
      · exact (and_iff_right hc).symm
      · exact fun hd => absurd (hc.symm.trans hd.1) IntClass.noConfusion
  | @device u status _ hc ha _ hans =>
      -- An interrupt of a device is no tick.
      have hans' : ∀ {P : Prop}, (intClass e.hw.cause = .tick ∧ P) → False :=
        fun ht => absurd (hc.symm.trans ht.1) IntClass.noConfusion
      cases hans with
      | @wake t k₁ hb =>
          rcases wake_raised hwf status hb with ⟨hprio, hraised⟩
          have hctrl := hready rfl
          rw [hactive] at hr hctrl
          rcases hb.head with ⟨ts, hts⟩
          rw [charged_waiters] at hts
          -- The released process is taken next if and only if it has high priority.
          rw [preempts_of_preserve hint hr hctrl hprio, hraised, Bool.not_eq_true]
          constructor
          · exact fun hl => Or.inr ⟨hc, u, status, ha, Or.inl ⟨t, ts, hts, hl⟩⟩
          · rintro (ht | ⟨_, v, status', ha', hv⟩)
            · exact (hans' ht).elim
            · rw [ha, Option.some.injEq, Prod.mk.injEq] at ha'
              rw [← ha'.1, hts] at hv
              rcases hv with ⟨t', ts', heq, hl⟩ | ⟨hnil, _⟩
              · rw [List.cons.injEq] at heq
                exact heq.1 ▸ hl
              · exact absurd hnil (List.cons_ne_nil t ts)
      | @stray q hn hq =>
          rw [hactive, Option.some.injEq] at hq
          subst hq
          rw [preempts_of_stray hint hr (hready rfl)]
          rw [charged_waiters] at hn
          constructor
          · exact fun hidle => Or.inr ⟨hc, u, status, ha, Or.inr ⟨hn, hidle⟩⟩
          · rintro (ht | ⟨_, v, status', ha', hv⟩)
            · exact (hans' ht).elim
            · rw [ha, Option.some.injEq, Prod.mk.injEq] at ha'
              rw [← ha'.1, hn] at hv
              rcases hv with ⟨t', ts', heq, _⟩ | ⟨_, hidle⟩
              · exact absurd heq.symm (List.cons_ne_nil t' ts')
              · exact hidle
      | idle _ hq =>
          rw [hactive] at hq
          exact absurd hq (Option.some_ne_none p)
  | unexpected hc ha =>
      refine iff_of_false (hfail _ hr) ?_
      rintro (ht | ⟨_, u, status, ha', _⟩)
      · exact absurd (hc.symm.trans ht.1) IntClass.noConfusion
      · rw [ha] at ha'
        exact absurd ha'.symm (Option.some_ne_none _)

/-! ## Samples -/

/-- A tick of the interval timer. -/
def timerTick : Hw × Accept := (interruptHw IL_TIMER 0 { status := 1, transmStatus := 1 }, .ignore)

theorem interrupts_timerTick {m : Machine} {p : PcbId} (hp : m.kernel.activeProcess = some p)
    (hlow : isHigh m.kernel p = false) : Interrupts m (Event.quiet m timerTick) p := by
  have hc : excClass timerTick.1.cause = .interrupt := by decide
  have hi : intClass timerTick.1.cause = .tick := by decide
  exact ⟨hp, hlow, hc, Or.inl hi⟩

/-- The first process creates one of low priority and yields to it, and that one
    waits for the clock. The next tick makes it ready, and the first process goes
    on. -/
theorem preempts_iff_sample : ∃ es m e, (nucleus sampleLayout sampleBoot).Run es m ∧
    e.Ok sampleLayout m ∧ Interrupts m e 19 ∧
    waiters m.kernel (getTimerSemaphore sampleLayout) = [18] ∧
    m.kernel.mem (getTimerSemaphore sampleLayout) = 0 ∧ Preempts sampleLayout m e 19 := by
  rcases exists_run (L := sampleLayout) (b := sampleBoot)
    [(callHw CREATEPROCESS 0x20002000 PROCESS_PRIO_LOW 0x20003000, .ignore),
      (callHw YIELD 0 0 0, .ignore), (callHw CLOCKWAIT 0 0 0, .ignore)]
    (fun m => (Event.quiet m timerTick).Ok sampleLayout m ∧ m.kernel.activeProcess = some 19 ∧
      isHigh m.kernel 19 = false ∧ isHigh m.kernel 18 = false ∧
      waiters m.kernel (getTimerSemaphore sampleLayout) = [18] ∧
      m.kernel.mem (getTimerSemaphore sampleLayout) = 0)
    (by decide +kernel) with ⟨es, m, hrun, hok, hp, hlow, hlow', hwait, hz⟩
  have hint := interrupts_timerTick hp hlow
  have hi : intClass timerTick.1.cause = .tick := by decide
  refine ⟨es, m, _, hrun, hok, hint, hwait, hz,
    (preempts_iff hrun hok hint).mpr (Or.inl ⟨hi, fun _ q hq => ?_⟩)⟩
  rw [hwait] at hq
  rw [List.mem_singleton.mp hq]
  exact hlow'

/-- The first process creates one of high priority and yields to it, and that one
    waits for the clock. The tick makes it ready, but the first process goes
    on. -/
theorem preemption_missed : ∃ es m e k', (nucleus sampleLayout sampleBoot).Run es m ∧
    e.Ok sampleLayout m ∧ Interrupts m e 19 ∧ (m.outcome sampleLayout e).next = some k' ∧
    isHigh k' 18 = true ∧ k'.procq .readyQueueHi = [18] ∧ k'.activeProcess = some 19 ∧
    ¬ Preempts sampleLayout m e 19 := by
  rcases exists_run (L := sampleLayout) (b := sampleBoot)
    [(callHw CREATEPROCESS 0x20002000 PROCESS_PRIO_HIGH 0x20003000, .ignore),
      (callHw YIELD 0 0 0, .ignore), (callHw CLOCKWAIT 0 0 0, .ignore)]
    (fun m => (Event.quiet m timerTick).Ok sampleLayout m ∧ m.kernel.activeProcess = some 19 ∧
      isHigh m.kernel 19 = false ∧ isHigh m.kernel 18 = true ∧
      waiters m.kernel (getTimerSemaphore sampleLayout) = [18] ∧
      m.kernel.mem (getTimerSemaphore sampleLayout) = 0 ∧
      (m.outcome sampleLayout (Event.quiet m timerTick)).next.any (fun k => decide
        (isHigh k 18 = true ∧ k.procq .readyQueueHi = [18] ∧ k.activeProcess = some 19)) = true)
    (by decide +kernel) with ⟨es, m, hrun, hok, hp, hlow, hhigh, hwait, hz, hnext⟩
  have hint := interrupts_timerTick hp hlow
  rw [Option.any_eq_true] at hnext
  rcases hnext with ⟨k, hk, hdec⟩
  rw [decide_eq_true_iff] at hdec
  refine ⟨es, m, _, k, hrun, hok, hint, hk, hdec.1, hdec.2.1, hdec.2.2, fun hpre => ?_⟩
  rcases (preempts_iff hrun hok hint).mp hpre with ⟨_, hcalm⟩ | ⟨hdev, _⟩
  · have hl := hcalm hz 18 (by rw [hwait]; exact List.mem_singleton_self 18)
    rw [hhigh] at hl
    exact Bool.false_ne_true hl.symm
  · have hi : intClass timerTick.1.cause = .tick := by decide
    exact absurd (hi.symm.trans hdev) IntClass.noConfusion

end Pandos
