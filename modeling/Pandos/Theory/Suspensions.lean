import Pandos.Theory.Runs
import Pandos.Theory.States

/-!
# Suspensions

From the exception that stops a process to the moment it goes on. In between any
other processes run, are created and killed, and the state of the process waits
in its record. It is written there by nobody but the handler of the exception
itself and, for a process that waits for a device, the handler of the interrupt
that answers it.

A device interrupt that nobody waits for is taken for one the running process
waits for, which then finds the status of the device in `reg_v0`.

## Main definitions

* `Undisturbed`: The registers with which a process goes on.
* `TellsResult`: The system call defines a result.
* `Stray`: The exception is a device interrupt nobody waits for.
* `Suspended`: A process that has not gone on since an exception.

## Theorems

* `schedule_next`: The scheduler leaves registers alone.
* `Handled.context_saved`: Where the state goes that is passed up.
* `Effect.waits`: Who waits for a device has called `DOIO`.
* `outcome_overwrites`: Nobody reads the record of the running process.
* `suspended_undisturbed`: What a suspended process finds.
-/

namespace Pandos

/-- A process goes on with the registers of a state: all of them but `reg_t9`,
    and `reg_v0` unless it was told a result. The program counter and `reg_t9`
    are behind the instruction if it was a system call. -/
structure Undisturbed (call told : Prop) (s s' : State) : Prop where
  regs : ∀ r, r ≠ .v0 → r ≠ .t9 → s'.gpr r = s.gpr r
  result : ¬ told → s'.gpr .v0 = s.gpr .v0
  called : call → s'.gpr .t9 = s.gpr .t9 + WORD_SIZE ∧ s'.pcEpc = s.pcEpc + WORD_SIZE
  stopped : ¬ call → s'.gpr .t9 = s.gpr .t9 ∧ s'.pcEpc = s.pcEpc

/-- The exception is a system call. -/
def Event.Call (e : Event) : Prop := excClass e.hw.cause = .syscall

/-- The exception is a system call that defines a result, at once or when the
    device answers. -/
def TellsResult (e : Event) : Prop :=
  e.Call ∧ (definesResult (e.hw.bios.gpr .a0).toInt ∨ (e.hw.bios.gpr .a0).toInt = DOIO)

/-- The exception is the interrupt of a device nobody waits for. -/
def Stray (L : Layout) (m : Machine) (e : Event) : Prop :=
  excClass e.hw.cause = .interrupt ∧ intClass e.hw.cause = .device ∧
    ∃ u status, answer e.hw = some (u, status) ∧ waiters m.kernel (L.semAddr u) = []

/-- A process was stopped by the exception `e₀` in the machine `m₀` and has not
    gone on since. The exception was not passed up, and the process lives. -/
inductive Suspended (L : Layout) (b : Boot) (p : PcbId) (m₀ : Machine) (e₀ : Event) :
    Machine → Prop
  | stop {es : List Event} {k : Kernel} (hrun : (nucleus L b).Run es m₀) (hok : e₀.Ok L m₀)
      (hp : m₀.kernel.activeProcess = some p) (hk : (m₀.outcome L e₀).next = some k)
      (hup : ∀ ctx, m₀.outcome L e₀ ≠ .context k ctx) (hlive : p ∉ k.procq .pcbFree) :
      Suspended L b p m₀ e₀ (m₀.after e₀ k)
  | wait {m : Machine} {e : Event} {k : Kernel} (h : Suspended L b p m₀ e₀ m) (hok : e.Ok L m)
      (hp : m.kernel.activeProcess ≠ some p) (hk : (m.outcome L e).next = some k)
      (hlive : p ∉ k.procq .pcbFree) : Suspended L b p m₀ e₀ (m.after e k)

theorem Undisturbed.congr {call told : Prop} {s s₁ s₂ : State}
    (h : Undisturbed call told s s₁) (hgpr : s₂.gpr = s₁.gpr) (hpc : s₂.pcEpc = s₁.pcEpc) :
    Undisturbed call told s s₂ :=
  ⟨hgpr ▸ h.regs, hgpr ▸ h.result, hgpr ▸ hpc ▸ h.called, hgpr ▸ hpc ▸ h.stopped⟩

/-- What happens to a state later on is no trouble if it leaves registers alone
    that may not change. -/
theorem Undisturbed.later {call told : Prop} {s s₁ s₂ : State} (h : Undisturbed call told s s₁)
    (hregs : ∀ r, r ≠ .v0 → s₂.gpr r = s₁.gpr r) (hres : ¬ told → s₂.gpr .v0 = s₁.gpr .v0)
    (hpc : s₂.pcEpc = s₁.pcEpc) : Undisturbed call told s s₂ := by
  have ht9 := hregs .t9 (by decide)
  refine ⟨fun r hv ht => (hregs r hv).trans (h.regs r hv ht),
    fun hn => (hres hn).trans (h.result hn), fun hc => ?_, fun hc => ?_⟩
  · rw [ht9, hpc]
    exact h.called hc
  · rw [ht9, hpc]
    exact h.stopped hc

/-! ## The scheduler -/

section Scheduler

variable {hw : Hw} {k k' : Kernel}

theorem waitOrDie_next (h : (waitOrDie hw k).next = some k') : k'.pcb = k.pcb := by
  unfold waitOrDie schedulerWait at h
  split at h
  · exact absurd h (by simp only [Outcome.next, reduceCtorEq, not_false_eq_true])
  · split at h
    · rw [Outcome.next, Option.some.injEq] at h
      rw [← h]
    · exact absurd h (by simp only [Outcome.next, reduceCtorEq, not_false_eq_true])

/-- The records a scheduler leaves behind: it changes at most the status of one
    process. -/
def Steady (k k' : Kernel) : Prop :=
  ∀ q, (k'.pcb q).pS.gpr = (k.pcb q).pS.gpr ∧ (k'.pcb q).pS.pcEpc = (k.pcb q).pS.pcEpc

theorem Loads.steady {p : PcbId} (h : Loads k k' p) : Steady k k' := by
  intro q
  by_cases hq : q = p
  · rw [hq, h.self]
    exact ⟨rfl, rfl⟩
  · rw [h.other q hq]
    exact ⟨rfl, rfl⟩

theorem dispatch_next {p : PcbId} (h : (dispatch hw k p).next = some k') : Loads k k' p := by
  have hrun : ∃ k₁, dispatch hw k p = .run k₁ := ⟨_, rfl⟩
  rcases hrun with ⟨k₁, hrun⟩
  rw [hrun, Outcome.next, Option.some.injEq] at h
  exact dispatch_loads (h ▸ hrun)

/-- The scheduler leaves registers and program counters alone. -/
theorem schedule_next {pcb : Option PcbId} {enqueue : Bool}
    (h : (schedule hw k pcb enqueue).next = some k') : Steady k k' := by
  have hpicks := schedule_picks hw k pcb enqueue
  generalize schedule hw k pcb enqueue = o at h hpicks
  cases hpicks with
  | @dispatch k₁ p hpcb =>
      intro q
      have hsteady := (dispatch_next h).steady q
      rwa [hpcb] at hsteady
  | @idle k₁ hpcb =>
      have hsame := (waitOrDie_next h).trans hpcb
      intro q
      rw [hsame]
      exact ⟨rfl, rfl⟩

end Scheduler

/-! ## Exceptions that are passed up -/

section Context

variable {L : Layout} {m : Machine} {e : Event} {k : Kernel} {ctx : Context}

/-- An exception of the running process was passed up: the saved states of the
    others are where they were, the state the BIOS saved is in the slot of its
    support structure that belongs to the exception, the other slot, the contexts
    and all other support structures are what they were, and the handler starts
    in the context of that slot. -/
structure PassedState (m : Machine) (e : Event) (k : Kernel) (ctx : Context) (p : PcbId)
    (s : Word) : Prop where
  active : m.kernel.activeProcess = some p
  support : (m.kernel.pcb p).pSupport = some s
  saved : (k.sup s).supExceptState (exceptType e.hw.cause) = e.hw.bios
  spared : ∀ type, type ≠ exceptType e.hw.cause →
    (k.sup s).supExceptState type = (e.sup s).supExceptState type
  contexts : (k.sup s).supExceptContext = (e.sup s).supExceptContext
  loaded : ctx = (e.sup s).supExceptContext (exceptType e.hw.cause)
  supports : ∀ a, a ≠ s → k.sup a = e.sup a
  other : ∀ q, q ≠ p → (k.pcb q).pS = (m.kernel.pcb q).pS

theorem PassUp.passedState {k₁ : Kernel}
    (h : PassUp e.hw k₁ (exceptType e.hw.cause) (.error (.loadContext k ctx)))
    (hact : k₁.activeProcess = m.kernel.activeProcess)
    (hother : ∀ q, m.kernel.activeProcess ≠ some q → (k₁.pcb q).pS = (m.kernel.pcb q).pS)
    (hsupport : ∀ q, (k₁.pcb q).pSupport = (m.kernel.pcb q).pSupport) (hsup : k₁.sup = e.sup) :
    ∃ p s, PassedState m e k ctx p s := by
  cases h with
  | @up p s hp hs =>
      rw [hact] at hp
      rw [hsupport] at hs
      refine ⟨p, s, hp, hs, ?_, fun type ht => ?_, ?_, ?_, fun a ha => ?_, fun q hq => ?_⟩
      · simp only [passedUp, if_true]
      · simp only [passedUp, if_true, if_neg ht, hsup]
      · simp only [passedUp, if_true, hsup]
      · rw [hsup]
      · simp only [passedUp, if_neg ha, hsup]
      · refine hother q (fun hq' => hq ?_)
        rw [hp, Option.some.injEq] at hq'
        exact hq'.symm

/-- An exception that is passed up leaves the state the BIOS saved in the support
    structure of its process. -/
theorem Handled.context_saved (h : Handled L m e (.error (.loadContext k ctx))) :
    ∃ p s, PassedState m e k ctx p s := by
  have hother : ∀ q, m.kernel.activeProcess ≠ some q →
      ((charged m e).pcb q).pS = (m.kernel.pcb q).pS := by
    intro q hq
    rw [charged_saved, savedState, if_neg hq]
  cases h with
  | interrupt _ h =>
      cases h with
      | device _ _ _ h => cases h
  | pass _ h =>
      exact h.passedState (charged_active m e) hother (charged_support m e) (charged_sup m e)
  | @leave p _ hc hp h =>
      have htype : GENERALEXCEPT = exceptType e.hw.cause := by
        rw [exceptType, if_neg (hc ▸ ExcClass.noConfusion)]
      cases h with
      | reserved _ h =>
          rw [htype] at h
          refine h.passedState (charged_active m e) (fun q hq => ?_) (fun q => ?_)
            (charged_sup m e)
          · have hqp : q ≠ p := by
              rintro rfl
              exact hq hp
            simp only [reserved, Kernel.modPcb, if_neg hqp]
            exact hother q hq
          · refine Eq.trans ?_ (charged_support m e q)
            refine modPcb_field (g := Pcb.pSupport) (calling m e) p ?_ q
            intro t
            rfl
      | pass _ h =>
          rw [htype] at h
          exact h.passedState (charged_active m e) hother (charged_support m e) (charged_sup m e)

end Context

/-! ## Waiting for a device -/

section Waits

variable {L : Layout} {m : Machine} {e : Event} {k : Kernel}

/-- Nobody starts to wait for a device but a caller of `DOIO`. -/
theorem Effect.waits (hwf : MachineWf L m) (hok : e.Ok L m) (h : Effect L m e k) {q : PcbId}
    {u : DevUnit} (hq : q ∈ waiters k (L.semAddr u)) :
    q ∈ waiters m.kernel (L.semAddr u) ∨ (m.kernel.activeProcess = some q ∧ e.Call ∧
      (e.hw.bios.gpr .a0).toInt = DOIO) := by
  cases h with
  | still _ _ hwait => exact Or.inl (hwait _ ▸ hq)
  | create _ _ hwait => exact Or.inl (hwait _ ▸ hq)
  | kill _ _ _ _ hwait =>
      rw [hwait] at hq
      exact Or.inl (List.mem_of_mem_filter hq)
  | @block op a bus p why hp hv _ hwait =>
      rw [hwait] at hq
      by_cases ha : L.semAddr u = a
      · rw [if_pos ha, List.mem_append, List.mem_singleton] at hq
        rcases hq with hq | rfl
        · exact Or.inl (ha ▸ hq)
        · refine Or.inr ⟨hp, ?_⟩
          -- Only `DOIO` operates on the semaphore of a device and finds it at its bound.
          cases why with
          | passeren hc _ hid hu hn =>
              exact absurd ha.symm ((hok.request hc hu (Or.inl hid) hn).2 u)
          | verhogen hc _ hid hu hn =>
              exact absurd ha.symm ((hok.request hc hu (Or.inr hid) hn).2 u)
          | clock => exact absurd ha (semAddr_ne_timer L u)
          | io hc _ hid => exact ⟨hc, hid⟩
          | answer _ _ _ hpend =>
              rw [sem_zero_of_pending hwf hok hpend] at hv
              exact absurd hv (by decide)
      · rw [if_neg ha] at hq
        exact Or.inl hq
  | @wake op a bus t ts _ ht _ _ hwait =>
      rw [hwait] at hq
      by_cases ha : L.semAddr u = a
      · rw [if_pos ha] at hq
        rw [ha, ht]
        exact Or.inl (List.mem_cons_of_mem t hq)
      · rw [if_neg ha] at hq
        exact Or.inl hq
  | change _ _ _ _ hwait => exact Or.inl (hwait _ ▸ hq)
  | drain _ _ _ _ hwait =>
      rw [hwait, if_neg (semAddr_ne_timer L u)] at hq
      exact Or.inl hq

/-- The running process waits for nothing. -/
theorem Between.active_not_waiting (hb : Between m.kernel) {p : PcbId}
    (hp : m.kernel.activeProcess = some p) (a : Word) : p ∉ waiters m.kernel a := by
  have hat := hb.at_
  rw [hp] at hat
  have hnull : m.kernel.procq.Null p := (hat.running p).mpr (Finset.mem_singleton_self p)
  intro hmem
  rcases (mem_waiters_iff hat.wf.asl a p).mp hmem with ⟨i, _, _, hq⟩
  exact hnull (.sProcq i) hq

end Waits

/-! ## The record of the running process -/

section Running

variable {L : Layout} {m : Machine} {e : Event} {p : PcbId}

theorem chargeAndSave_overwrites {hw : Hw} {k : Kernel} (hp : k.activeProcess = some p)
    (s : State) : chargeAndSave hw (k.modPcb p (fun t => { t with pS := s })) =
      chargeAndSave hw k := by
  have hp' : (k.modPcb p (fun t => { t with pS := s })).activeProcess = some p := hp
  simp only [chargeAndSave, hp, hp']
  simp only [Kernel.modPcb, Kernel.mk.injEq, true_and, and_true]
  funext q
  by_cases hq : q = p
  · simp only [if_pos hq, if_true]
  · simp only [if_neg hq]

/-- What the handlers of the support level write into the record of the running
    process (`support_syscall` moves its program counter) is lost: the next
    exception overwrites it. -/
theorem outcome_overwrites (hp : m.kernel.activeProcess = some p) (s : State) :
    Machine.outcome L { m with kernel := m.kernel.modPcb p (fun t => { t with pS := s }) } e =
      m.outcome L e := by
  have hp' : (m.entry e).activeProcess = some p := hp
  have hentry : Machine.entry { m with
      kernel := m.kernel.modPcb p (fun t => { t with pS := s }) } e =
      (m.entry e).modPcb p (fun t => { t with pS := s }) := rfl
  unfold Machine.outcome exceptionHandler handleException
  rw [hentry, chargeAndSave_overwrites hp']

end Running

/-! ## From one exception to the next -/

section Suspensions

variable {L : Layout} {b : Boot} {m m₀ : Machine} {e e₀ : Event} {k : Kernel} {p : PcbId}

/-- The state of a process after an exception that goes on: what the handler
    made of it, unless the exception was passed up. -/
inductive Onward (L : Layout) (m : Machine) (e : Event) (k : Kernel) (q : PcbId) : Prop
  | moved {s : State} (h : Moved L m e q s) (hgpr : (k.pcb q).pS.gpr = s.gpr)
      (hpc : (k.pcb q).pS.pcEpc = s.pcEpc) : Onward L m e k q
  | passed {ctx : Context} {p : PcbId} {s : Word} (h : m.outcome L e = .context k ctx)
      (hs : PassedState m e k ctx p s) : Onward L m e k q

theorem onward_of_next (hwf : MachineWf L m) (hok : e.Ok L m) (hk : (m.outcome L e).next = some k)
    {q : PcbId} (hq : q ∉ m.kernel.procq .pcbFree) (hq' : q ∉ k.procq .pcbFree) :
    Onward L m e k q := by
  have hh := handleException_spec hwf hok
  have ho : m.outcome L e = exceptionHandler L e.hw (m.entry e) := rfl
  rw [ho, exceptionHandler] at hk
  unfold exceptionHandler at ho
  rcases hr : handleException L e.hw (m.entry e) with x | ⟨ctrl, k₁⟩ <;> rw [hr] at hh hk ho
  · rcases hh.leaves with ⟨msg, rfl⟩ | ⟨k₁, ctx, rfl⟩
    · cases hk
    · rw [Outcome.next, Option.some.injEq] at hk
      subst hk
      rcases hh.context_saved with ⟨q', s, hs⟩
      exact Onward.passed ho hs
  · have hs : Scheduled e.hw k₁ (schedule e.hw k₁ ctrl.pcb ctrl.enqueue) :=
      schedule_spec (hh.ready hwf.between)
    have hsteady := schedule_next hk q
    have hfree : k.procq .pcbFree = k₁.procq .pcbFree := by
      simp only at hk
      generalize schedule e.hw k₁ ctrl.pcb ctrl.enqueue = o at hs hk
      cases hs with
      | run hkept =>
          rw [Outcome.next, Option.some.injEq] at hk
          exact hk ▸ hkept.free
      | wait hkept =>
          rw [Outcome.next, Option.some.injEq] at hk
          exact hk ▸ hkept.free
      | halt => cases hk
    exact Onward.moved (hh.moved hwf hq (hfree ▸ hq')) hsteady.1 hsteady.2

/-- The process an exception stops. -/
theorem Onward.undisturbed (hwf : MachineWf L m) (hp : m.kernel.activeProcess = some p)
    (hup : ∀ ctx, m.outcome L e ≠ .context k ctx) (h : Onward L m e k p) :
    Undisturbed e.Call (TellsResult e ∨ Stray L m e) e.hw.bios (k.pcb p).pS := by
  cases h with
  | passed h => exact absurd h (hup _)
  | @moved s h hgpr hpc =>
      refine Undisturbed.congr ?_ hgpr hpc
      have hsaved : savedState m e p = e.hw.bios := if_pos hp
      by_cases hc : e.Call
      · rcases h.call ⟨hc, hp⟩ with ⟨hregs, hres, ht9, hpc⟩
        exact ⟨hregs, fun hn => hres (fun hd => hn (Or.inl ⟨hc, Or.inl hd⟩)),
          fun _ => ⟨ht9, hpc⟩, fun hn => absurd hc hn⟩
      · rcases h.other (fun hcall => hc hcall.1) with ⟨hregs, hres, hpc⟩
        rw [hsaved] at hregs hres hpc
        refine ⟨fun r hv _ => hregs r hv, fun hn => hres ?_, fun hcall => absurd hcall hc,
          fun _ => ⟨hregs .t9 (by decide), hpc⟩⟩
        -- A process that runs is told a status only if nobody waits for it.
        rintro ⟨hi, hd, u, status, ha, hw | ⟨hw, _⟩⟩
        · exact hwf.between.active_not_waiting hp _ hw
        · exact hn (Or.inr ⟨hi, hd, u, status, ha, hw⟩)

/-- A process that waits while another one is stopped. -/
theorem Onward.waiting {call told : Prop} {s₀ : State} (hp : m.kernel.activeProcess ≠ some p)
    (hdev : ∀ u : DevUnit, p ∈ waiters m.kernel (L.semAddr u) → told)
    (hs : Undisturbed call told s₀ (m.kernel.pcb p).pS) (h : Onward L m e k p) :
    Undisturbed call told s₀ (k.pcb p).pS := by
  cases h with
  | passed _ h => rwa [h.other p (fun hq => hp (hq ▸ h.active))]
  | @moved s h hgpr hpc =>
      refine Undisturbed.congr ?_ hgpr hpc
      rcases h.other (fun hcall => hp hcall.2) with ⟨hregs, hres, hpc⟩
      have hsaved : savedState m e p = (m.kernel.pcb p).pS := if_neg hp
      rw [hsaved] at hregs hres hpc
      refine hs.later hregs (fun hn => hres ?_) hpc
      -- Whoever is handed a status waits for the device.
      rintro ⟨_, _, u, _, _, hw | ⟨_, hact⟩⟩
      · exact hn (hdev u hw)
      · exact hp hact

/-- What is known of a process that has not gone on since an exception. -/
structure Asleep (L : Layout) (p : PcbId) (m₀ : Machine) (e₀ : Event) (m : Machine) : Prop where
  wf : MachineWf L m
  live : p ∉ m.kernel.procq .pcbFree
  state : Undisturbed e₀.Call (TellsResult e₀ ∨ Stray L m₀ e₀) e₀.hw.bios (m.kernel.pcb p).pS
  device : ∀ u : DevUnit, p ∈ waiters m.kernel (L.semAddr u) → TellsResult e₀

theorem asleep_of_suspended (h : Suspended L b p m₀ e₀ m) : Asleep L p m₀ e₀ m := by
  induction h with
  | @stop es k hrun hok hp hk hup hlive =>
      have hwf := machineWf_run hrun
      have hold : p ∉ m₀.kernel.procq .pcbFree := by
        have hat := hwf.between.at_
        rw [hp] at hat
        exact hat.not_free (Finset.mem_singleton_self p)
      refine ⟨machineWf_after hwf hok hk, hlive,
        (onward_of_next hwf hok hk hold hlive).undisturbed hwf hp hup, fun u hu => ?_⟩
      rcases (effect_of_next hwf hok hk).1.waits hwf hok hu with hw | ⟨_, hc, hid⟩
      · exact absurd hw (hwf.between.active_not_waiting hp _)
      · exact ⟨hc, Or.inr hid⟩
  | @wait m e k _ hok hp hk hlive ih =>
      refine ⟨machineWf_after ih.wf hok hk, hlive,
        (onward_of_next ih.wf hok hk ih.live hlive).waiting hp (fun u hu => Or.inl (ih.device u hu))
          ih.state, fun u hu => ?_⟩
      rcases (effect_of_next ih.wf hok hk).1.waits ih.wf hok hu with hw | ⟨hact, _⟩
      · exact ih.device u hw
      · exact absurd hact hp

/-- Whatever happens in between, a process finds its registers as the exception
    that stopped it left them. -/
theorem suspended_undisturbed (h : Suspended L b p m₀ e₀ m) :
    Undisturbed e₀.Call (TellsResult e₀ ∨ Stray L m₀ e₀) e₀.hw.bios (m.kernel.pcb p).pS :=
  (asleep_of_suspended h).state

end Suspensions

end Pandos
