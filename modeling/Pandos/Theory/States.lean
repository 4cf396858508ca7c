import Pandos.Theory.Effects

/-!
# Saved States

What one exception does to the processor states in the table of processes. A
handler changes little in them: the result in `reg_v0`, the interrupt lines of
a process that waits for a device, and, behind a system call that returns, the
program counter and `reg_t9`. The scheduler changes the status of the process
it loads.

## Main definitions

* `savedState`: The state in which an exception finds a process.
* `Carried`: A state that differs in the result and the interrupt lines only.
* `Told`: A process that is handed the status of a device.
* `Moved`: What an exception does to the state of a process.

## Theorems

* `Served.carried`, `Interrupted.carried`: What handlers do to saved states.
* `Handled.moved`: What an exception does to them.
* `schedule_run`: What the scheduler does to them.
* `dispatched`: A dispatch behind an exception.
-/

namespace Pandos

/-- The state in which an exception finds a process: the one the BIOS saved for
    the running process, and the one in its record for any other. -/
def savedState (m : Machine) (e : Event) (p : PcbId) : State :=
  if m.kernel.activeProcess = some p then e.hw.bios else (m.kernel.pcb p).pS

/-- A state goes on with the same registers. Only `reg_v0` may have changed, and
    the interrupt lines in the status. -/
structure Carried (told : Prop) (s s' : State) : Prop where
  regs : ∀ r, r ≠ .v0 → s'.gpr r = s.gpr r
  result : ¬ told → s'.gpr .v0 = s.gpr .v0
  pc : s'.pcEpc = s.pcEpc
  timer : s'.status &&& STATUS_TE = s.status &&& STATUS_TE

/-- The calls of the nucleus that define a result before they return. -/
def definesResult (id : Int) : Prop :=
  id = CREATEPROCESS ∨ id = GETTIME ∨ id = GETSUPPORTPTR ∨ id = GETPROCESSID

/-- The exception is an interrupt of a device whose status the process is
    handed: it waits for the device, or it was interrupted and nobody waits. -/
def Told (L : Layout) (m : Machine) (e : Event) (p : PcbId) : Prop :=
  excClass e.hw.cause = .interrupt ∧ intClass e.hw.cause = .device ∧
    ∃ u status, answer e.hw = some (u, status) ∧ (p ∈ waiters m.kernel (L.semAddr u) ∨
      (waiters m.kernel (L.semAddr u) = [] ∧ m.kernel.activeProcess = some p))

/-- The exception is a system call of the process. -/
def AtSyscall (m : Machine) (e : Event) (p : PcbId) : Prop :=
  excClass e.hw.cause = .syscall ∧ m.kernel.activeProcess = some p

/-- What an exception that is not passed up does to the state of a process. -/
structure Moved (L : Layout) (m : Machine) (e : Event) (p : PcbId) (s : State) : Prop where
  call : AtSyscall m e p →
    (∀ r, r ≠ .v0 → r ≠ .t9 → s.gpr r = e.hw.bios.gpr r) ∧
    (¬ definesResult (e.hw.bios.gpr .a0).toInt → s.gpr .v0 = e.hw.bios.gpr .v0) ∧
    s.gpr .t9 = e.hw.bios.gpr .t9 + WORD_SIZE ∧ s.pcEpc = e.hw.bios.pcEpc + WORD_SIZE
  other : ¬ AtSyscall m e p → (∀ r, r ≠ .v0 → s.gpr r = (savedState m e p).gpr r) ∧
    (¬ Told L m e p → s.gpr .v0 = (savedState m e p).gpr .v0) ∧
    s.pcEpc = (savedState m e p).pcEpc
  timer : s.status &&& STATUS_TE = (savedState m e p).status &&& STATUS_TE

section Carried

variable {told told' : Prop} {s s' s'' : State}

theorem carried_refl (told : Prop) (s : State) : Carried told s s :=
  ⟨fun _ _ => rfl, fun _ => rfl, rfl, rfl⟩

theorem carried_of_eq (h : s' = s) : Carried told s s' := h ▸ carried_refl told s

theorem Carried.trans (h : Carried told s s') (h' : Carried told s' s'') : Carried told s s'' :=
  ⟨fun r hr => (h'.regs r hr).trans (h.regs r hr), fun hn => (h'.result hn).trans (h.result hn),
    h'.pc.trans h.pc, h'.timer.trans h.timer⟩

theorem Carried.mono (h : Carried told s s') (himp : told → told') : Carried told' s s' :=
  ⟨h.regs, fun hn => h.result (fun ht => hn (himp ht)), h.pc, h.timer⟩

theorem carried_setResult (ht : told) (v : Word) : Carried told s (s.setReg .v0 v) :=
  ⟨fun _ hr => if_neg hr, fun hn => absurd ht hn, rfl, rfl⟩

/-- The lines a process listens on are no part of the local timer. -/
theorem ioStatus_timer (prio status : Word) {line : Int} (h : line ≤ 7) :
    ioStatus prio status line &&& STATUS_TE = status &&& STATUS_TE := by
  have hmask : ∀ n : Fin 8, STATUS_IM n.val &&& STATUS_TE = 0 := by decide
  have hall : STATUS_IM_MASK &&& STATUS_TE = 0 := by decide
  have hor : ∀ x : Word, x &&& STATUS_TE = 0 →
      (status ||| x) &&& STATUS_TE = status &&& STATUS_TE := by
    intro x hx
    have hzero : ∀ y : Word, y ||| 0 = y := fun y => BitVec.or_zero
    rw [BitVec.and_comm, BitVec.and_or_distrib_left, BitVec.and_comm STATUS_TE x, hx, hzero,
      BitVec.and_comm]
  unfold ioStatus statusIlOn statusIlOnAll
  split
  · exact hor _ (hmask ⟨line.toNat, by omega⟩)
  · exact hor _ hall

end Carried

/-! ## Handlers -/

section Handlers

variable {L : Layout} {m : Machine} {e : Event} {k : Kernel}

theorem setResult_carried (k : Kernel) (p : PcbId) (v : Word) (q : PcbId) :
    Carried (q = p) (k.pcb q).pS ((setResult k p v).pcb q).pS := by
  unfold setResult Kernel.modPcb
  by_cases hq : q = p
  · rw [hq]
    simp only [if_true]
    exact carried_setResult trivial v
  · simp only [if_neg hq]
    exact carried_refl _ _

theorem killed_state {ks : List PcbId} {s : Queues SemdList SemdId} {q : PcbId}
    (hq : q ∉ (k.killed ks s).procq .pcbFree) : (k.killed ks s).pcb q = k.pcb q := by
  rw [killed_free, List.mem_append, not_or] at hq
  exact killedPcb_of_not_mem k hq.1

theorem PassUp.state {hw : Hw} {type : Fin 2} {ctrl : SchedulerControl} {k' : Kernel}
    (h : PassUp hw k type (.ok (ctrl, k'))) {q : PcbId} (hq : q ∉ k'.procq .pcbFree) :
    (k'.pcb q).pS = (k.pcb q).pS := by
  cases h with
  | idle => rfl
  | die => rw [killed_state hq]

/-- An interrupt hands a process the status of a device, or leaves its state
    alone. -/
theorem Interrupted.carried (hb : Base m e k) (hc : excClass e.hw.cause = .interrupt)
    {ctrl : SchedulerControl} {k' : Kernel} (h : Interrupted L m e.hw k (.ok (ctrl, k')))
    (q : PcbId) : Carried (Told L m e q) (k.pcb q).pS (k'.pcb q).pS := by
  cases h with
  | resume => exact carried_refl _ _
  | tick _ _ hd =>
      rcases hd with ⟨_, hd⟩ | ⟨_, rfl⟩
      · exact carried_of_eq (hd.frame.state q)
      · exact carried_refl _ _
  | @device u status _ hi ha _ h =>
      cases h with
      | @wake t k₁ h =>
          -- The longest waiting process is handed the status.
          refine (carried_of_eq ((h.frame hb.asl).state q)).trans
            ((setResult_carried k₁ t status q).mono ?_)
          rintro rfl
          rcases h.head with ⟨ts, hts⟩
          refine ⟨hc, hi, u, status, ha, Or.inl ?_⟩
          rw [← hb.waiters, hts]
          exact List.mem_cons_self
      | @stray p hn hp =>
          refine (setResult_carried (k.store _ _) p status q).mono ?_
          rintro rfl
          exact ⟨hc, hi, u, status, ha, Or.inr ⟨(hb.waiters _).symm.trans hn,
            hb.active.symm.trans hp⟩⟩

/-- The lines of `get_iodev`. -/
theorem getIodev_line {a : Word} {dev : Iodev} (h : getIodev L a = .ok dev) :
    dev.interruptLine ≤ 7 := by
  unfold getIodev at h
  simp only at h
  split at h
  · exact absurd h (by simp only [reduceCtorEq, not_false_eq_true])
  · rename_i sem _
    rw [← Except.ok.inj h]
    simp only
    split
    · rename_i i hi
      have hmem := List.mem_of_find?_eq_some hi
      revert hmem
      simp only [List.mem_cons, List.not_mem_nil, or_false, IL_DISK, IL_FLASH, IL_ETHERNET,
        IL_PRINTER, IL_TERMINAL]
      omega
    · decide

/-- A system call defines the result of its caller, or leaves states alone. A
    new process has no past. -/
theorem Served.carried (hasl : AslWf k) {hw : Hw} {p : PcbId} {ctrl : SchedulerControl}
    {k' : Kernel} (h : Served L hw k p (.ok (ctrl, k'))) {q : PcbId}
    (hq : q ∉ k.procq .pcbFree) (hq' : q ∉ k'.procq .pcbFree) :
    Carried (q = p ∧ definesResult (callId k p)) (k.pcb q).pS (k'.pcb q).pS := by
  cases h with
  | reserved _ h =>
      refine Carried.trans ?_ (carried_of_eq (h.state hq'))
      unfold Pandos.reserved Kernel.modPcb
      by_cases hqp : q = p
      · simp only [hqp, if_true]
        exact ⟨fun _ _ => rfl, fun _ => rfl, rfl, rfl⟩
      · simp only [if_neg hqp]
        exact carried_refl _ _
  | pass _ h => exact carried_of_eq (h.state hq')
  | full hid =>
      exact (setResult_carried k p NULL_PID q).mono (fun hp => ⟨hp, Or.inl hid⟩)
  | @create c k₁ prio support state hid hs hcp _ =>
      have hne : q ≠ c := by
        rintro rfl
        rcases hs.free with ⟨cs, hf, _⟩
        rw [hf] at hq
        exact hq List.mem_cons_self
      have hsame : ((adopted (filled k₁ c support state) p c).pcb q).pS = (k.pcb q).pS := by
        rw [(adopted_fields _ p c q).2.2.2.1, filled, Kernel.modPcb]
        simp only [if_neg hne]
        rw [hs.other q hne]
      exact (carried_of_eq hsame).trans
        ((setResult_carried _ p _ q).mono (fun hp => ⟨hp, Or.inl hid⟩))
  | terminate => rw [killed_state hq']; exact carried_refl _ _
  | passeren _ _ _ _ h => exact carried_of_eq ((h.frame hasl).state q)
  | verhogen _ _ _ _ h => exact carried_of_eq ((h.frame hasl).state q)
  | @doIo u line k₁ _ hdev _ _ h =>
      refine (carried_of_eq (h.frame.state q)).trans ?_
      unfold ioStarted ioBlocked Kernel.modPcb
      by_cases hqp : q = p
      · simp only [hqp, if_true]
        exact ⟨fun _ _ => rfl, fun _ => rfl, rfl, ioStatus_timer _ _ (getIodev_line hdev)⟩
      · simp only [if_neg hqp]
        exact carried_refl _ _
  | waitClock _ _ h => exact carried_of_eq ((h.frame hasl).state q)
  | get v hid =>
      refine (setResult_carried k p v q).mono (fun hp => ⟨hp, ?_⟩)
      rcases hid with ⟨hid, _⟩ | hid | hid
      · exact Or.inr (Or.inl hid)
      · exact Or.inr (Or.inr (Or.inl hid))
      · exact Or.inr (Or.inr (Or.inr hid))
  | yield => exact carried_refl _ _

theorem charged_saved (m : Machine) (e : Event) (q : PcbId) :
    ((charged m e).pcb q).pS = savedState m e q := by
  unfold savedState
  by_cases hq : m.kernel.activeProcess = some q
  · rw [if_pos hq, charged_state hq]
  · rw [if_neg hq]
    unfold charged chargeAndSave
    cases hp : (m.entry e).activeProcess with
    | none => rfl
    | some p =>
        have hne : q ≠ p := by
          rintro rfl
          exact hq hp
        simp only [Kernel.modPcb, if_neg hne]
        rfl

theorem calling_saved (m : Machine) (e : Event) (q : PcbId) :
    ((calling m e).pcb q).pS = savedState m e q := charged_saved m e q

/-- What an exception that is not passed up does to the state of a process. -/
theorem Handled.moved (hwf : MachineWf L m) {ctrl : SchedulerControl}
    (h : Handled L m e (.ok (ctrl, k))) {q : PcbId} (hq : q ∉ m.kernel.procq .pcbFree)
    (hq' : q ∉ k.procq .pcbFree) : Moved L m e q (k.pcb q).pS := by
  have hb := hwf.between
  have hother : excClass e.hw.cause ≠ .syscall →
      Carried (Told L m e q) (savedState m e q) (k.pcb q).pS → Moved L m e q (k.pcb q).pS := by
    intro hne hc
    exact ⟨fun hcall => absurd hcall.1 hne, fun _ => ⟨hc.regs, hc.result, hc.pc⟩, hc.timer⟩
  cases h with
  | interrupt hc h =>
      refine hother (by rw [hc]; exact ExcClass.noConfusion) ?_
      rw [← charged_saved]
      exact h.carried (base_charged hb e) hc q
  | pass hc h =>
      refine hother ?_ ?_
      · rcases hc with hc | hc <;> rw [hc] <;> exact ExcClass.noConfusion
      · rw [← charged_saved]
        exact carried_of_eq (h.state hq')
  | @call p _ k₁ hc hp h =>
      have hbase := base_calling hb e
      have hcarried := h.carried hbase.asl (by rw [hbase.free]; exact hq) hq'
      rw [calling_saved, callId, calling_state hp] at hcarried
      unfold afterSyscall Kernel.modPcb
      by_cases hqp : q = p
      · -- The caller moves past its instruction.
        subst hqp
        have hsaved : savedState m e q = e.hw.bios := if_pos hp
        rw [hsaved] at hcarried
        simp only [if_true]
        refine ⟨fun _ => ⟨fun r hv ht => ?_, fun hn => ?_, ?_, ?_⟩,
          fun hn => absurd ⟨hc, hp⟩ hn, ?_⟩
        · simp only [State.setReg, if_neg ht]
          exact hcarried.regs r hv
        · exact hcarried.result (fun hd => hn hd.2)
        · simp only [State.setReg, if_true]
          rw [hcarried.regs .t9 (by decide)]
        · simp only
          rw [hcarried.pc]
        · rw [hsaved]
          exact hcarried.timer
      · simp only [if_neg hqp]
        have hncall : ¬ AtSyscall m e q := by
          rintro ⟨_, hp'⟩
          rw [hp, Option.some.injEq] at hp'
          exact hqp hp'.symm
        exact ⟨fun hcall => absurd hcall hncall,
          fun _ => ⟨hcarried.regs, fun _ => hcarried.result (fun hd => hqp hd.1), hcarried.pc⟩,
          hcarried.timer⟩

end Handlers

/-! ## The scheduler -/

section Scheduler

variable {hw : Hw} {k k' : Kernel}

/-- The record of a process that the scheduler loads. -/
def loaded (t : Pcb) : Pcb :=
  { t with pS := { t.pS with status := takeoverStatus t.pPrio t.pS.status } }

/-- The scheduler changes the record of the process it loads and no other one. -/
structure Loads (k k' : Kernel) (p : PcbId) : Prop where
  active : k'.activeProcess = some p
  self : k'.pcb p = loaded (k.pcb p)
  other : ∀ q, q ≠ p → k'.pcb q = k.pcb q

theorem dispatch_loads {p : PcbId} (h : dispatch hw k p = .run k') : Loads k k' p := by
  unfold dispatch schedulerTakeover at h
  simp only [Outcome.run.injEq] at h
  rw [← h]
  cases k.yieldProcess with
  | none => exact ⟨rfl, if_pos rfl, fun q hq => if_neg hq⟩
  | some y => exact ⟨rfl, if_pos rfl, fun q hq => if_neg hq⟩

theorem removeProcQ_pcb (k : Kernel) (h : ProcQ) : (removeProcQ k h).2.pcb = k.pcb := by
  unfold removeProcQ outProcQ
  split
  · rfl
  · split <;> rfl

/-- The scheduler dispatches a process or finds none, without a look at the
    records. -/
inductive Picks (hw : Hw) (k : Kernel) : Outcome → Prop
  | dispatch {k₁ : Kernel} {p : PcbId} (hpcb : k₁.pcb = k.pcb) : Picks hw k (dispatch hw k₁ p)
  | idle {k₁ : Kernel} (hpcb : k₁.pcb = k.pcb) : Picks hw k (waitOrDie hw k₁)

theorem Picks.of_pcb {k₁ : Kernel} {o : Outcome} (hpcb : k₁.pcb = k.pcb) (h : Picks hw k₁ o) :
    Picks hw k o := by
  cases h with
  | dispatch h => exact Picks.dispatch (h.trans hpcb)
  | idle h => exact Picks.idle (h.trans hpcb)

theorem selectReady_picks (hw : Hw) (k : Kernel) : Picks hw k (selectReady hw k) := by
  have hhi := removeProcQ_pcb k .readyQueueHi
  unfold selectReady
  rcases hr : removeProcQ k .readyQueueHi with ⟨o, k₁⟩
  rw [hr] at hhi
  cases o with
  | some p => exact Picks.dispatch hhi
  | none =>
      have hlo := removeProcQ_pcb k₁ .readyQueueLo
      simp only
      rcases hr' : removeProcQ k₁ .readyQueueLo with ⟨o', k₂⟩
      rw [hr'] at hlo
      cases o' with
      | some p => exact Picks.dispatch (hlo.trans hhi)
      | none =>
          simp only
          split
          · have hpcb : ({ k₂ with yieldProcess := none } : Kernel).pcb = k.pcb := hlo.trans hhi
            exact Picks.dispatch hpcb
          · exact Picks.idle (hlo.trans hhi)

theorem schedule_picks (hw : Hw) (k : Kernel) (pcb : Option PcbId) (enqueue : Bool) :
    Picks hw k (schedule hw k pcb enqueue) := by
  unfold schedule
  split
  · exact Picks.dispatch rfl
  · rename_i p
    have hpcb : (enqueueProcess k p).pcb = k.pcb := rfl
    exact (selectReady_picks hw _).of_pcb hpcb
  · exact selectReady_picks hw k

theorem waitOrDie_not_run : waitOrDie hw k ≠ .run k' := by
  unfold waitOrDie schedulerWait
  split
  · exact Outcome.noConfusion
  · split <;> exact Outcome.noConfusion

/-- The process `schedule` loads gets the status of its priority. -/
theorem schedule_run {pcb : Option PcbId} {enqueue : Bool}
    (h : schedule hw k pcb enqueue = .run k') : ∃ p, Loads k k' p := by
  have hpicks := schedule_picks hw k pcb enqueue
  rw [h] at hpicks
  generalize ho : Outcome.run k' = o at hpicks
  cases hpicks with
  | @dispatch k₁ p hpcb =>
      have hl := dispatch_loads ho.symm
      refine ⟨p, hl.active, ?_, fun q hq => ?_⟩
      · rw [hl.self, hpcb]
      · rw [hl.other q hq, hpcb]
  | idle => exact absurd ho.symm waitOrDie_not_run

end Scheduler

/-! ## Dispatches -/

section Dispatches

variable {L : Layout} {m : Machine} {e : Event} {k k' : Kernel}

/-- A process that an exception creates does not take over: the creator goes
    on. -/
theorem Handled.created (hwf : MachineWf L m) {ctrl : SchedulerControl}
    (h : Handled L m e (.ok (ctrl, k))) {q : PcbId} (hq : q ∈ m.kernel.procq .pcbFree)
    (hq' : q ∉ k.procq .pcbFree) :
    ∃ p, ctrl = { pcb := some p, enqueue := false } ∧ q ≠ p := by
  have hb := hwf.between
  -- Nothing but `CREATEPROCESS` takes a block off the free list.
  have hsame : ∀ {k₁ : Kernel}, k₁.procq .pcbFree = m.kernel.procq .pcbFree →
      k.procq .pcbFree = k₁.procq .pcbFree → False :=
    fun h₁ h₂ => hq' (by rw [h₂, h₁]; exact hq)
  have hpass : ∀ {k₁ k₂ : Kernel} {ctrl : SchedulerControl} {type : Fin 2},
      k₁.procq .pcbFree = m.kernel.procq .pcbFree → k.procq .pcbFree = k₂.procq .pcbFree →
      PassUp e.hw k₁ type (.ok (ctrl, k₂)) → False := by
    intro k₁ k₂ ctrl type h₁ h₂ h
    cases h with
    | idle => exact hsame h₁ h₂
    | die =>
        rw [h₂, killed_free, List.mem_append, not_or, h₁] at hq'
        exact hq'.2 hq
  cases h with
  | interrupt hc h =>
      exfalso
      have hfree := (base_charged hb e).free
      have hasl := (base_charged hb e).asl
      cases h with
      | resume => exact hsame hfree rfl
      | tick _ _ hd =>
          rcases hd with ⟨_, hd⟩ | ⟨_, rfl⟩
          · exact hsame hfree hd.frame.free
          · exact hsame hfree rfl
      | device _ _ _ h =>
          cases h with
          | wake h => exact hsame hfree (h.frame hasl).free
          | stray => exact hsame hfree rfl
  | pass _ h => exact (hpass (base_charged hb e).free rfl h).elim
  | @call p _ k₁ _ hp h =>
      have hbase := base_calling hb e
      have hfree := hbase.free
      cases h with
      | reserved _ h => exact (@hpass (Pandos.reserved (calling m e) p) k₁ ctrl _ hfree rfl h).elim
      | pass _ h => exact (@hpass (calling m e) k₁ ctrl _ hfree rfl h).elim
      | full => exact (hsame hfree rfl).elim
      | create =>
          refine ⟨p, ?_, ?_⟩
          · rw [hbase.active, hp]
            rfl
          · -- The creator is active, so its block is not free.
            rintro rfl
            have hat := hb.at_
            rw [hp] at hat
            exact hat.not_free (Finset.mem_singleton_self q) hq
      | @terminate t ks s =>
          exfalso
          have hmem : q ∉ ((calling m e).killed ks s).procq .pcbFree := hq'
          rw [killed_free, List.mem_append, not_or, hfree] at hmem
          exact hmem.2 hq
      | passeren _ _ _ _ h => exact (hsame hfree (h.frame hbase.asl).free).elim
      | verhogen _ _ _ _ h => exact (hsame hfree (h.frame hbase.asl).free).elim
      | doIo _ _ _ _ h => exact (hsame hfree h.frame.free).elim
      | waitClock _ _ h => exact (hsame hfree (h.frame hbase.asl).free).elim
      | get => exact (hsame hfree rfl).elim
      | yield => exact (hsame hfree rfl).elim

/-- A dispatch behind an exception: the handler leaves a state in which the
    process is live, and the scheduler loads it. -/
theorem dispatched (hwf : MachineWf L m) (hok : e.Ok L m) (h : m.outcome L e = .run k) {p : PcbId}
    (hp : k.activeProcess = some p) : ∃ k₁, Moved L m e p (k₁.pcb p).pS ∧ Loads k₁ k p := by
  have hh := handleException_spec hwf hok
  unfold Machine.outcome exceptionHandler at h
  rcases hr : handleException L e.hw (m.entry e) with x | ⟨ctrl, k₁⟩
  · rw [hr] at h
    cases x <;> exact absurd h Outcome.noConfusion
  · rw [hr] at h hh
    simp only at h
    rcases schedule_run h with ⟨q, hloads⟩
    have hqp : q = p := Option.some.inj (hloads.active.symm.trans hp)
    subst hqp
    have hs : Scheduled e.hw k₁ (schedule e.hw k₁ ctrl.pcb ctrl.enqueue) :=
      schedule_spec (hh.ready hwf.between)
    rw [h] at hs
    cases hs with
    | run hkept hbet =>
        have hat := hbet.at_
        rw [hp] at hat
        have hlive : q ∉ k₁.procq .pcbFree := by
          rw [← hkept.free]
          exact hat.not_free (Finset.mem_singleton_self q)
        refine ⟨k₁, hh.moved hwf (fun hfree => ?_) hlive, hloads⟩
        rcases hh.created hwf hfree hlive with ⟨p, rfl, hne⟩
        exact hne (Option.some.inj (hp.symm.trans (dispatch_loads h).active))

end Dispatches

end Pandos
