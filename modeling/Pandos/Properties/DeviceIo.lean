import Pandos.Theory.Replay

/-!
# Completions of Device Commands

What the nucleus does with the interrupt that answers a command. A completion
is delivered when the process that issued the command gets the status and goes
on, or nobody hears of it when that process was terminated, and the semaphore
of the device is zero either way.

`interrupt_generic` and `interrupt_terminal` hand the status to whatever `V`
returns. While the issuer waits this is the issuer. When it was terminated the
queue is empty, `V` raises the semaphore and returns the active process, which
gets a status it never asked for, or the nucleus panics if nobody is active.
When somebody else waits for the same device by then, it is taken for the
issuer. And a terminal that reports anything but a finished operation leads to
a panic.

## Main definitions

* `DeviceInterrupt`: The exception is the interrupt of a device.
* `Resumed`: The issuer of a command got its answer.
* `Unheard`: Nobody got an answer.
* `Delivered`: The answer of a device went where it belongs.
* `Owned`: The answer is to a command whose issuer is alive.

## Theorems

* `resumed_of_wake`: The longest waiter gets the answer and goes on.
* `delivered_of_owned`: The answer to a process that is alive is delivered.
* `owned_of_delivered`: No other answer is.
* `completion_delivered_iff`: In every run both hold for the next interrupt.
* `completion_misdelivered`: A status goes to a process that never asked for it.
-/

namespace Pandos

/-- The exception is the interrupt of a device. -/
def DeviceInterrupt (e : Event) : Prop :=
  excClass e.hw.cause = .interrupt ∧ intClass e.hw.cause = .device

/-- The issuer of the command of a sub-unit waited alone, is ready now, and has
    the status in `reg_v0`. No other register of any process changed after the
    registers of the active process were saved. -/
structure Resumed (L : Layout) (m : Machine) (e : Event) (k : Kernel) (u : DevUnit) (p : PcbId)
    (status : Word) : Prop where
  waiting : waiters m.kernel (L.semAddr u) = [p]
  released : waiters k (L.semAddr u) = []
  ready : p ∈ k.procq .readyQueueHi ∨ p ∈ k.procq .readyQueueLo ∨ k.activeProcess = some p
  status : (k.pcb p).pS.gpr .v0 = status
  others : ∀ q r, q ≠ p ∨ r ≠ .v0 → (k.pcb q).pS.gpr r = ((charged m e).pcb q).pS.gpr r

/-- Nobody left the queue of a sub-unit, and no register of any process changed
    after the registers of the active process were saved. -/
structure Unheard (L : Layout) (m : Machine) (e : Event) (k : Kernel) (u : DevUnit) : Prop where
  queue : waiters k (L.semAddr u) = waiters m.kernel (L.semAddr u)
  gpr : ∀ q, (k.pcb q).pS.gpr = ((charged m e).pcb q).pS.gpr

/-- The nucleus goes on after the interrupt of a device, the semaphore of the
    sub-unit is zero, and the answer went to the process that issued the command,
    or to nobody if it was terminated. -/
def Delivered (L : Layout) (m : Machine) (e : Event) : Prop :=
  ∃ u status k, answer e.hw = some (u, status) ∧ (m.outcome L e).next = some k ∧
    k.mem (L.semAddr u) = 0 ∧
    ((∃ p, m.pending u = some (.process p) ∧ Resumed L m e k u p status) ∨
      (m.pending u = some .terminated ∧ Unheard L m e k u))

/-- The device reports the end of an operation, and the process that issued the
    command is alive. -/
def Owned (m : Machine) (e : Event) : Prop :=
  ∃ u status p, answer e.hw = some (u, status) ∧ m.pending u = some (.process p)

section Interrupt

variable {L : Layout} {m : Machine} {e : Event}

/-- The handler of a device interrupt answers a sub-unit, or it panics. -/
theorem handled_device (hdev : DeviceInterrupt e) {r : Result (SchedulerControl × Kernel)}
    (h : Handled L m e r) : (∃ u status, answer e.hw = some (u, status) ∧ m.pending u ≠ none ∧
      Answered L (charged m e) u status r) ∨ (answer e.hw = none ∧
        r = .error (.panic "Unexpected interrupt from terminal device %d\n")) := by
  cases h.interrupted hdev.1 with
  | resume _ hi => exact absurd (hi.symm.trans hdev.2) IntClass.noConfusion
  | tick hi => exact absurd (hi.symm.trans hdev.2) IntClass.noConfusion
  | device _ ha hp h => exact Or.inl ⟨_, _, ha, hp, h⟩
  | unexpected _ ha => exact Or.inr ⟨ha, rfl⟩

/-- The sub-unit that is answered is the one that reports the end of an
    operation. -/
theorem handled_answer (hdev : DeviceInterrupt e) {r : Result (SchedulerControl × Kernel)}
    (h : Handled L m e r) {u : DevUnit} {status : Word} (ha : answer e.hw = some (u, status)) :
    m.pending u ≠ none ∧ Answered L (charged m e) u status r := by
  rcases handled_device hdev h with ⟨v, status', ha', hpend, hans⟩ | ⟨ha', _⟩
  · rw [ha, Option.some.injEq, Prod.mk.injEq] at ha'
    rcases ha' with ⟨rfl, rfl⟩
    exact ⟨hpend, hans⟩
  · rw [ha] at ha'
    cases ha'

/-- The process that was released from the semaphore of a device waits for
    nothing. -/
theorem Woken.semAdd {k k' : Kernel} {a : Word} {p : PcbId} (h : Woken k a p k') :
    (k'.pcb p).pSemAdd = none := by
  rcases h.rest with ⟨q, s, rfl⟩
  exact setSemAdd_self k p none

/-- The longest waiter gets the status and goes on; the others do not notice. -/
theorem resumed_of_wake (hwf : MachineWf L m) {u : DevUnit} {status : Word} {p : PcbId}
    (hwait : waiters m.kernel (L.semAddr u) = [p]) {k₁ k : Kernel}
    (hb : Woken (charged m e) (L.semAddr u) p k₁)
    (hkept : Kept (acked (setResult k₁ p status) u) k) (hbet : Between k) :
    Resumed L m e k u p status := by
  have hasl := (charged_at hwf.between e).wf.asl
  have hframe := hb.frame hasl
  have htouch := touched_trans (touched_setResult k₁ p status) (touched_acked _ u)
  have hgpr : ∀ q, (k.pcb q).pS.gpr = ((setResult k₁ p status).pcb q).pS.gpr := hkept.gpr
  refine ⟨hwait, ?_, ?_, ?_, fun q r hqr => ?_⟩
  · rw [hkept.waiters, htouch.waiters, hb.waiters hasl, if_pos rfl, charged_waiters, hwait]
    rfl
  · refine hbet.ready_or_active ?_ ?_
    · rw [hkept.free, htouch.free, hframe.free]
      exact not_free_of_mem_waiters hasl
        (show p ∈ waiters (charged m e) (L.semAddr u) by
          rw [charged_waiters, hwait]
          exact List.mem_singleton_self p)
    · rw [hkept.semAdd, htouch.same.semAdd, hb.semAdd]
  · rw [hgpr]
    simp only [setResult, Kernel.modPcb, if_true, State.setReg]
  · rw [hgpr, ← hframe.state q]
    simp only [setResult, Kernel.modPcb]
    by_cases hq : q = p
    · have hr : r ≠ .v0 := hqr.resolve_left (not_not_intro hq)
      rw [if_pos hq, hq]
      simp only [State.setReg, if_neg hr]
    · rw [if_neg hq]

/-- The answer to a process that is alive is delivered. -/
theorem delivered_of_owned (hwf : MachineWf L m) (hok : e.Ok L m) (hdev : DeviceInterrupt e)
    (h : Owned m e) : Delivered L m e := by
  rcases h with ⟨u, status, p, ha, hp⟩
  have hwait := hwf.owner u p hp
  have hzero := sem_zero_of_pending hwf hok (u := u) (by rw [hp]; exact Option.some_ne_none _)
  have hasl := (charged_at hwf.between e).wf.asl
  -- The handler finds the issuer in the queue of the sub-unit.
  have hans : ∀ {r}, Handled L m e r → ∃ k₁, Woken (charged m e) (L.semAddr u) p k₁ ∧
      r = .ok (CONTROL_PRESERVE (charged m e).activeProcess, acked (setResult k₁ p status) u) := by
    intro r hr
    cases (handled_answer hdev hr ha).2 with
    | @wake t k₁ hb =>
        rcases hb.head with ⟨ts, hts⟩
        rw [charged_waiters, hwait, List.cons.injEq] at hts
        rcases hts with ⟨rfl, _⟩
        exact ⟨k₁, hb, rfl⟩
    | stray hn =>
        rw [charged_waiters, hwait] at hn
        exact absurd hn (List.cons_ne_nil p [])
    | idle hn =>
        rw [charged_waiters, hwait] at hn
        exact absurd hn (List.cons_ne_nil p [])
  have hend := outcome_spec hwf hok
  have hgo : ∀ {k₁ k : Kernel}, Woken (charged m e) (L.semAddr u) p k₁ →
      Kept (acked (setResult k₁ p status) u) k → Between k → (m.outcome L e).next = some k →
      Delivered L m e := by
    intro k₁ k hb hkept hbet hnext
    refine ⟨u, status, k, ha, hnext, ?_, Or.inl ⟨p, hp, resumed_of_wake hwf hwait hb hkept hbet⟩⟩
    rw [hkept.mem]
    change k₁.mem (L.semAddr u) = 0
    rw [hb.mem, charged_mem, hzero]
  generalize ho : m.outcome L e = o at hend
  cases hend with
  | @scheduled ctrl k _ hh _ hs =>
      rcases hans hh with ⟨k₁, hb, heq⟩
      rw [Except.ok.injEq, Prod.mk.injEq] at heq
      rw [heq.2] at hs
      cases hs with
      | run hkept hbet => exact hgo hb hkept hbet (by rw [ho]; rfl)
      | wait hkept hbet => exact hgo hb hkept hbet (by rw [ho]; rfl)
      | halt hkept hlive =>
          -- The issuer is alive, so the nucleus does not halt.
          have hf : p ∉ (charged m e).procq .pcbFree := by
            refine not_free_of_mem_waiters hasl (a := L.semAddr u) ?_
            rw [charged_waiters, hwait]
            exact List.mem_singleton_self p
          have htouch := touched_trans (touched_setResult k₁ p status) (touched_acked _ u)
          rw [← (hb.frame hasl).free, ← htouch.free, ← hkept.free, ← mem_live, hlive] at hf
          exact absurd hf (Finset.notMem_empty p)
  | context hh =>
      rcases hans hh with ⟨k₁, _, heq⟩
      exact absurd heq (by simp only [reduceCtorEq, not_false_eq_true])
  | panic hh =>
      rcases hans hh with ⟨k₁, _, heq⟩
      exact absurd heq (by simp only [reduceCtorEq, not_false_eq_true])

/-- The answer to a process that was terminated is taken by the longest waiter,
    or it raises the semaphore. -/
theorem owned_of_delivered (hwf : MachineWf L m) (hok : e.Ok L m) (hdev : DeviceInterrupt e)
    (h : Delivered L m e) : Owned m e := by
  rcases h with ⟨u, status, k, ha, hnext, hmem, ⟨p, hp, _⟩ | ⟨hp, hun⟩⟩
  · exact ⟨u, status, p, ha, hp⟩
  exfalso
  have hasl := (charged_at hwf.between e).wf.asl
  have hzero := sem_zero_of_pending hwf hok (u := u) (by rw [hp]; exact Option.some_ne_none _)
  have hend := outcome_spec hwf hok
  generalize m.outcome L e = o at hend hnext
  have hfinal : ∀ {ctrl : SchedulerControl} {k₁ : Kernel}, Handled L m e (.ok (ctrl, k₁)) →
      Kept k₁ k → False := by
    intro ctrl k₁ hh hkept
    cases (handled_answer hdev hh ha).2 with
    | @wake t k₂ hb =>
        have htouch := touched_trans (touched_setResult k₂ t status) (touched_acked _ u)
        have hq := hun.queue
        rcases hb.head with ⟨ts, hts⟩
        rw [hkept.waiters, htouch.waiters, hb.waiters hasl, if_pos rfl, hts, List.tail_cons,
          ← charged_waiters m e, hts] at hq
        exact List.cons_ne_self t ts hq.symm
    | stray =>
        rw [hkept.mem] at hmem
        change (if L.semAddr u = L.semAddr u then _ else _) = (0 : Word) at hmem
        rw [if_pos rfl, charged_mem, hzero] at hmem
        exact absurd hmem (by decide)
  cases hend with
  | scheduled hh _ hs =>
      cases hs with
      | run hkept =>
          rw [Outcome.next, Option.some.injEq] at hnext
          exact hfinal hh (hnext ▸ hkept)
      | wait hkept =>
          rw [Outcome.next, Option.some.injEq] at hnext
          exact hfinal hh (hnext ▸ hkept)
      | halt => exact absurd hnext (by simp only [Outcome.next, reduceCtorEq, not_false_eq_true])
  | context hh => cases (handled_answer hdev hh ha).2
  | panic => exact absurd hnext (by simp only [Outcome.next, reduceCtorEq, not_false_eq_true])

end Interrupt

/-- In every run, whatever was done and terminated before, the next interrupt of
    a device is delivered if and only if the device reports the end of an
    operation whose issuer is still alive. -/
theorem completion_delivered_iff {L : Layout} {b : Boot} {es : List Event} {m : Machine}
    (h : (nucleus L b).Run es m) {e : Event} (hok : e.Ok L m) (hdev : DeviceInterrupt e) :
    Delivered L m e ↔ Owned m e :=
  ⟨owned_of_delivered (machineWf_run h) hok hdev, delivered_of_owned (machineWf_run h) hok hdev⟩

/-! ## A command whose issuer is terminated -/

/-- The first process creates a second one and yields to it. -/
def twoProcesses : List (Hw × Accept) :=
  [(callHw CREATEPROCESS 0x20002000 0 0x20003000, .ignore), (callHw YIELD 0 0 0, .ignore)]

/-- The second process writes a command to a flash device and waits. -/
def flashCommand : Hw × Accept := (callHw DOIO (commandReg ⟨8, by decide⟩) 2 0, .start)

/-- The flash device reports that it is ready. -/
def flashReady : Hw × Accept :=
  (interruptHw IL_FLASH 1 { status := 1, transmStatus := 1 }, .ignore)

theorem completion_delivered_iff_sample : ∃ es m e, (nucleus sampleLayout sampleBoot).Run es m ∧
    e.Ok sampleLayout m ∧ DeviceInterrupt e ∧ Delivered sampleLayout m e := by
  have hrun := exists_run (L := sampleLayout) (b := sampleBoot)
    (twoProcesses ++ [flashCommand])
    (fun m => (Event.quiet m flashReady).Ok sampleLayout m ∧
      m.pending 8 = some (.process 18) ∧
      answer flashReady.1 = some (8, 1) ∧ excClass flashReady.1.cause = .interrupt ∧
      intClass flashReady.1.cause = .device) (by decide +kernel)
  rcases hrun with ⟨es, m, hrun, hok, hp, ha, hc, hi⟩
  exact ⟨es, m, Event.quiet m flashReady, hrun, hok, ⟨hc, hi⟩,
    (completion_delivered_iff hrun hok ⟨hc, hi⟩).mpr ⟨8, 1, 18, ha, hp⟩⟩

/-- The second process is terminated while it waits for the flash device. When
    the device answers, its semaphore is raised and the first process finds the
    status in `reg_v0`. -/
theorem completion_misdelivered : ∃ es m e k, (nucleus sampleLayout sampleBoot).Run es m ∧
    e.Ok sampleLayout m ∧ DeviceInterrupt e ∧ m.pending 8 = some .terminated ∧
    (m.outcome sampleLayout e).next = some k ∧ k.mem (sampleLayout.semAddr 8) = 1 ∧
    m.kernel.activeProcess = some 19 ∧ e.hw.bios.gpr .v0 = 0 ∧ (k.pcb 19).pS.gpr .v0 = 1 ∧
    ¬ Delivered sampleLayout m e := by
  have hrun := exists_run (L := sampleLayout) (b := sampleBoot)
    (twoProcesses ++ [flashCommand, (callHw TERMPROCESS 51 0 0, .ignore)])
    (fun m => (Event.quiet m flashReady).Ok sampleLayout m ∧ m.pending 8 = some .terminated ∧
      answer flashReady.1 = some (8, 1) ∧ excClass flashReady.1.cause = .interrupt ∧
      intClass flashReady.1.cause = .device ∧ m.kernel.activeProcess = some 19 ∧
      (m.outcome sampleLayout (Event.quiet m flashReady)).next.any (fun k =>
        decide (k.mem (sampleLayout.semAddr 8) = 1 ∧ (k.pcb 19).pS.gpr .v0 = 1)) = true)
    (by decide +kernel)
  rcases hrun with ⟨es, m, hrun, hok, hp, ha, hc, hi, hact, hnext⟩
  rw [Option.any_eq_true] at hnext
  rcases hnext with ⟨k, hk, hdec⟩
  rw [decide_eq_true_iff] at hdec
  refine ⟨es, m, Event.quiet m flashReady, k, hrun, hok, ⟨hc, hi⟩, hp, hk, hdec.1, hact, rfl,
    hdec.2, fun hd => ?_⟩
  rcases hd with ⟨u, status, k', ha', hk', hmem, _⟩
  have hau := ha.symm.trans ha'
  rw [Option.some.injEq, Prod.mk.injEq] at hau
  have hone : k.mem (sampleLayout.semAddr (8 : DevUnit)) = 1 := hdec.1
  rw [← hau.1, Option.some.inj (hk'.symm.trans hk), hone] at hmem
  exact absurd hmem (by decide)

end Pandos
