import Pandos.Theory.Interrupts
import Pandos.Theory.Syscalls

/-!
# Exceptions

What one exception can do. `Handled` lists the branches of the handler, each
with the registers and times it writes; every one of them that returns leaves
the state the scheduler relies on.

## Main definitions

* `Touched`: States that differ in registers, times and logs only.
* `charged`, `calling`: The states a handler and a system call start from.
* `KernelCall`: The exception is a system call in kernel mode.
* `MachineWf`: The invariant of the machine.
* `Handled`: The branches of the exception handler.

## Theorems

* `handleException_spec`: An exception takes one of the branches.
* `Handled.ready`: A handler hands the scheduler what it needs.
-/

namespace Pandos

/-! ## Registers and times -/

/-- The states differ at most in saved registers, times, support pointers and
    logs. -/
structure Touched (k k' : Kernel) : Prop where
  same : Same k k'
  mem : k'.mem = k.mem
  active : k'.activeProcess = k.activeProcess
  yield : k'.yieldProcess = k.yieldProcess

theorem touched_refl (k : Kernel) : Touched k k := ⟨same_refl k, rfl, rfl, rfl⟩

theorem touched_trans {k k' k'' : Kernel} (h : Touched k k') (h' : Touched k' k'') :
    Touched k k'' :=
  ⟨same_trans h.same h'.same, h'.mem.trans h.mem, h'.active.trans h.active,
    h'.yield.trans h.yield⟩

theorem Touched.waiters {k k' : Kernel} (h : Touched k k') (a : Word) :
    waiters k' a = waiters k a :=
  congrFun (congrArg Places.wait h.same.places) a

theorem Touched.free {k k' : Kernel} (h : Touched k k') :
    k'.procq .pcbFree = k.procq .pcbFree := by
  rw [h.same.procq]

theorem touched_modPcb (k : Kernel) (p : PcbId) (f : Pcb → Pcb)
    (hf : ∀ t, (f t).pParent = t.pParent ∧ (f t).pSemAdd = t.pSemAdd ∧ (f t).pPrio = t.pPrio ∧
      (f t).pPid = t.pPid) : Touched k (k.modPcb p f) :=
  ⟨same_modPcb k p f hf, rfl, rfl, rfl⟩

theorem touched_setResult (k : Kernel) (p : PcbId) (v : Word) : Touched k (setResult k p v) :=
  touched_modPcb k p (fun t => { t with pS := t.pS.setReg .v0 v }) (fun _ => ⟨rfl, rfl, rfl, rfl⟩)

theorem touched_chargeAndSave (hw : Hw) (k : Kernel) : Touched k (chargeAndSave hw k) := by
  unfold chargeAndSave
  cases k.activeProcess with
  | none => exact touched_refl k
  | some p =>
      exact touched_modPcb k p (fun t =>
        { t with pTime := t.pTime + (hw.todEntry - k.startTod), pS := hw.bios })
        (fun _ => ⟨rfl, rfl, rfl, rfl⟩)

theorem touched_afterSyscall (hw : Hw) (k : Kernel) (p : PcbId) :
    Touched k (afterSyscall hw k p) :=
  touched_modPcb k p (fun t => { t with
    pTime := t.pTime + (hw.todReturn - k.startTod)
    pS := { t.pS.setReg .t9 (t.pS.gpr .t9 + WORD_SIZE) with pcEpc := t.pS.pcEpc + WORD_SIZE } })
    (fun _ => ⟨rfl, rfl, rfl, rfl⟩)

theorem touched_ioStarted (k : Kernel) (p : PcbId) (line : Int) (a v : Word) :
    Touched k (ioStarted k p line a v) := by
  have h := touched_modPcb k p (fun t =>
    { t with pS := { t.pS with status := ioStatus t.pPrio t.pS.status line } })
    (fun _ => ⟨rfl, rfl, rfl, rfl⟩)
  exact ⟨⟨rfl, rfl, rfl, rfl, rfl, rfl, h.same.parent, h.same.semAdd, h.same.prio, h.same.pid⟩,
    rfl, rfl, rfl⟩

theorem touched_reserved (k : Kernel) (p : PcbId) : Touched k (reserved k p) :=
  touched_modPcb k p (fun t => { t with
    pS := { t.pS with cause := causeReservedInstruction (causeClean t.pS.cause) } })
    (fun _ => ⟨rfl, rfl, rfl, rfl⟩)

theorem touched_passedUp (hw : Hw) (k : Kernel) (s : Word) (type : Fin 2) :
    Touched k (passedUp hw k s type) :=
  ⟨⟨rfl, rfl, rfl, rfl, rfl, rfl, fun _ => rfl, fun _ => rfl, fun _ => rfl, fun _ => rfl⟩, rfl, rfl,
    rfl⟩

theorem touched_acked (k : Kernel) (u : DevUnit) : Touched k (acked k u) :=
  ⟨⟨rfl, rfl, rfl, rfl, rfl, rfl, fun _ => rfl, fun _ => rfl, fun _ => rfl, fun _ => rfl⟩, rfl, rfl,
    rfl⟩

theorem touched_startTod (k : Kernel) (tod : Int) : Touched k { k with startTod := tod } :=
  ⟨⟨rfl, rfl, rfl, rfl, rfl, rfl, fun _ => rfl, fun _ => rfl, fun _ => rfl, fun _ => rfl⟩, rfl, rfl,
    rfl⟩

/-! ## The invariant of the machine -/

/-- The invariant between two exceptions. A device semaphore is raised only
    when nobody waits for the device and the device owes no answer, and a
    command that has an owner is waited for by the owner alone. -/
structure MachineWf (L : Layout) (m : Machine) : Prop where
  between : Between m.kernel
  timer : m.kernel.mem (getTimerSemaphore L) = 0 ∨ m.kernel.mem (getTimerSemaphore L) = 1
  device : ∀ u : DevUnit, m.kernel.mem (L.semAddr u) = 0 ∨ m.kernel.mem (L.semAddr u) = 1
  raised : ∀ u : DevUnit, m.kernel.mem (L.semAddr u) = 1 →
    waiters m.kernel (L.semAddr u) = [] ∧ m.pending u = none
  owner : ∀ (u : DevUnit) p, m.pending u = some (.process p) →
    waiters m.kernel (L.semAddr u) = [p]

/-- The state in which the time of the active process was charged and its
    registers were saved. -/
def charged (m : Machine) (e : Event) : Kernel := chargeAndSave e.hw (m.entry e)

/-- The state a system call starts from. -/
def calling (m : Machine) (e : Event) : Kernel :=
  { charged m e with startTod := e.hw.todSyscall }

section Entry

variable {L : Layout} {m : Machine} {e : Event}

theorem same_entry (m : Machine) (e : Event) : Same m.kernel (m.entry e) :=
  ⟨rfl, rfl, rfl, rfl, rfl, rfl, fun _ => rfl, fun _ => rfl, fun _ => rfl, fun _ => rfl⟩

theorem same_charged (m : Machine) (e : Event) : Same m.kernel (charged m e) :=
  same_trans (same_entry m e) (touched_chargeAndSave e.hw (m.entry e)).same

theorem charged_mem (m : Machine) (e : Event) : (charged m e).mem = e.mem :=
  (touched_chargeAndSave e.hw (m.entry e)).mem

theorem charged_active (m : Machine) (e : Event) :
    (charged m e).activeProcess = m.kernel.activeProcess :=
  (touched_chargeAndSave e.hw (m.entry e)).active

theorem charged_yield (m : Machine) (e : Event) :
    (charged m e).yieldProcess = m.kernel.yieldProcess :=
  (touched_chargeAndSave e.hw (m.entry e)).yield

theorem charged_waiters (m : Machine) (e : Event) (a : Word) :
    waiters (charged m e) a = waiters m.kernel a :=
  congrFun (congrArg Places.wait (same_charged m e).places) a

theorem charged_at (h : Between m.kernel) (e : Event) :
    At (charged m e) (charged m e).activeProcess.toFinset := by
  rw [charged_active]
  exact h.at_.of_same (same_charged m e)

/-- The state of the active process is the one saved at the exception. -/
theorem charged_state {p : PcbId} (hp : m.kernel.activeProcess = some p) :
    ((charged m e).pcb p).pS = e.hw.bios := by
  have hp' : (m.entry e).activeProcess = some p := hp
  simp only [charged, chargeAndSave, hp', Kernel.modPcb, if_true]

theorem charged_support (m : Machine) (e : Event) (q : PcbId) :
    ((charged m e).pcb q).pSupport = (m.kernel.pcb q).pSupport := by
  unfold charged chargeAndSave
  cases (m.entry e).activeProcess with
  | none => rfl
  | some p =>
      by_cases hq : q = p
      · simp only [Kernel.modPcb, hq, if_true]
        rfl
      · simp only [Kernel.modPcb, if_neg hq]
        rfl

theorem charged_sup (m : Machine) (e : Event) : (charged m e).sup = e.sup := by
  unfold charged chargeAndSave
  cases (m.entry e).activeProcess <;> rfl

theorem charged_sem (hok : e.Trusted L m) {i : Nat} (hi : i < SEMAPHORES_NUM) :
    (charged m e).mem (L.semAddr i) = m.kernel.mem (L.semAddr i) := by
  rw [charged_mem, hok.mem i hi]

theorem charged_timer (hok : e.Trusted L m) :
    (charged m e).mem (getTimerSemaphore L) = m.kernel.mem (getTimerSemaphore L) :=
  charged_sem hok (Nat.lt_succ_self 48)

/-- A system call starts with its caller in no queue. -/
theorem calling_spec (h : Between m.kernel) {p : PcbId} (hp : m.kernel.activeProcess = some p) :
    Calling (calling m e) p := by
  have hact : (charged m e).activeProcess = some p := (charged_active m e).trans hp
  have hat := charged_at h e
  rw [hact] at hat
  exact ⟨hat.of_same (touched_startTod _ _).same, hact⟩

theorem calling_state {p : PcbId} (hp : m.kernel.activeProcess = some p) :
    ((calling m e).pcb p).pS = e.hw.bios := charged_state hp

theorem calling_sem (hok : e.Trusted L m) {i : Nat} (hi : i < SEMAPHORES_NUM) :
    (calling m e).mem (L.semAddr i) = m.kernel.mem (L.semAddr i) := charged_sem hok hi

theorem calling_device (hwf : MachineWf L m) (hok : e.Trusted L m) (u : DevUnit) :
    (calling m e).mem (L.semAddr u) = 0 ∨ (calling m e).mem (L.semAddr u) = 1 := by
  rw [calling_sem hok (unit_lt u)]
  exact hwf.device u

/-- The addresses a caller gives to the nucleus are aligned. -/
theorem calling_addressed (hok : e.Ok L m) (hc : excClass e.hw.cause = .syscall) {p : PcbId}
    (hp : m.kernel.activeProcess = some p) : Addressed L (calling m e) p := by
  refine ⟨fun hu hid hn => ?_, fun hu hid hn hrange => ?_⟩
  · rw [callId, calling_state hp] at hid
    rw [calling_state hp] at hu hn ⊢
    exact (hok.request hc hu hid hn).1
  · rw [callId, calling_state hp] at hid
    rw [calling_state hp] at hu hn hrange ⊢
    exact hok.command hc hu hid hn hrange

end Entry

/-- The exception is the given system call of the active process, made in kernel
    mode. -/
def KernelCall (id : Int) (m : Machine) (e : Event) : Prop :=
  excClass e.hw.cause = .syscall ∧ m.kernel.activeProcess ≠ none ∧
    (e.hw.bios.gpr .a0).toInt = id ∧ isUserMode e.hw.bios = false

instance (id : Int) (m : Machine) (e : Event) : Decidable (KernelCall id m e) :=
  inferInstanceAs (Decidable (_ ∧ _))

/-! ## The branches of the handler -/

/-- The slot of the support structure an exception is passed up in. -/
def exceptType (cause : Word) : Fin 2 :=
  if excClass cause = .tlb then PGFAULTEXCEPT else GENERALEXCEPT

/-- The branches of the exception handler. -/
inductive Handled (L : Layout) (m : Machine) (e : Event) :
    Result (SchedulerControl × Kernel) → Prop
  | interrupt {r : Result (SchedulerControl × Kernel)} (hc : excClass e.hw.cause = .interrupt)
      (h : Interrupted L m e.hw (charged m e) r) : Handled L m e r
  | pass {r : Result (SchedulerControl × Kernel)}
      (hc : excClass e.hw.cause = .tlb ∨ excClass e.hw.cause = .other)
      (h : PassUp e.hw (charged m e) (exceptType e.hw.cause) r) : Handled L m e r
  | noCaller (hc : excClass e.hw.cause = .syscall) (hp : m.kernel.activeProcess = none) :
      Handled L m e (.error (.panic "A syscall happened while active_process was NULL\n"))
  | leave {p : PcbId} {x : Exit} (hc : excClass e.hw.cause = .syscall)
      (hp : m.kernel.activeProcess = some p) (h : Served L e.hw (calling m e) p (.error x)) :
      Handled L m e (.error x)
  | call {p : PcbId} {ctrl : SchedulerControl} {k : Kernel} (hc : excClass e.hw.cause = .syscall)
      (hp : m.kernel.activeProcess = some p)
      (h : Served L e.hw (calling m e) p (.ok (ctrl, k))) :
      Handled L m e (.ok (ctrl, afterSyscall e.hw k p))

/-- An interrupt takes one of the branches of its handler. -/
theorem Handled.interrupted {L : Layout} {m : Machine} {e : Event}
    {r : Result (SchedulerControl × Kernel)} (h : Handled L m e r)
    (hc : excClass e.hw.cause = .interrupt) : Interrupted L m e.hw (charged m e) r := by
  have hsys : excClass e.hw.cause ≠ .syscall := by
    rw [hc]
    exact ExcClass.noConfusion
  cases h with
  | interrupt _ h => exact h
  | pass hp =>
      rw [hc] at hp
      exact absurd hp (by simp only [reduceCtorEq, or_self, not_false_eq_true])
  | noCaller hs => exact absurd hs hsys
  | leave hs => exact absurd hs hsys
  | call hs => exact absurd hs hsys

/-- A system call that returns is charged and moves past its instruction. -/
theorem syscallException_ok {L : Layout} {m : Machine} {e : Event} {p : PcbId}
    {ctrl : SchedulerControl} {k : Kernel} (hp : m.kernel.activeProcess = some p)
    (h : syscallHandler L e.hw (calling m e) p = .ok (ctrl, k)) :
    syscallException L e.hw (charged m e) = .ok (ctrl, afterSyscall e.hw k p) := by
  have hact : (charged m e).activeProcess = some p := (charged_active m e).trans hp
  unfold syscallException
  split
  · rename_i hn
    exact absurd (hact.symm.trans hn) (Option.some_ne_none p)
  · rename_i q hq
    rw [hact, Option.some.injEq] at hq
    subst hq
    have hcalling : { charged m e with startTod := e.hw.todSyscall } = calling m e := rfl
    simp only [hcalling, h]

theorem syscallException_error {L : Layout} {m : Machine} {e : Event} {p : PcbId} {x : Exit}
    (hp : m.kernel.activeProcess = some p)
    (h : syscallHandler L e.hw (calling m e) p = .error x) :
    syscallException L e.hw (charged m e) = .error x := by
  have hact : (charged m e).activeProcess = some p := (charged_active m e).trans hp
  unfold syscallException
  split
  · rename_i hn
    exact absurd (hact.symm.trans hn) (Option.some_ne_none p)
  · rename_i q hq
    rw [hact, Option.some.injEq] at hq
    subst hq
    have hcalling : { charged m e with startTod := e.hw.todSyscall } = calling m e := rfl
    simp only [hcalling, h]

/-- A system call is handled by its branch. -/
theorem handleException_syscall {L : Layout} {m : Machine} {e : Event}
    (hc : excClass e.hw.cause = .syscall) :
    handleException L e.hw (m.entry e) = syscallException L e.hw (charged m e) := by
  have hentry : chargeAndSave e.hw (m.entry e) = charged m e := rfl
  simp only [handleException, hentry, hc]

theorem syscallException_spec {L : Layout} {m : Machine} {e : Event} (hwf : MachineWf L m)
    (hok : e.Ok L m) (hc : excClass e.hw.cause = .syscall) :
    Handled L m e (syscallException L e.hw (charged m e)) := by
  cases hp : m.kernel.activeProcess with
  | none =>
      have hact : (charged m e).activeProcess = none := (charged_active m e).trans hp
      unfold syscallException
      split
      · exact Handled.noCaller hc hp
      · rename_i q hq
        exact absurd (hq.symm.trans hact) (Option.some_ne_none q)
  | some p =>
      have hserved : Served L e.hw (calling m e) p (syscallHandler L e.hw (calling m e) p) :=
        syscallHandler_spec (calling_spec hwf.between hp) (calling_addressed hok hc hp)
          (calling_device hwf hok.toTrusted)
      rcases hr : syscallHandler L e.hw (calling m e) p with x | ⟨ctrl, k⟩ <;> rw [hr] at hserved
      · rw [syscallException_error hp hr]
        exact Handled.leave hc hp hserved
      · rw [syscallException_ok hp hr]
        exact Handled.call hc hp hserved

/-- An exception takes one of the branches of its handler. -/
theorem handleException_spec {L : Layout} {m : Machine} {e : Event} (hwf : MachineWf L m)
    (hok : e.Ok L m) : Handled L m e (handleException L e.hw (m.entry e)) := by
  have hat := charged_at hwf.between e
  have hlive : ∀ p, (charged m e).activeProcess = some p → p ∉ (charged m e).procq .pcbFree := by
    intro p hp
    rw [hp] at hat
    exact hat.not_free (Finset.mem_singleton_self p)
  have hentry : chargeAndSave e.hw (m.entry e) = charged m e := rfl
  unfold handleException
  simp only [hentry]
  cases hc : excClass e.hw.cause with
  | interrupt =>
      refine Handled.interrupt hc (interruptHandler_spec hok hat ?_ fun u hu hv => ?_)
      · rw [charged_timer hok.toTrusted]
        exact hwf.timer
      · rw [charged_sem hok.toTrusted (unit_lt u)] at hv
        exact hu (hwf.raised u hv).2
  | tlb =>
      refine Handled.pass (Or.inl hc) ?_
      rw [exceptType, if_pos hc]
      exact passUpOrDie_spec hat.wf hlive PGFAULTEXCEPT
  | other =>
      refine Handled.pass (Or.inr hc) ?_
      rw [exceptType, if_neg (hc ▸ ExcClass.noConfusion)]
      exact passUpOrDie_spec hat.wf hlive GENERALEXCEPT
  | syscall => exact syscallException_spec hwf hok hc

/-! ## What the scheduler gets -/

theorem ready_of_at {ctrl : SchedulerControl} {k : Kernel} (h : At k ctrl.pcb.toFinset)
    (hy : k.yieldProcess = none) : Ready ctrl k := by
  refine ⟨?_, Or.inr hy⟩
  rw [hy, Option.toFinset_none, Finset.union_empty]
  exact h

theorem Ready.of_touched {ctrl : SchedulerControl} {k k' : Kernel} (h : Ready ctrl k)
    (ht : Touched k k') : Ready ctrl k' := by
  refine ⟨?_, ?_⟩
  · rw [ht.yield]
    exact h.at_.of_same ht.same
  · rw [ht.yield]
    exact h.one

theorem PassUp.ready {hw : Hw} {k : Kernel} {type : Fin 2} {ctrl : SchedulerControl} {k' : Kernel}
    (h : PassUp hw k type (.ok (ctrl, k'))) (hat : At k k.activeProcess.toFinset)
    (hy : k.yieldProcess = none) : Ready ctrl k' := by
  cases h with
  | idle hp =>
      rw [hp] at hat
      exact ready_of_at hat hy
  | @die p ks s hp hs hk =>
      refine ready_of_at ?_ hy
      rw [hp] at hat
      have hkilled := hk.at hat
      rwa [Finset.sdiff_eq_empty_iff_subset.mpr] at hkilled
      rw [Option.toFinset_some, Finset.singleton_subset_iff, List.mem_toFinset]
      exact hk.self

theorem Interrupted.ready {L : Layout} {m : Machine} {hw : Hw} {k : Kernel}
    {ctrl : SchedulerControl} {k' : Kernel} (h : Interrupted L m hw k (.ok (ctrl, k')))
    (hat : At k k.activeProcess.toFinset) (hy : k.yieldProcess = none) : Ready ctrl k' := by
  cases h with
  | resume => exact ready_of_at hat hy
  | tick _ hat' hd =>
      refine ready_of_at hat' ?_
      rcases hd with ⟨_, hd⟩ | ⟨_, rfl⟩
      · rw [hd.frame.yieldProcess, hy]
      · exact hy
  | @device u status _ _ _ _ h =>
      cases h with
      | @wake t k₁ hb =>
          have ht := touched_trans (touched_setResult k₁ t status) (touched_acked _ u)
          refine ready_of_at ((hb.at hat).of_same ht.same) ?_
          rw [ht.yield, (hb.frame hat.wf.asl).yieldProcess, hy]
      | @stray q hn hq =>
          have hs := same_store k (L.semAddr u) (k.mem (L.semAddr u) + 1)
          have ht := touched_trans (touched_setResult (k.store (L.semAddr u)
            (k.mem (L.semAddr u) + 1)) q status) (touched_acked _ u)
          refine ready_of_at ((hat.of_same hs).of_same ht.same) ?_
          rw [ht.yield]
          exact hy

theorem PStep.ready {k k' : Kernel} {a : Word} {p : PcbId} {ctrl : SchedulerControl}
    (h : PStep k a p ctrl k') (hc : Calling k p) (hy : k.yieldProcess = none) : Ready ctrl k' := by
  have hy' := (h.frame hc.at_.wf.asl).yieldProcess.trans hy
  have hat : At k k.activeProcess.toFinset := by
    rw [hc.active]
    exact hc.at_
  cases h with
  | block _ hb =>
      have hat' := hb.at hc.at_ (Finset.mem_singleton_self p)
      rw [Finset.erase_singleton] at hat'
      exact ready_of_at hat' hy'
  | wake _ hb => exact ready_of_at (hb.at hat) hy'
  | lower => exact ready_of_at (hat.of_same (same_store k a _)) hy'

theorem VStep.ready {k k' : Kernel} {a : Word} {p : PcbId} {r : Option PcbId}
    (h : VStep k a r k') (hc : Calling k p) (hy : k.yieldProcess = none) :
    Ready (if r = none then CONTROL_BLOCK else CONTROL_RESCHEDULE k) k' := by
  have hy' := (h.frame hc.at_.wf.asl).yieldProcess.trans hy
  have hat : At k k.activeProcess.toFinset := by
    rw [hc.active]
    exact hc.at_
  have hat' := h.at hat
  by_cases hr : r = none
  · rw [if_pos hr] at hat' ⊢
    exact ready_of_at hat' hy'
  · rw [if_neg hr] at hat' ⊢
    exact ready_of_at hat' hy'

theorem Served.ready {L : Layout} {hw : Hw} {k : Kernel} {p : PcbId} {ctrl : SchedulerControl}
    {k' : Kernel} (h : Served L hw k p (.ok (ctrl, k'))) (hc : Calling k p)
    (hy : k.yieldProcess = none) : Ready ctrl k' := by
  have hat : At k k.activeProcess.toFinset := by
    rw [hc.active]
    exact hc.at_
  have hmem := Finset.mem_singleton_self p
  cases h with
  | reserved _ h =>
      have ht := touched_reserved k p
      refine h.ready ?_ (ht.yield.trans hy)
      rw [ht.active]
      exact hat.of_same ht.same
  | pass _ h => exact h.ready hat hy
  | full =>
      have ht := touched_setResult k p NULL_PID
      exact ready_of_at (hat.of_same ht.same) (ht.yield.trans hy)
  | @create c k₁ prio support state _ hs hcp hat₁ =>
      have ht := touched_setResult (adopted (filled k₁ c support state) p c) p
        (makePid (BitVec.ofNat 32 c.val) k.recycleCount)
      have hat₂ := hat₁.of_same (same_filled k₁ c support state)
      have hrec : (filled k₁ c support state).pcb c = { k₁.pcb c with
          pSupport := support, pS := state } := by
        simp only [filled, Kernel.modPcb, if_true]
      have hpar : parentOf (filled k₁ c support state) c = none := by
        rw [parentOf, hrec, hs.self]
        rfl
      rcases hs.free with ⟨cs, hf, hf'⟩
      have hcf : c ∈ k.procq .pcbFree := hf ▸ List.mem_cons_self
      -- The block of the child comes from the free list, so it has no family and is not the
      -- caller.
      have hleaf : (filled k₁ c support state).child c = [] :=
        (congrFun hs.child c).trans (no_family_of_free hc.at_.wf.tree hcf).2.1
      have hpf : p ∉ (filled k₁ c support state).procq .pcbFree := by
        refine hat₂.not_free ?_
        rw [hc.active]
        exact hmem
      have hcf' : c ∉ (filled k₁ c support state).procq .pcbFree := by
        have hnd := hc.at_.wf.asl.procq.nodup .pcbFree
        rw [hf, List.nodup_cons] at hnd
        change c ∉ k₁.procq .pcbFree
        rw [hf']
        exact hnd.1
      refine ready_of_at ((at_adopted hat₂ hcp hpar hleaf hpf hcf').of_same ht.same) ?_
      rw [ht.yield]
      exact hs.yield.trans hy
  | @terminate t ks s _ ht hk =>
      have hkilled := hk.at hc.at_
      by_cases hp : p ∈ ks
      · -- The caller is among the killed, so nobody is active any more.
        have hpid : ((k.killed ks s).pcb p).pPid = NULL_PID := by
          simp only [Kernel.killed, killedPcb, if_pos hp]
        rw [if_pos (Or.inr hpid)]
        refine ready_of_at ?_ hy
        rwa [Finset.sdiff_eq_empty_iff_subset.mpr] at hkilled
        rw [Finset.singleton_subset_iff, List.mem_toFinset]
        exact hp
      · have hnz : ¬ ((k.pcb p).pS.gpr .a1 = 0 ∨ ((k.killed ks s).pcb p).pPid = NULL_PID) := by
          -- A caller that survives was not asked to kill itself, and still has its PID.
          rintro (hz | hpid)
          · rcases ht with ⟨_, rfl⟩ | ⟨hnz, _⟩
            · exact hp hk.self
            · exact hnz hz
          · change (killedPcb k ks p).pPid = NULL_PID at hpid
            rw [killedPcb_of_not_mem k hp, ← hc.at_.wf.pcb.free_iff] at hpid
            exact hc.at_.not_free hmem hpid
        rw [if_neg hnz]
        refine ready_of_at ?_ hy
        change At _ k.activeProcess.toFinset
        rw [hc.active]
        rwa [Finset.sdiff_eq_self_of_disjoint] at hkilled
        rw [Finset.disjoint_singleton_left, List.mem_toFinset]
        exact hp
  | passeren _ _ _ _ h => exact h.ready hc hy
  | verhogen _ _ _ _ h => exact h.ready hc hy
  | doIo _ _ _ _ hb =>
      have hat' := hb.at hc.at_ hmem
      rw [Finset.erase_singleton] at hat'
      have hready : Ready CONTROL_BLOCK _ := ready_of_at hat' (hb.frame.yieldProcess.trans hy)
      exact hready.of_touched (touched_ioStarted _ _ _ _ _)
  | waitClock _ _ h => exact h.ready hc hy
  | get v =>
      have ht := touched_setResult k p v
      exact ready_of_at (hat.of_same ht.same) (ht.yield.trans hy)
  | yield =>
      refine ⟨?_, Or.inl rfl⟩
      change At _ (∅ ∪ k.activeProcess.toFinset)
      rw [Finset.empty_union]
      exact at_pointers hat k.activeProcess k.activeProcess

theorem Handled.ready {L : Layout} {m : Machine} {e : Event} {ctrl : SchedulerControl} {k : Kernel}
    (h : Handled L m e (.ok (ctrl, k))) (hb : Between m.kernel) : Ready ctrl k := by
  have hat := charged_at hb e
  have hy := (charged_yield m e).trans hb.yield
  cases h with
  | interrupt _ h => exact h.ready hat hy
  | pass _ h => exact h.ready hat hy
  | @call p _ k₁ _ hp h =>
      exact (h.ready (calling_spec hb hp) hy).of_touched (touched_afterSyscall e.hw k₁ p)

end Pandos
