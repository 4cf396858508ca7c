import Pandos.Theory.Effects

/-!
# Refused System Calls

What a system call leaves behind that `pass_up_or_die` ends. A caller without a
support structure is killed with its progeny, any other finds the state the BIOS
saved in its support structure. Nothing else changes, apart from the times and
the saved state of the caller.

## Main definitions

* `OnlyKilled`: Nothing happened but the death of some processes.
* `OnlyPassed`: Nothing happened but a change to one support structure.
* `PassesUpOrDies`, `Refusal`: The call ended in `pass_up_or_die`.
* `Unserved`: A state in which nothing was done for the call yet.

## Theorems

* `unserved_calling`, `unserved_reserved`: The states calls are refused in.
* `refusal_of_passUpOrDie`: A call that reaches `pass_up_or_die` does no more.
-/

namespace Pandos

open Forest

/-- Nothing happened but the death of some processes. -/
structure OnlyKilled (m : Machine) (e : Event) (ks : List PcbId) (k : Kernel) : Prop where
  free : k.procq .pcbFree = ks ++ m.kernel.procq .pcbFree
  queues : ∀ h, h ≠ .pcbFree → k.procq h = (m.kernel.procq h).filter (· ∉ ks)
  waiters : ∀ a, waiters k a = (waiters m.kernel a).filter (· ∉ ks)
  child : ∀ q, k.child q = (m.kernel.child q).filter (· ∉ ks)
  counts : k.processCount = Counter.decr^[ks.length] m.kernel.processCount ∧
    k.softblockCount = Counter.decr^[(waitingOf m.kernel ks).length] m.kernel.softblockCount
  pcb : ∀ q, q ∉ ks → k.pcb q = m.kernel.pcb q
  mem : k.mem = e.mem
  sup : k.sup = e.sup
  bus : k.bus = []

/-- Nothing happened but a change to one support structure and to the times and
    the saved state of the caller. -/
structure OnlyPassed (m : Machine) (e : Event) (p : PcbId) (s : Word) (k : Kernel) : Prop where
  procq : k.procq = m.kernel.procq
  waiters : ∀ a, waiters k a = waiters m.kernel a
  child : k.child = m.kernel.child
  counts : k.processCount = m.kernel.processCount ∧ k.softblockCount = m.kernel.softblockCount
  active : k.activeProcess = m.kernel.activeProcess
  pcb : ∀ q, q ≠ p → k.pcb q = m.kernel.pcb q
  mem : k.mem = e.mem
  sup : ∀ a, a ≠ s → k.sup a = e.sup a
  bus : k.bus = []

/-- The handler ended in `pass_up_or_die` under `GENERALEXCEPT`: a caller without
    a support structure died with its progeny, any other goes on in its support
    structure, which holds the state the BIOS saved. -/
structure PassesUpOrDies (r : Result (SchedulerControl × Kernel)) (bios : State) (m : Machine)
    (e : Event) (p : PcbId) : Prop where
  dies : (m.kernel.pcb p).pSupport = none → ∃ ks k, r = .ok (CONTROL_BLOCK, k) ∧
    (∀ q, q ∈ ks ↔ Below (parentOf m.kernel) p q) ∧ OnlyKilled m e ks k
  passes : ∀ s, (m.kernel.pcb p).pSupport = some s → ∃ k,
    r = .error (.loadContext k ((e.sup s).supExceptContext GENERALEXCEPT)) ∧
    OnlyPassed m e p s k ∧ (k.sup s).supExceptState GENERALEXCEPT = bios

/-- The call was refused by the handler itself. -/
abbrev Refusal (L : Layout) (m : Machine) (e : Event) (p : PcbId) : Prop :=
  PassesUpOrDies (handleException L e.hw (m.entry e)) e.hw.bios m e p

/-- A state in which nothing was done for the call of a process yet, apart from
    its times and its saved state. -/
structure Unserved (m : Machine) (e : Event) (p : PcbId) (k : Kernel) : Prop where
  base : Base m e k
  same : Same m.kernel k
  other : ∀ q, q ≠ p → k.pcb q = m.kernel.pcb q
  support : (k.pcb p).pSupport = (m.kernel.pcb p).pSupport
  sup : k.sup = e.sup

section Call

variable {L : Layout} {m : Machine} {e : Event} {p : PcbId} {k : Kernel}

theorem unserved_calling (hb : Between m.kernel) (hp : m.kernel.activeProcess = some p) :
    Unserved m e p (calling m e) := by
  have hact : (m.entry e).activeProcess = some p := hp
  refine ⟨base_calling hb e, same_trans (same_charged m e) (touched_startTod _ _).same,
    fun q hq => ?_, ?_, ?_⟩
  · simp only [calling, charged, chargeAndSave, hact, Kernel.modPcb, if_neg hq]
    rfl
  · simp only [calling, charged, chargeAndSave, hact, Kernel.modPcb, if_true]
    rfl
  · simp only [calling, charged, chargeAndSave, hact, Kernel.modPcb]
    rfl

/-- The cause of a reserved instruction goes to the saved state of the caller,
    which is free to change. -/
theorem unserved_reserved (h : Unserved m e p k) : Unserved m e p (reserved k p) := by
  have ht := touched_reserved k p
  refine ⟨h.base.of_touched ht rfl, same_trans h.same ht.same, fun q hq => ?_, ?_, h.sup⟩
  · simp only [reserved, Kernel.modPcb, if_neg hq]
    exact h.other q hq
  · simp only [reserved, Kernel.modPcb, if_true]
    exact h.support

theorem Unserved.active (h : Unserved m e p k) (hp : m.kernel.activeProcess = some p) :
    k.activeProcess = some p :=
  h.base.active.trans hp

theorem Unserved.at (hb : Between m.kernel) (h : Unserved m e p k)
    (hp : m.kernel.activeProcess = some p) : At k {p} := by
  have hat := hb.at_
  rw [hp] at hat
  exact hat.of_same h.same

/-- The caller has no support structure and dies with its progeny. -/
theorem dies_of_passUpOrDie (hb : Between m.kernel) (h : Unserved m e p k)
    (hp : m.kernel.activeProcess = some p) (hc : excClass e.hw.cause = .syscall)
    (hcall : syscallHandler L e.hw (calling m e) p = passUpOrDie e.hw k GENERALEXCEPT)
    (hsup : (m.kernel.pcb p).pSupport = none) : ∃ ks k',
    handleException L e.hw (m.entry e) = .ok (CONTROL_BLOCK, k') ∧
    (∀ q, q ∈ ks ↔ Below (parentOf m.kernel) p q) ∧ OnlyKilled m e ks k' := by
  have hat := h.at hb hp
  have hact := h.active hp
  rcases killProgeny_killed hat.wf (hat.not_free (Finset.mem_singleton_self p)) with
    ⟨ks, s, hkill, hk⟩
  have hpass : passUpOrDie e.hw k GENERALEXCEPT = .ok (CONTROL_BLOCK, k.killed ks s) := by
    simp only [passUpOrDie, hact, h.support, hsup, hkill]
  refine ⟨ks, afterSyscall e.hw (k.killed ks s) p, ?_, fun q => ?_, ?_⟩
  · rw [handleException_syscall hc]
    exact syscallException_ok hp (hcall.trans hpass)
  · have hpar : parentOf k = parentOf m.kernel := funext h.same.parent
    rw [hk.mem, hpar]
  · have hwait := waiters_killed hat.wf.asl hk.wf.asl
    refine ⟨?_, fun r hr => ?_, fun a => ?_, fun q => ?_, ⟨?_, ?_⟩, fun q hq => ?_, h.base.mem,
      h.sup, h.base.bus⟩
    · change (k.killed ks s).procq .pcbFree = _
      rw [killed_free, h.same.procq]
    · change (k.killed ks s).procq r = _
      rw [killed_procq _ ks s hr, h.same.procq]
    · exact (hwait a).trans (by rw [h.base.waiters])
    · change (k.child q).filter _ = _
      rw [h.same.child]
    · exact congrArg _ h.same.processCount
    · change Counter.decr^[(waitingOf k ks).length] k.softblockCount = _
      rw [h.same.softblockCount, waitingOf, waitingOf,
        List.filter_congr (fun q _ => by rw [h.same.semAdd])]
    · -- The caller is charged after its death; everybody else is left alone.
      have hq' : q ≠ p := by
        rintro rfl
        exact hq hk.self
      simp only [afterSyscall, Kernel.modPcb, if_neg hq']
      exact (killedPcb_of_not_mem _ hq).trans (h.other q hq')

/-- The caller goes on in its support structure, which holds the state the BIOS
    saved. -/
theorem passes_of_passUpOrDie (h : Unserved m e p k)
    (hp : m.kernel.activeProcess = some p) (hc : excClass e.hw.cause = .syscall)
    (hcall : syscallHandler L e.hw (calling m e) p = passUpOrDie e.hw k GENERALEXCEPT)
    {s : Word} (hsup : (m.kernel.pcb p).pSupport = some s) : ∃ k',
    handleException L e.hw (m.entry e)
      = .error (.loadContext k' ((e.sup s).supExceptContext GENERALEXCEPT)) ∧
    OnlyPassed m e p s k' ∧ (k'.sup s).supExceptState GENERALEXCEPT = e.hw.bios := by
  have hact := h.active hp
  have hpass : passUpOrDie e.hw k GENERALEXCEPT = .error (.loadContext
      (passedUp e.hw k s GENERALEXCEPT) ((e.sup s).supExceptContext GENERALEXCEPT)) := by
    rw [passUpOrDie, hact]
    simp only [h.support, hsup, h.sup, passedUp]
    rw [← hact]
  refine ⟨passedUp e.hw k s GENERALEXCEPT, ?_, ?_, ?_⟩
  · rw [handleException_syscall hc]
    exact syscallException_error hp (hcall.trans hpass)
  · refine ⟨h.same.procq, h.base.waiters, h.same.child,
      ⟨h.same.processCount, h.same.softblockCount⟩, h.base.active, h.other, h.base.mem,
      fun a ha => ?_, h.base.bus⟩
    simp only [passedUp, if_neg ha]
    rw [h.sup]
  · simp only [passedUp, if_true]

/-- A call that reaches `pass_up_or_die` before anything was done for it is
    refused and does no more. -/
theorem refusal_of_passUpOrDie (hb : Between m.kernel) (h : Unserved m e p k)
    (hp : m.kernel.activeProcess = some p) (hc : excClass e.hw.cause = .syscall)
    (hcall : syscallHandler L e.hw (calling m e) p = passUpOrDie e.hw k GENERALEXCEPT) :
    Refusal L m e p :=
  ⟨dies_of_passUpOrDie hb h hp hc hcall, fun _ hsup => passes_of_passUpOrDie h hp hc hcall hsup⟩

/-- The context that is loaded when an exception is passed up. -/
theorem outcome_context {ctx : Context}
    (h : handleException L e.hw (m.entry e) = .error (.loadContext k ctx)) :
    m.outcome L e = .context k ctx := by
  simp only [Machine.outcome, exceptionHandler, h]

end Call

end Pandos
