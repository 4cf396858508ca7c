import Pandos.Theory.PassUp
import Pandos.Theory.Replay

/-!
# System Calls in User Mode

The services of the nucleus are for kernel mode. A process in user mode that
asks for one is killed, or its request is passed up as a reserved instruction.
`syscall_handler` writes the new cause to the saved state in the control block,
but `pass_up_or_die` copies the state from the BIOS data page, whose cause still
tells of a system call.

## Main definitions

* `UserCall`: A process in user mode asks for a service of the nucleus.
* `Refused`: The request is refused and reported as a reserved instruction.

## Theorems

* `userCall_refusal`: Such a request is passed up or kills the caller.
* `user_call_refused_iff`: When it is refused as it should be.
* `user_call_unreported`: The cause that is passed up is wrong.
-/

namespace Pandos

open Forest

/-- The active process, in user mode, asks for a service of the nucleus. -/
structure UserCall (m : Machine) (e : Event) (p : PcbId) : Prop where
  active : m.kernel.activeProcess = some p
  cause : excClass e.hw.cause = .syscall
  user : isUserMode e.hw.bios = true
  id : (e.hw.bios.gpr .a0).toInt ≤ 0

/-- The bits of the Cause register besides the exception code. -/
def otherBits (cause : Word) : Word := cause &&& ~~~((0x1F : Word) <<< CAUSESHIFT)

/-- The request is refused: a caller without a support structure dies with its
    progeny, any other finds the saved state in its support structure, under the
    cause of a reserved instruction. -/
structure Refused (L : Layout) (m : Machine) (e : Event) (p : PcbId) : Prop where
  dies : (m.kernel.pcb p).pSupport = none → ∃ ks k,
    handleException L e.hw (m.entry e) = .ok (CONTROL_BLOCK, k) ∧
    (∀ q, q ∈ ks ↔ Below (parentOf m.kernel) p q) ∧ OnlyKilled m e ks k
  passes : ∀ s, (m.kernel.pcb p).pSupport = some s → ∃ k cause,
    m.outcome L e = .context k ((e.sup s).supExceptContext GENERALEXCEPT) ∧
    OnlyPassed m e p s k ∧
    (k.sup s).supExceptState GENERALEXCEPT = { e.hw.bios with cause := cause } ∧
    CAUSE_GET_EXCCODE cause = EXC_RI ∧
    otherBits cause = otherBits e.hw.bios.cause

section Call

variable {L : Layout} {m : Machine} {e : Event} {p : PcbId}

/-- Whatever is asked for, the handler passes the request up. -/
theorem userCall_handled (h : UserCall m e p) :
    syscallHandler L e.hw (calling m e) p
      = passUpOrDie e.hw (reserved (calling m e) p) GENERALEXCEPT := by
  have hstate := calling_state (e := e) h.active
  unfold syscallHandler
  rw [hstate]
  simp only [h.id, h.user, and_self, if_true]
  rfl

/-- The state that is passed up is the one the BIOS saved. The cause of a
    reserved instruction is in the control block only. -/
theorem userCall_refusal (hb : Between m.kernel) (h : UserCall m e p) : Refusal L m e p :=
  refusal_of_passUpOrDie hb (unserved_reserved (unserved_calling hb h.active)) h.active h.cause
    (userCall_handled h)

end Call

/-- In every run, a request in user mode is refused as it should be if and only
    if its caller has no support structure, or the cause the BIOS saved tells of
    a reserved instruction already. -/
theorem user_call_refused_iff {L : Layout} {b : Boot} {es : List Event} {m : Machine}
    (hrun : (nucleus L b).Run es m) {e : Event} {p : PcbId} (h : UserCall m e p) :
    Refused L m e p ↔ (m.kernel.pcb p).pSupport = none ∨
      CAUSE_GET_EXCCODE e.hw.bios.cause = EXC_RI := by
  have href : Refusal L m e p := userCall_refusal (machineWf_run hrun).between h
  constructor
  · intro hr
    cases hsup : (m.kernel.pcb p).pSupport with
    | none => exact Or.inl rfl
    | some s =>
        right
        rcases hr.passes s hsup with ⟨k, cause, hout, _, hstate, hcode, _⟩
        rcases href.passes s hsup with ⟨k', hout', _, hstate'⟩
        rw [outcome_context hout'] at hout
        -- Both describe the one outcome, so the cause is the one of the BIOS.
        rw [Outcome.context.injEq] at hout
        rw [hout.1, hstate] at hstate'
        rw [← hstate']
        exact hcode
  · intro hcond
    refine ⟨href.dies, fun s hsup => ?_⟩
    have hcode := hcond.resolve_left (by rw [hsup]; exact Option.some_ne_none s)
    rcases href.passes s hsup with ⟨k, hout, honly, hstate⟩
    exact ⟨k, e.hw.bios.cause, outcome_context hout, honly, hstate, hcode, rfl⟩

/-! ## Samples -/

/-- The hardware at a system call in user mode. -/
def userCallHw (id : Int) : Hw :=
  { quietHw with
    cause := 8 <<< CAUSESHIFT
    bios := { nullState.setReg .a0 (BitVec.ofInt 32 id) with
      status := 8, cause := 8 <<< CAUSESHIFT } }

theorem userCall_quiet {m : Machine} {p : PcbId} (hp : m.kernel.activeProcess = some p) :
    UserCall m (Event.quiet m (userCallHw PASSEREN, .ignore)) p := by
  refine ⟨hp, ?_, ?_, ?_⟩
  · change excClass (userCallHw PASSEREN).cause = .syscall
    decide
  · change isUserMode (userCallHw PASSEREN).bios = true
    decide
  · change ((userCallHw PASSEREN).bios.gpr .a0).toInt ≤ 0
    decide

/-- The first process waits on a semaphore, and the second one has no support
    structure and a child. It asks for `PASSEREN` in user mode and is killed. -/
theorem user_call_refused_iff_sample : ∃ es m e, (nucleus sampleLayout sampleBoot).Run es m ∧
    UserCall m e 18 ∧ waiters m.kernel 0x20004000 = [19] ∧ m.kernel.procq .readyQueueLo = [17] ∧
    Refused sampleLayout m e 18 := by
  rcases exists_run (L := sampleLayout) (b := sampleBoot)
    [(callHw CREATEPROCESS 0x20002000 0 sampleLayout.null, .ignore),
      (callHw PASSEREN 0x20004000 0 0, .ignore),
      (callHw CREATEPROCESS 0x20002000 0 0x20003000, .ignore)]
    (fun m => m.kernel.activeProcess = some 18 ∧ (m.kernel.pcb 18).pSupport = none ∧
      waiters m.kernel 0x20004000 = [19] ∧ m.kernel.procq .readyQueueLo = [17])
    (by decide +kernel) with ⟨es, m, hrun, hact, hsup, hwait, hready⟩
  exact ⟨es, m, _, hrun, userCall_quiet hact, hwait, hready,
    (user_call_refused_iff hrun (userCall_quiet hact)).mpr (Or.inl hsup)⟩

/-- A process with a support structure asks for `PASSEREN` in user mode. Its
    support structure tells of a system call, not of a reserved instruction. -/
theorem user_call_unreported : ∃ es m e p, (nucleus sampleLayout sampleBoot).Run es m ∧
    e.Ok sampleLayout m ∧ UserCall m e p ∧ e.hw.bios.cause = e.hw.cause ∧
    ¬ Refused sampleLayout m e p := by
  rcases exists_run (L := sampleLayout) (b := sampleBoot)
    [(callHw CREATEPROCESS 0x20002000 0 0x20003000, .ignore), (callHw YIELD 0 0 0, .ignore)]
    (fun m => m.kernel.activeProcess = some 18 ∧ (m.kernel.pcb 18).pSupport = some 0x20003000 ∧
      (Event.quiet m (userCallHw PASSEREN, .ignore)).Ok sampleLayout m)
    (by decide +kernel) with ⟨es, m, hrun, hact, hsup, hok⟩
  refine ⟨es, m, _, 18, hrun, hok, userCall_quiet hact, rfl, fun hr => ?_⟩
  rcases (user_call_refused_iff hrun (userCall_quiet hact)).mp hr with h | h
  · rw [hsup] at h
    exact absurd h (Option.some_ne_none _)
  · exact absurd h (by
      change ¬ CAUSE_GET_EXCCODE (userCallHw PASSEREN).bios.cause = EXC_RI
      decide)

end Pandos
