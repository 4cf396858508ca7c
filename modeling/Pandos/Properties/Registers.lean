import Pandos.Properties.TimeSlices
import Pandos.Theory.CallMemory
import Pandos.Theory.MemoryReplay
import Pandos.Theory.Suspensions

/-!
# Registers of a Caller

A process that is stopped by a system call or an interrupt goes on with the
registers it was stopped with. Between the two the state is copied out of the
BIOS data page, patched in the record of the process or in its support
structure, and loaded again, while any other processes run.

`reg_t9` is not spared: after a system call both the nucleus and the support
level add `WORD_SIZE` to it along with the program counter. And when a device
interrupt finds nobody waiting, the status of the device overwrites `reg_v0` of
the process that was interrupted.

At the support level the calls of `allocate` and `deallocate` must not overlap:
if they do, two U-procs can get one support structure, and each overwrites what the
other one saved.

## Main definitions

* `Resumption`: A process goes on after an exception.

## Theorems

* `registers_undisturbed`: What a process finds when it goes on.
* `registers_disturbed`: Not all of its registers are what they were.
-/

namespace Pandos

/-- A process that was stopped in a state `s` goes on in a state `s'`: in the
    nucleus after an exception that was not passed up, and at the support level
    after a request or a page fault. `call` tells that the exception was a system
    call, `told` that it may put something into `reg_v0`. -/
inductive Resumption (L : Layout) (b : Boot) {n : Nat} (S : Platform n) :
    Prop → Prop → State → State → Prop
  | nucleus {p : PcbId} {m₀ m : Machine} {e₀ : Event} (h : Suspended L b p m₀ e₀ m)
      (hp : m.kernel.activeProcess = some p) :
      Resumption L b S e₀.Call (TellsResult e₀ ∨ Stray L m₀ e₀) e₀.hw.bios (m.kernel.pcb p).pS
  | request {i : Fin n} {s₀ : State} {x x' : CallMemory n} {e : CallEvent n} (h : Caught S i s₀ x)
      (hstep : (callRuns S).step x e x') (hback : x'.calls.call i = .user) :
      Resumption L b S True True s₀ (x'.calls.regs i)
  | fault {i : Fin n} {s₀ : State} {x x' : CallMemory n} {e : CallEvent n} (h : Faulted S i s₀ x)
      (hstep : (callRuns S).step x e x') (hback : x'.calls.level.pc i = .user) :
      Resumption L b S False False s₀ (x'.calls.regs i)

theorem undisturbed_advanced (s : State) (v : Word) :
    Undisturbed True True s (advanced (s.setReg .v0 v)) := by
  refine ⟨fun r hv ht => ?_, fun hn => absurd trivial hn, fun _ => ⟨?_, rfl⟩,
    fun hn => absurd trivial hn⟩
  · simp only [advanced, State.setReg, if_neg ht, if_neg hv]
  · simp only [advanced, State.setReg, if_true, reduceCtorEq, if_false]

theorem undisturbed_refl (s : State) : Undisturbed False False s s :=
  ⟨fun _ _ _ => rfl, fun _ => rfl, fun h => h.elim, fun _ => ⟨rfl, rfl⟩⟩

theorem Resumption.undisturbed {L : Layout} {b : Boot} {n : Nat} {S : Platform n}
    {call told : Prop} {s s' : State} (h : Resumption L b S call told s s') :
    Undisturbed call told s s' := by
  cases h with
  | nucleus h _ => exact suspended_undisturbed h
  | request h hstep hback =>
      rcases resumed_of_caught h hstep hback with ⟨⟨v, hv⟩, _⟩
      rw [hv]
      exact undisturbed_advanced s v
  | fault h hstep hback =>
      rw [resumed_of_faulted h hstep hback]
      exact undisturbed_refl s

/-- An exception that is passed up leaves the state of its process in the support
    structure, and the states of all others where they are. -/
theorem passedState_of_context {L : Layout} {m : Machine} {e : Event} {k : Kernel} {ctx : Context}
    (hwf : MachineWf L m) (hok : e.Ok L m) (h : m.outcome L e = .context k ctx) :
    ∃ p s, PassedState m e k ctx p s := by
  have hend := outcome_spec hwf hok
  rw [h] at hend
  cases hend with
  | scheduled _ _ hs => cases hs
  | context hh => exact hh.context_saved

/-- In every run of the nucleus, and in every run of the support level in which the
    calls of `allocate` and `deallocate` do not overlap, a process goes on with the
    registers it was stopped with, except `reg_v0` if it was told a result, and
    except `reg_t9`, which moves along with the program counter past the
    instruction of a system call. An exception that is passed up hands the state it
    found to the support level. -/
theorem registers_undisturbed (L : Layout) (b : Boot) {n : Nat} (S : Platform n) :
    (∀ call told s s', Resumption L b S call told s s' → Undisturbed call told s s') ∧
    ∀ es m e k ctx, (nucleus L b).Run es m → e.Ok L m → m.outcome L e = .context k ctx →
      ∃ p s, PassedState m e k ctx p s :=
  ⟨fun _ _ _ _ h => h.undisturbed,
    fun _ _ _ _ _ hrun hok h => passedState_of_context (machineWf_run hrun) hok h⟩

/-! ## Samples -/

/-- The first process yields to the second one, which yields back. -/
theorem yield_suspended : ∃ m₀ e₀ m, Suspended sampleLayout sampleBoot 19 m₀ e₀ m ∧
    m.kernel.activeProcess = some 19 ∧ e₀.Call ∧ (e₀.hw.bios.gpr .a0).toInt = YIELD := by
  rcases exists_run (L := sampleLayout) (b := sampleBoot) [createSliced]
    (fun m => (Event.quiet m yieldCall).Ok sampleLayout m ∧ m.kernel.activeProcess = some 19 ∧
      (m.outcome sampleLayout (Event.quiet m yieldCall)).dispatched.any (fun k =>
        decide (19 ∉ k.procq .pcbFree ∧ k.activeProcess ≠ some 19 ∧
          (Event.quiet (m.after (Event.quiet m yieldCall) k) yieldCall).Ok sampleLayout
            (m.after (Event.quiet m yieldCall) k)) &&
        ((m.after (Event.quiet m yieldCall) k).outcome sampleLayout
          (Event.quiet (m.after (Event.quiet m yieldCall) k) yieldCall)).dispatched.any (fun k' =>
            decide (19 ∉ k'.procq .pcbFree ∧ k'.activeProcess = some 19))) = true)
    (by decide +kernel) with ⟨es, m, hrun, hok, hp, hout⟩
  rcases run_of_dispatched hout with ⟨k, hk, hall⟩
  rw [Bool.and_eq_true, decide_eq_true_iff] at hall
  rcases hall with ⟨⟨hlive, hp', hok'⟩, hout'⟩
  rcases run_of_dispatched hout' with ⟨k', hk', hback⟩
  rw [decide_eq_true_iff] at hback
  have hstop : Suspended sampleLayout sampleBoot 19 m (Event.quiet m yieldCall)
      (m.after (Event.quiet m yieldCall) k) := by
    refine Suspended.stop hrun hok hp (by rw [hk]; rfl) (fun ctx hc => ?_) hlive
    rw [hk] at hc
    cases hc
  have hcall : excClass yieldCall.1.cause = .syscall := by decide +kernel
  have hid : (yieldCall.1.bios.gpr .a0).toInt = YIELD := by decide +kernel
  exact ⟨m, _, _, Suspended.wait hstop hok' hp' (by rw [hk']; rfl) hback.1, hback.2, hcall, hid⟩

/-- A handler takes its next steps without returning to its caller. -/
def attend {n : Nat} (S : Platform n) (i : Fin n) (x : CallMemory n) (e : CallEvent n) :
    Option (CallMemory n) :=
  if x.Orderly e then (x.next S e).filter (fun x' => x'.calls.call i ≠ .user) else none

theorem caught_of_attend {n : Nat} {S : Platform n} {i : Fin n} {s₀ : State}
    {es : List (CallEvent n)} : ∀ {x x' : CallMemory n}, Caught S i s₀ x →
    es.foldlM (attend S i) x = some x' → Caught S i s₀ x' := by
  induction es with
  | nil =>
      intro x x' hx h
      rw [List.foldlM_nil, Option.pure_def, Option.some.injEq] at h
      exact h ▸ hx
  | cons e es ih =>
      intro x x' hx h
      rw [List.foldlM_cons, Option.bind_eq_bind, Option.bind_eq_some_iff] at h
      rcases h with ⟨x₁, h₁, h⟩
      unfold attend at h₁
      split at h₁
      · next hord =>
          rw [Option.filter_eq_some_iff] at h₁
          exact ih (Caught.wait hx ⟨h₁.1, hord⟩ (of_decide_eq_true h₁.2)) h
      · cases h₁

/-- The state of a U-proc that asks for the time. -/
def todCall : State :=
  { nullState.setReg .a0 (BitVec.ofInt 32 GET_TOD) with cause := 8 <<< CAUSESHIFT }

/-- The support level before the first step. -/
def callStart {n : Nat} (s : SupportLevel n) : CallLevel n :=
  { level := s
    call := fun _ => .user
    supExceptState := fun _ _ => nullState
    regs := fun _ => nullState }

/-- The next state, if the calls do not overlap. -/
def callNext {n : Nat} (S : Platform n) (x : CallMemory n) (e : CallEvent n) :
    Option (CallMemory n) :=
  if x.Orderly e then x.next S e else none

/-- `test` has created both U-procs. -/
def bootCalls : Option (CallMemory 2) :=
  ((memoryStart samplePlatform).map (fun x => { calls := callStart x.level, free := x.free })).bind
    (fun x => (createUprocs.map (fun e => CallEvent.level e nullState)).foldlM
      (callNext samplePlatform) x)

/-- The handler of `GET_TOD` up to `LDST`. -/
def todHandler (i : Fin 2) : List (CallEvent 2) :=
  [.call i .getSupportPtr 0, .call i .nothing 0, .call i .storeTod 77, .call i .nothing 0,
    .call i .nothing 0]

theorem run_of_bootCalls {x : CallMemory 2} (h : bootCalls = some x) :
    ∃ es, (callRuns samplePlatform).Run es x := by
  rw [bootCalls, Option.bind_eq_some_iff] at h
  rcases h with ⟨x₀, hstart, h⟩
  rw [Option.map_eq_some_iff] at hstart
  rcases hstart with ⟨y, hy, rfl⟩
  have hinit : (callRuns samplePlatform).init { calls := callStart y.level, free := y.free } :=
    ⟨init_of_memoryStart hy, rfl⟩
  have hsteps := System.step_of_checked (S := callMemory samplePlatform) CallMemory.Orderly
    (f := fun x e => x.next samplePlatform e) (fun _ _ _ hstep => hstep)
  exact System.run_of_foldlM _ (fun e _ x x' he => ⟨e, hsteps x e x' he⟩) (System.Run.init hinit) h

/-- The first U-proc is told the time. -/
theorem tod_caught : ∃ x e x', Caught samplePlatform 0 todCall x ∧
    (callRuns samplePlatform).step x e x' ∧ x'.calls.call 0 = .user := by
  have hall : bootCalls.any (fun x => decide (x.calls.call 0 = .user) &&
      ((x.next samplePlatform (.trap 0 todCall)).bind
        ((todHandler 0).foldlM (attend samplePlatform 0))).any (fun x' =>
          (x'.next samplePlatform (.call 0 .nothing 0)).any (fun y =>
            decide (y.calls.call 0 = .user)))) = true := by
    decide +kernel
  rw [Option.any_eq_true] at hall
  rcases hall with ⟨x, hx, hall⟩
  rw [Bool.and_eq_true, decide_eq_true_iff, Option.any_eq_true] at hall
  rcases hall with ⟨huser, x', hx', hall⟩
  rw [Option.bind_eq_some_iff] at hx'
  rcases hx' with ⟨x₁, htrap, hhandler⟩
  rw [Option.any_eq_true] at hall
  rcases hall with ⟨y, hy, hback⟩
  rcases run_of_bootCalls hx with ⟨es, hrun⟩
  have hcaught := Caught.trap hrun huser ⟨htrap, trivial⟩
  exact ⟨x', _, y, caught_of_attend hcaught hhandler, ⟨hy, trivial⟩, of_decide_eq_true hback⟩

/-- Both of them go on with their registers. -/
theorem registers_undisturbed_sample : (∃ m₀ e₀ m, Suspended sampleLayout sampleBoot 19 m₀ e₀ m ∧
      m.kernel.activeProcess = some 19 ∧
      Undisturbed e₀.Call (TellsResult e₀ ∨ Stray sampleLayout m₀ e₀) e₀.hw.bios
        (m.kernel.pcb 19).pS) ∧
    ∃ x e x', Caught samplePlatform 0 todCall x ∧ (callRuns samplePlatform).step x e x' ∧
      x'.calls.call 0 = .user ∧ Undisturbed True True todCall (x'.calls.regs 0) := by
  have hkept := (registers_undisturbed sampleLayout sampleBoot samplePlatform).1
  refine ⟨?_, ?_⟩
  · rcases yield_suspended with ⟨m₀, e₀, m, h, hp, _⟩
    exact ⟨m₀, e₀, m, h, hp, hkept _ _ _ _ (Resumption.nucleus h hp)⟩
  · rcases tod_caught with ⟨x, e, x', h, hstep, hback⟩
    exact ⟨x, e, x', h, hstep, hback, hkept _ _ _ _ (Resumption.request h hstep hback)⟩

/-- A process that yielded does not find its `reg_t9` again. -/
theorem registers_disturbed : ¬ ∀ call told s s',
    Resumption sampleLayout sampleBoot samplePlatform call told s s' →
      ∀ r, r ≠ .v0 → s'.gpr r = s.gpr r := by
  intro hall
  rcases yield_suspended with ⟨m₀, e₀, m, h, hp, hcall, _⟩
  have hsame := hall _ _ _ _ (Resumption.nucleus h hp) .t9 (by decide)
  have hmoved := ((suspended_undisturbed h).called hcall).1
  rw [hsame] at hmoved
  -- The word would be four more than itself.
  have hzero : (0 : Word) = WORD_SIZE := by
    rw [WORD_SIZE] at hmoved ⊢
    bv_omega
  exact absurd hzero (by decide)

end Pandos
