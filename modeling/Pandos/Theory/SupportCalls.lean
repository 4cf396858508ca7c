import Pandos.SupportSyscall
import Pandos.Theory.Supports

/-!
# Handlers of the Support Level

What becomes of the state an exception of a U-proc saved while the handlers of
the support level work on it. No other U-proc reaches it, because the structures
of two U-procs that are not dead are different ones. A page fault in the middle of
a handler is saved beside it. A handler that calls `TERMINATE` replaces it, but
such a handler never gets to the `LDST` at the end of `support_generic`.

How far a handler is with the request is its `Stage`. The state is that of the
caller as long as the request is served, then has the result in `reg_v0`, and has
moved past the instruction when it is loaded.

## Main definitions

* `UprocFrame`: What a step of the support level does to one U-proc.
* `Stage`, `Stage.Kept`: How far a handler is, and what it has made of the state.
* `CStep`: The steps of the support level with its system calls.
* `InService`, `InPager`: U-procs the handlers work for.
## Theorems

* `kept_callStep`: One step of a handler.
* `inService_step`, `inPager_step`: One step of anybody.
* `resumed_of_inService`, `resumed_of_inPager`: What is loaded at the end.
* `inService_of_trap`, `inPager_of_fault`: Both invariants hold at the beginning.
-/

namespace Pandos

section SupportCalls

variable {n : Nat} {S : Platform n} {s s' : SupportLevel n} {i j : Fin n}

open SupportLevel

/-! ## Steps of the support level -/

/-- What a step does to a U-proc: a U-proc that exists keeps its support
    structure, and nobody gets to user mode but at the end of `support_tlb` or at
    its birth. -/
structure UprocFrame (s : SupportLevel n) (e : UEvent n) (s' : SupportLevel n) (i : Fin n) :
    Prop where
  support : s.pc i ≠ .unborn → s'.support i = s.support i
  user : s'.pc i = .user → s.pc i = .user ∨ (e = .step i ∧ ∃ f, s.pc i = .drop f) ∨
    s.pc i = .unborn

theorem uprocFrame_of_pc {e : UEvent n} (hs : s'.support = s.support)
    (hpc : s'.pc i = .user → s.pc i = .user) : UprocFrame s e s' i :=
  ⟨fun _ => congrFun hs i, fun h => Or.inl (hpc h)⟩

theorem Goes.not_user {pc : Pc n} (h : Goes s i pc) : pc ≠ .user := by
  intro hpc
  subst hpc
  cases h

theorem Unlocks.not_user {pc blocked next : Pc n} (h : Unlocks pc blocked next) :
    blocked ≠ .user ∧ next ≠ .user := by
  cases h with
  | release => constructor <;> intro hc <;> cases hc
  | clean => constructor <;> intro hc <;> cases hc

theorem Pc.resumed_user {pc : Pc n} (h : pc.resumed = .user) : pc = .user := by
  cases pc with
  | user => rfl
  | _ => cases h

theorem Pc.finished_user {pc : Pc n} {ok : Bool} (h : pc.finished ok = .user) : pc = .user := by
  cases pc with
  | user => rfl
  | _ => cases ok <;> cases h

theorem swapPoolOp_user {o : SemOp} {blocked next : Pc n} (hb : blocked ≠ .user)
    (hn : next ≠ .user) (h : (s.swapPoolOp o j blocked next).pc i = .user) : s.pc i = .user :=
  swapPoolOp_moves (R := fun k pc => pc = .user → s.pc k = .user) (fun h => absurd h hb)
    (fun h => absurd h hn) (fun _ => Pc.resumed_user) (fun _ h => h) i h

theorem finish_user {who : Party n} {ok : Bool} {data : Page}
    (h : (s.finish who ok data).pc i = .user) : s.pc i = .user := by
  unfold finish at h
  cases who with
  | none =>
      simp only at h
      split at h
      · split at h <;> exact h
      · exact h
  | some k =>
      simp only [setPc, Function.update_apply] at h
      by_cases hik : i = k
      · rw [if_pos hik] at h
        exact hik ▸ Pc.finished_user h
      · rwa [if_neg hik] at h

theorem finish_support (s : SupportLevel n) (who : Party n) (ok : Bool) (data : Page) :
    (s.finish who ok data).support = s.support := by
  unfold finish
  cases who with
  | none =>
      simp only
      split
      · split <;> rfl
      · rfl
  | some k => rfl

theorem uprocFrame_of_setPc {e : UEvent n} {pc : Pc n} (hs : s'.support = s.support)
    (hs' : s'.pc = Function.update s.pc j pc) (hpc : pc ≠ .user) :
    UprocFrame s e s' i := by
  refine uprocFrame_of_pc hs (fun h => ?_)
  rw [hs', Function.update_apply] at h
  by_cases hij : i = j
  · rw [if_pos hij] at h
    exact absurd h hpc
  · rwa [if_neg hij] at h

theorem uprocFrame_of_op {e : UEvent n} {o : SemOp} {blocked next : Pc n} (hb : blocked ≠ .user)
    (hn : next ≠ .user) : UprocFrame s e (s.swapPoolOp o j blocked next) i := by
  refine uprocFrame_of_pc ?_ (swapPoolOp_user hb hn)
  rw [swapPoolOp_eq]

/-- What one step does to the U-procs. -/
theorem uprocFrame_of_step {e : UEvent n} (ho : Allotted s) (h : UStep S s e s') (i : Fin n) :
    UprocFrame s e s' i := by
  cases h with
  | panic msg => exact uprocFrame_of_pc rfl id
  | quit => exact uprocFrame_of_setPc rfl rfl (fun h => by cases h)
  | refill => exact uprocFrame_of_pc rfl id
  | fault => exact uprocFrame_of_setPc rfl rfl (fun h => by cases h)
  | access => exact uprocFrame_of_pc rfl id
  | goes h => exact uprocFrame_of_setPc rfl rfl h.not_user
  | lock => exact uprocFrame_of_op (fun h => by cases h) (fun h => by cases h)
  | take => exact uprocFrame_of_setPc rfl rfl (fun h => by cases h)
  | fifo => exact uprocFrame_of_setPc rfl rfl (fun h => by cases h)
  | evict _ _ _ _ h₁ =>
      rw [h₁]
      exact uprocFrame_of_setPc rfl rfl (fun h => by cases h)
  | write => exact uprocFrame_of_setPc rfl rfl (fun h => by cases h)
  | read => exact uprocFrame_of_setPc rfl rfl (fun h => by cases h)
  | commit => exact uprocFrame_of_setPc rfl rfl (fun h => by cases h)
  | unlock h => exact uprocFrame_of_op h.not_user.1 h.not_user.2
  | @drop j f asid h =>
      refine ⟨fun _ => rfl, fun hu => ?_⟩
      by_cases hij : i = j
      · exact Or.inr (Or.inl ⟨by rw [hij], f, hij ▸ h⟩)
      · simp only [setPc, Function.update_of_ne hij] at hu
        exact Or.inl hu
  | unmark => exact uprocFrame_of_setPc rfl rfl (fun h => by cases h)
  | free => exact uprocFrame_of_setPc rfl rfl (fun h => by cases h)
  | post =>
      refine uprocFrame_of_pc ?_ ?_
      · rw [masterSemaphoreV_eq]
      · exact masterSemaphoreV_moves (R := fun k pc => pc = .user → s.pc k = .user)
          (fun h => by cases h) (fun h => by cases h) (fun _ => Pc.resumed_user) (fun _ h => h) i
  | complete _ h₁ =>
      rcases transfer_eq h₁ with ⟨ram, blocks, rfl⟩
      refine uprocFrame_of_pc (finish_support _ _ _ _) (fun h => ?_)
      have hu := finish_user h
      exact hu
  | alloc => exact uprocFrame_of_pc rfl id
  | created => exact uprocFrame_of_pc rfl id
  | header => exact uprocFrame_of_pc rfl id
  | fill => exact uprocFrame_of_pc rfl id
  | @create j t htest =>
      have hfresh := ho.fresh (i := j) (by rw [htest]; rfl)
      refine ⟨fun hi => ?_, fun hu => ?_⟩
      · have hij : i ≠ j := by
          rintro rfl
          exact hi hfresh
        exact Function.update_of_ne hij t s.support
      · by_cases hij : i = j
        · exact Or.inr (Or.inr (hij ▸ hfresh))
        · simp only [setPc, Function.update_of_ne hij] at hu
          exact Or.inl hu
  | wait =>
      refine uprocFrame_of_pc ?_ ?_
      · rw [masterSemaphoreP_eq]
      · exact masterSemaphoreP_moves (R := fun k pc => pc = .user → s.pc k = .user)
          (fun _ => Pc.resumed_user) (fun _ h => h) i
  | halt => exact uprocFrame_of_pc rfl id

/-! ## Steps of the handlers -/

/-- How far a handler is with the request of its caller. -/
inductive Stage
  | idle
  | entered
  | decoded
  | served
  | told
  | done
  | over

def CallPc.stage : CallPc n → Stage
  | .user => .idle
  | .generic => .entered
  | .syscall => .decoded
  | .advance => .told
  | .load => .done
  | .terminate => .over
  | .sysTerminate => .over
  | _ => .served

/-- The exception is a system call that a U-proc goes on from. -/
def ServedCall (s : State) : Prop :=
  CAUSE_GET_EXCCODE s.cause = 8 ∧ ((s.gpr .a0).toInt = GET_TOD ∨ (s.gpr .a0).toInt = WRITEPRINTER ∨
    (s.gpr .a0).toInt = WRITETERMINAL ∨ (s.gpr .a0).toInt = READTERMINAL)

/-- What a handler has made of the state `s₀` its caller was stopped in. A call
    of `TERMINATE` in between replaces it, and leads nowhere. -/
def Stage.Kept (s₀ s : State) : Stage → Prop
  | .entered => s = s₀ ∨ CallLevel.TerminateCall s
  | .decoded => CAUSE_GET_EXCCODE s.cause = 8 ∧ (s = s₀ ∨ CallLevel.TerminateCall s)
  | .served => s = s₀ ∧ ServedCall s₀
  | .told => (∃ v, s = s₀.setReg .v0 v) ∧ ServedCall s₀
  | .done => (∃ v, s = advanced (s₀.setReg .v0 v)) ∧ ServedCall s₀
  | _ => True

theorem accessed_stage (pc : CallPc n) (word : Word) : (pc.accessed word).stage = pc.stage := by
  cases pc with
  | writerLoad w i =>
      simp only [CallPc.accessed]
      split <;> rfl
  | readerStore id buf read r =>
      simp only [CallPc.accessed]
      split <;> rfl
  | _ => rfl

theorem kept_supportGeneric {s₀ s : State} (h : Stage.entered.Kept s₀ s) :
    (supportGeneric s : CallPc n).stage.Kept s₀ s := by
  unfold supportGeneric
  split
  · rename_i hc
    exact ⟨hc, h⟩
  · trivial

/-- A request is served only if it is the one of the caller. -/
theorem kept_supportSyscall {s₀ s : State} (h : Stage.decoded.Kept s₀ s) :
    (supportSyscall s : CallPc n).stage.Kept s₀ s := by
  rcases h with ⟨hc, hs⟩
  have hserved : ((s.gpr .a0).toInt = GET_TOD ∨ (s.gpr .a0).toInt = WRITEPRINTER ∨
      (s.gpr .a0).toInt = WRITETERMINAL ∨ (s.gpr .a0).toInt = READTERMINAL) →
      Stage.served.Kept s₀ s := by
    intro hid
    rcases hs with rfl | ⟨_, hterm⟩
    · exact ⟨rfl, hc, hid⟩
    · rw [hterm] at hid
      exact absurd hid (by decide)
  unfold supportSyscall
  simp only
  split
  · exact hserved (Or.inl ‹_›)
  · split
    · exact hserved (Or.inr (Or.inl ‹_›))
    · split
      · exact hserved (Or.inr (Or.inr (Or.inl ‹_›)))
      · split
        · exact hserved (Or.inr (Or.inr (Or.inr ‹_›)))
        · trivial

/-- A decision that ends in a request that is served or in the end of the
    U-proc. -/
theorem kept_of_served {s₀ s : State} {pc : CallPc n}
    (hpc : pc.stage = .served ∨ pc.stage = .over) (h : Stage.served.Kept s₀ s) :
    pc.stage.Kept s₀ s := by
  rcases hpc with hpc | hpc
  · rw [hpc]
    exact h
  · rw [hpc]
    trivial

theorem syscallWriter_stage (output : Output) (id : Fin n) (s : State) :
    (syscallWriter output id s).stage = .served ∨ (syscallWriter output id s).stage = .over := by
  unfold syscallWriter
  simp only
  split
  · exact Or.inr rfl
  · exact Or.inl rfl

theorem writerStatus_stage (w : Writing n) (i status : Word) :
    (writerStatus w i status).stage = .served := by
  unfold writerStatus
  split <;> rfl

theorem sysReadTerminal_stage (id : Fin n) (s : State) :
    (sysReadTerminal id s).stage = .served ∨ (sysReadTerminal id s).stage = .over := by
  unfold sysReadTerminal
  simp only
  split
  · exact Or.inr rfl
  · exact Or.inl rfl

theorem readerStatus_stage (id : Fin n) (buf read status : Word) :
    (readerStatus id buf read status).stage = .served := by
  unfold readerStatus
  split <;> rfl

/-- A request that is served goes on to be served until there is a result, or
    the U-proc comes to its end. -/
theorem callStep_served {s s' : State} {id : Fin n} {answer : Word} {pc pc' : CallPc n}
    (h : callStep s id answer pc = some (pc', s')) (hpc : pc.stage = .served)
    (hres : ∀ v, pc ≠ .result v) : s' = s ∧ (pc'.stage = .served ∨ pc'.stage = .over) := by
  cases pc with
  | user | generic | syscall | advance | load | terminate | sysTerminate => cases hpc
  | writerLoad | readerStore | readerEnd => cases h
  | result v => exact absurd rfl (hres v)
  | getTod | writerP | writerData | writerV | readerP | readerFail | readerV =>
      simp only [callStep, Option.some.injEq, Prod.mk.injEq] at h
      rcases h with ⟨rfl, rfl⟩
      exact ⟨rfl, Or.inl rfl⟩
  | writer output =>
      simp only [callStep, Option.some.injEq, Prod.mk.injEq] at h
      rcases h with ⟨rfl, rfl⟩
      exact ⟨rfl, syscallWriter_stage output id s⟩
  | writerLoop w i =>
      simp only [callStep, Option.some.injEq, Prod.mk.injEq] at h
      rcases h with ⟨rfl, rfl⟩
      refine ⟨rfl, Or.inl ?_⟩
      split <;> rfl
  | writerIo w i =>
      simp only [callStep, Option.some.injEq, Prod.mk.injEq] at h
      rcases h with ⟨rfl, rfl⟩
      exact ⟨rfl, Or.inl (writerStatus_stage w i answer)⟩
  | reader =>
      simp only [callStep, Option.some.injEq, Prod.mk.injEq] at h
      rcases h with ⟨rfl, rfl⟩
      exact ⟨rfl, sysReadTerminal_stage id s⟩
  | readerIo _ buf read =>
      simp only [callStep, Option.some.injEq, Prod.mk.injEq] at h
      rcases h with ⟨rfl, rfl⟩
      exact ⟨rfl, Or.inl (readerStatus_stage _ buf read answer)⟩

/-- One step of a handler. -/
theorem kept_callStep {s₀ s s' : State} {id : Fin n} {answer : Word} {pc pc' : CallPc n}
    (h : callStep s id answer pc = some (pc', s')) (hk : pc.stage.Kept s₀ s) :
    pc'.stage.Kept s₀ s' := by
  -- Only the result and the end of `support_generic` change the state.
  by_cases hserved : pc.stage = .served ∧ ∀ v, pc ≠ .result v
  · rcases callStep_served h hserved.1 hserved.2 with ⟨rfl, hpc⟩
    rw [hserved.1] at hk
    exact kept_of_served hpc hk
  · cases pc with
    | generic =>
        simp only [callStep, Option.some.injEq, Prod.mk.injEq] at h
        rcases h with ⟨rfl, rfl⟩
        exact kept_supportGeneric hk
    | syscall =>
        simp only [callStep, Option.some.injEq, Prod.mk.injEq] at h
        rcases h with ⟨rfl, rfl⟩
        exact kept_supportSyscall hk
    | result v =>
        simp only [callStep, Option.some.injEq, Prod.mk.injEq] at h
        rcases h with ⟨rfl, rfl⟩
        rcases hk with ⟨rfl, hk⟩
        exact ⟨⟨v, rfl⟩, hk⟩
    | advance =>
        simp only [callStep, Option.some.injEq, Prod.mk.injEq] at h
        rcases h with ⟨rfl, rfl⟩
        rcases hk with ⟨⟨v, rfl⟩, hk⟩
        exact ⟨⟨v, rfl⟩, hk⟩
    | load =>
        simp only [callStep, Option.some.injEq, Prod.mk.injEq] at h
        rcases h with ⟨rfl, rfl⟩
        trivial
    | user | terminate | sysTerminate => cases h
    | _ => exact absurd ⟨rfl, fun v hv => by cases hv⟩ hserved

/-! ## Steps of the system -/

variable {c c' : CallLevel n}

open CallLevel

/-- The steps of the support level with its system calls. -/
inductive CStep (S : Platform n) (c : CallLevel n) : CallEvent n → CallLevel n → Prop
  | level {e : UEvent n} {s : State} {level : SupportLevel n} (ha : c.Allows e)
      (h : c.level.next S e = some level) : CStep S c (.level e s) (c.follow S e s level)
  | trap {i : Fin n} {s : State} (hpc : c.level.pc i = .user)
      (hcall : c.call i = .user ∨ (c.call i = .terminate ∧ TerminateCall s)) :
      CStep S c (.trap i s) ((c.save GENERALEXCEPT i s).setCall i .generic)
  | call {i id : Fin n} {a : Ask n} {answer : Word} {pc : CallPc n} {s : State}
      (hpc : c.level.pc i = .user) (hask : a = (c.call i).ask)
      (h : callStep (c.saved GENERALEXCEPT i) id answer (c.call i) = some (pc, s))
      (hload : c.call i ≠ .load) :
      CStep S c (.call i a answer) ((c.save GENERALEXCEPT i s).setCall i pc)
  | load {i : Fin n} {a : Ask n} {answer : Word} (hpc : c.level.pc i = .user)
      (hload : c.call i = .load) {s : State} (hs : s = c.saved GENERALEXCEPT i) :
      CStep S c (.call i a answer)
        (((c.save GENERALEXCEPT i s).setCall i .user).loadState i s)

theorem cstep_of_next {e : CallEvent n} (h : c.next S e = some c') : CStep S c e c' := by
  cases e with
  | level e s =>
      simp only [CallLevel.next] at h
      split at h
      · rename_i ha
        rw [Option.map_eq_some_iff] at h
        rcases h with ⟨level, hl, rfl⟩
        exact CStep.level ha hl
      · cases h
  | trap i s =>
      simp only [CallLevel.next, CallLevel.trap] at h
      split at h
      · rename_i hc
        rw [Option.some.injEq] at h
        exact h ▸ CStep.trap hc.2.1 hc.2.2
      · cases h
  | call i a answer =>
      simp only [CallLevel.next, CallLevel.handle] at h
      split at h
      · rename_i hc
        split at h
        · cases h
        · rename_i id _
          split at h
          · cases h
          · rename_i pc s hstep
            rw [Option.some.injEq] at h
            by_cases hload : c.call i = .load
            · rw [if_pos hload] at h
              rw [hload] at hstep
              simp only [callStep, Option.some.injEq, Prod.mk.injEq] at hstep
              rcases hstep with ⟨rfl, rfl⟩
              exact h ▸ CStep.load hc.2.1 hload rfl
            · rw [if_neg hload] at h
              exact h ▸ CStep.call hc.2.1 hc.2.2 hstep hload
      · cases h

theorem saved_save (c : CallLevel n) (t t' : Fin 2) (i j : Fin n) (s : State) :
    (c.save t j s).saved t' i =
      if c.level.support i = c.level.support j ∧ t' = t then s else c.saved t' i := by
  simp only [saved, save, Function.update_apply]
  by_cases hi : c.level.support i = c.level.support j
  · simp only [hi, true_and, if_true, Function.update_apply]
  · simp only [hi, false_and, if_false]

/-- A state is saved for somebody else. -/
theorem saved_save_other {t t' : Fin 2} {s : State}
    (h : c.level.support i ≠ c.level.support j ∨ t' ≠ t) :
    (c.save t j s).saved t' i = c.saved t' i := by
  rw [saved_save, if_neg]
  rintro ⟨hi, ht⟩
  rcases h with h | h
  · exact h hi
  · exact h ht

theorem saved_save_self (c : CallLevel n) (t : Fin 2) (i : Fin n) (s : State) :
    (c.save t i s).saved t i = s := by
  rw [saved_save, if_pos ⟨rfl, rfl⟩]

@[simp] theorem save_call (c : CallLevel n) (t : Fin 2) (j : Fin n) (s : State) :
    (c.save t j s).call = c.call := rfl

@[simp] theorem setCall_self (c : CallLevel n) (i : Fin n) (pc : CallPc n) :
    (c.setCall i pc).call i = pc :=
  Function.update_self i _ _

theorem setCall_other (c : CallLevel n) (hij : i ≠ j) (pc : CallPc n) :
    (c.setCall j pc).call i = c.call i :=
  Function.update_of_ne hij _ _

@[simp] theorem setCall_saved (c : CallLevel n) (j : Fin n) (pc : CallPc n) (t : Fin 2)
    (i : Fin n) : (c.setCall j pc).saved t i = c.saved t i := rfl

@[simp] theorem loadState_regs (c : CallLevel n) (i : Fin n) (s : State) :
    (c.loadState i s).regs i = s :=
  Function.update_self i _ _

@[simp] theorem loadState_call (c : CallLevel n) (i : Fin n) (s : State) :
    (c.loadState i s).call = c.call := rfl

theorem follow_level (c : CallLevel n) (e : UEvent n) (s : State) (level : SupportLevel n) :
    (c.follow S e s level).level = level := by
  unfold follow
  split
  · split
    · rfl
    · split <;> rfl
  · split <;> rfl
  · rfl

theorem accessed_user {pc : CallPc n} {word : Word} (h : pc.accessed word = .user) :
    pc = .user := by
  cases pc with
  | user => rfl
  | writerLoad w i =>
      simp only [CallPc.accessed] at h
      split at h <;> cases h
  | readerStore id buf read r =>
      simp only [CallPc.accessed] at h
      split at h <;> cases h
  | _ => cases h

/-- A step of the support level takes a handler at most past an access. -/
theorem follow_call (c : CallLevel n) (e : UEvent n) (s : State) (level : SupportLevel n)
    (i : Fin n) : (c.follow S e s level).call i = c.call i ∨
      ∃ word, (c.follow S e s level).call i = (c.call i).accessed word := by
  unfold follow
  split
  · rename_i j addr a cause slot
    split
    · rename_i word _
      by_cases hij : i = j
      · refine Or.inr ⟨word, ?_⟩
        rw [hij, setCall_self]
      · exact Or.inl (setCall_other { c with level := level } hij _)
    · split <;> exact Or.inl rfl
  · split <;> exact Or.inl rfl
  · exact Or.inl rfl

/-- A step of the support level leaves the state of the request alone, and the
    state of a page fault unless it raises one. -/
theorem follow_saved {e : UEvent n} {s : State} {level : SupportLevel n} {t : Fin 2}
    (hs : level.support i = c.level.support i)
    (h : t = PGFAULTEXCEPT → ∀ k addr a cause slot, e = .touch k addr a cause slot →
      level.support i ≠ level.support k) :
    (c.follow S e s level).saved t i = c.saved t i := by
  have hsame : ({ c with level := level } : CallLevel n).saved t i = c.saved t i := by
    simp only [saved, hs]
  unfold follow
  split
  · rename_i k addr a cause slot
    split
    · exact hsame
    · split
      · refine (saved_save_other ?_).trans hsame
        by_cases ht : t = PGFAULTEXCEPT
        · exact Or.inl (h ht k addr a cause slot rfl)
        · exact Or.inr ht
      · exact hsame
  · split <;> exact hsame
  · exact hsame

/-! ## Requests in service -/

/-- A U-proc whose request the handlers work on, after the exception that saved
    the state `s₀`. -/
structure InService (c : CallLevel n) (i : Fin n) (s₀ : State) : Prop where
  allotted : Allotted c.level
  born : c.level.pc i ≠ .unborn
  kept : (c.level.pc i).life = .holding → (c.call i).stage.Kept s₀ (c.saved GENERALEXCEPT i)

theorem holding_of_user (h : s.pc i = .user) : (s.pc i).life = .holding := by
  rw [h]
  rfl

/-- U-procs in user mode have support structures of their own. -/
theorem saved_save_uproc (ho : Allotted c.level) (hi : (c.level.pc i).life = .holding)
    (hj : c.level.pc j = .user) (hij : i ≠ j) (t t' : Fin 2) (s : State) :
    (c.save t j s).saved t' i = c.saved t' i := by
  refine saved_save_other (Or.inl (fun hs => hij ?_))
  exact ho.inj i j hi (holding_of_user hj) hs

theorem Retained.holding (h : Retained s s') (hi : s.pc i ≠ .unborn)
    (hl : (s'.pc i).life = .holding) : (s.pc i).life = .holding := by
  rcases h.life i with hsame | ⟨_, hpost⟩ | ⟨hunborn, _⟩
  · exact hsame ▸ hl
  · rw [hpost] at hl
    cases hl
  · exact absurd (Pc.eq_unborn hunborn) hi

theorem Retained.exists (h : Retained s s') (hi : s.pc i ≠ .unborn) : s'.pc i ≠ .unborn := by
  intro hu
  refine h.born (fun hl => hi (Pc.eq_unborn hl)) ?_
  rw [hu]
  rfl

/-- The handler of somebody else takes a step. -/
theorem InService.of_other {s₀ s : State} {pc : CallPc n} (h : InService c i s₀)
    (hj : c.level.pc j = .user) (hij : i ≠ j) :
    InService ((c.save GENERALEXCEPT j s).setCall j pc) i s₀ := by
  refine ⟨h.allotted, h.born, fun hl => ?_⟩
  have hsaved := saved_save_uproc h.allotted hl hj hij GENERALEXCEPT GENERALEXCEPT s
  rw [setCall_other _ hij, save_call, setCall_saved, hsaved]
  exact h.kept hl

/-- The handler of the U-proc itself takes a step. -/
theorem InService.of_self {s₀ s : State} {pc : CallPc n} (h : InService c i s₀)
    (hk : (c.level.pc i).life = .holding → pc.stage.Kept s₀ s) :
    InService ((c.save GENERALEXCEPT i s).setCall i pc) i s₀ := by
  refine ⟨h.allotted, h.born, fun hl => ?_⟩
  rw [setCall_self, setCall_saved, saved_save_self]
  exact hk hl

/-- One step, of this U-proc or any other. -/
theorem inService_step {e : CallEvent n} {s₀ : State} (h : InService c i s₀)
    (hbusy : c.call i ≠ .user) (hstep : CStep S c e c') : InService c' i s₀ := by
  cases hstep with
  | @level e s level _ hnext =>
      have hustep := (ustep_of_next hnext).2
      have hret := retained_step h.allotted hustep
      have hframe := uprocFrame_of_step h.allotted hustep i
      refine ⟨?_, ?_, fun hl => ?_⟩
      · rw [follow_level]
        exact hret.allotted
      · rw [follow_level]
        exact hret.exists h.born
      · rw [follow_level] at hl
        have hkept := h.kept (hret.holding h.born hl)
        rw [follow_saved (hframe.support h.born) (fun ht => absurd ht (by decide))]
        rcases follow_call c e s level i with hc | ⟨word, hc⟩
        · rw [hc]
          exact hkept
        · rw [hc, accessed_stage]
          exact hkept
  | @trap j s hpc hcall =>
      by_cases hij : i = j
      · -- The handler calls `TERMINATE` and starts over.
        subst hij
        exact h.of_self (fun _ => Or.inr (hcall.resolve_left hbusy).2)
      · exact h.of_other hpc hij
  | @call j id a answer pc s hpc _ hcall _ =>
      by_cases hij : i = j
      · subst hij
        exact h.of_self (fun hl => kept_callStep hcall (h.kept hl))
      · exact h.of_other hpc hij
  | @load j a answer hpc _ s _ =>
      have hload : InService ((c.save GENERALEXCEPT j s).setCall j .user) i s₀ := by
        by_cases hij : i = j
        · subst hij
          exact h.of_self (fun _ => trivial)
        · exact h.of_other hpc hij
      exact ⟨hload.allotted, hload.born, hload.kept⟩

/-- A handler ends with `LDST`. -/
theorem callStep_user {s s' : State} {id : Fin n} {answer : Word} {pc : CallPc n}
    (h : callStep s id answer pc = some (.user, s')) : pc = .load := by
  by_cases hserved : pc.stage = .served ∧ ∀ v, pc ≠ .result v
  · rcases (callStep_served h hserved.1 hserved.2).2 with hpc | hpc <;> cases hpc
  · cases pc with
    | load => rfl
    | generic =>
        simp only [callStep, supportGeneric, Option.some.injEq, Prod.mk.injEq] at h
        split at h <;> cases h.1
    | syscall =>
        simp only [callStep, supportSyscall, Option.some.injEq, Prod.mk.injEq] at h
        rcases h with ⟨h, _⟩
        split at h
        · cases h
        · split at h
          · cases h
          · split at h
            · cases h
            · split at h <;> cases h
    | user | terminate | sysTerminate | result | advance => cases h
    | _ => exact absurd ⟨rfl, fun v hv => by cases hv⟩ hserved

/-- The handler of a request returns to its caller. -/
theorem resumed_of_inService {e : CallEvent n} {s₀ : State} (h : InService c i s₀)
    (hbusy : c.call i ≠ .user) (hstep : CStep S c e c') (hback : c'.call i = .user) :
    (∃ v, c'.regs i = advanced (s₀.setReg .v0 v)) ∧ ServedCall s₀ := by
  -- Only the handler of the U-proc itself gets back to it.
  cases hstep with
  | @level e s level =>
      exfalso
      rcases follow_call c e s level i with hc | ⟨word, hc⟩
      · exact hbusy (hc ▸ hback)
      · exact hbusy (accessed_user (hc ▸ hback))
  | @trap j s =>
      exfalso
      by_cases hij : i = j
      · rw [hij, setCall_self] at hback
        cases hback
      · rw [setCall_other _ hij] at hback
        exact hbusy hback
  | @call j id a answer pc s _ _ hcall hload =>
      exfalso
      by_cases hij : i = j
      · rw [hij, setCall_self] at hback
        rw [hback] at hcall
        exact hload (callStep_user hcall)
      · rw [setCall_other _ hij] at hback
        exact hbusy hback
  | @load j a answer hpc hload s hs =>
      by_cases hij : i = j
      · subst hij
        have hkept := h.kept (holding_of_user hpc)
        rw [hload, ← hs] at hkept
        rw [loadState_regs]
        exact hkept
      · rw [loadState_call, setCall_other _ hij] at hback
        exact absurd hback hbusy

/-! ## Page faults -/

/-- A U-proc in `support_tlb`, after the exception that saved the state `s₀`. -/
structure InPager (c : CallLevel n) (i : Fin n) (s₀ : State) : Prop where
  allotted : Allotted c.level
  born : c.level.pc i ≠ .unborn
  kept : (c.level.pc i).life = .holding → c.saved PGFAULTEXCEPT i = s₀

theorem touch_user {addr cause : Word} {a : Access} {slot : Nat}
    (h : s.next S (.touch i addr a cause slot) = some s') : s.pc i = .user := by
  unfold SupportLevel.next at h
  split at h
  · cases h
  · simp only at h
    split at h
    · assumption
    · cases h

/-- An access that succeeds raises no exception. -/
theorem user_of_granted {addr cause word : Word} {a : Access} {slot : Nat} (hu : s.pc i = .user)
    (h : UStep S s (.touch i addr a cause slot) s') (hg : s.granted S i addr a = some word) :
    s'.pc i = .user := by
  unfold granted at hg
  cases h with
  | panic => exact hu
  | quit _ he =>
      rcases he with he | ⟨addr', a', cause', slot', he, hlt⟩
      · cases he
      · cases he
        rw [if_pos hlt] at hg
        cases hg
  | refill => exact hu
  | fault _ hlt hl hr =>
      rw [if_neg hlt, hl] at hg
      simp only [hr, reduceCtorEq, if_false] at hg
  | access => exact hu

/-- The state of a request is saved in a place of its own. -/
theorem InPager.of_save {s₀ s : State} {pc : CallPc n} (h : InPager c i s₀) :
    InPager ((c.save GENERALEXCEPT j s).setCall j pc) i s₀ := by
  refine ⟨h.allotted, h.born, fun hl => ?_⟩
  have hsame : (c.save GENERALEXCEPT j s).saved PGFAULTEXCEPT i = c.saved PGFAULTEXCEPT i :=
    saved_save_other (Or.inr (by decide))
  exact hsame.trans (h.kept hl)

theorem inPager_step {e : CallEvent n} {s₀ : State} (h : InPager c i s₀)
    (hbusy : c.level.pc i ≠ .user) (hstep : CStep S c e c') : InPager c' i s₀ := by
  cases hstep with
  | @level e s level _ hnext =>
      have hustep := (ustep_of_next hnext).2
      have hret := retained_step h.allotted hustep
      have hframe := uprocFrame_of_step h.allotted hustep
      have hsup := (hframe i).support h.born
      refine ⟨?_, ?_, fun hl => ?_⟩
      · rw [follow_level]
        exact hret.allotted
      · rw [follow_level]
        exact hret.exists h.born
      · rw [follow_level] at hl
        have hlife := hret.holding h.born hl
        rw [follow_saved hsup]
        · exact h.kept hlife
        · -- A page fault of somebody else is saved somewhere else.
          intro _ k addr a cause slot he hsame
          subst he
          have hk := touch_user hnext
          rw [hsup, (hframe k).support (by rw [hk]; exact fun hc => by cases hc)] at hsame
          exact hbusy (h.allotted.inj i k hlife (holding_of_user hk) hsame ▸ hk)
  | trap => exact h.of_save
  | call => exact h.of_save
  | @load j a answer _ _ s _ =>
      have hload : InPager ((c.save GENERALEXCEPT j s).setCall j .user) i s₀ := h.of_save
      exact ⟨hload.allotted, hload.born, hload.kept⟩

/-- `support_tlb` returns to the program or the handler that ran into the page
    fault. -/
theorem resumed_of_inPager {e : CallEvent n} {s₀ : State} (h : InPager c i s₀)
    (hbusy : c.level.pc i ≠ .user) (hstep : CStep S c e c') (hback : c'.level.pc i = .user) :
    c'.regs i = s₀ := by
  cases hstep with
  | @level e s level _ hnext =>
      rw [follow_level] at hback
      have hframe := uprocFrame_of_step h.allotted (ustep_of_next hnext).2 i
      rcases hframe.user hback with hu | ⟨rfl, f, hf⟩ | hu
      · exact absurd hu hbusy
      · have hregs : (c.follow S (.step i) s level).regs i = c.saved PGFAULTEXCEPT i := by
          simp only [follow, hf]
          exact Function.update_self i _ _
        rw [hregs]
        refine h.kept ?_
        rw [hf]
        rfl
      · exact absurd hu h.born
  | trap => exact absurd hback hbusy
  | call => exact absurd hback hbusy
  | load => exact absurd hback hbusy

/-! ## Runs -/

/-- The support level runs below its system calls. -/
theorem level_run {es : List (CallEvent n)} (h : (callLevel S).Run es c) :
    ∃ es', (supportLevel S).Run es' c.level := by
  induction h with
  | init h => exact ⟨[], System.Run.init h.1⟩
  | @step es c c' e _ hs ih =>
      rcases ih with ⟨es', hrun⟩
      cases cstep_of_next hs with
      | @level e s level _ hnext =>
          rw [follow_level]
          exact ⟨e :: es', System.Run.step hrun hnext⟩
      | trap => exact ⟨es', hrun⟩
      | call => exact ⟨es', hrun⟩
      | load => exact ⟨es', hrun⟩

theorem allotted_of_callLevel {es : List (CallEvent n)} (h : (callLevel S).Run es c) :
    Allotted c.level := by
  rcases level_run h with ⟨es', hrun⟩
  exact allotted_run hrun

/-- A U-proc in its program is stopped by an exception. -/
theorem inService_of_trap {s₀ : State} (ho : Allotted c.level)
    (h : c.next S (.trap i s₀) = some c') : InService c' i s₀ ∧ c'.call i ≠ .user := by
  cases cstep_of_next h with
  | trap hpc _ =>
      refine ⟨⟨ho, ?_, fun _ => ?_⟩, ?_⟩
      · exact fun hu => by cases hpc.symm.trans hu
      · rw [setCall_self, setCall_saved, saved_save_self]
        exact Or.inl rfl
      · rw [setCall_self]
        exact fun hu => by cases hu

/-- A U-proc is stopped by a page fault. -/
theorem inPager_of_fault {addr cause : Word} {a : Access} {slot : Nat} {s : State}
    (ho : Allotted c.level) (h : c.next S (.level (.touch i addr a cause slot) s) = some c')
    (hpc : c'.level.pc i = .cause { cause := cause, entryHi := entryHiOf i addr }) :
    InPager c' i { s with cause := cause, entryHi := entryHiOf i addr } ∧
      c'.level.pc i ≠ .user := by
  cases cstep_of_next h with
  | @level _ _ level _ hnext =>
      have hustep := (ustep_of_next hnext).2
      have hret := retained_step ho hustep
      have hg : c.level.granted S i addr a = none := by
        cases hg : c.level.granted S i addr a with
        | none => rfl
        | some word =>
            have hu := user_of_granted (touch_user hnext) hustep hg
            rw [follow_level, hu] at hpc
            cases hpc
      refine ⟨⟨?_, ?_, fun _ => ?_⟩, ?_⟩
      · rw [follow_level]
        exact hret.allotted
      · rw [hpc]
        exact fun hu => by cases hu
      · rw [follow_level] at hpc
        simp only [follow, hg, hpc, if_true]
        exact saved_save_self _ _ _ _
      · rw [hpc]
        exact fun hu => by cases hu

end SupportCalls

end Pandos
