import Pandos.Theory.Exceptions

/-!
# Refused and Granted Calls

`syscall_handler` hands a call to `pass_up_or_die` for many reasons: its
identifier, the mode of its caller, an argument, or a device that is taken.
`refused` collects them in one condition on the state before the call. A call
that is not refused never reaches `pass_up_or_die`, and only `TERMPROCESS` takes
processes away then.

## Main definitions

* `refused`: The calls that end in `pass_up_or_die`.
* `Granted`: What the others do to the processes.

## Theorems

* `PassUp.quiet`: `pass_up_or_die` does not panic.
* `syscallHandler_cases`: A refused call ends in `pass_up_or_die`, any other one
  is granted.
-/

namespace Pandos

open Forest

/-- The calls that are refused, by the state of the caller. -/
def refused (L : Layout) (k : Kernel) (s : State) : Bool :=
  let id := (s.gpr .a0).toInt
  let arg := s.gpr .a1
  if id ≤ 0 ∧ isUserMode s then true
  else if id = CREATEPROCESS then
    (s.gpr .a2 ≠ PROCESS_PRIO_LOW ∧ s.gpr .a2 ≠ PROCESS_PRIO_HIGH) ∨ arg = L.null
  else if id = TERMPROCESS then arg = L.null ∨ (arg ≠ 0 ∧ findProcess k arg = none)
  else if id = PASSEREN ∨ id = VERHOGEN then arg = L.null
  else if id = DOIO then
    arg = L.null ∨ (getIodev L arg).toOption.any (fun dev => waiters k dev.semaphore ≠ [])
  else if id = GETPROCESSID then arg ≠ 0 ∧ arg ≠ 1
  else id ≠ GETTIME ∧ id ≠ CLOCKWAIT ∧ id ≠ GETSUPPORTPTR ∧ id ≠ YIELD

/-- What a call that is not refused does to the processes: only `TERMPROCESS`
    takes some away, only `CREATEPROCESS` adds one, and only `DOIO` panics. -/
inductive Granted (L : Layout) (hw : Hw) (k : Kernel) (p : PcbId) :
    Result (SchedulerControl × Kernel) → Prop
  | still {ctrl : SchedulerControl} {k' : Kernel} (hid : callId k p ≠ TERMPROCESS)
      (hfree : k'.procq .pcbFree = k.procq .pcbFree) (hpar : parentOf k' = parentOf k) :
      Granted L hw k p (.ok (ctrl, k'))
  | create {ctrl : SchedulerControl} {k' : Kernel} {c : PcbId} (hid : callId k p ≠ TERMPROCESS)
      (hfree : k.procq .pcbFree = c :: k'.procq .pcbFree)
      (hpar : parentOf k' = attach (parentOf k) p c) : Granted L hw k p (.ok (ctrl, k'))
  | terminate {ctrl : SchedulerControl} {t : PcbId} {ks : List PcbId}
      {s : Queues SemdList SemdId} (hid : callId k p = TERMPROCESS)
      (ht : (if (k.pcb p).pS.gpr .a1 = 0 then some p
        else findProcess k ((k.pcb p).pS.gpr .a1)) = some t)
      (hk : Killed k t ks s) : Granted L hw k p (.ok (ctrl, k.killed ks s))
  | panic {msg : String} (hid : callId k p = DOIO) (hu : isUserMode (k.pcb p).pS = false)
      (hr : syscallDoIo L hw k p = .error (.panic msg)) : Granted L hw k p (.error (.panic msg))

theorem PassUp.quiet {hw : Hw} {k : Kernel} {type : Fin 2}
    {r : Result (SchedulerControl × Kernel)} (h : PassUp hw k type r) (msg : String) :
    r ≠ .error (.panic msg) := by
  rintro rfl
  cases h

section Calls

variable {L : Layout} {hw : Hw} {k : Kernel} {p : PcbId}

theorem Calling.reserved (h : Calling k p) : Calling (reserved k p) p :=
  ⟨h.at_.of_same (touched_reserved k p).same, h.active⟩

/-- A call that changes no parent and no free block. -/
theorem granted_frame {ctrl : SchedulerControl} {k' : Kernel} (hid : callId k p ≠ TERMPROCESS)
    (h : Frame k k') : Granted L hw k p (.ok (ctrl, k')) :=
  Granted.still hid h.free (funext h.parent)

theorem granted_touched {ctrl : SchedulerControl} {k' : Kernel} (hid : callId k p ≠ TERMPROCESS)
    (h : Touched k k') : Granted L hw k p (.ok (ctrl, k')) :=
  Granted.still hid h.free (funext h.same.parent)

/-- A new child is attached to its parent and to nothing else. -/
theorem parentOf_create {prio : Word} {c : PcbId} {k₁ : Kernel} (hs : Spawned k prio c k₁)
    (support : Option Word) (state : State) (v : Word) :
    parentOf (setResult (adopted (filled k₁ c support state) p c) p v)
      = attach (parentOf k) p c := by
  have hset := (touched_setResult (adopted (filled k₁ c support state) p c) p v).same.parent
  refine (funext hset).trans ((parentOf_adopted _ p c).trans (funext fun q => ?_))
  unfold attach
  by_cases hq : q = c
  · rw [if_pos hq, if_pos hq]
  · rw [if_neg hq, if_neg hq]
    refine ((same_filled k₁ c support state).parent q).trans ?_
    rw [hs.other q hq]
    rfl

/-- `CREATEPROCESS` gives a free block to its caller as a child, if there is
    one. -/
theorem createProcess_granted (h : Calling k p) (hid : callId k p ≠ TERMPROCESS)
    (hok : ¬ (((k.pcb p).pS.gpr .a2 ≠ PROCESS_PRIO_LOW ∧
      (k.pcb p).pS.gpr .a2 ≠ PROCESS_PRIO_HIGH) ∨ (k.pcb p).pS.gpr .a1 = L.null)) :
    Granted L hw k p (syscallCreateProcess L hw k p) := by
  have hprio : (k.pcb p).pS.gpr .a2 = PROCESS_PRIO_LOW ∨
      (k.pcb p).pS.gpr .a2 = PROCESS_PRIO_HIGH := by
    by_contra hc
    exact hok (Or.inl (not_or.mp hc))
  have hptr : L.ptr ((k.pcb p).pS.gpr .a1) = some ((k.pcb p).pS.gpr .a1) := by
    rw [Layout.ptr, if_neg (fun hn => hok (Or.inr hn))]
  have hok' : ¬ (((k.pcb p).pS.gpr .a2 ≠ PROCESS_PRIO_LOW ∧
      (k.pcb p).pS.gpr .a2 ≠ PROCESS_PRIO_HIGH) ∨ L.ptr ((k.pcb p).pS.gpr .a1) = none) := by
    rintro (hc | hn)
    · exact hok (Or.inl hc)
    · rw [hptr] at hn
      cases hn
  unfold syscallCreateProcess
  simp only [if_neg hok']
  cases hf : k.procq .pcbFree with
  | nil =>
      rw [spawnProcess_none hprio hf]
      exact granted_touched hid (touched_setResult k p NULL_PID)
  | cons c cs =>
      rcases spawnProcess_some h.at_ hprio hf with ⟨k₁, heq, hs, hat⟩
      have hpar : parentOf (filled k₁ c (L.ptr ((k.pcb p).pS.gpr .a3))
          (hw.readState ((k.pcb p).pS.gpr .a1))) c = none := by
        refine ((same_filled k₁ c _ _).parent c).trans ?_
        rw [hs.self]
        rfl
      rw [heq]
      change Granted L hw k p (.ok (CONTROL_PRESERVE _,
        setResult (insertChild (filled k₁ c _ _) p c) p _))
      rw [insertChild_eq ((same_filled k₁ c _ _).treeWf hat.wf.tree) hpar]
      refine Granted.create (c := c) hid ?_ (parentOf_create hs _ _ _)
      rcases hs.free with ⟨qs, hq, hq'⟩
      rw [hq]
      exact congrArg (List.cons c) hq'.symm

/-- `TERMPROCESS` kills a live process. -/
theorem terminateProcess_granted (h : Calling k p) (hid : callId k p = TERMPROCESS)
    (hok : ¬ ((k.pcb p).pS.gpr .a1 = L.null ∨ ((k.pcb p).pS.gpr .a1 ≠ 0 ∧
      findProcess k ((k.pcb p).pS.gpr .a1) = none))) :
    Granted L hw k p (syscallTerminateProcess L hw k p) := by
  unfold syscallTerminateProcess
  simp only [if_neg (fun hn => hok (Or.inl hn))]
  have htarget : ∃ t, (if (k.pcb p).pS.gpr .a1 = 0 then some p
      else findProcess k ((k.pcb p).pS.gpr .a1)) = some t ∧ t ∉ k.procq .pcbFree := by
    by_cases hz : (k.pcb p).pS.gpr .a1 = 0
    · exact ⟨p, if_pos hz, h.at_.not_free (Finset.mem_singleton_self p)⟩
    · cases hf : findProcess k ((k.pcb p).pS.gpr .a1) with
      | none => exact absurd (Or.inr ⟨hz, hf⟩) hok
      | some t => exact ⟨t, if_neg hz, findProcess_live h.at_.wf.pcb hz hf⟩
  rcases htarget with ⟨t, ht, hlive⟩
  rcases killProgeny_killed h.at_.wf hlive with ⟨ks, s, heq, hk⟩
  simp only [ht, heq]
  exact Granted.terminate hid ht hk

/-- An operation on a semaphore leaves the processes alone. -/
theorem P_granted (h : Calling k p) (hid : callId k p ≠ TERMPROCESS) {a : Word} (ha : Aligned a) :
    Granted L hw k p (P k (some a) (some p)) := by
  rcases P_spec h.at_.wf.asl ha (h.at_.null (Finset.mem_singleton_self p)) with
    ⟨ctrl, k', heq, hstep⟩
  rw [heq]
  exact granted_frame hid (hstep.frame h.at_.wf.asl)

theorem verhogen_granted (h : Calling k p) (hid : callId k p ≠ TERMPROCESS)
    (hok : (k.pcb p).pS.gpr .a1 ≠ L.null) (hal : Aligned ((k.pcb p).pS.gpr .a1)) :
    Granted L hw k p (syscallVerhogen L hw k p) := by
  unfold syscallVerhogen
  simp only [Layout.ptr, if_neg hok]
  rcases V_spec h.at_.wf.asl hal h.null with ⟨r, k', heq, hstep⟩
  have hframe := hstep.frame h.at_.wf.asl
  rw [heq]
  cases r with
  | none => exact granted_frame hid hframe
  | some q => exact granted_frame hid hframe

/-- `DOIO` waits for a device, or it panics. -/
theorem doIo_granted (h : Calling k p) (hid : callId k p = DOIO)
    (hu : isUserMode (k.pcb p).pS = false)
    (hal : (k.pcb p).pS.gpr .a1 ≠ L.null →
      ((k.pcb p).pS.gpr .a1 - DEV_REG_START).toNat < 96 * 16 → Aligned ((k.pcb p).pS.gpr .a1))
    (hdev : ∀ u : DevUnit, k.mem (L.semAddr u) = 0 ∨ k.mem (L.semAddr u) = 1)
    (hok : ¬ ((k.pcb p).pS.gpr .a1 = L.null ∨ (getIodev L ((k.pcb p).pS.gpr .a1)).toOption.any
      (fun dev => waiters k dev.semaphore ≠ []))) :
    Granted L hw k p (syscallDoIo L hw k p) := by
  have hne : callId k p ≠ TERMPROCESS := by
    rw [hid]
    decide
  have hio : IoServed L hw k p _ := syscallDoIo_spec h hdev
  generalize hr : syscallDoIo L hw k p = r at hio
  cases hio with
  | null ha => exact absurd (Or.inl ha) hok
  | nowhere => exact Granted.panic hid hu hr
  | taken hd hn =>
      refine absurd (Or.inr ?_) hok
      rw [hd]
      exact decide_eq_true hn
  | raised => exact Granted.panic hid hu hr
  | trap ha hd _ _ _ _ hno => exact absurd (hal ha ((getIodev_ok_iff L _).mp ⟨_, hd⟩)) hno
  | @start u line k' _ _ _ _ hb =>
      have ht := touched_ioStarted k' p line ((k.pcb p).pS.gpr .a1) ((k.pcb p).pS.gpr .a2)
      refine Granted.still hne (ht.free.trans hb.frame.free) ?_
      exact (funext ht.same.parent).trans (funext hb.frame.parent)

/-! ## Refusals -/

theorem createProcess_refused (h : ((k.pcb p).pS.gpr .a2 ≠ PROCESS_PRIO_LOW ∧
      (k.pcb p).pS.gpr .a2 ≠ PROCESS_PRIO_HIGH) ∨ (k.pcb p).pS.gpr .a1 = L.null) :
    syscallCreateProcess L hw k p = passUpOrDie hw k GENERALEXCEPT := by
  have h' : ((k.pcb p).pS.gpr .a2 ≠ PROCESS_PRIO_LOW ∧
      (k.pcb p).pS.gpr .a2 ≠ PROCESS_PRIO_HIGH) ∨ L.ptr ((k.pcb p).pS.gpr .a1) = none := by
    refine h.imp_right (fun hn => ?_)
    rw [Layout.ptr, if_pos hn]
  unfold syscallCreateProcess
  simp only [if_pos h']

theorem terminateProcess_refused (h : (k.pcb p).pS.gpr .a1 = L.null ∨
      ((k.pcb p).pS.gpr .a1 ≠ 0 ∧ findProcess k ((k.pcb p).pS.gpr .a1) = none)) :
    syscallTerminateProcess L hw k p = passUpOrDie hw k GENERALEXCEPT := by
  unfold syscallTerminateProcess
  by_cases hnull : (k.pcb p).pS.gpr .a1 = L.null
  · simp only [if_pos hnull]
  · rcases h.resolve_left hnull with ⟨hz, hf⟩
    simp only [if_neg hnull, if_neg hz, hf]

theorem doIo_refused (h : Calling k p)
    (hdev : ∀ u : DevUnit, k.mem (L.semAddr u) = 0 ∨ k.mem (L.semAddr u) = 1)
    (hr : (k.pcb p).pS.gpr .a1 = L.null ∨
      (getIodev L ((k.pcb p).pS.gpr .a1)).toOption.any (fun dev => waiters k dev.semaphore ≠ [])) :
    syscallDoIo L hw k p = passUpOrDie hw k GENERALEXCEPT := by
  have htaken : (k.pcb p).pS.gpr .a1 ≠ L.null → ∀ x, getIodev L ((k.pcb p).pS.gpr .a1) = x →
      ∃ dev, x = .ok dev ∧ waiters k dev.semaphore ≠ [] := by
    rintro hnull x rfl
    have hany := hr.resolve_left hnull
    cases hd : getIodev L ((k.pcb p).pS.gpr .a1) with
    | error =>
        rw [hd] at hany
        cases hany
    | ok dev =>
        rw [hd] at hany
        exact ⟨dev, rfl, of_decide_eq_true hany⟩
  have hio : IoServed L hw k p _ := syscallDoIo_spec h hdev
  generalize syscallDoIo L hw k p = r at hio
  cases hio with
  | null => rfl
  | taken => rfl
  | nowhere hn hout =>
      rcases htaken hn _ (getIodev_outside L hout) with ⟨dev, hx, _⟩
      cases hx
  | raised hn hd hwait =>
      rcases htaken hn _ hd with ⟨dev, hx, hne⟩
      rw [Except.ok.injEq] at hx
      exact absurd (hx ▸ hwait) hne
  | start hn hd hwait =>
      rcases htaken hn _ hd with ⟨dev, hx, hne⟩
      rw [Except.ok.injEq] at hx
      exact absurd (hx ▸ hwait) hne
  | trap hn hd hwait =>
      rcases htaken hn _ hd with ⟨dev, hx, hne⟩
      rw [Except.ok.injEq] at hx
      exact absurd (hx ▸ hwait) hne

/-- A call that is refused ends in `pass_up_or_die`, any other one is granted. -/
theorem syscallHandler_cases (h : Calling k p)
    (hal : Addressed L k p)
    (hdev : ∀ u : DevUnit, k.mem (L.semAddr u) = 0 ∨ k.mem (L.semAddr u) = 1) :
    (refused L k (k.pcb p).pS = true →
      syscallHandler L hw k p = passUpOrDie hw k GENERALEXCEPT ∨
      syscallHandler L hw k p = passUpOrDie hw (reserved k p) GENERALEXCEPT) ∧
    (refused L k (k.pcb p).pS = false → Granted L hw k p (syscallHandler L hw k p)) := by
  have hmode : ∀ id : Int, callId k p = id → id ≤ 0 →
      ¬ (callId k p ≤ 0 ∧ isUserMode (k.pcb p).pS = true) → isUserMode (k.pcb p).pS = false := by
    rintro id rfl hle hn
    exact Bool.eq_false_iff.mpr (fun hu => hn ⟨hle, hu⟩)
  have hne : ∀ id : Int, callId k p = id → id ≠ TERMPROCESS → callId k p ≠ TERMPROCESS := by
    rintro id rfl hn
    exact hn
  unfold refused syscallHandler
  have hcall : ((k.pcb p).pS.gpr .a0).toInt = callId k p := rfl
  simp only [hcall]
  -- The cases stand in the order of the switch of `syscall_handler`.
  by_cases hu : callId k p ≤ 0 ∧ isUserMode (k.pcb p).pS = true
  · rw [if_pos hu, if_pos hu]
    exact ⟨fun _ => Or.inr rfl, fun hc => by cases hc⟩
  rw [if_neg hu, if_neg hu]
  by_cases h1 : callId k p = CREATEPROCESS
  · rw [if_pos h1, if_pos h1]
    exact ⟨fun hr => Or.inl (createProcess_refused (of_decide_eq_true hr)),
      fun hr => createProcess_granted h (hne _ h1 (by decide)) (of_decide_eq_false hr)⟩
  rw [if_neg h1, if_neg h1]
  by_cases h2 : callId k p = TERMPROCESS
  · rw [if_pos h2, if_pos h2]
    exact ⟨fun hr => Or.inl (terminateProcess_refused (of_decide_eq_true hr)),
      fun hr => terminateProcess_granted h h2 (of_decide_eq_false hr)⟩
  rw [if_neg h2, if_neg h2]
  by_cases h3 : callId k p = PASSEREN
  · rw [if_pos (Or.inl h3), if_pos h3, syscallPasseren]
    refine ⟨fun hr => ?_, fun hr => ?_⟩
    · simp only [Layout.ptr, if_pos (of_decide_eq_true hr), true_or]
    · simp only [Layout.ptr, if_neg (of_decide_eq_false hr)]
      exact P_granted h (hne _ h3 (by decide))
        (hal.sem (hmode _ h3 (by decide) hu) (Or.inl h3) (of_decide_eq_false hr))
  rw [if_neg h3]
  by_cases h4 : callId k p = VERHOGEN
  · rw [if_pos (Or.inr h4), if_pos h4]
    refine ⟨fun hr => ?_, fun hr => ?_⟩
    · simp only [syscallVerhogen, Layout.ptr, if_pos (of_decide_eq_true hr), true_or]
    · exact verhogen_granted h (hne _ h4 (by decide)) (of_decide_eq_false hr)
        (hal.sem (hmode _ h4 (by decide) hu) (Or.inr h4) (of_decide_eq_false hr))
  rw [if_neg (not_or.mpr ⟨h3, h4⟩), if_neg h4]
  by_cases h5 : callId k p = DOIO
  · rw [if_pos h5, if_pos h5]
    exact ⟨fun hr => Or.inl (doIo_refused h hdev (of_decide_eq_true hr)),
      fun hr => doIo_granted h h5 (hmode _ h5 (by decide) hu)
        (hal.command (hmode _ h5 (by decide) hu) h5) hdev (of_decide_eq_false hr)⟩
  rw [if_neg h5, if_neg h5]
  by_cases h6 : callId k p = GETTIME
  · rw [if_neg (by rw [h6]; decide), if_pos h6]
    refine ⟨fun hr => absurd h6 (of_decide_eq_true hr).1, fun _ => ?_⟩
    exact granted_touched (hne _ h6 (by decide)) (touched_setResult k p _)
  rw [if_neg h6]
  by_cases h7 : callId k p = CLOCKWAIT
  · rw [if_neg (by rw [h7]; decide), if_pos h7]
    refine ⟨fun hr => absurd h7 (of_decide_eq_true hr).2.1, fun _ => ?_⟩
    exact P_granted h (hne _ h7 (by decide)) (semAddr_aligned L (Nat.lt_succ_self 48))
  rw [if_neg h7]
  by_cases h8 : callId k p = GETSUPPORTPTR
  · rw [if_neg (by rw [h8]; decide), if_pos h8]
    refine ⟨fun hr => absurd h8 (of_decide_eq_true hr).2.2.1, fun _ => ?_⟩
    exact granted_touched (hne _ h8 (by decide)) (touched_setResult k p _)
  rw [if_neg h8]
  by_cases h9 : callId k p = GETPROCESSID
  · rw [if_pos h9, if_pos h9]
    unfold syscallGetProcessId
    refine ⟨fun hr => ?_, fun hr => ?_⟩
    · simp only [if_pos (of_decide_eq_true hr), true_or]
    · simp only [if_neg (of_decide_eq_false hr)]
      exact granted_touched (hne _ h9 (by decide)) (touched_setResult k p _)
  rw [if_neg h9, if_neg h9]
  by_cases h10 : callId k p = YIELD
  · rw [if_pos h10]
    refine ⟨fun hr => absurd h10 (of_decide_eq_true hr).2.2.2, fun _ => ?_⟩
    exact Granted.still (hne _ h10 (by decide)) rfl rfl
  rw [if_neg h10]
  exact ⟨fun _ => Or.inl rfl, fun hr => absurd ⟨h6, h7, h8, h10⟩ (of_decide_eq_false hr)⟩

end Calls

end Pandos
