import Pandos.Theory.Runs

/-!
# CPU Times

What one exception does to `p_time` and `start_tod`. The handlers between the
entry of an exception and the call of the scheduler leave both alone: a process
that lives afterwards is a new one without any time, or has the time it was
charged at the entry.

## Main definitions

* `Timely`: Times and `start_tod` were left alone.
* `spent`: What the handler charges the active process until the scheduler is
  called.

## Theorems

* `Interrupted.timely`, `PassUp.timely`, `Served.timely`: The branches leave the
  times alone.
* `Handled.aged`: The times when the scheduler is called.
* `Handled.aged_context`: The times when an exception is passed up.
* `Handled.origin`: Which exceptions are passed up.
* `getTime_returns`: The result of `GETTIME`.
-/

namespace Pandos

/-- The times were left alone, and so was `start_tod`. A new process has used no
    time. -/
structure Timely (k k' : Kernel) : Prop where
  tod : k'.startTod = k.startTod
  time : ∀ q, q ∉ k'.procq .pcbFree →
    (q ∈ k.procq .pcbFree ∧ (k'.pcb q).pTime = 0) ∨
      (q ∉ k.procq .pcbFree ∧ (k'.pcb q).pTime = (k.pcb q).pTime)

theorem timely_of {k k' : Kernel} (htod : k'.startTod = k.startTod)
    (hfree : k'.procq .pcbFree = k.procq .pcbFree)
    (htime : ∀ q, (k'.pcb q).pTime = (k.pcb q).pTime) : Timely k k' := by
  refine ⟨htod, fun q hq => Or.inr ⟨?_, htime q⟩⟩
  rwa [← hfree]

theorem Timely.trans {k k' k'' : Kernel} (h : Timely k k') (htod : k''.startTod = k'.startTod)
    (hfree : k''.procq .pcbFree = k'.procq .pcbFree)
    (htime : ∀ q, (k''.pcb q).pTime = (k'.pcb q).pTime) : Timely k k'' := by
  refine ⟨htod.trans h.tod, fun q hq => ?_⟩
  rw [hfree] at hq
  rw [htime]
  exact h.time q hq

theorem timely_refl (k : Kernel) : Timely k k := timely_of rfl rfl (fun _ => rfl)

theorem Frame.timely {k k' : Kernel} (h : Frame k k') : Timely k k' :=
  timely_of h.startTod h.free h.time

/-- Updates of a record that keep its time. -/
theorem time_modPcb (k : Kernel) (p : PcbId) {f : Pcb → Pcb} (hf : ∀ t, (f t).pTime = t.pTime)
    (q : PcbId) : ((k.modPcb p f).pcb q).pTime = (k.pcb q).pTime := by
  unfold Kernel.modPcb
  by_cases hq : q = p
  · simp only [hq, if_true]
    exact hf _
  · simp only [if_neg hq]

theorem time_setResult (k : Kernel) (p : PcbId) (v : Word) (q : PcbId) :
    ((setResult k p v).pcb q).pTime = (k.pcb q).pTime :=
  time_modPcb k p (f := fun t => { t with pS := t.pS.setReg .v0 v }) (fun _ => rfl) q

theorem time_reserved (k : Kernel) (p q : PcbId) :
    ((reserved k p).pcb q).pTime = (k.pcb q).pTime :=
  time_modPcb k p (f := fun t => { t with
    pS := { t.pS with cause := causeReservedInstruction (causeClean t.pS.cause) } })
    (fun _ => rfl) q

theorem time_ioStarted (k : Kernel) (p : PcbId) (line : Int) (a v : Word) (q : PcbId) :
    ((ioStarted k p line a v).pcb q).pTime = (k.pcb q).pTime :=
  time_modPcb k p (f := fun t =>
    { t with pS := { t.pS with status := ioStatus t.pPrio t.pS.status line } }) (fun _ => rfl) q

theorem time_adopted (k : Kernel) (p c : PcbId) (support : Option Word) (state : State)
    (q : PcbId) : ((adopted (filled k c support state) p c).pcb q).pTime = (k.pcb q).pTime :=
  (adopted_fields _ p c q).2.2.2.2.1.trans (time_modPcb k c
    (f := fun t => { t with pSupport := support, pS := state }) (fun _ => rfl) q)

theorem timely_killed (k : Kernel) (ks : List PcbId) (s : Queues SemdList SemdId) :
    Timely k (k.killed ks s) := by
  refine ⟨rfl, fun q hq => ?_⟩
  rw [killed_free, List.mem_append, not_or] at hq
  refine Or.inr ⟨hq.2, ?_⟩
  change (killedPcb k ks q).pTime = _
  rw [killedPcb_of_not_mem k hq.1]

theorem Spawned.timely {k k' : Kernel} {prio : Word} {c : PcbId} (h : Spawned k prio c k') :
    Timely k k' := by
  rcases h.free with ⟨cs, hf, hf'⟩
  refine ⟨h.startTod, fun q hq => ?_⟩
  by_cases hqc : q = c
  · refine Or.inl ⟨?_, ?_⟩
    · rw [hf, hqc]
      exact List.mem_cons_self
    · rw [hqc, h.self]
      rfl
  · refine Or.inr ⟨?_, ?_⟩
    · rw [hf, List.mem_cons, not_or, ← hf']
      exact ⟨hqc, hq⟩
    · rw [h.other q hqc]

section Branches

variable {L : Layout} {hw : Hw} {k k' : Kernel} {ctrl : SchedulerControl}

theorem PassUp.timely {type : Fin 2} (h : PassUp hw k type (.ok (ctrl, k'))) : Timely k k' := by
  cases h with
  | idle => exact timely_refl k
  | die => exact timely_killed k _ _

theorem Interrupted.timely {m : Machine} (hasl : AslWf k)
    (h : Interrupted L m hw k (.ok (ctrl, k'))) : Timely k k' := by
  cases h with
  | resume => exact timely_refl _
  | tick _ _ hd =>
      rcases hd with ⟨_, hd⟩ | ⟨_, rfl⟩
      · exact hd.frame.timely
      · exact timely_refl _
  | @device u status _ _ _ _ h =>
      cases h with
      | @wake t k₁ hb =>
          exact (hb.frame hasl).timely.trans rfl rfl (time_setResult k₁ t status)
      | @stray q hn hq =>
          exact timely_of rfl rfl
            (time_setResult (k.store (L.semAddr u) (k.mem (L.semAddr u) + 1)) q status)

theorem Served.timely {p : PcbId} (hasl : AslWf k) (h : Served L hw k p (.ok (ctrl, k'))) :
    Timely k k' := by
  cases h with
  | reserved _ h =>
      refine ⟨h.timely.tod, fun q hq => ?_⟩
      rcases h.timely.time q hq with h | ⟨hf, ht⟩
      · exact Or.inl h
      · exact Or.inr ⟨hf, ht.trans (time_reserved k p q)⟩
  | pass _ h => exact h.timely
  | full => exact timely_of rfl rfl (time_setResult k p NULL_PID)
  | @create c k₁ prio support state _ hs hcp _ =>
      refine hs.timely.trans rfl rfl (fun q => ?_)
      rw [time_setResult, time_adopted]
  | terminate => exact timely_killed k _ _
  | passeren _ _ _ _ h => exact (h.frame hasl).timely
  | verhogen _ _ _ _ h => exact (h.frame hasl).timely
  | doIo _ _ _ _ hb => exact hb.frame.timely.trans rfl rfl (time_ioStarted _ p _ _ _)
  | waitClock _ _ h => exact (h.frame hasl).timely
  | get v => exact timely_of rfl rfl (time_setResult k p v)
  | yield => exact timely_of rfl rfl (fun _ => rfl)

end Branches

/-! ## One exception -/

/-- What is charged to the active process until the scheduler is called: the
    time from `start_tod` to the entry, and that of a system call that
    returned. -/
def spent (m : Machine) (e : Event) : Int :=
  (e.hw.todEntry - m.kernel.startTod) +
    (if excClass e.hw.cause = .syscall then e.hw.todReturn - e.hw.todSyscall else 0)

section Charge

variable {L : Layout} {m : Machine} {e : Event}

/-- The time at the entry of an exception is charged to the active process. -/
theorem charged_time (m : Machine) (e : Event) (q : PcbId) :
    ((charged m e).pcb q).pTime = (m.kernel.pcb q).pTime +
      (if m.kernel.activeProcess = some q then e.hw.todEntry - m.kernel.startTod else 0) := by
  unfold charged chargeAndSave
  have hact : (m.entry e).activeProcess = m.kernel.activeProcess := rfl
  cases hp : m.kernel.activeProcess with
  | none =>
      simp only [hact, hp, reduceCtorEq, if_false, Int.add_zero]
      rfl
  | some p =>
      simp only [hact, hp, Kernel.modPcb, Option.some.injEq]
      by_cases hq : q = p
      · rw [if_pos hq, if_pos hq.symm]
        subst hq
        rfl
      · rw [if_neg hq, if_neg (fun h => hq h.symm), Int.add_zero]
        rfl

theorem charged_free (m : Machine) (e : Event) :
    (charged m e).procq .pcbFree = m.kernel.procq .pcbFree :=
  (touched_chargeAndSave e.hw (m.entry e)).free

theorem charged_tod (m : Machine) (e : Event) : (charged m e).startTod = m.kernel.startTod := by
  unfold charged chargeAndSave
  cases (m.entry e).activeProcess with
  | none => rfl
  | some p => rfl

/-- When the scheduler is called, a live process is new and has used no time, or
    it was charged if it is the active one. -/
theorem Handled.aged {ctrl : SchedulerControl} {k : Kernel} (hb : Between m.kernel)
    (h : Handled L m e (.ok (ctrl, k))) : ∀ q, q ∉ k.procq .pcbFree →
      (q ∈ m.kernel.procq .pcbFree ∧ (k.pcb q).pTime = 0) ∨
      (q ∉ m.kernel.procq .pcbFree ∧ (k.pcb q).pTime = (m.kernel.pcb q).pTime +
        (if m.kernel.activeProcess = some q then spent m e else 0)) := by
  have hasl := (base_charged hb e).asl
  have hother : excClass e.hw.cause ≠ .syscall → Timely (charged m e) k → ∀ q,
      q ∉ k.procq .pcbFree → (q ∈ m.kernel.procq .pcbFree ∧ (k.pcb q).pTime = 0) ∨
      (q ∉ m.kernel.procq .pcbFree ∧ (k.pcb q).pTime = (m.kernel.pcb q).pTime +
        (if m.kernel.activeProcess = some q then spent m e else 0)) := by
    intro hc ht q hq
    have htime := ht.time q hq
    rw [charged_free, charged_time] at htime
    rwa [spent, if_neg hc, Int.add_zero]
  cases h with
  | interrupt hc h =>
      exact hother (by rw [hc]; exact ExcClass.noConfusion) (h.timely hasl)
  | pass hc h =>
      refine hother ?_ h.timely
      rcases hc with hc | hc <;> rw [hc] <;> exact ExcClass.noConfusion
  | @call p _ k₁ hc hp h =>
      intro q hq
      have ht := h.timely (base_calling hb e).asl
      have hlive : p ∉ m.kernel.procq .pcbFree :=
        hb.at_.not_free (Option.mem_toFinset.mpr hp)
      have htime := ht.time q ((touched_afterSyscall e.hw k₁ p).free ▸ hq)
      change (q ∈ (charged m e).procq .pcbFree ∧ _) ∨ (q ∉ (charged m e).procq .pcbFree ∧
        (k₁.pcb q).pTime = ((charged m e).pcb q).pTime) at htime
      rw [charged_free, charged_time] at htime
      have htod : k₁.startTod = e.hw.todSyscall := ht.tod
      have hafter : ((afterSyscall e.hw k₁ p).pcb q).pTime = (k₁.pcb q).pTime +
          (if p = q then e.hw.todReturn - e.hw.todSyscall else 0) := by
        simp only [afterSyscall, Kernel.modPcb, htod]
        by_cases hqp : q = p
        · rw [if_pos hqp, if_pos hqp.symm, hqp]
        · rw [if_neg hqp, if_neg (fun h => hqp h.symm), Int.add_zero]
      rw [hafter]
      rcases htime with ⟨hf, hz⟩ | ⟨hf, htq⟩
      · refine Or.inl ⟨hf, ?_⟩
        have hpq : p ≠ q := by
          rintro rfl
          exact hlive hf
        rw [hz, if_neg hpq]
        rfl
      · refine Or.inr ⟨hf, ?_⟩
        rw [htq, hp]
        by_cases hpq : p = q
        · rw [if_pos hpq, if_pos (congrArg some hpq), if_pos (congrArg some hpq), spent, if_pos hc,
            Int.add_assoc]
        · rw [if_neg hpq, if_neg (fun h => hpq (Option.some.inj h)),
            if_neg (fun h => hpq (Option.some.inj h)), Int.add_zero]

/-- An exception that is passed up is charged at its entry, and only a system
    call leaves the clock in `start_tod`. -/
theorem Handled.aged_context {k : Kernel} {ctx : Context}
    (h : Handled L m e (.error (.loadContext k ctx))) :
    k.startTod = (if excClass e.hw.cause = .syscall then e.hw.todSyscall else m.kernel.startTod) ∧
      ∀ q, (k.pcb q).pTime = (m.kernel.pcb q).pTime +
        (if m.kernel.activeProcess = some q then e.hw.todEntry - m.kernel.startTod else 0) := by
  cases h with
  | interrupt _ h =>
      cases h with
      | device _ _ _ h => cases h
  | pass hc h =>
      cases h with
      | up _ _ =>
          have hne : excClass e.hw.cause ≠ .syscall := by
            rcases hc with hc | hc <;> rw [hc] <;> exact ExcClass.noConfusion
          rw [if_neg hne]
          exact ⟨charged_tod m e, charged_time m e⟩
  | @leave p _ hc hp h =>
      rw [if_pos hc]
      cases h with
      | reserved _ h =>
          cases h with
          | up _ _ =>
              exact ⟨rfl, fun q => (time_reserved (calling m e) p q).trans (charged_time m e q)⟩
      | pass _ h =>
          cases h with
          | up _ _ => exact ⟨rfl, charged_time m e⟩

/-- An exception that is passed up is a system call, or a page fault or program
    trap of a process with a support structure. -/
theorem Handled.origin {k : Kernel} {ctx : Context}
    (h : Handled L m e (.error (.loadContext k ctx))) :
    excClass e.hw.cause = .syscall ∨
      (excClass e.hw.cause = .tlb ∨ excClass e.hw.cause = .other) ∧
        ∃ p, m.kernel.activeProcess = some p ∧ (m.kernel.pcb p).pSupport ≠ none := by
  cases h with
  | interrupt _ h =>
      cases h with
      | device _ _ _ h => cases h
  | pass hc h =>
      cases h with
      | @up p s hp hs =>
          rw [charged_active] at hp
          rw [charged_support] at hs
          exact Or.inr ⟨hc, p, hp, by rw [hs]; exact Option.some_ne_none s⟩
  | leave hc => exact Or.inl hc

/-- `GETTIME` hands its caller the time it was charged at the entry. -/
theorem getTime_returns (hwf : MachineWf L m) (hok : e.Ok L m) {p : PcbId}
    (hp : m.kernel.activeProcess = some p) (hcall : KernelCall GETTIME m e) : ∃ k,
      (m.outcome L e).next = some k ∧ p ∉ k.procq .pcbFree ∧
      (k.pcb p).pS.gpr .v0 = BitVec.ofInt 32 ((charged m e).pcb p).pTime := by
  rcases hcall with ⟨hc, _, hid, hu⟩
  have hstate := calling_state (e := e) hp
  have hserved : syscallHandler L e.hw (calling m e) p = syscallGetCpuTime (calling m e) p := by
    unfold syscallHandler
    simp only [hstate, hid, hu, Bool.false_eq_true, and_false, if_false]
    rfl
  have hhandle : handleException L e.hw (m.entry e) = .ok (CONTROL_RESCHEDULE (calling m e),
      afterSyscall e.hw (setResult (calling m e) p
        (BitVec.ofInt 32 ((charged m e).pcb p).pTime)) p) := by
    rw [handleException_syscall hc]
    exact syscallException_ok hp hserved
  have hh := handleException_spec hwf hok
  rw [hhandle] at hh
  have hsched : Scheduled e.hw _ (schedule e.hw _ _ _) := schedule_spec (hh.ready hwf.between)
  have hval : ∀ k, Kept (afterSyscall e.hw (setResult (calling m e) p
      (BitVec.ofInt 32 ((charged m e).pcb p).pTime)) p) k → p ∉ k.procq .pcbFree ∧
      (k.pcb p).pS.gpr .v0 = BitVec.ofInt 32 ((charged m e).pcb p).pTime := by
    intro k hk
    rw [hk.gpr, hk.free]
    refine ⟨?_, ?_⟩
    · change p ∉ (charged m e).procq .pcbFree
      rw [charged_free]
      exact hwf.between.at_.not_free (Option.mem_toFinset.mpr hp)
    · simp only [afterSyscall, setResult, Kernel.modPcb, if_true, State.setReg, reduceCtorEq,
        if_false]
  unfold Machine.outcome exceptionHandler
  simp only [hhandle]
  generalize schedule e.hw _ _ _ = o at hsched
  cases hsched with
  | run hk => exact ⟨_, rfl, hval _ hk⟩
  | wait hk => exact ⟨_, rfl, hval _ hk⟩
  | halt hk hlive =>
      have hmem := (hval _ hk).1
      rw [← mem_live, hlive] at hmem
      exact absurd hmem (Finset.notMem_empty p)

end Charge

end Pandos
