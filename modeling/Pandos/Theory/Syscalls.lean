import Pandos.Lib.BinarySemaphore
import Pandos.Theory.Devices
import Pandos.Theory.Spawn

/-!
# System Calls

What a system call can do, one constructor for each way it ends. The semaphore
calls go through the branches of `P` and `V`; everything that refuses its
arguments is passed up or kills its caller.

## Main definitions

* `Killed`: The subtree of a process was killed.
* `PassUp`: The branches of `pass_up_or_die`.
* `semRequest`: The semaphore operation a call asks for.
* `Served`: The branches of `syscall_handler`.
* `IoServed`: The branches of `DOIO`.

## Theorems

* `killProgeny_killed`: `kill_progeny` succeeds.
* `passUpOrDie_spec`: An exception is passed up or kills the active process.
* `getIodev_unit`: `DOIO` waits on the semaphore of a sub-unit.
* `syscallHandler_spec`: A system call takes one of the branches.
-/

namespace Pandos

open Forest

/-- The subtree of a live process was killed. -/
structure Killed (k : Kernel) (t : PcbId) (ks : List PcbId) (s : Queues SemdList SemdId) :
    Prop where
  live : t ∉ k.procq .pcbFree
  wf : Wf (k.killed ks s)
  nodup : ks.Nodup
  mem : ∀ q, q ∈ ks ↔ Below (parentOf k) t q

theorem killProgeny_killed {k : Kernel} (hw : Wf k) {t : PcbId} (ht : t ∉ k.procq .pcbFree) :
    ∃ ks s, killProgeny killFuel k t = some (0, k.killed ks s) ∧ Killed k t ks s := by
  rcases killProgeny_spec hw ht with ⟨ks, s, heq, hwf, hnd, hmem⟩
  exact ⟨ks, s, heq killFuel (Nat.le_refl _), ht, hwf, hnd, hmem⟩

theorem Killed.self {k : Kernel} {t : PcbId} {ks : List PcbId} {s : Queues SemdList SemdId}
    (h : Killed k t ks s) : t ∈ ks :=
  (h.mem t).mpr Below.self

theorem Killed.all_live {k : Kernel} (hw : TreeWf k) {t : PcbId} {ks : List PcbId}
    {s : Queues SemdList SemdId} (h : Killed k t ks s) : ∀ q ∈ ks, q ∉ k.procq .pcbFree :=
  fun q hq => not_free_of_below hw h.live ((h.mem q).mp hq)

theorem Killed.at {k : Kernel} {u : Finset PcbId} {t : PcbId} {ks : List PcbId}
    {s : Queues SemdList SemdId} (h : Killed k t ks s) (hat : At k u) :
    At (k.killed ks s) (u \ ks.toFinset) :=
  killed_at hat h.wf h.nodup (h.all_live hat.wf.tree)

/-! ## Passing up -/

/-- The state after an exception was copied to a support structure. -/
def passedUp (hw : Hw) (k : Kernel) (s : Word) (type : Fin 2) : Kernel :=
  { k with sup := fun a => if a = s then
      { k.sup s with
        supExceptState := fun t => if t = type then hw.bios else (k.sup s).supExceptState t }
    else k.sup a }

/-- The branches of `pass_up_or_die`. -/
inductive PassUp (hw : Hw) (k : Kernel) (type : Fin 2) : Result (SchedulerControl × Kernel) → Prop
  | idle (hp : k.activeProcess = none) : PassUp hw k type (.ok (CONTROL_BLOCK, k))
  | up {p : PcbId} {s : Word} (hp : k.activeProcess = some p)
      (hs : (k.pcb p).pSupport = some s) :
      PassUp hw k type (.error (.loadContext (passedUp hw k s type)
        ((k.sup s).supExceptContext type)))
  | die {p : PcbId} {ks : List PcbId} {s : Queues SemdList SemdId} (hp : k.activeProcess = some p)
      (hs : (k.pcb p).pSupport = none) (hk : Killed k p ks s) :
      PassUp hw k type (.ok (CONTROL_BLOCK, k.killed ks s))

theorem passUpOrDie_spec {hw : Hw} {k : Kernel} (hwf : Wf k)
    (hact : ∀ p, k.activeProcess = some p → p ∉ k.procq .pcbFree) (type : Fin 2) :
    PassUp hw k type (passUpOrDie hw k type) := by
  unfold passUpOrDie
  cases hp : k.activeProcess with
  | none => exact PassUp.idle hp
  | some p =>
      cases hs : (k.pcb p).pSupport with
      | some s =>
          simp only [hs]
          rw [← hp]
          exact PassUp.up hp hs
      | none =>
          rcases killProgeny_killed hwf (hact p hp) with ⟨ks, s, heq, hk⟩
          simp only [hs, heq]
          exact PassUp.die hp hs hk

/-! ## The calls -/

/-- The caller used a system call that is reserved to kernel mode. -/
def reserved (k : Kernel) (p : PcbId) : Kernel :=
  k.modPcb p (fun t => { t with
    pS := { t.pS with cause := causeReservedInstruction (causeClean t.pS.cause) } })

/-- The state after `DOIO` blocked its caller, before the command is written. -/
def ioBlocked (k : Kernel) (p : PcbId) (line : Int) : Kernel :=
  k.modPcb p (fun t =>
    { t with pS := { t.pS with status := ioStatus t.pPrio t.pS.status line } })

/-- The state after `DOIO`. -/
def ioStarted (k : Kernel) (p : PcbId) (line : Int) (cmdAddr cmdValue : Word) : Kernel :=
  { ioBlocked k p line with bus := (cmdAddr, cmdValue) :: k.bus }

/-- The record of a new process after `CREATEPROCESS` filled it in. -/
def filled (k : Kernel) (c : PcbId) (support : Option Word) (state : State) : Kernel :=
  k.modPcb c (fun t => { t with pSupport := support, pS := state })

theorem same_filled (k : Kernel) (c : PcbId) (support : Option Word) (state : State) :
    Same k (filled k c support state) :=
  same_modPcb k c (fun t => { t with pSupport := support, pS := state })
    (fun _ => ⟨rfl, rfl, rfl, rfl⟩)

/-- The number of the call the active process makes. -/
def callId (k : Kernel) (p : PcbId) : Int := ((k.pcb p).pS.gpr .a0).toInt

/-- The semaphore operation a system call asks for. A call in user mode, and
    one on the null pointer, asks for none. -/
def semRequest (L : Layout) (s : State) : Option (SemOp × Word) :=
  if isUserMode s then none
  else if (s.gpr .a0).toInt = PASSEREN then (L.ptr (s.gpr .a1)).map (fun a => (.P, a))
  else if (s.gpr .a0).toInt = VERHOGEN then (L.ptr (s.gpr .a1)).map (fun a => (.V, a))
  else if (s.gpr .a0).toInt = CLOCKWAIT then some (.P, getTimerSemaphore L)
  else none

theorem semRequest_user {L : Layout} {s : State} (h : isUserMode s = true) :
    semRequest L s = none := by
  rw [semRequest, if_pos h]

/-- A call with another number asks for no operation. -/
theorem semRequest_other {L : Layout} {s : State} {id : Int} (h : (s.gpr .a0).toInt = id)
    (hne : id ≠ PASSEREN ∧ id ≠ VERHOGEN ∧ id ≠ CLOCKWAIT) : semRequest L s = none := by
  unfold semRequest
  rw [h, if_neg hne.1, if_neg hne.2.1, if_neg hne.2.2, ite_self]

theorem semRequest_null {L : Layout} {s : State}
    (h : (s.gpr .a0).toInt = PASSEREN ∨ (s.gpr .a0).toInt = VERHOGEN)
    (hn : s.gpr .a1 = L.null) : semRequest L s = none := by
  unfold semRequest
  rw [Layout.ptr, if_pos hn]
  rcases h with h | h
  · rw [if_pos h, Option.map_none, ite_self]
  · have hne : ¬ VERHOGEN = PASSEREN := by decide
    rw [h, if_neg hne, if_pos rfl, Option.map_none, ite_self]

theorem semRequest_passeren {L : Layout} {s : State} (hu : isUserMode s = false)
    (h : (s.gpr .a0).toInt = PASSEREN) (hn : s.gpr .a1 ≠ L.null) :
    semRequest L s = some (.P, s.gpr .a1) := by
  rw [semRequest, hu, if_neg Bool.false_ne_true, if_pos h, Layout.ptr, if_neg hn, Option.map_some]

theorem semRequest_verhogen {L : Layout} {s : State} (hu : isUserMode s = false)
    (h : (s.gpr .a0).toInt = VERHOGEN) (hn : s.gpr .a1 ≠ L.null) :
    semRequest L s = some (.V, s.gpr .a1) := by
  have hne : ¬ VERHOGEN = PASSEREN := by decide
  rw [semRequest, hu, if_neg Bool.false_ne_true, h, if_neg hne, if_pos rfl, Layout.ptr, if_neg hn,
    Option.map_some]

theorem semRequest_clock {L : Layout} {s : State} (hu : isUserMode s = false)
    (h : (s.gpr .a0).toInt = CLOCKWAIT) :
    semRequest L s = some (.P, getTimerSemaphore L) := by
  have hp : ¬ CLOCKWAIT = PASSEREN := by decide
  have hv : ¬ CLOCKWAIT = VERHOGEN := by decide
  rw [semRequest, hu, if_neg Bool.false_ne_true, h, if_neg hp, if_neg hv, if_pos rfl]

/-- The branches of `syscall_handler`, for the active process. -/
inductive Served (L : Layout) (hw : Hw) (k : Kernel) (p : PcbId) :
    Result (SchedulerControl × Kernel) → Prop
  | reserved {r : Result (SchedulerControl × Kernel)} (hu : isUserMode (k.pcb p).pS = true)
      (h : PassUp hw (reserved k p) GENERALEXCEPT r) : Served L hw k p r
  | pass {r : Result (SchedulerControl × Kernel)} (hr : semRequest L (k.pcb p).pS = none)
      (h : PassUp hw k GENERALEXCEPT r) : Served L hw k p r
  | full (hid : callId k p = CREATEPROCESS) (hf : k.procq .pcbFree = []) :
      Served L hw k p (.ok (CONTROL_PRESERVE k.activeProcess, setResult k p NULL_PID))
  | create {c : PcbId} {k₁ : Kernel} {prio : Word} {support : Option Word} {state : State}
      (hid : callId k p = CREATEPROCESS) (hs : Spawned k prio c k₁)
      (hcp : p ≠ c) (hat : At k₁ k.activeProcess.toFinset) :
      Served L hw k p (.ok (CONTROL_PRESERVE k.activeProcess,
        setResult (adopted (filled k₁ c support state) p c) p
          (makePid (BitVec.ofNat 32 c.val) k.recycleCount)))
  | terminate {t : PcbId} {ks : List PcbId} {s : Queues SemdList SemdId}
      (hid : callId k p = TERMPROCESS)
      (ht : (k.pcb p).pS.gpr .a1 = 0 ∧ t = p ∨
        (k.pcb p).pS.gpr .a1 ≠ 0 ∧ findProcess k ((k.pcb p).pS.gpr .a1) = some t)
      (hk : Killed k t ks s) :
      Served L hw k p (.ok (if (k.pcb p).pS.gpr .a1 = 0 ∨ ((k.killed ks s).pcb p).pPid = NULL_PID
        then CONTROL_BLOCK else CONTROL_RESCHEDULE k, k.killed ks s))
  | passeren {a : Word} {ctrl : SchedulerControl} {k' : Kernel} (hid : callId k p = PASSEREN)
      (hu : isUserMode (k.pcb p).pS = false) (ha : (k.pcb p).pS.gpr .a1 = a) (hn : a ≠ L.null)
      (h : PStep k a p ctrl k') : Served L hw k p (.ok (ctrl, k'))
  | verhogen {a : Word} {r : Option PcbId} {k' : Kernel} (hid : callId k p = VERHOGEN)
      (hu : isUserMode (k.pcb p).pS = false) (ha : (k.pcb p).pS.gpr .a1 = a) (hn : a ≠ L.null)
      (h : VStep k a r k') :
      Served L hw k p (.ok (if r = none then CONTROL_BLOCK else CONTROL_RESCHEDULE k, k'))
  | doIo {u : DevUnit} {line : Int} {k' : Kernel} (hid : callId k p = DOIO)
      (hdev : getIodev L ((k.pcb p).pS.gpr .a1)
        = .ok { semaphore := L.semAddr u, interruptLine := line })
      (hn : waiters k (L.semAddr u) = []) (hv : k.mem (L.semAddr u) = 0)
      (hb : Blocked k (L.semAddr u) p k') :
      Served L hw k p (.ok (CONTROL_BLOCK,
        ioStarted k' p line ((k.pcb p).pS.gpr .a1) ((k.pcb p).pS.gpr .a2)))
  | waitClock {ctrl : SchedulerControl} {k' : Kernel} (hid : callId k p = CLOCKWAIT)
      (hu : isUserMode (k.pcb p).pS = false) (h : PStep k (getTimerSemaphore L) p ctrl k') :
      Served L hw k p (.ok (ctrl, k'))
  | get (v : Word) (hid : callId k p = GETTIME ∧ v = BitVec.ofInt 32 (k.pcb p).pTime ∨
        callId k p = GETSUPPORTPTR ∨ callId k p = GETPROCESSID) :
      Served L hw k p (.ok (CONTROL_RESCHEDULE k, setResult k p v))
  | yield (hid : callId k p = YIELD) :
      Served L hw k p (.ok (CONTROL_BLOCK, { k with yieldProcess := k.activeProcess }))
  | panic {msg : String} (hr : semRequest L (k.pcb p).pS = none) :
      Served L hw k p (.error (.panic msg))

/-- The search for a process finds live ones only. -/
theorem findProcess_live {k : Kernel} (hw : PcbWf k) {pid : Word} {t : PcbId} (hp : pid ≠ 0)
    (h : findProcess k pid = some t) : t ∉ k.procq .pcbFree := by
  unfold findProcess at h
  split at h
  · split at h
    · exact absurd h (by simp only [reduceCtorEq, not_false_eq_true])
    · rename_i hpid
      rw [Option.some.injEq] at h
      rw [hw.free_iff, ← h, not_not.mp hpid]
      exact hp
  · exact absurd h (by simp only [reduceCtorEq, not_false_eq_true])

theorem getSemaphore_unit {L : Layout} {intL : Int} {devN : Nat} {isW : Bool} {a : Word}
    (hd : devN < 8) (h : getSemaphore L intL devN isW = .ok a) :
    ∃ u : DevUnit, a = L.semAddr u := by
  unfold getSemaphore at h
  by_cases hrange : intL > (IL_TERMINAL : Int) ∨ intL < (IL_DISK : Int)
  · rw [if_pos hrange] at h
    exact absurd h (by simp only [reduceCtorEq, not_false_eq_true])
  · rw [if_neg hrange] at h
    simp only [IL_TERMINAL, IL_DISK] at hrange
    by_cases hterm : intL = (IL_TERMINAL : Int)
    · have hlt : (intL - (IL_DISK : Int)).toNat * DEVPERINT + (2 * devN + if isW then 1 else 0)
          < 48 := by
        simp only [IL_TERMINAL] at hterm
        simp only [IL_DISK, DEVPERINT]
        split <;> omega
      simp only [if_pos hterm] at h
      exact ⟨⟨_, hlt⟩, (Except.ok.inj h).symm⟩
    · have hlt : (intL - (IL_DISK : Int)).toNat * DEVPERINT + devN < 48 := by
        simp only [IL_TERMINAL] at hterm
        simp only [IL_DISK, DEVPERINT]
        omega
      simp only [if_neg hterm] at h
      exact ⟨⟨_, hlt⟩, (Except.ok.inj h).symm⟩

/-- Whatever address a command is written to, `DOIO` waits on the semaphore of
    some sub-unit. -/
theorem getIodev_unit {L : Layout} {a : Word} {dev : Iodev} (h : getIodev L a = .ok dev) :
    ∃ u : DevUnit, dev.semaphore = L.semAddr u := by
  unfold getIodev at h
  simp only [] at h
  split at h
  · exact absurd h (by simp only [reduceCtorEq, not_false_eq_true])
  · rename_i sem hsem
    rcases getSemaphore_unit (Nat.mod_lt _ (by decide)) hsem with ⟨u, hu⟩
    refine ⟨u, ?_⟩
    rw [← Except.ok.inj h]
    exact hu

theorem getSemaphore_error {L : Layout} {intL : Int} {devN : Nat} {isW : Bool} {e : Exit}
    (h : getSemaphore L intL devN isW = .error e) : ∃ msg, e = .panic msg := by
  unfold getSemaphore at h
  by_cases hrange : intL > (IL_TERMINAL : Int) ∨ intL < (IL_DISK : Int)
  · rw [if_pos hrange] at h
    exact ⟨_, (Except.error.inj h).symm⟩
  · rw [if_neg hrange] at h
    by_cases hterm : intL = (IL_TERMINAL : Int)
    · simp only [if_pos hterm, reduceCtorEq] at h
    · simp only [if_neg hterm, reduceCtorEq] at h

theorem getIodev_error {L : Layout} {a : Word} {e : Exit} (h : getIodev L a = .error e) :
    ∃ msg, e = .panic msg := by
  unfold getIodev at h
  simp only [] at h
  split at h
  · rename_i e' he
    rw [← Except.error.inj h]
    exact getSemaphore_error he
  · exact absurd h (by simp only [reduceCtorEq, not_false_eq_true])

section Calls

variable {L : Layout} {hw : Hw} {k : Kernel} {p : PcbId}

/-- What a call relies on: its caller is the active process and stands in no
    queue. -/
structure Calling (k : Kernel) (p : PcbId) : Prop where
  at_ : At k {p}
  active : k.activeProcess = some p

/-- The addresses of the words a call in kernel mode reads or writes are
    aligned. -/
structure Addressed (L : Layout) (k : Kernel) (p : PcbId) : Prop where
  sem : isUserMode (k.pcb p).pS = false → callId k p = PASSEREN ∨ callId k p = VERHOGEN →
    (k.pcb p).pS.gpr .a1 ≠ L.null → Aligned ((k.pcb p).pS.gpr .a1)
  command : isUserMode (k.pcb p).pS = false → callId k p = DOIO → (k.pcb p).pS.gpr .a1 ≠ L.null →
    ((k.pcb p).pS.gpr .a1 - DEV_REG_START).toNat < 96 * 16 → Aligned ((k.pcb p).pS.gpr .a1)

theorem Calling.passUp (h : Calling k p) (type : Fin 2) :
    PassUp hw k type (passUpOrDie hw k type) := by
  refine passUpOrDie_spec h.at_.wf (fun q hq => ?_) type
  rw [h.active, Option.some.injEq] at hq
  exact hq ▸ h.at_.not_free (Finset.mem_singleton_self p)

/-- The new process is attached to its parent and told apart by its
    identifier. -/
theorem create_served {c : PcbId} {k₁ : Kernel} {prio : Word} (h : Calling k p)
    (hid : callId k p = CREATEPROCESS) (hs : Spawned k prio c k₁) (hat : At k₁ {p}) (hcp : p ≠ c)
    (support : Option Word) (state : State) :
    Served L hw k p
      (.ok (CONTROL_PRESERVE (insertChild (filled k₁ c support state) p c).activeProcess,
      setResult (insertChild (filled k₁ c support state) p c) p
        ((insertChild (filled k₁ c support state) p c).pcb c).pPid)) := by
  have hrec : (filled k₁ c support state).pcb c = { k₁.pcb c with
      pSupport := support, pS := state } := by
    simp only [filled, Kernel.modPcb, if_true]
  have hpar : parentOf (filled k₁ c support state) c = none := by
    rw [parentOf, hrec, hs.self]
    rfl
  have hins := insertChild_eq (p := p) ((same_filled k₁ c support state).treeWf hat.wf.tree) hpar
  have hpid : ((adopted (filled k₁ c support state) p c).pcb c).pPid
      = makePid (BitVec.ofNat 32 c.val) k.recycleCount := by
    rw [(adopted_fields _ p c c).2.1, hrec, hs.self]
  have hact : (adopted (filled k₁ c support state) p c).activeProcess = k.activeProcess := hs.active
  rw [hins, hpid, hact]
  refine Served.create hid hs hcp ?_
  rw [h.active]
  exact hat

theorem createProcess_spec (h : Calling k p) (hid : callId k p = CREATEPROCESS) :
    Served L hw k p (syscallCreateProcess L hw k p) := by
  unfold syscallCreateProcess
  simp only []
  split
  · exact Served.pass (semRequest_other hid (by decide)) (h.passUp _)
  · rename_i hok
    have hprio : (k.pcb p).pS.gpr .a2 = PROCESS_PRIO_LOW ∨ (k.pcb p).pS.gpr .a2
        = PROCESS_PRIO_HIGH := by
      by_contra hc
      exact hok (Or.inl (not_or.mp hc))
    cases hf : k.procq .pcbFree with
    | nil =>
        rw [spawnProcess_none hprio hf]
        exact Served.full hid hf
    | cons c cs =>
        rcases spawnProcess_some h.at_ hprio hf with ⟨k₁, heq, hs, hat⟩
        have hcp : p ≠ c := by
          rintro rfl
          exact h.at_.not_free (Finset.mem_singleton_self p) (hf ▸ List.mem_cons_self)
        rw [heq]
        exact create_served h hid hs hat hcp _ _

/-- `TERMPROCESS` kills a live process with its progeny; the caller goes on if
    it is not among them. -/
theorem terminateProcess_spec (h : Calling k p) (hid : callId k p = TERMPROCESS) :
    Served L hw k p (syscallTerminateProcess L hw k p) := by
  unfold syscallTerminateProcess
  by_cases hnull : (k.pcb p).pS.gpr .a1 = L.null
  · simp only [if_pos hnull]
    exact Served.pass (semRequest_other hid (by decide)) (h.passUp _)
  simp only [if_neg hnull]
  by_cases hz : (k.pcb p).pS.gpr .a1 = 0
  · have hp := h.at_.not_free (Finset.mem_singleton_self p)
    rcases killProgeny_killed h.at_.wf hp with ⟨ks, s, heq, hk⟩
    have hserved : Served L hw k p _ := Served.terminate hid (Or.inl ⟨hz, rfl⟩) hk
    rw [if_pos (Or.inl hz)] at hserved
    simp only [heq, hz, true_or, if_true]
    exact hserved
  · simp only [if_neg hz]
    cases hf : findProcess k ((k.pcb p).pS.gpr .a1) with
    | none => exact Served.pass (semRequest_other hid (by decide)) (h.passUp _)
    | some t =>
        rcases killProgeny_killed h.at_.wf (findProcess_live h.at_.wf.pcb hz hf) with
          ⟨ks, s, heq, hk⟩
        have hserved : Served L hw k p _ := Served.terminate hid (Or.inr ⟨hz, hf⟩) hk
        simp only [heq, hz, false_or]
        simp only [hz, false_or] at hserved
        exact hserved

theorem passeren_spec (h : Calling k p) (hid : callId k p = PASSEREN)
    (hu : isUserMode (k.pcb p).pS = false)
    (hal : (k.pcb p).pS.gpr .a1 ≠ L.null → Aligned ((k.pcb p).pS.gpr .a1)) :
    Served L hw k p (syscallPasseren L hw k p) := by
  unfold syscallPasseren
  by_cases hnull : (k.pcb p).pS.gpr .a1 = L.null
  · simp only [Layout.ptr, if_pos hnull]
    exact Served.pass (semRequest_null (Or.inl hid) hnull) (h.passUp _)
  · simp only [Layout.ptr, if_neg hnull]
    rcases P_spec h.at_.wf.asl (hal hnull) (h.at_.null (Finset.mem_singleton_self p)) with
      ⟨ctrl, k', heq, hstep⟩
    rw [heq]
    exact Served.passeren hid hu rfl hnull hstep

theorem Calling.null (h : Calling k p) : ∀ q, k.activeProcess = some q → k.procq.Null q := by
  intro q hq
  rw [h.active, Option.some.injEq] at hq
  exact hq ▸ h.at_.null (Finset.mem_singleton_self p)

theorem verhogen_spec (h : Calling k p) (hid : callId k p = VERHOGEN)
    (hu : isUserMode (k.pcb p).pS = false)
    (hal : (k.pcb p).pS.gpr .a1 ≠ L.null → Aligned ((k.pcb p).pS.gpr .a1)) :
    Served L hw k p (syscallVerhogen L hw k p) := by
  unfold syscallVerhogen
  by_cases hnull : (k.pcb p).pS.gpr .a1 = L.null
  · simp only [Layout.ptr, if_pos hnull]
    exact Served.pass (semRequest_null (Or.inr hid) hnull) (h.passUp _)
  · simp only [Layout.ptr, if_neg hnull]
    rcases V_spec h.at_.wf.asl (hal hnull) h.null with ⟨r, k', heq, hstep⟩
    have hactive := (hstep.frame h.at_.wf.asl).activeProcess
    have hserved : Served L hw k p _ := Served.verhogen hid hu rfl hnull hstep
    rw [heq]
    cases r with
    | none => exact hserved
    | some q =>
        simp only [CONTROL_RESCHEDULE, hactive]
        exact hserved

/-- The branches of `DOIO`: it refuses the null pointer and a device somebody
    waits for, panics at an address without a device and at a raised semaphore,
    and blocks its caller otherwise. Then it stores the command, unless the
    address is not aligned. -/
inductive IoServed (L : Layout) (hw : Hw) (k : Kernel) (p : PcbId) :
    Result (SchedulerControl × Kernel) → Prop
  | null (ha : (k.pcb p).pS.gpr .a1 = L.null) :
      IoServed L hw k p (passUpOrDie hw k GENERALEXCEPT)
  | nowhere (ha : (k.pcb p).pS.gpr .a1 ≠ L.null)
      (hout : 96 * 16 ≤ ((k.pcb p).pS.gpr .a1 - DEV_REG_START).toNat) :
      IoServed L hw k p (.error (.panic "Semaphore not found\n"))
  | taken {dev : Iodev} (hd : getIodev L ((k.pcb p).pS.gpr .a1) = .ok dev)
      (hn : waiters k dev.semaphore ≠ []) : IoServed L hw k p (passUpOrDie hw k GENERALEXCEPT)
  | raised {dev : Iodev} (ha : (k.pcb p).pS.gpr .a1 ≠ L.null)
      (hd : getIodev L ((k.pcb p).pS.gpr .a1) = .ok dev) (hn : waiters k dev.semaphore = [])
      (hv : k.mem dev.semaphore = 1) :
      IoServed L hw k p (.error (.panic "A device syncronization semaphore has a value > 0"))
  | start {u : DevUnit} {line : Int} {k' : Kernel} (ha : (k.pcb p).pS.gpr .a1 ≠ L.null)
      (hd : getIodev L ((k.pcb p).pS.gpr .a1)
        = .ok { semaphore := L.semAddr u, interruptLine := line })
      (hn : waiters k (L.semAddr u) = []) (hv : k.mem (L.semAddr u) = 0)
      (hb : Blocked k (L.semAddr u) p k') (hal : Aligned ((k.pcb p).pS.gpr .a1)) :
      IoServed L hw k p (.ok (CONTROL_BLOCK,
        ioStarted k' p line ((k.pcb p).pS.gpr .a1) ((k.pcb p).pS.gpr .a2)))
  | trap {u : DevUnit} {line : Int} {k' : Kernel} (ha : (k.pcb p).pS.gpr .a1 ≠ L.null)
      (hd : getIodev L ((k.pcb p).pS.gpr .a1)
        = .ok { semaphore := L.semAddr u, interruptLine := line })
      (hn : waiters k (L.semAddr u) = []) (hv : k.mem (L.semAddr u) = 0)
      (hP : P k (some (L.semAddr u)) (some p) = .ok (CONTROL_BLOCK, k'))
      (hb : Blocked k (L.semAddr u) p k') (hal : ¬ Aligned ((k.pcb p).pS.gpr .a1)) :
      IoServed L hw k p (.error (.trap (ioBlocked k' p line)))

theorem syscallDoIo_spec (h : Calling k p)
    (hdev : ∀ u : DevUnit, k.mem (L.semAddr u) = 0 ∨ k.mem (L.semAddr u) = 1) :
    IoServed L hw k p (syscallDoIo L hw k p) := by
  unfold syscallDoIo
  simp only []
  by_cases hnull : (k.pcb p).pS.gpr .a1 = L.null
  · simp only [Layout.ptr, if_pos hnull]
    exact IoServed.null hnull
  simp only [Layout.ptr, if_neg hnull]
  cases hd : getIodev L ((k.pcb p).pS.gpr .a1) with
  | error e =>
      have hout : 96 * 16 ≤ ((k.pcb p).pS.gpr .a1 - DEV_REG_START).toNat := by
        by_contra hc
        rcases getIodev_block L (Nat.lt_of_not_le hc) with ⟨line, hline⟩
        rw [hd] at hline
        cases hline
      rw [getIodev_outside L hout, Except.error.injEq] at hd
      rw [← hd]
      exact IoServed.nowhere hnull hout
  | ok dev =>
      rcases getIodev_unit hd with ⟨u, hu⟩
      have hal : Aligned (L.semAddr u) := semAddr_aligned L (unit_lt u)
      have hptr : ¬ L.semAddr u = L.null := L.not_null u (unit_lt u)
      simp only [hu, if_neg hptr, reduceCtorEq, false_or, headBlocked_eq h.at_.wf.asl hal]
      by_cases hn : waiters k (L.semAddr u) = []
      · simp only [hn, List.head?_nil, ne_eq, not_true_eq_false, if_false]
        rcases hdev u with hv | hv
        · have hpos : ¬ (k.mem (L.semAddr u)).toInt > 0 := by
            rw [hv]
            decide
          rw [if_neg hpos]
          rcases P_spec h.at_.wf.asl hal (h.at_.null (Finset.mem_singleton_self p)) with
            ⟨ctrl, k', heq, hstep⟩
          rw [heq]
          cases hstep with
          | block _ hb =>
              rw [← hu] at hn hv hb
              by_cases hal : Aligned ((k.pcb p).pS.gpr .a1)
              · simp only [if_pos hal]
                rw [hu] at hn hv hb
                refine IoServed.start hnull ?_ hn hv hb hal
                rw [hd, ← hu]
              · simp only [if_neg hal]
                rw [hu] at hn hv hb
                refine IoServed.trap hnull ?_ hn hv heq hb hal
                rw [hd, ← hu]
          | wake hv' => exact absurd hv hv'
          | lower hv' => exact absurd hv hv'
        · have hpos : (k.mem (L.semAddr u)).toInt > 0 := by
            rw [hv]
            decide
          rw [if_pos hpos]
          exact IoServed.raised hnull hd (hu ▸ hn) (hu ▸ hv)
      · have hhead : (waiters k (L.semAddr u)).head? ≠ none := by
          rw [ne_eq, List.head?_eq_none_iff]
          exact hn
        rw [if_pos hhead]
        exact IoServed.taken hd (hu ▸ hn)

theorem doIo_spec (h : Calling k p) (hid : callId k p = DOIO)
    (hal : (k.pcb p).pS.gpr .a1 ≠ L.null →
      ((k.pcb p).pS.gpr .a1 - DEV_REG_START).toNat < 96 * 16 → Aligned ((k.pcb p).pS.gpr .a1))
    (hdev : ∀ u : DevUnit, k.mem (L.semAddr u) = 0 ∨ k.mem (L.semAddr u) = 1) :
    Served L hw k p (syscallDoIo L hw k p) := by
  have hreq : semRequest L (k.pcb p).pS = none := semRequest_other hid (by decide)
  have hio : IoServed L hw k p _ := syscallDoIo_spec h hdev
  generalize syscallDoIo L hw k p = r at hio
  cases hio with
  | null => exact Served.pass hreq (h.passUp _)
  | taken => exact Served.pass hreq (h.passUp _)
  | nowhere => exact Served.panic hreq
  | raised => exact Served.panic hreq
  | start _ hd hn hv hb => exact Served.doIo hid hd hn hv hb
  | trap ha hd _ _ _ _ hno => exact absurd (hal ha ((getIodev_ok_iff L _).mp ⟨_, hd⟩)) hno

theorem waitForClock_spec (h : Calling k p) (hid : callId k p = CLOCKWAIT)
    (hu : isUserMode (k.pcb p).pS = false) : Served L hw k p (syscallWaitForClock L k p) := by
  have hal : Aligned (getTimerSemaphore L) := semAddr_aligned L (Nat.lt_succ_self 48)
  rcases P_spec h.at_.wf.asl hal (h.at_.null (Finset.mem_singleton_self p)) with
    ⟨ctrl, k', heq, hstep⟩
  rw [syscallWaitForClock, heq]
  exact Served.waitClock hid hu hstep

theorem getProcessId_spec (h : Calling k p) (hid : callId k p = GETPROCESSID) :
    Served L hw k p (syscallGetProcessId hw k p) := by
  unfold syscallGetProcessId
  simp only []
  split
  · exact Served.pass (semRequest_other hid (by decide)) (h.passUp _)
  · exact Served.get _ (Or.inr (Or.inr hid))

/-- A system call takes one of the branches of its handler. -/
theorem syscallHandler_spec (h : Calling k p)
    (hal : Addressed L k p)
    (hdev : ∀ u : DevUnit, k.mem (L.semAddr u) = 0 ∨ k.mem (L.semAddr u) = 1) :
    Served L hw k p (syscallHandler L hw k p) := by
  have hmode : ∀ id : Int, callId k p = id → id ≤ 0 →
      ¬ (callId k p ≤ 0 ∧ isUserMode (k.pcb p).pS = true) → isUserMode (k.pcb p).pS = false := by
    rintro id rfl hle hn
    exact Bool.eq_false_iff.mpr (fun hu => hn ⟨hle, hu⟩)
  unfold syscallHandler
  have hcall : ((k.pcb p).pS.gpr .a0).toInt = callId k p := rfl
  simp only [hcall]
  by_cases hu : callId k p ≤ 0 ∧ isUserMode (k.pcb p).pS = true
  · rw [if_pos hu]
    refine Served.reserved hu.2 ?_
    have hat : Calling (reserved k p) p :=
      ⟨h.at_.of_same (same_modPcb k p (fun t => { t with
        pS := { t.pS with cause := causeReservedInstruction (causeClean t.pS.cause) } })
        (fun _ => ⟨rfl, rfl, rfl, rfl⟩)), h.active⟩
    exact hat.passUp _
  rw [if_neg hu]
  -- The cases stand in the order of the switch of `syscall_handler`.
  by_cases h1 : callId k p = CREATEPROCESS
  · rw [if_pos h1]
    exact createProcess_spec h h1
  rw [if_neg h1]
  by_cases h2 : callId k p = TERMPROCESS
  · rw [if_pos h2]
    exact terminateProcess_spec h h2
  rw [if_neg h2]
  by_cases h3 : callId k p = PASSEREN
  · have hk := hmode _ h3 (by decide) hu
    rw [if_pos h3]
    exact passeren_spec h h3 hk (hal.sem hk (Or.inl h3))
  rw [if_neg h3]
  by_cases h4 : callId k p = VERHOGEN
  · have hk := hmode _ h4 (by decide) hu
    rw [if_pos h4]
    exact verhogen_spec h h4 hk (hal.sem hk (Or.inr h4))
  rw [if_neg h4]
  by_cases h5 : callId k p = DOIO
  · rw [if_pos h5]
    exact doIo_spec h h5 (hal.command (hmode _ h5 (by decide) hu) h5) hdev
  rw [if_neg h5]
  by_cases h6 : callId k p = GETTIME
  · rw [if_pos h6]
    exact Served.get _ (Or.inl ⟨h6, rfl⟩)
  rw [if_neg h6]
  by_cases h7 : callId k p = CLOCKWAIT
  · rw [if_pos h7]
    exact waitForClock_spec h h7 (hmode _ h7 (by decide) hu)
  rw [if_neg h7]
  by_cases h8 : callId k p = GETSUPPORTPTR
  · rw [if_pos h8]
    exact Served.get _ (Or.inr (Or.inl h8))
  rw [if_neg h8]
  by_cases h9 : callId k p = GETPROCESSID
  · rw [if_pos h9]
    exact getProcessId_spec h h9
  rw [if_neg h9]
  by_cases h10 : callId k p = YIELD
  · rw [if_pos h10]
    exact Served.yield h10
  rw [if_neg h10]
  exact Served.pass (semRequest_other rfl ⟨h3, h4, h7⟩) (h.passUp _)

end Calls

end Pandos
