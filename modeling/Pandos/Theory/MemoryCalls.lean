import Pandos.Memory
import Pandos.Theory.SchedulerHeap
import Pandos.Theory.Syscalls

/-!
# System Calls in Memory

A handler in memory follows the handler on queues: from a memory that stands for
a state of the nucleus, both return the same and go on from a memory and a state
that belong together, or both leave in the same way. It never gets stuck.

## Main definitions

* `StandsFor`: The memory and the state of the nucleus belong together.
* `Corresponds`: The two ways a handler can end.

## Theorems

* `Corresponds.ite`: A branch that both sides take.
* `P_follows`, `V_follows`: The operations on semaphores.
* `passUpOrDie_follows`: Exceptions that are passed up.
* `syscallHandler_follows`: System calls.
-/

namespace Pandos

/-! ## The relation -/

/-- The memory stands for the state of the nucleus. -/
structure StandsFor (m : Memory) (k : Kernel) : Prop where
  lists : Keeps m.toNucleusHeap k
  startTod : m.startTod = k.startTod
  sup : m.sup = k.sup
  bus : m.bus = k.bus

/-- A handler in memory and one on queues end in the same way. -/
inductive Corresponds {β : Type} (r : MemoryResult (β × Memory)) (r' : Result (β × Kernel)) : Prop
  | returns (b : β) (m : Memory) (k : Kernel) (hm : r = .ok (b, m)) (hk : r' = .ok (b, k))
      (h : StandsFor m k)
  | panics (msg : String) (hm : r = .error (.panic msg)) (hk : r' = .error (.panic msg))
  | loads (m : Memory) (k : Kernel) (ctx : Context) (hm : r = .error (.loadContext m ctx))
      (hk : r' = .error (.loadContext k ctx)) (h : StandsFor m k)

variable {L : Layout} {hw : Hw} {m : Memory} {k k' : Kernel} {p : PcbId} {a : Word}

theorem Corresponds.ite {β : Type} {c : Prop} [Decidable c] {r s : MemoryResult (β × Memory)}
    {r' s' : Result (β × Kernel)} (hpos : c → Corresponds r r') (hneg : ¬ c → Corresponds s s') :
    Corresponds (if c then r else s) (if c then r' else s') := by
  by_cases hc : c
  · rw [if_pos hc, if_pos hc]
    exact hpos hc
  · rw [if_neg hc, if_neg hc]
    exact hneg hc

namespace StandsFor

theorem active (h : StandsFor m k) : m.activeProcess = k.activeProcess := h.lists.activeProcess

theorem mem (h : StandsFor m k) : m.mem = k.mem := h.lists.mem

theorem reschedule (h : StandsFor m k) : m.controlReschedule = CONTROL_RESCHEDULE k := by
  rw [Memory.controlReschedule, CONTROL_RESCHEDULE, h.active]

/-- The blocks have the same fields. -/
theorem fields (h : StandsFor m k) (q : PcbId) : m.pcbs.pcb q = fieldsOf (k.pcb q) := by
  rcases h.lists with ⟨_, _, h⟩
  exact h.agrees.fields q

theorem state (h : StandsFor m k) (q : PcbId) : (m.pcbs.pcb q).pS = (k.pcb q).pS := by
  rw [h.fields]
  rfl

theorem support (h : StandsFor m k) (q : PcbId) :
    (m.pcbs.pcb q).pSupport = (k.pcb q).pSupport := by
  rw [h.fields]
  rfl

theorem time (h : StandsFor m k) (q : PcbId) : (m.pcbs.pcb q).pTime = (k.pcb q).pTime := by
  rw [h.fields]
  rfl

theorem pid (h : StandsFor m k) (q : PcbId) : (m.pcbs.pcb q).pPid = (k.pcb q).pPid := by
  rw [h.fields]
  rfl

theorem parent (h : StandsFor m k) (q : PcbId) :
    (m.pcbs.pcb q).pParent = (k.pcb q).pParent := by
  rw [h.fields]
  rfl

/-- A function on lists leaves the other data alone. -/
theorem relist (h : StandsFor m k) {heap : NucleusHeap} (hlists : Keeps heap k')
    (hk : k'.startTod = k.startTod ∧ k'.sup = k.sup ∧ k'.bus = k.bus) :
    StandsFor { m with toNucleusHeap := heap } k' :=
  ⟨hlists, h.startTod.trans hk.1.symm, h.sup.trans hk.2.1.symm, h.bus.trans hk.2.2.symm⟩

/-- The fields of one block change on both sides. -/
theorem modPcb (h : StandsFor m k) (p : PcbId) {f : PcbFields PcbId → PcbFields PcbId}
    {g : Pcb → Pcb} (hfg : ∀ t, fieldsOf (g t) = f (fieldsOf t)) :
    StandsFor (m.modPcb p f) (k.modPcb p g) :=
  h.relist (h.lists.modPcb p hfg) ⟨rfl, rfl, rfl⟩

theorem setResult (h : StandsFor m k) (p : PcbId) (v : Word) :
    StandsFor (m.setResult p v) (setResult k p v) :=
  h.modPcb p (fun _ => rfl)

/-- A store to a device register. -/
theorem send (h : StandsFor m k) (a v : Word) :
    StandsFor (m.send a v) { k with bus := (a, v) :: k.bus } :=
  ⟨h.lists.withGlobals ⟨rfl, rfl, rfl⟩ ⟨rfl, rfl, rfl, rfl, rfl⟩ h.lists.globals, h.startTod,
    h.sup, congrArg ((a, v) :: ·) h.bus⟩

/-- `find_process` reads the same identifiers. -/
theorem findProcess (h : StandsFor m k) (pid : Word) :
    m.findProcess pid = findProcess k pid := by
  unfold Memory.findProcess Pandos.findProcess
  simp only [h.pid]

end StandsFor

/-! ## Semaphores -/

/-- `P`, for a process in no queue. -/
theorem P_follows (h : StandsFor m k) (hwf : AslWf k) (ha : Aligned a) (hp : k.procq.Null p) :
    ∃ ctrl m' k', m.operate (m.P (some a) (some p)) = .ok (ctrl, m') ∧
      P k (some a) (some p) = .ok (ctrl, k') ∧ StandsFor m' k' := by
  rcases P_spec hwf ha hp with ⟨ctrl, k', hk, hstep⟩
  have hframe := hstep.frame hwf
  rcases P_keeps h.lists hwf (some a) (some p) (fun r hr => Option.some.inj hr ▸ hp) with
    ⟨b, heap, k₁, hm, hk₁, hkeep⟩ | ⟨msg, _, hk₁⟩
  · rw [hk] at hk₁
    cases hk₁
    refine ⟨ctrl, { m with toNucleusHeap := heap }, k', ?_, hk,
      h.relist hkeep ⟨hframe.startTod, hframe.sup, hframe.bus⟩⟩
    rw [hm]
    rfl
  · rw [hk] at hk₁
    cases hk₁

/-- `V`, while the active process is in no queue. -/
theorem V_follows (h : StandsFor m k) (hwf : AslWf k) (ha : Aligned a)
    (hp : ∀ q, k.activeProcess = some q → k.procq.Null q) :
    ∃ r m' k', m.operate (m.V (some a)) = .ok (r, m') ∧ V k (some a) = .ok (r, k') ∧
      StandsFor m' k' ∧ VStep k a r k' := by
  rcases V_spec hwf ha hp with ⟨r, k', hk, hstep⟩
  have hframe := hstep.frame hwf
  rcases V_keeps h.lists hwf (some a) hp with ⟨b, heap, k₁, hm, hk₁, hkeep⟩ | ⟨msg, _, hk₁⟩
  · rw [hk] at hk₁
    cases hk₁
    refine ⟨r, { m with toNucleusHeap := heap }, k', ?_, hk,
      h.relist hkeep ⟨hframe.startTod, hframe.sup, hframe.bus⟩, hstep⟩
    rw [hm]
    rfl
  · rw [hk] at hk₁
    cases hk₁

/-! ## Processes -/

/-- `kill_progeny` on a process that exists. -/
theorem killProgeny_follows (h : StandsFor m k) (hwf : Wf k) (hp : p ∉ k.procq .pcbFree) :
    ∃ m' k', m.attempt (m.killProgeny killFuel p) = .ok (0, m') ∧
      killProgeny killFuel k p = some (0, k') ∧ StandsFor m' k' := by
  have hfuel : (attached k).card < killFuel := by
    have hle := card_le_maxProc (attached k)
    unfold killFuel
    omega
  rcases killProgeny_killed hwf hp with ⟨ks, s, hkill, _⟩
  rcases killProgeny_keeps killFuel _ k p h.lists hwf hp hfuel with ⟨r, k', heap, hk, hm, hkeep⟩
  rw [hkill] at hk
  cases hk
  refine ⟨{ m with toNucleusHeap := heap }, _, ?_, hkill, h.relist hkeep ⟨rfl, rfl, rfl⟩⟩
  rw [hm]
  rfl

/-- `pass_up_or_die`. -/
theorem passUpOrDie_follows (h : StandsFor m k) (hwf : Wf k)
    (hlive : ∀ q, k.activeProcess = some q → q ∉ k.procq .pcbFree) (type : Fin 2) :
    Corresponds (m.passUpOrDie hw type) (passUpOrDie hw k type) := by
  unfold Memory.passUpOrDie passUpOrDie
  rw [h.active]
  cases hact : k.activeProcess with
  | none => exact Corresponds.returns _ m k rfl rfl h
  | some p =>
      simp only [h.support, h.sup]
      cases hs : (k.pcb p).pSupport with
      | some s =>
          rw [← hact]
          refine Corresponds.loads _ _ _ rfl rfl ⟨?_, h.startTod, rfl, h.bus⟩
          exact h.lists.withGlobals ⟨rfl, rfl, rfl⟩ ⟨rfl, rfl, rfl, rfl, rfl⟩ h.lists.globals
      | none =>
          rcases killProgeny_follows h hwf (hlive p hact) with ⟨m', k', hm, hk, hkeep⟩
          simp only [hm, hk]
          exact Corresponds.returns _ m' k' rfl rfl hkeep

theorem Calling.follows (hc : Calling k p) (h : StandsFor m k) (type : Fin 2) :
    Corresponds (m.passUpOrDie hw type) (passUpOrDie hw k type) := by
  refine passUpOrDie_follows h hc.at_.wf (fun q hq => ?_) type
  rw [hc.active, Option.some.injEq] at hq
  exact hq ▸ hc.at_.not_free (Finset.mem_singleton_self p)

/-- A new process is attached to its parent. -/
theorem insertChild_follows {c : PcbId} (h : StandsFor m k) (hwf : TreeWf k)
    (hp : p ∉ k.procq .pcbFree) (hc : parentOf k c = none) :
    ∃ m', m.attempt ((m.pcbs.insertChild listRounds (some p) (some c)).map
        (fun pcbs => ((), { m.toNucleusHeap with pcbs := pcbs }))) = .ok ((), m') ∧
      StandsFor m' (insertChild k p c) := by
  rcases insertChild_keeps h.lists hwf hp c with ⟨pcbs, hrun, hkeep⟩
  rw [insertChild_eq hwf hc] at hkeep ⊢
  refine ⟨_, ?_, h.relist hkeep ⟨rfl, rfl, rfl⟩⟩
  rw [hrun]
  rfl

/-! ## The calls -/

section Calls

variable (h : StandsFor m k) (hc : Calling k p)

include h hc

/-- `CREATEPROCESS`. -/
theorem createProcess_follows :
    Corresponds (m.syscallCreateProcess L hw p) (syscallCreateProcess L hw k p) := by
  unfold Memory.syscallCreateProcess syscallCreateProcess
  simp only [h.state]
  refine Corresponds.ite (fun _ => hc.follows h _) (fun hok => ?_)
  have hprio : (k.pcb p).pS.gpr .a2 = PROCESS_PRIO_LOW ∨ (k.pcb p).pS.gpr .a2
      = PROCESS_PRIO_HIGH := by
    by_contra hno
    exact hok (Or.inl (not_or.mp hno))
  rcases spawnProcess_keeps h.lists hc.at_.wf ((k.pcb p).pS.gpr .a2) with ⟨heap, hrun, hkeep⟩
  cases hf : k.procq .pcbFree with
  | nil =>
      rw [spawnProcess_none hprio hf] at hrun hkeep ⊢
      have h₁ : StandsFor { m with toNucleusHeap := heap } k := h.relist hkeep ⟨rfl, rfl, rfl⟩
      have hattempt : m.attempt (m.spawnProcess ((k.pcb p).pS.gpr .a2)) =
          .ok (none, { m with toNucleusHeap := heap }) := by
        rw [hrun]
        rfl
      simp only [hattempt, bind, Except.bind, pure, Except.pure, hkeep.activeProcess]
      exact Corresponds.returns _ _ _ rfl rfl (h₁.setResult p NULL_PID)
  | cons c cs =>
      rcases spawnProcess_some hc.at_ hprio hf with ⟨k₁, heq, hs, hat⟩
      rw [heq] at hrun hkeep ⊢
      have h₁ : StandsFor { m with toNucleusHeap := heap } k₁ :=
        h.relist hkeep ⟨hs.startTod, hs.sup, hs.bus⟩
      have hattempt : m.attempt (m.spawnProcess ((k.pcb p).pS.gpr .a2)) =
          .ok (some c, { m with toNucleusHeap := heap }) := by
        rw [hrun]
        rfl
      have h₂ := h₁.modPcb c
        (f := fun t => { t with
          pSupport := L.ptr ((k.pcb p).pS.gpr .a3)
          pS := hw.readState ((k.pcb p).pS.gpr .a1) })
        (g := fun t => { t with
          pSupport := L.ptr ((k.pcb p).pS.gpr .a3)
          pS := hw.readState ((k.pcb p).pS.gpr .a1) }) (fun _ => rfl)
      have hsame := same_filled k₁ c (L.ptr ((k.pcb p).pS.gpr .a3))
        (hw.readState ((k.pcb p).pS.gpr .a1))
      have hpar : parentOf (filled k₁ c (L.ptr ((k.pcb p).pS.gpr .a3))
          (hw.readState ((k.pcb p).pS.gpr .a1))) c = none := by
        rw [parentOf, hsame.parent, hs.self]
        rfl
      rcases insertChild_follows h₂ (hsame.treeWf hat.wf.tree)
        (hat.not_free (Finset.mem_singleton_self p)) hpar with ⟨m₃, hins, h₃⟩
      simp only [hattempt, hins, bind, Except.bind, pure, Except.pure, h₃.active, h₃.pid]
      exact Corresponds.returns _ _ _ rfl rfl (h₃.setResult p _)

/-- `TERMPROCESS`. -/
theorem terminateProcess_follows :
    Corresponds (m.syscallTerminateProcess L hw p) (syscallTerminateProcess L hw k p) := by
  unfold Memory.syscallTerminateProcess syscallTerminateProcess
  simp only [h.state, h.findProcess]
  refine Corresponds.ite (fun _ => hc.follows h _) (fun _ => ?_)
  -- The target is the caller, or a process that was found.
  have htarget : ∀ t, (if (k.pcb p).pS.gpr .a1 = 0 then some p
      else findProcess k ((k.pcb p).pS.gpr .a1)) = some t → t ∉ k.procq .pcbFree := by
    intro t ht
    split at ht
    · exact Option.some.inj ht ▸ hc.at_.not_free (Finset.mem_singleton_self p)
    · rename_i hz
      exact findProcess_live hc.at_.wf.pcb hz ht
  cases ht : (if (k.pcb p).pS.gpr .a1 = 0 then some p
      else findProcess k ((k.pcb p).pS.gpr .a1)) with
  | none => exact hc.follows h _
  | some t =>
      rcases killProgeny_follows h hc.at_.wf (htarget t ht) with ⟨m', k', hm, hk, hkeep⟩
      simp only [hm, hk, bind, Except.bind, pure, Except.pure, ne_eq, not_true_eq_false, if_false,
        hkeep.pid, hkeep.reschedule]
      exact Corresponds.returns _ m' k' rfl rfl hkeep

/-- `PASSEREN`. -/
theorem passeren_follows
    (hal : (k.pcb p).pS.gpr .a1 ≠ L.null → Aligned ((k.pcb p).pS.gpr .a1)) :
    Corresponds (m.syscallPasseren L hw p) (syscallPasseren L hw k p) := by
  unfold Memory.syscallPasseren syscallPasseren
  rw [h.state]
  by_cases hnull : (k.pcb p).pS.gpr .a1 = L.null
  · simp only [Layout.ptr, if_pos hnull]
    exact hc.follows h _
  · simp only [Layout.ptr, if_neg hnull]
    rcases P_follows h hc.at_.wf.asl (hal hnull) (hc.at_.null (Finset.mem_singleton_self p)) with
      ⟨ctrl, m', k', hm, hk, hkeep⟩
    exact Corresponds.returns ctrl m' k' hm hk hkeep

/-- `VERHOGEN`. -/
theorem verhogen_follows
    (hal : (k.pcb p).pS.gpr .a1 ≠ L.null → Aligned ((k.pcb p).pS.gpr .a1)) :
    Corresponds (m.syscallVerhogen L hw p) (syscallVerhogen L hw k p) := by
  unfold Memory.syscallVerhogen syscallVerhogen
  rw [h.state]
  by_cases hnull : (k.pcb p).pS.gpr .a1 = L.null
  · simp only [Layout.ptr, if_pos hnull]
    exact hc.follows h _
  · simp only [Layout.ptr, if_neg hnull]
    rcases V_follows h hc.at_.wf.asl (hal hnull) hc.null with ⟨r, m', k', hm, hk, hkeep, _⟩
    simp only [hm, hk, bind, Except.bind, pure, Except.pure, hkeep.reschedule]
    cases r with
    | none => exact Corresponds.returns _ m' k' rfl rfl hkeep
    | some q => exact Corresponds.returns _ m' k' rfl rfl hkeep

/-- `DOIO`. -/
theorem doIo_follows (hcmd : (k.pcb p).pS.gpr .a1 ≠ L.null →
      ((k.pcb p).pS.gpr .a1 - DEV_REG_START).toNat < 96 * 16 →
      Aligned ((k.pcb p).pS.gpr .a1)) :
    Corresponds (m.syscallDoIo L hw p) (syscallDoIo L hw k p) := by
  unfold Memory.syscallDoIo syscallDoIo Memory.getIodev
  simp only [h.state]
  by_cases hnull : (k.pcb p).pS.gpr .a1 = L.null
  · simp only [Layout.ptr, if_pos hnull]
    exact hc.follows h _
  simp only [Layout.ptr, if_neg hnull]
  cases hd : getIodev L ((k.pcb p).pS.gpr .a1) with
  | error e =>
      rcases getIodev_error hd with ⟨msg, rfl⟩
      exact Corresponds.panics msg rfl rfl
  | ok dev =>
      have hword := hcmd hnull ((getIodev_ok_iff L _).mp ⟨dev, hd⟩)
      rcases getIodev_unit hd with ⟨u, hu⟩
      have hal : Aligned dev.semaphore := hu ▸ semAddr_aligned L (unit_lt u)
      have hptr : ¬ dev.semaphore = L.null := hu ▸ L.not_null u (unit_lt u)
      have hhead := headBlocked_keeps h.lists hc.at_.wf.asl (some dev.semaphore)
      simp only [bind, Except.bind, if_neg hptr, hhead, Option.map_some, Memory.attempt,
        reduceCtorEq, if_false, false_or, h.mem]
      refine Corresponds.ite (fun _ => hc.follows h _) (fun _ => ?_)
      refine Corresponds.ite (fun _ => Corresponds.panics _ rfl rfl) (fun _ => ?_)
      rcases P_follows h hc.at_.wf.asl hal (hc.at_.null (Finset.mem_singleton_self p)) with
        ⟨ctrl, m', k', hm, hk, hkeep⟩
      have h₁ := hkeep.modPcb p
        (f := fun t =>
          { t with pS := { t.pS with status := ioStatus t.pPrio t.pS.status dev.interruptLine } })
        (g := fun t =>
          { t with pS := { t.pS with status := ioStatus t.pPrio t.pS.status dev.interruptLine } })
        (fun _ => rfl)
      simp only [hm, hk, if_pos hword, pure, Except.pure]
      exact Corresponds.returns _ _ _ rfl rfl (h₁.send _ _)

/-- `GETPROCESSID`. -/
theorem getProcessId_follows :
    Corresponds (m.syscallGetProcessId hw p) (syscallGetProcessId hw k p) := by
  unfold Memory.syscallGetProcessId syscallGetProcessId
  simp only [h.state, h.pid, h.parent, h.reschedule]
  refine Corresponds.ite (fun _ => hc.follows h _) (fun _ => ?_)
  exact Corresponds.returns _ _ _ rfl rfl (h.setResult p _)

/-- A system call is handled in memory as on queues. -/
theorem syscallHandler_follows
    (hal : Addressed L k p) :
    Corresponds (m.syscallHandler L hw p) (syscallHandler L hw k p) := by
  have hmode : ∀ id : Int, callId k p = id → id ≤ 0 →
      ¬ (callId k p ≤ 0 ∧ isUserMode (k.pcb p).pS = true) → isUserMode (k.pcb p).pS = false := by
    rintro id rfl hle hn
    exact Bool.eq_false_iff.mpr (fun hu => hn ⟨hle, hu⟩)
  have hcall : ((k.pcb p).pS.gpr .a0).toInt = callId k p := rfl
  unfold Memory.syscallHandler syscallHandler
  simp only [h.state, hcall]
  refine Corresponds.ite (fun hu => ?_) (fun hu => ?_)
  · have hmod := h.modPcb p
      (f := fun t => { t with
        pS := { t.pS with cause := causeReservedInstruction (causeClean t.pS.cause) } })
      (g := fun t => { t with
        pS := { t.pS with cause := causeReservedInstruction (causeClean t.pS.cause) } })
      (fun _ => rfl)
    have hcalling : Calling (reserved k p) p :=
      ⟨hc.at_.of_same (same_modPcb k p (fun t => { t with
        pS := { t.pS with cause := causeReservedInstruction (causeClean t.pS.cause) } })
        (fun _ => ⟨rfl, rfl, rfl, rfl⟩)), hc.active⟩
    exact hcalling.follows hmod _
  -- The cases stand in the order of the switch of `syscall_handler`.
  refine Corresponds.ite (fun _ => createProcess_follows h hc) (fun _ => ?_)
  refine Corresponds.ite (fun _ => terminateProcess_follows h hc) (fun _ => ?_)
  refine Corresponds.ite (fun h3 => ?_) (fun _ => ?_)
  · have hkernel := hmode _ h3 (by decide) hu
    exact passeren_follows h hc (hal.sem hkernel (Or.inl h3))
  refine Corresponds.ite (fun h4 => ?_) (fun _ => ?_)
  · have hkernel := hmode _ h4 (by decide) hu
    exact verhogen_follows h hc (hal.sem hkernel (Or.inr h4))
  refine Corresponds.ite (fun h5 => ?_) (fun _ => ?_)
  · exact doIo_follows h hc (hal.command (hmode _ h5 (by decide) hu) h5)
  refine Corresponds.ite (fun _ => ?_) (fun _ => ?_)
  · unfold Memory.syscallGetCpuTime syscallGetCpuTime
    rw [h.reschedule, h.time]
    exact Corresponds.returns _ _ _ rfl rfl (h.setResult p _)
  refine Corresponds.ite (fun _ => ?_) (fun _ => ?_)
  · have hal : Aligned (getTimerSemaphore L) := semAddr_aligned L (Nat.lt_succ_self 48)
    rcases P_follows h hc.at_.wf.asl hal (hc.at_.null (Finset.mem_singleton_self p)) with
      ⟨ctrl, m', k', hm, hk, hkeep⟩
    exact Corresponds.returns ctrl m' k' hm hk hkeep
  refine Corresponds.ite (fun _ => ?_) (fun _ => ?_)
  · unfold Memory.syscallGetSupportData syscallGetSupportData
    rw [h.reschedule, h.support]
    exact Corresponds.returns _ _ _ rfl rfl (h.setResult p _)
  refine Corresponds.ite (fun _ => getProcessId_follows h hc) (fun _ => ?_)
  refine Corresponds.ite (fun _ => ?_) (fun _ => hc.follows h _)
  refine Corresponds.returns CONTROL_BLOCK _ _ rfl rfl
    ⟨h.lists.withGlobals ⟨rfl, rfl, rfl⟩ ⟨rfl, rfl, rfl, rfl, rfl⟩ ?_, h.startTod, h.sup, h.bus⟩
  exact congrArg (fun g : Globals => { g with yieldProcess := g.activeProcess }) h.lists.globals

end Calls

end Pandos
