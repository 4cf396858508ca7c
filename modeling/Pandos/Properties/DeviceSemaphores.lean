import Pandos.Properties.SystemCalls

/-!
# Semaphores of the Devices

The semaphores `sys3_semaphores`, `sys4_semaphores` and `sys5_semaphores` of
`support.c`, watched over a run of the support level with its system calls. The
watcher performs the operations the handlers ask for.

A handler reads the number of its device from the support structure of its
caller, so every semaphore and every device register is used on behalf of one
U-proc only. The semaphores never make anybody wait, and a semaphore is zero
exactly while the handler of its U-proc is between `PASSEREN` and `VERHOGEN`. A
U-proc that is terminated there leaves the semaphore at zero for good.

## Main definitions

* `SysSem.owner`: The U-proc a semaphore belongs to.
* `CallPc.holds`: The semaphore a handler has passed.
* `initSysSemaphores`, `operate`: The semaphores at the start, and the watcher.
* `Private`: The invariant.

## Theorems

* `callStep_holds`: What one step of a handler does to its semaphore.
* `private_run`: The invariant holds in every run.
* `devices_private`: No semaphore blocks, and no register is shared.
-/

namespace Pandos

section DeviceSemaphores

variable {n : Nat} {S : Platform n} {c c' : CallLevel n} {i : Fin n}

open SupportLevel CallLevel

/-! ## Semaphores -/

/-- The U-proc a semaphore belongs to. -/
def SysSem.owner : SysSem n → Fin n
  | .sys3 id => id
  | .sys4 id => id
  | .sys5 id => id

theorem semaphore_owner (o : Output) (id : Fin n) : (o.semaphore id).owner = id := by
  cases o <;> rfl

/-- The semaphore a handler has passed and not given back. -/
def CallPc.holds : CallPc n → Option (SysSem n)
  | .writerLoop w _ => some (w.output.semaphore w.id)
  | .writerLoad w _ => some (w.output.semaphore w.id)
  | .writerData w _ _ => some (w.output.semaphore w.id)
  | .writerIo w _ _ => some (w.output.semaphore w.id)
  | .writerV w _ => some (w.output.semaphore w.id)
  | .readerIo id _ _ => some (.sys5 id)
  | .readerStore id _ _ _ => some (.sys5 id)
  | .readerFail id _ => some (.sys5 id)
  | .readerV id _ _ => some (.sys5 id)
  | _ => none

/-- The number a handler has read from the support structure of its caller. -/
def CallPc.asid : CallPc n → Option (Fin n)
  | .writerP w => some w.id
  | .readerP id _ => some id
  | pc => pc.holds.map SysSem.owner

/-- The operation on a semaphore a handler asks for. -/
def Ask.operation : Ask n → Option (SemOp × SysSem n)
  | .passeren s => some (.P, s)
  | .verhogen s => some (.V, s)
  | _ => none

/-- The device register a handler asks for. -/
def Ask.register : Ask n → Option Word
  | .doIo cmdAddr _ => some cmdAddr
  | .store addr _ => some addr
  | _ => none

/-- `init_sys_semaphores`. -/
def initSysSemaphores : SysSem n → Sem (Fin n) := fun _ => { value := 1, queue := [] }

/-- The watcher performs the operations of the handlers. -/
def operate (_ : CallLevel n) (e : CallEvent n) (_ : CallLevel n)
    (sems : SysSem n → Sem (Fin n)) : SysSem n → Sem (Fin n) :=
  match e with
  | .call i a _ =>
    match a.operation with
    | some (o, s) => Function.update sems s ((sems s).op o i).sem
    | none => sems
  | _ => sems

/-- The runs of the support level with its system calls and with the watcher. -/
abbrev semaphoreRuns (S : Platform n) :
    System (CallLevel n × (SysSem n → Sem (Fin n))) (CallEvent n) :=
  (callLevel S).observed (fun _ => initSysSemaphores) operate

/-! ## Steps of the handlers -/

/-- What one step of a handler does to its semaphore: it passes it, it gives it
    back, or it goes on as before. -/
inductive Passes (i : Fin n) (pc : CallPc n) (pc' : CallPc n) : Prop
  | pass {s : SysSem n} (hs : s.owner = i) (hask : pc.ask.operation = some (.P, s))
      (hout : pc.holds = none) (hin : pc'.holds = some s)
  | leave {s : SysSem n} (hs : s.owner = i) (hask : pc.ask.operation = some (.V, s))
      (hin : pc.holds = some s) (hout : pc'.holds = none)
  | stay (hask : pc.ask.operation = none) (hsame : pc'.holds = pc.holds)

theorem holds_asid {pc : CallPc n} {s : SysSem n} (h : pc.holds = some s) :
    pc.asid = some s.owner := by
  cases pc with
  | writerP | readerP => cases h
  | _ =>
      simp only [CallPc.asid, h, Option.map_some]

theorem supportSyscall_asid (saved : State) :
    (supportSyscall saved : CallPc n).asid = none ∧
      (supportSyscall saved : CallPc n).holds = none := by
  unfold supportSyscall
  simp only
  split
  · exact ⟨rfl, rfl⟩
  · split
    · exact ⟨rfl, rfl⟩
    · split
      · exact ⟨rfl, rfl⟩
      · split
        · exact ⟨rfl, rfl⟩
        · exact ⟨rfl, rfl⟩

/-- A handler works with the number of its caller. -/
def CallPc.Own (pc : CallPc n) (i : Fin n) : Prop := ∀ id, pc.asid = some id → id = i

theorem own_of_none {pc : CallPc n} (h : pc.asid = none) : pc.Own i := by
  intro id hid
  rw [h] at hid
  cases hid

theorem own_of_holds {pc : CallPc n} {s : SysSem n} (h : pc.holds = some s) (hs : s.owner = i) :
    pc.Own i := by
  intro id hid
  rw [holds_asid h] at hid
  exact (Option.some.inj hid).symm.trans hs

/-- A handler that has passed its semaphore keeps it. -/
theorem passes_kept {pc pc' : CallPc n} {s : SysSem n} (hown : pc.Own i)
    (hin : pc.holds = some s) (hask : pc.ask.operation = none) (hin' : pc'.holds = some s) :
    Passes i pc pc' ∧ pc'.Own i :=
  ⟨Passes.stay hask (hin'.trans hin.symm), own_of_holds hin' (hown _ (holds_asid hin))⟩

/-- A handler gives its semaphore back. -/
theorem passes_left {pc pc' : CallPc n} {s : SysSem n} (hown : pc.Own i)
    (hin : pc.holds = some s) (hask : pc.ask.operation = some (.V, s)) (hout : pc'.holds = none)
    (hnone : pc'.asid = none) : Passes i pc pc' ∧ pc'.Own i :=
  ⟨Passes.leave (hown _ (holds_asid hin)) hask hin hout, own_of_none hnone⟩

/-- A handler that has nothing to do with semaphores. -/
theorem passes_none {pc pc' : CallPc n} (hask : pc.ask.operation = none) (hin : pc.holds = none)
    (hout : pc'.holds = none) (hown : pc'.Own i) : Passes i pc pc' ∧ pc'.Own i :=
  ⟨Passes.stay hask (hout.trans hin.symm), hown⟩

/-- What one step of a handler does to its semaphore. -/
theorem callStep_holds {saved s' : State} {answer : Word} {pc pc' : CallPc n}
    (h : callStep saved i answer pc = some (pc', s')) (hown : pc.Own i) :
    Passes i pc pc' ∧ pc'.Own i := by
  cases pc with
  | user | terminate | sysTerminate | writerLoad | readerStore | readerEnd => cases h
  | getTod | result | advance | load =>
      cases h
      exact passes_none rfl rfl rfl (own_of_none rfl)
  | generic =>
      cases h
      unfold supportGeneric
      split
      · exact passes_none rfl rfl rfl (own_of_none rfl)
      · exact passes_none rfl rfl rfl (own_of_none rfl)
  | syscall =>
      cases h
      have hnone := supportSyscall_asid (n := n) saved
      exact passes_none rfl rfl hnone.2 (own_of_none hnone.1)
  | writer output =>
      cases h
      unfold syscallWriter
      simp only
      split
      · exact passes_none rfl rfl rfl (own_of_none rfl)
      · exact passes_none rfl rfl rfl (fun id hid => (Option.some.inj hid).symm)
  | writerP w =>
      cases h
      have hs : (w.output.semaphore w.id).owner = i :=
        (semaphore_owner w.output w.id).trans (hown w.id rfl)
      exact ⟨Passes.pass hs rfl rfl rfl, own_of_holds rfl hs⟩
  | writerLoop w k =>
      cases h
      split
      · exact passes_kept hown rfl rfl rfl
      · exact passes_kept hown rfl rfl rfl
  | writerData w k c =>
      cases h
      exact passes_kept hown rfl rfl rfl
  | writerIo w k c =>
      cases h
      unfold writerStatus
      split
      · exact passes_kept hown rfl rfl rfl
      · exact passes_kept hown rfl rfl rfl
  | reader =>
      cases h
      unfold sysReadTerminal
      simp only
      split
      · exact passes_none rfl rfl rfl (own_of_none rfl)
      · exact passes_none rfl rfl rfl (fun id hid => (Option.some.inj hid).symm)
  | readerP id buf =>
      cases h
      have hs : (SysSem.sys5 id).owner = i := hown id rfl
      exact ⟨Passes.pass hs rfl rfl rfl, own_of_holds rfl hs⟩
  | readerIo id buf read =>
      cases h
      unfold readerStatus
      split
      · exact passes_kept hown rfl rfl rfl
      · exact passes_kept hown rfl rfl rfl
  | writerV | readerFail | readerV =>
      cases h
      exact passes_left hown rfl rfl rfl rfl

/-- An access to the buffer leaves the semaphore where it is. -/
theorem accessed_holds (pc : CallPc n) (word : Word) :
    (pc.accessed word).holds = pc.holds ∧ (pc.accessed word).asid = pc.asid := by
  cases pc with
  | writerLoad w k =>
      simp only [CallPc.accessed]
      split
      · exact ⟨rfl, rfl⟩
      · exact ⟨rfl, rfl⟩
  | readerStore id buf read r =>
      simp only [CallPc.accessed]
      split
      · exact ⟨rfl, rfl⟩
      · exact ⟨rfl, rfl⟩
  | _ => exact ⟨rfl, rfl⟩

/-! ## Runs -/

variable {sems sems' : SysSem n → Sem (Fin n)}

/-- Every handler works with the number of its caller, and a semaphore is zero
    exactly if the handler of its U-proc has passed it. Nobody waits. -/
structure Private (c : CallLevel n) (sems : SysSem n → Sem (Fin n)) : Prop where
  own : ∀ i, (c.call i).Own i
  value : ∀ s, sems s = { value := if (c.call s.owner).holds = some s then 0 else 1, queue := [] }

/-- Steps in which no handler touches a semaphore. -/
theorem Private.congr (h : Private c sems)
    (hcall : ∀ i, (c'.call i).holds = (c.call i).holds ∧ (c'.call i).Own i) :
    Private c' sems := by
  refine ⟨fun i => (hcall i).2, fun s => ?_⟩
  rw [h.value s, (hcall s.owner).1]

/-- An operation on a semaphore that is free, or held by the caller. -/
theorem Private.operation (h : Private c sems) {o : SemOp} {s : SysSem n}
    (hin : (c.call s.owner).holds = if o = .P then none else some s) :
    (sems s).op o i = { sem := { value := if o = .P then 0 else 1, queue := [] }
                        waits := false
                        woken := none } := by
  cases o with
  | P =>
      rw [if_pos rfl] at hin
      have hvalue := h.value s
      rw [hin, if_neg (by simp only [reduceCtorEq, not_false_eq_true])] at hvalue
      have hgo : (1 : Int) ≠ SemOp.P.stop := by decide
      rw [hvalue, Sem.op_nil hgo rfl]
      rfl
  | V =>
      rw [if_neg (by decide)] at hin
      have hvalue := h.value s
      rw [hin, if_pos rfl] at hvalue
      have hgo : (0 : Int) ≠ SemOp.V.stop := by decide
      rw [hvalue, Sem.op_nil hgo rfl]
      rfl

/-- The handler of a U-proc performs an operation. -/
theorem private_operation {o : SemOp} {s : SysSem n} (h : Private c sems)
    (hown : ∀ j, (c'.call j).Own j) (hs : s.owner = i)
    (hothers : ∀ j, j ≠ i → c'.call j = c.call j)
    (hin : (c.call i).holds = if o = .P then none else some s)
    (hout : (c'.call i).holds = if o = .P then some s else none) :
    Private c' (Function.update sems s ((sems s).op o i).sem) := by
  subst hs
  refine ⟨hown, fun s' => ?_⟩
  by_cases hsame : s' = s
  · subst hsame
    rw [Function.update_self, h.operation hin, hout]
    cases o with
    | P => simp only [if_true]
    | V => rfl
  · -- The other semaphores of the U-proc stay as they are.
    rw [Function.update_of_ne hsame, h.value s']
    by_cases howner : s'.owner = s.owner
    · have hne : ∀ pc : CallPc n, (pc.holds = none ∨ pc.holds = some s) → pc.holds ≠ some s' := by
        intro pc hpc hc
        rw [hc] at hpc
        rcases hpc with hpc | hpc
        · cases hpc
        · exact hsame (Option.some.inj hpc)
      rw [howner, if_neg (hne _ ?_), if_neg (hne _ ?_)]
      · rw [hout]
        cases o with
        | P => exact Or.inr rfl
        | V => exact Or.inl rfl
      · rw [hin]
        cases o with
        | P => exact Or.inl rfl
        | V => exact Or.inr rfl
    · rw [hothers _ howner]

/-- The handler of a U-proc takes a step. -/
theorem private_call {x : Ask n} {answer : Word} (ho : Allotted c.level) (h : Private c sems)
    (hnext : c.next S (.call i x answer) = some c') :
    Private c' (operate c (.call i x answer) c' sems) := by
  rcases call_of_next ho hnext with ⟨_, hask, pc, s, hstep, hc'⟩
  rcases callStep_holds hstep (h.own i) with ⟨hpasses, hown⟩
  have hself : c'.call i = pc := by
    rw [hc']
    split
    · exact setCall_self _ _ _
    · exact setCall_self _ _ _
  have hothers : ∀ j, j ≠ i → c'.call j = c.call j := by
    intro j hj
    rw [hc']
    split
    · exact setCall_other _ hj _
    · exact setCall_other _ hj _
  have howns : ∀ j, (c'.call j).Own j := by
    intro j
    by_cases hj : j = i
    · rw [hj, hself]
      exact hown
    · rw [hothers j hj]
      exact h.own j
  unfold operate
  cases hpasses with
  | pass hs hop hout hin =>
      simp only [hask, hop]
      exact private_operation h howns hs hothers (by rw [hout]; rfl) (by rw [hself, hin]; rfl)
  | leave hs hop hin hout =>
      simp only [hask, hop]
      exact private_operation h howns hs hothers (by rw [hin]; rfl) (by rw [hself, hout]; rfl)
  | stay hop hsame =>
      simp only [hask, hop]
      refine h.congr (fun j => ⟨?_, howns j⟩)
      by_cases hj : j = i
      · rw [hj, hself, hsame]
      · rw [hothers j hj]

theorem private_level {e : UEvent n} {s : State} {level : SupportLevel n} (h : Private c sems) :
    Private (c.follow S e s level) sems := by
  refine h.congr (fun j => ?_)
  have hown := h.own j
  rcases follow_call (S := S) c e s level j with hc | ⟨word, hc⟩
  · rw [hc]
    exact ⟨rfl, hown⟩
  · rcases accessed_holds (c.call j) word with ⟨hholds, hasid⟩
    rw [hc]
    refine ⟨hholds, fun id hid => ?_⟩
    exact hown id (hasid.symm.trans hid)

/-- A U-proc is stopped by a request, or its handler calls `TERMINATE`. -/
theorem private_trap {s : State} (h : Private c sems)
    (hcall : c.call i = .user ∨ (c.call i = .terminate ∧ TerminateCall s)) :
    Private ((c.save GENERALEXCEPT i s).setCall i .generic) sems := by
  refine h.congr (fun j => ?_)
  by_cases hj : j = i
  · subst hj
    rw [setCall_self]
    refine ⟨?_, own_of_none rfl⟩
    rcases hcall with hc | ⟨hc, _⟩
    · rw [hc]
      rfl
    · rw [hc]
      rfl
  · rw [setCall_other _ hj]
    exact ⟨rfl, h.own j⟩

/-- The invariant of the semaphores. -/
theorem private_run {es : List (CallEvent n)} (h : (semaphoreRuns S).Run es (c, sems)) :
    Private c sems := by
  have hstart : ∀ x, (semaphoreRuns S).init x → Private x.1 x.2 := fun x hx => by
    have hidle : x.1.call = fun _ => .user := hx.1.2
    refine ⟨fun i => ?_, fun s => ?_⟩
    · rw [hidle]
      exact own_of_none rfl
    · rw [hx.2, hidle]
      rfl
  refine System.run_invariant (P := fun x => Private x.1 x.2) hstart
    (fun es x e x' hrun hx hs => ?_) h
  rcases x with ⟨c, sems⟩
  rcases x' with ⟨c', sems'⟩
  rcases hs with ⟨hnext, hw⟩
  simp only at hw hx
  subst hw
  have ho := allotted_of_callLevel (System.run_of_observed hrun)
  cases e with
  | call j x answer => exact private_call ho hx hnext
  | level e s =>
      cases cstep_of_next hnext with
      | level => exact private_level hx
  | trap j s =>
      cases cstep_of_next hnext with
      | trap _ hcall => exact private_trap hx hcall

/-! ## Registers -/

/-- The registers of the devices of a U-proc. -/
def Registers (id : Fin n) : List Word :=
  [devRegAddr IL_PRINTER id + 4, devRegAddr IL_PRINTER id + 8, devRegAddr IL_TERMINAL id + 4,
    devRegAddr IL_TERMINAL id + 8, devRegAddr IL_TERMINAL id + 12]

/-- A handler asks for registers of its caller. -/
theorem register_mem {pc : CallPc n} (hown : pc.Own i) {addr : Word}
    (h : pc.ask.register = some addr) : addr ∈ Registers i := by
  cases pc with
  | writerData w k c =>
      have hid : w.id = i := hown w.id (by rw [holds_asid rfl, semaphore_owner])
      simp only [CallPc.ask, Ask.register, Option.some.injEq, hid] at h
      rw [← h]
      cases w.output with
      | printer => simp only [Registers, Output.il, List.mem_cons, true_or, or_true]
      | terminal => simp only [Registers, Output.il, List.mem_cons, true_or, or_true]
  | writerIo w k c =>
      have hid : w.id = i := hown w.id (by rw [holds_asid rfl, semaphore_owner])
      simp only [CallPc.ask, Ask.register, Option.some.injEq, hid] at h
      rw [← h]
      cases w.output with
      | printer => simp only [Registers, Output.command, List.mem_cons, true_or]
      | terminal => simp only [Registers, Output.command, List.mem_cons, true_or, or_true]
  | readerIo id buf read =>
      have hid : id = i := hown id rfl
      simp only [CallPc.ask, Ask.register, Option.some.injEq, hid] at h
      rw [← h]
      simp only [Registers, List.mem_cons, true_or, or_true]
  | _ => cases h

/-- The number of the device can be read off a register. -/
theorem register_number (hn : n ≤ 8) {addr : Word} (h : addr ∈ Registers i) :
    (addr - DEV_REG_START).toNat / 16 % 8 = i.val := by
  have hi := i.isLt
  have hblock : ∀ il k : Nat, il - IL_DISK ≤ 4 → k < 16 →
      (devRegAddr il i + BitVec.ofNat 32 k - DEV_REG_START).toNat / 16 % 8 = i.val := by
    intro il k hil hk
    have hsub : devRegAddr il i + BitVec.ofNat 32 k - DEV_REG_START =
        BitVec.ofNat 32 (16 * ((il - IL_DISK) * DEVPERINT + i.val) + k) := by
      rw [devRegAddr, BitVec.ofNat_add]
      bv_omega
    rw [hsub, BitVec.toNat_ofNat, DEVPERINT]
    omega
  simp only [Registers, List.mem_cons, List.not_mem_nil, or_false] at h
  rcases h with h | h | h | h | h
  · rw [h]
    exact hblock IL_PRINTER 4 (by decide) (by decide)
  · rw [h]
    exact hblock IL_PRINTER 8 (by decide) (by decide)
  · rw [h]
    exact hblock IL_TERMINAL 4 (by decide) (by decide)
  · rw [h]
    exact hblock IL_TERMINAL 8 (by decide) (by decide)
  · rw [h]
    exact hblock IL_TERMINAL 12 (by decide) (by decide)

/-- A handler asks for an operation on a semaphore of its caller, which is free
    before `PASSEREN` and its own before `VERHOGEN`. -/
theorem operation_holds {pc : CallPc n} (hown : pc.Own i) {o : SemOp} {s : SysSem n}
    (h : pc.ask.operation = some (o, s)) :
    s.owner = i ∧ pc.holds = if o = .P then none else some s := by
  cases pc with
  | writerP w =>
      cases h
      exact ⟨(semaphore_owner _ _).trans (hown w.id rfl), rfl⟩
  | readerP id buf =>
      cases h
      exact ⟨hown id rfl, rfl⟩
  | writerV | readerFail | readerV =>
      cases h
      exact ⟨hown _ (holds_asid rfl), rfl⟩
  | _ => cases h

/-- In every run a semaphore of a device has nobody in its queue, and is zero if
    and only if the handler of its U-proc is between `PASSEREN` and `VERHOGEN`. A
    handler operates on semaphores of its caller only, and neither waits nor
    releases anybody. No two handlers use the same device register. -/
theorem devices_private (hn : n ≤ 8) {es : List (CallEvent n)}
    (h : (semaphoreRuns S).Run es (c, sems)) :
    (∀ s, (sems s).queue = [] ∧
      (sems s).value = if (c.call s.owner).holds = some s then 0 else 1) ∧
    (∀ i o s, (c.call i).ask.operation = some (o, s) →
      s.owner = i ∧ ((sems s).op o i).waits = false ∧ ((sems s).op o i).woken = none) ∧
    ∀ i j addr, (c.call i).ask.register = some addr → (c.call j).ask.register = some addr →
      i = j := by
  have hprivate := private_run h
  refine ⟨fun s => ?_, fun i o s hask => ?_, fun i j addr hi hj => ?_⟩
  · rw [hprivate.value s]
    exact ⟨rfl, rfl⟩
  · rcases operation_holds (hprivate.own i) hask with ⟨howner, hholds⟩
    subst howner
    rw [hprivate.operation hholds]
    exact ⟨rfl, rfl, rfl⟩
  · have hni := register_number hn (register_mem (hprivate.own i) hi)
    have hnj := register_number hn (register_mem (hprivate.own j) hj)
    exact Fin.ext (hni.symm.trans hnj)

end DeviceSemaphores

/-- A handler that is about to print has taken its semaphore. -/
theorem devices_private_sample : ∃ (c : CallLevel 2) (sems : SysSem 2 → Sem (Fin 2)),
    (c.call 0).holds = some (.sys4 0) ∧ (sems (.sys4 0)).value = 0 ∧
      (sems (.sys4 1)).value = 1 := by
  have hall : (watchedReplay ((printTwo 0).take 6)).any (fun x =>
      decide ((x.1.call 0).holds = some (.sys4 0) ∧ x.1.call 1 = .user)) = true := by
    decide +kernel
  rw [Option.any_eq_true] at hall
  rcases hall with ⟨⟨c, w⟩, hreplay, hc⟩
  rw [decide_eq_true_iff] at hc
  rcases run_of_watchedReplay hreplay with ⟨es, hrun⟩
  have hbase := System.run_of_restrict (System.run_of_observed hrun)
  rcases System.run_observed (fun _ => initSysSemaphores) operate hbase with ⟨sems, hsems⟩
  have hvalue := (devices_private (by decide) hsems).1
  refine ⟨c, sems, hc.1, ?_, ?_⟩
  · rw [(hvalue (.sys4 0)).2]
    exact if_pos hc.1
  · rw [(hvalue (.sys4 1)).2]
    refine if_neg ?_
    rw [show c.call (SysSem.sys4 1).owner = .user from hc.2]
    simp only [CallPc.holds, reduceCtorEq, not_false_eq_true]

end Pandos
