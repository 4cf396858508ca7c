import Pandos.Theory.Replay
import Pandos.Theory.Traps

/-!
# Addresses of Device Commands

`DOIO` finds the device of a command address by a division, and never asks
whether the address is that of a command register. Every address in the area of
ninety-six register blocks from `DEV_REG_START` on leads to some device: status
registers, and the blocks behind the last terminal. Every address outside makes
`get_semaphore` panic.

Addresses in the area that are not aligned lead to a device as well, and the
caller is put in its queue. Then the store raises an exception inside the
nucleus. It kills a caller without a support structure, as the refusal of the
call would have done. Any other is passed up while it stands in the queue.

## Main definitions

* `CommandOf`: The address is a command register of a device.
* `AddressError`: What the hardware shows at a store that is not aligned.
* `Validates`: A call accepts command registers only and refuses the rest.
* `Excused`: The calls of which this holds.

## Theorems

* `commandOf_iodev`: A command register leads to its own device.
* `io_address_validated_iff`: When a call validates its address.
* `io_address_unvalidated`: A status register is accepted, and an address behind
  the area is a panic.
-/

namespace Pandos

/-- The address is that of the command register of a device on an interrupt
    line. The flag tells the transmitter of a terminal from its receiver, as
    `get_semaphore` does. -/
inductive CommandOf : Word → Nat → Fin 8 → Bool → Prop
  | command (il : Nat) (devN : Fin 8) (h1 : IL_DISK ≤ il) (h2 : il ≤ IL_PRINTER) :
      CommandOf (devRegAddr il devN + 4) il devN false
  | recvCommand (devN : Fin 8) : CommandOf (devRegAddr IL_TERMINAL devN + 4) IL_TERMINAL devN false
  | transmCommand (devN : Fin 8) :
      CommandOf (devRegAddr IL_TERMINAL devN + 12) IL_TERMINAL devN true

/-- What the hardware shows at a store to an address that is not aligned: the
    exception code is that of an address error. -/
def AddressError (hw : Hw) : Prop := CAUSE_GET_EXCCODE hw.cause = 5

/-- What `DOIO` does with the address in `a1`. It writes a command only to a
    command register, and then the caller waits alone on the semaphore the
    interrupt handler looks up for that line, device and direction. Any other
    address is refused, without a panic, by the handler itself or in the exception
    its store raises. -/
structure Validates (L : Layout) (m : Machine) (e : Event) (nested : Hw) (p : PcbId) : Prop where
  accepts : ∀ ctrl k, m.resolved L e nested = .ok (ctrl, k) → k.bus ≠ [] →
    ∃ il devN isW s, CommandOf (e.hw.bios.gpr .a1) il devN isW ∧
      getSemaphore L il devN isW = .ok s ∧ ctrl = CONTROL_BLOCK ∧ waiters k s = [p] ∧
      (∀ a, a ≠ s → waiters k a = waiters m.kernel a) ∧ k.mem = e.mem ∧
      k.bus = [(e.hw.bios.gpr .a1, e.hw.bios.gpr .a2)]
  refuses : (∀ il devN isW, ¬ CommandOf (e.hw.bios.gpr .a1) il devN isW) → ∃ bios,
    (bios = e.hw.bios ∨ bios = nested.bios) ∧ PassesUpOrDies (m.resolved L e nested) bios m e p

/-- The address is a command register or the null pointer, or it lies among the
    ninety-six blocks of registers and somebody waits on the semaphore of its
    block, or it is not aligned there, the semaphore was not raised and the caller
    has no support structure. -/
def Excused (L : Layout) (m : Machine) (p : PcbId) (a : Word) : Prop :=
  (∃ il devN isW, CommandOf a il devN isW) ∨ a = L.null ∨
    (a - DEV_REG_START).toNat < 96 * 16 ∧
      (waiters m.kernel (L.semAddr (blockUnit a)) ≠ [] ∨
        ¬ Aligned a ∧ m.kernel.mem (L.semAddr (blockUnit a)) ≠ 1 ∧
          (m.kernel.pcb p).pSupport = none)

/-! ## From an address to a device -/

/-- A command register is the one of a sub-unit, whose semaphore the interrupt
    handler looks up. -/
theorem commandOf_unit (L : Layout) {a : Word} {il : Nat} {devN : Fin 8} {isW : Bool}
    (h : CommandOf a il devN isW) :
    ∃ u : DevUnit, a = commandReg u ∧ getSemaphore L il devN isW = .ok (L.semAddr u) := by
  cases h with
  | command _ _ h1 h2 =>
      exact ⟨genericUnit il devN, commandReg_generic ⟨il, Nat.lt_succ_of_le h2⟩ h1 devN,
        getSemaphore_generic L h1 h2 devN⟩
  | recvCommand =>
      exact ⟨recvUnit devN, commandReg_recv devN, (getSemaphore_terminal L devN).2⟩
  | transmCommand =>
      exact ⟨transmUnit devN, commandReg_transm devN, (getSemaphore_terminal L devN).1⟩

/-- A command register leads to the semaphore of its own line, device and
    direction. -/
theorem commandOf_iodev {L : Layout} {a : Word} {il : Nat} {devN : Fin 8} {isW : Bool}
    {dev : Iodev} (h : CommandOf a il devN isW) (hd : getIodev L a = .ok dev) :
    getSemaphore L il devN isW = .ok dev.semaphore := by
  rcases commandOf_unit L h with ⟨u, rfl, hs⟩
  rcases getIodev_commandReg L u with ⟨line, hu⟩
  rw [hu] at hd
  rw [hs, ← Except.ok.inj hd]

/-- An address `get_iodev` accepts lies in the area, and leads to the semaphore of
    its block. -/
theorem block_of_getIodev {L : Layout} {a : Word} {dev : Iodev} (hd : getIodev L a = .ok dev) :
    (a - DEV_REG_START).toNat < 96 * 16 ∧ dev.semaphore = L.semAddr (blockUnit a) := by
  have hin := (getIodev_ok_iff L a).mp ⟨dev, hd⟩
  rcases getIodev_block L hin with ⟨line, hline⟩
  rw [hd, Except.ok.injEq] at hline
  exact ⟨hin, congrArg Iodev.semaphore hline⟩

/-! ## What a call does with its address -/

section Call

variable {L : Layout} {m : Machine} {e : Event} {p : PcbId}

/-- The handler of a call of `DOIO` in kernel mode. -/
theorem doIo_handled (hcall : KernelCall DOIO m e) (hp : m.kernel.activeProcess = some p) :
    syscallHandler L e.hw (calling m e) p = syscallDoIo L e.hw (calling m e) p := by
  have hstate := calling_state (e := e) hp
  have hne : ∀ id ∈ [CREATEPROCESS, TERMPROCESS, PASSEREN, VERHOGEN], DOIO ≠ id := by decide
  unfold syscallHandler
  rw [hstate]
  simp only [hcall.2.2.1, hcall.2.2.2, Bool.false_eq_true, and_false, if_false, if_true]
  rw [if_neg (hne _ (by decide)), if_neg (hne _ (by decide)), if_neg (hne _ (by decide)),
    if_neg (hne _ (by decide))]

theorem doIo_served {b : Boot} {es : List Event} (hrun : (nucleus L b).Run es m)
    (hok : e.Trusted L m) (hp : m.kernel.activeProcess = some p) :
    IoServed L e.hw (calling m e) p (syscallDoIo L e.hw (calling m e) p) := by
  have hwf := machineWf_run hrun
  exact syscallDoIo_spec (calling_spec hwf.between hp) (calling_device hwf hok)

/-- The handler does not return from the call. -/
theorem handled_of_error (hcall : KernelCall DOIO m e) (hp : m.kernel.activeProcess = some p)
    {x : Exit} (h : syscallDoIo L e.hw (calling m e) p = .error x) :
    handleException L e.hw (m.entry e) = .error x := by
  rw [handleException_syscall hcall.1]
  exact syscallException_error hp ((doIo_handled hcall hp).trans h)

/-- A refusal is neither a panic nor a command. -/
theorem PassesUpOrDies.quiet {r : Result (SchedulerControl × Kernel)} {bios : State}
    (h : PassesUpOrDies r bios m e p) : (∀ msg, r ≠ .error (.panic msg)) ∧
      ∀ ctrl k, r = .ok (ctrl, k) → k.bus = [] := by
  cases hsup : (m.kernel.pcb p).pSupport with
  | none =>
      rcases h.dies hsup with ⟨ks, k, rfl, _, honly⟩
      refine ⟨fun msg => (by simp only [ne_eq, reduceCtorEq, not_false_eq_true]),
        fun ctrl k' hk => ?_⟩
      rw [Except.ok.injEq, Prod.mk.injEq] at hk
      rw [← hk.2]
      exact honly.bus
  | some s =>
      rcases h.passes s hsup with ⟨k, rfl, _⟩
      refine ⟨fun msg hc => ?_, fun ctrl k' hk => ?_⟩
      · cases hc
      · cases hk

/-- A refused call validates whatever its address is. -/
theorem validates_of_refused {nested : Hw} {bios : State}
    (hb : bios = e.hw.bios ∨ bios = nested.bios)
    (h : PassesUpOrDies (m.resolved L e nested) bios m e p) : Validates L m e nested p :=
  ⟨fun ctrl k hk hbus => absurd (h.quiet.2 ctrl k hk) hbus, fun _ => ⟨bios, hb, h⟩⟩

/-- A panic validates nothing but the command registers it happens at. -/
theorem validates_panic_iff {nested : Hw} {msg : String}
    (h : m.resolved L e nested = .error (.panic msg)) : Validates L m e nested p ↔
      ∃ il devN isW, CommandOf (e.hw.bios.gpr .a1) il devN isW := by
  constructor
  · intro hv
    by_contra hc
    rcases hv.refuses (fun il devN isW hcmd => hc ⟨il, devN, isW, hcmd⟩) with ⟨bios, _, hr⟩
    exact hr.quiet.1 msg h
  · rintro ⟨il, devN, isW, hcmd⟩
    refine ⟨fun ctrl k hk => ?_, fun hc => absurd hcmd (hc il devN isW)⟩
    rw [h] at hk
    cases hk

/-- A handler that raises no exception itself. -/
theorem resolved_eq {nested : Hw}
    (h : ∀ k, handleException L e.hw (m.entry e) ≠ .error (.trap k)) :
    m.resolved L e nested = handleException L e.hw (m.entry e) := by
  unfold Machine.resolved
  split
  · rename_i k hk
    exact absurd hk (h k)
  · rfl

/-- A panic is the end. -/
theorem resolved_panic {nested : Hw} {msg : String}
    (h : handleException L e.hw (m.entry e) = .error (.panic msg)) :
    m.resolved L e nested = .error (.panic msg) := by
  refine (resolved_eq (fun k hk => ?_)).trans h
  rw [h] at hk
  cases hk

/-- A call that is refused at once. -/
theorem validates_of_passUp (hwf : MachineWf L m) (hcall : KernelCall DOIO m e)
    (hp : m.kernel.activeProcess = some p) {nested : Hw}
    (h : syscallDoIo L e.hw (calling m e) p = passUpOrDie e.hw (calling m e) GENERALEXCEPT) :
    Validates L m e nested p := by
  have href : Refusal L m e p := refusal_of_passUpOrDie hwf.between
    (unserved_calling hwf.between hp) hp hcall.1 ((doIo_handled hcall hp).trans h)
  -- A refusal raises no exception.
  have hquiet : ∀ k, handleException L e.hw (m.entry e) ≠ .error (.trap k) := by
    intro k hk
    cases hsup : (m.kernel.pcb p).pSupport with
    | none =>
        rcases href.dies hsup with ⟨ks, k', heq, _⟩
        rw [heq] at hk
        cases hk
    | some s =>
        rcases href.passes s hsup with ⟨k', heq, _⟩
        rw [heq] at hk
        cases hk
  refine validates_of_refused (Or.inl rfl) ?_
  rw [resolved_eq hquiet]
  exact href

/-- The exception a store to an address that is not aligned raises goes to
    `pass_up_or_die`. -/
theorem resolved_trap {nested : Hw} (hn : AddressError nested) {k : Kernel} {line : Int}
    (h : handleException L e.hw (m.entry e) = .error (.trap (ioBlocked k p line))) :
    m.resolved L e nested = passUpOrDie nested (trapped nested k p line) GENERALEXCEPT := by
  have hclass : excClass nested.cause = .other := by
    rw [excClass, hn]
    decide
  have hnested : handleException L nested (ioBlocked k p line) =
      passUpOrDie nested (trapped nested k p line) GENERALEXCEPT := by
    simp only [handleException, hclass, trapped]
  simp only [Machine.resolved, h, hnested]

/-- Command registers are aligned. -/
theorem CommandOf.aligned {a : Word} {il : Nat} {devN : Fin 8} {isW : Bool}
    (h : CommandOf a il devN isW) : Aligned a := by
  have hall : ∀ u : DevUnit, Aligned (commandReg u) := by
    decide +kernel
  cases h with
  | command _ _ h1 h2 =>
      rw [commandReg_generic ⟨il, Nat.lt_succ_of_le h2⟩ h1 devN]
      exact hall _
  | recvCommand =>
      rw [commandReg_recv]
      exact hall _
  | transmCommand =>
      rw [commandReg_transm]
      exact hall _

/-- A call that blocks its caller: the caller waits alone on the semaphore the
    address leads to, and the command is written. -/
theorem ioStarted_waits (hwf : MachineWf L m) (hp : m.kernel.activeProcess = some p)
    {s : Word} (line : Int) (a v : Word) {k : Kernel} (hn : waiters (calling m e) s = [])
    (hb : Blocked (calling m e) s p k) :
    waiters (afterSyscall e.hw (ioStarted k p line a v) p) s = [p] ∧
    (∀ b, b ≠ s → waiters (afterSyscall e.hw (ioStarted k p line a v) p) b = waiters m.kernel b) ∧
    (afterSyscall e.hw (ioStarted k p line a v) p).mem = e.mem ∧
    (afterSyscall e.hw (ioStarted k p line a v) p).bus = [(a, v)] := by
  have hbase := (unserved_calling (e := e) hwf.between hp).base
  have ht : Touched k (afterSyscall e.hw (ioStarted k p line a v) p) :=
    touched_trans (touched_ioStarted k p line a v) (touched_afterSyscall e.hw _ p)
  refine ⟨?_, fun b hb' => ?_, ?_, ?_⟩
  · rw [ht.waiters, hb.waiters, if_pos rfl, hn]
    rfl
  · rw [ht.waiters, hb.waiters, if_neg hb', hbase.waiters]
  · rw [ht.mem, hb.mem, hbase.mem]
  · have hbus : k.bus = [] := hb.frame.bus.trans hbase.bus
    change (a, v) :: k.bus = _
    rw [hbus]

/-- A call whose address is aligned and leads to a device that is free. -/
theorem validates_start_iff (hwf : MachineWf L m) (hcall : KernelCall DOIO m e)
    (hp : m.kernel.activeProcess = some p) {nested : Hw} {k : Kernel} {dev : Iodev} {line : Int}
    (hd : getIodev L (e.hw.bios.gpr .a1) = .ok dev)
    (hn : waiters (calling m e) dev.semaphore = [])
    (hb : Blocked (calling m e) dev.semaphore p k)
    (hr : syscallDoIo L e.hw (calling m e) p = .ok (CONTROL_BLOCK,
      ioStarted k p line (((calling m e).pcb p).pS.gpr .a1) (((calling m e).pcb p).pS.gpr .a2))) :
    Validates L m e nested p ↔ ∃ il devN isW, CommandOf (e.hw.bios.gpr .a1) il devN isW := by
  have hresolved : m.resolved L e nested = .ok (CONTROL_BLOCK, afterSyscall e.hw
      (ioStarted k p line (e.hw.bios.gpr .a1) (e.hw.bios.gpr .a2)) p) := by
    have hstarted := syscallException_ok hp ((doIo_handled hcall hp).trans hr)
    rw [← handleException_syscall hcall.1, calling_state hp] at hstarted
    refine (resolved_eq (fun k' hk => ?_)).trans hstarted
    rw [hstarted] at hk
    cases hk
  rcases ioStarted_waits hwf hp line (e.hw.bios.gpr .a1) (e.hw.bios.gpr .a2) hn hb with
    ⟨hwait, hother, hmem, hbus⟩
  constructor
  · intro hval
    rcases hval.accepts _ _ hresolved (by rw [hbus]; exact List.cons_ne_nil _ _) with
      ⟨il, devN, isW, _, hcmd, _⟩
    exact ⟨il, devN, isW, hcmd⟩
  · rintro ⟨il, devN, isW, hcmd⟩
    refine ⟨fun ctrl k' hk _ => ?_, fun hc => absurd hcmd (hc il devN isW)⟩
    rw [hresolved, Except.ok.injEq, Prod.mk.injEq] at hk
    rcases hk with ⟨rfl, rfl⟩
    exact ⟨il, devN, isW, dev.semaphore, hcmd, commandOf_iodev hcmd hd, rfl, hwait, hother, hmem,
      hbus⟩

/-- A call whose address is not aligned, but leads to a device that is free. -/
theorem validates_trap_iff (hwf : MachineWf L m) (hp : m.kernel.activeProcess = some p)
    {nested : Hw} {k : Kernel} {line : Int} {a : Word} (hal : ¬ Aligned (e.hw.bios.gpr .a1))
    (hv : (calling m e).mem a = 0)
    (hP : P (calling m e) (some a) (some p) = .ok (CONTROL_BLOCK, k))
    (hb : Blocked (calling m e) a p k)
    (hr : m.resolved L e nested = passUpOrDie nested (trapped nested k p line) GENERALEXCEPT) :
    Validates L m e nested p ↔ (m.kernel.pcb p).pSupport = none := by
  have hcmd : ∀ il devN isW, ¬ CommandOf (e.hw.bios.gpr .a1) il devN isW :=
    fun il devN isW hc => hal hc.aligned
  constructor
  · intro hval
    cases hsup : (m.kernel.pcb p).pSupport with
    | none => rfl
    | some s =>
        exfalso
        rcases hval.refuses hcmd with ⟨bios, _, href⟩
        rcases trapped_passes hwf.between hp hb hsup nested with
          ⟨k₁, ctx, hpass, hqueued⟩
        rcases href.passes s hsup with ⟨k₂, heq, honly, _⟩
        rw [hr, hpass, Except.error.injEq, Exit.loadContext.injEq] at heq
        have hwait := honly.waiters a
        rw [← heq.1, hqueued] at hwait
        exact absurd (congrArg List.length hwait) (by
          rw [List.length_append, List.length_singleton]
          omega)
  · intro hsup
    rcases trapped_dies hwf.between hp hv hP hb hsup nested with
      ⟨ks, k₁, heq, hmem, honly⟩
    refine validates_of_refused (Or.inr rfl) ⟨fun _ => ⟨ks, k₁, hr.trans heq, hmem, honly⟩,
      fun s hs => ?_⟩
    rw [hsup] at hs
    cases hs

end Call

/-- In every run, a call of `DOIO` in kernel mode validates its address if and
    only if the address is a command register or the null pointer, or somebody
    waits already on the semaphore of its register block, or its store fails while
    the caller has no support structure. The address may be any word, so the call
    need not be one the runs are made of. -/
theorem io_address_validated_iff {L : Layout} {b : Boot} {es : List Event} {m : Machine}
    (hrun : (nucleus L b).Run es m) {e : Event} (hok : e.Trusted L m) (hcall : KernelCall DOIO m e)
    {nested : Hw} (hnested : AddressError nested) {p : PcbId}
    (hp : m.kernel.activeProcess = some p) :
    Validates L m e nested p ↔ Excused L m p (e.hw.bios.gpr .a1) := by
  have hwf := machineWf_run hrun
  have hio := doIo_served hrun hok hp
  have hun := unserved_calling (e := e) hwf.between hp
  have hstate : ((calling m e).pcb p).pS = e.hw.bios := calling_state hp
  have hsem := calling_sem hok (Nat.lt_succ_of_lt (blockUnit_lt (e.hw.bios.gpr .a1)))
  generalize hr : syscallDoIo L e.hw (calling m e) p = r at hio
  unfold Excused
  cases hio with
  | null ha =>
      rw [hstate] at ha
      exact iff_of_true (validates_of_passUp hwf hcall hp hr) (Or.inr (Or.inl ha))
  | taken hd hn =>
      rw [hstate] at hd
      rcases block_of_getIodev hd with ⟨hin, hs⟩
      rw [hun.base.waiters, hs] at hn
      exact iff_of_true (validates_of_passUp hwf hcall hp hr) (Or.inr (Or.inr ⟨hin, Or.inl hn⟩))
  | nowhere ha hout =>
      rw [hstate] at ha hout
      rw [validates_panic_iff (resolved_panic (handled_of_error hcall hp hr)), or_iff_left]
      rintro (hnull | ⟨hin, _⟩)
      · exact ha hnull
      · exact absurd hin (Nat.not_lt_of_le hout)
  | raised ha hd hn hv =>
      rw [hstate] at ha hd
      rcases block_of_getIodev hd with ⟨hin, hs⟩
      rw [hun.base.waiters, hs] at hn
      rw [hs, hsem] at hv
      rw [validates_panic_iff (resolved_panic (handled_of_error hcall hp hr)), or_iff_left]
      rintro (hnull | ⟨_, hn' | ⟨_, hv', _⟩⟩)
      · exact ha hnull
      · exact hn' hn
      · exact hv' hv
  | @start u line k ha hd hn hv hb hal =>
      rw [hstate] at ha hd hal
      rw [validates_start_iff hwf hcall hp hd hn hb hr, or_iff_left]
      have hs : L.semAddr u = L.semAddr (blockUnit (e.hw.bios.gpr .a1)) := (block_of_getIodev hd).2
      rw [hun.base.waiters, hs] at hn
      rintro (hnull | ⟨_, hn' | ⟨hal', _⟩⟩)
      · exact ha hnull
      · exact hn' hn
      · exact hal' hal
  | @trap u line k ha hd hn hv hP hb hal =>
      -- The store raises an exception, and the caller is in the queue by then.
      rw [hstate] at ha hd hal
      have hin := (block_of_getIodev hd).1
      have hs : L.semAddr u = L.semAddr (blockUnit (e.hw.bios.gpr .a1)) := (block_of_getIodev hd).2
      rw [validates_trap_iff hwf hp hal hv hP hb
        (resolved_trap hnested (handled_of_error hcall hp hr))]
      have hzero := hv
      rw [hs, hsem] at hzero
      rw [hun.base.waiters, hs] at hn
      constructor
      · intro hsup
        refine Or.inr (Or.inr ⟨hin, Or.inr ⟨hal, ?_, hsup⟩⟩)
        rw [hzero]
        decide
      · rintro (⟨il, devN, isW, hcmd⟩ | hnull | ⟨_, hn' | ⟨_, _, hsup⟩⟩)
        · exact absurd hcmd.aligned hal
        · exact absurd hnull ha
        · exact absurd hn hn'
        · exact hsup

/-! ## Samples -/

/-- A call of `DOIO` that writes the value two to an address. -/
def ioCall (a : Word) : Hw × Accept := (callHw DOIO a 2 0, .start)

theorem kernelCall_io {m : Machine} (hp : m.kernel.activeProcess = some 19) (a : Word) :
    KernelCall DOIO m (Event.quiet m (ioCall a)) := by
  -- The address plays no part in what kind of exception this is.
  have hcause : excClass (callHw DOIO 0 2 0).cause = .syscall := by decide
  have hid : ((callHw DOIO 0 2 0).bios.gpr .a0).toInt = DOIO := by decide
  have hmode : isUserMode (callHw DOIO 0 2 0).bios = false := by decide
  refine ⟨hcause, ?_, hid, hmode⟩
  rw [hp]
  exact Option.some_ne_none _

/-- What the hardware shows when a store of the handler fails. -/
def storeError : Hw := { callHw DOIO 0 2 0 with cause := 5 <<< CAUSESHIFT }

theorem addressError_storeError : AddressError storeError := by
  unfold AddressError
  decide

/-- Nobody is excused at an aligned address that is no command register while
    nobody waits for a device. -/
theorem not_excused {L : Layout} {m : Machine} {a : Word} {p : PcbId}
    (hcmd : ∀ u, a ≠ commandReg u) (hnull : a ≠ L.null) (hal : Aligned a)
    (hwait : ∀ u : DevUnit, waiters m.kernel (L.semAddr u) = []) : ¬ Excused L m p a := by
  rintro (⟨il, devN, isW, h⟩ | h | ⟨_, hn | ⟨hno, _⟩⟩)
  · rcases commandOf_unit L h with ⟨u, hu, _⟩
    exact hcmd u hu
  · exact hnull h
  · exact hn (hwait ⟨_, blockUnit_lt a⟩)
  · exact hno hal

/-- The first process writes to the command register of a flash device. Had it
    written to an address that is not aligned, it would have died. -/
theorem io_address_validated_iff_sample : ∃ es m e e', (nucleus sampleLayout sampleBoot).Run es m ∧
    e.Trusted sampleLayout m ∧ KernelCall DOIO m e ∧ Validates sampleLayout m e storeError 19 ∧
    e'.Trusted sampleLayout m ∧ KernelCall DOIO m e' ∧ ¬ Aligned (e'.hw.bios.gpr .a1) ∧
    Validates sampleLayout m e' storeError 19 := by
  rcases exists_run (L := sampleLayout) (b := sampleBoot) []
    (fun m => m.kernel.activeProcess = some 19 ∧
      (Event.quiet m (ioCall (devRegAddr IL_FLASH 0 + 4))).Ok sampleLayout m ∧
      (Event.quiet m (ioCall (DEV_REG_START + 2))).Trusted sampleLayout m ∧
      m.kernel.mem (sampleLayout.semAddr (blockUnit (DEV_REG_START + 2))) ≠ 1 ∧
      (m.kernel.pcb 19).pSupport = none)
    (by decide +kernel) with ⟨es, m, hrun, hp, hok, hok', hv, hsup⟩
  have hcall := kernelCall_io hp (devRegAddr IL_FLASH 0 + 4)
  have hcall' := kernelCall_io hp (DEV_REG_START + 2)
  have hal : ¬ Aligned (DEV_REG_START + 2) := by decide
  have hin : (DEV_REG_START + 2 - DEV_REG_START).toNat < 96 * 16 := by decide
  refine ⟨es, m, _, _, hrun, hok.toTrusted, hcall, ?_, hok', hcall', hal, ?_⟩
  · exact (io_address_validated_iff hrun hok.toTrusted hcall addressError_storeError hp).mpr
      (Or.inl ⟨IL_FLASH, 0, false, CommandOf.command IL_FLASH 0 (by decide) (by decide)⟩)
  · exact (io_address_validated_iff hrun hok' hcall' addressError_storeError hp).mpr
      (Or.inr (Or.inr ⟨hin, Or.inr ⟨hal, hv, hsup⟩⟩))

/-- The first process writes to the status register of the first disk, and the
    nucleus takes it for a command. Had it written behind the area of the
    registers, the nucleus would have panicked. -/
theorem io_address_unvalidated : ∃ es m e e', (nucleus sampleLayout sampleBoot).Run es m ∧
    e.Trusted sampleLayout m ∧ KernelCall DOIO m e ∧ e.hw.bios.gpr .a1 = DEV_REG_START ∧
    (m.outcome sampleLayout e).next.any (fun k => k.bus == [(DEV_REG_START, 2)]) = true ∧
    ¬ Validates sampleLayout m e storeError 19 ∧
    e'.Trusted sampleLayout m ∧ KernelCall DOIO m e' ∧
    e'.hw.bios.gpr .a1 = DEV_REG_START + 96 * DEV_REG_SIZE ∧
    (m.outcome sampleLayout e').next.isNone = true ∧
    ¬ Validates sampleLayout m e' storeError 19 := by
  rcases exists_run (L := sampleLayout) (b := sampleBoot) []
    (fun m => m.kernel.activeProcess = some 19 ∧
      (∀ u : DevUnit, waiters m.kernel (sampleLayout.semAddr u) = []) ∧
      (Event.quiet m (ioCall DEV_REG_START)).Trusted sampleLayout m ∧
      (m.outcome sampleLayout (Event.quiet m (ioCall DEV_REG_START))).next.any
        (fun k => k.bus == [(DEV_REG_START, 2)]) = true ∧
      (Event.quiet m (ioCall (DEV_REG_START + 96 * DEV_REG_SIZE))).Trusted sampleLayout m ∧
      (m.outcome sampleLayout (Event.quiet m
        (ioCall (DEV_REG_START + 96 * DEV_REG_SIZE)))).next.isNone = true)
    (by decide +kernel) with ⟨es, m, hrun, hp, hwait, hok, hbus, hok', hnone⟩
  have hcall := kernelCall_io hp DEV_REG_START
  have hcall' := kernelCall_io hp (DEV_REG_START + 96 * DEV_REG_SIZE)
  refine ⟨es, m, _, _, hrun, hok, hcall, rfl, hbus, fun hv => ?_, hok', hcall', rfl, hnone,
    fun hv => ?_⟩
  · have ha : ¬ Excused sampleLayout m 19 DEV_REG_START :=
      not_excused (by decide) (by decide) (by decide) hwait
    exact ha ((io_address_validated_iff hrun hok hcall addressError_storeError hp).mp hv)
  · have ha : ¬ Excused sampleLayout m 19 (DEV_REG_START + 96 * DEV_REG_SIZE) :=
      not_excused (by decide) (by decide) (by decide) hwait
    exact ha ((io_address_validated_iff hrun hok' hcall' addressError_storeError hp).mp hv)

end Pandos
