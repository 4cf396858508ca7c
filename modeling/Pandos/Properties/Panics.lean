import Pandos.Properties.DeviceIo
import Pandos.Properties.IoAddress
import Pandos.Theory.Refusals

/-!
# When the Nucleus Panics

The nucleus panics in many places. Most of the calls of `scheduler_panic` guard
its own data: a semaphore that cannot be blocked on, a subtree that cannot be
killed, a deadlock. None of these is ever reached. What is left are five
situations, and each of them comes from outside: a system call while nobody
runs, two kinds of bad calls of `DOIO`, and two kinds of device interrupts nobody
can be told of.

Processes and devices can avoid all five. If nobody is killed who waits for a
device, `DOIO` gets the addresses of command registers, and terminals report
the end of operations only, then no device semaphore is ever raised and the
nucleus does not panic.

## Main definitions

* `Panicking`: The situations in which the nucleus panics, with its messages.
* `unreached`: The messages it never ends with.
* `Careful`: What processes and devices do to avoid them.
* `careful`: The runs in which they do.

## Theorems

* `call_panic`: Among the system calls only `DOIO` panics.
* `panics_iff`: In every run the next exception is a panic in one of the five
  situations only, and in each of them.
* `owed_after`: In careful runs no semaphore of a device is raised.
* `careful_never_panics`: The nucleus does not panic in careful runs.
-/

namespace Pandos

/-- The situations in which the nucleus panics, with what it says: a system call
    while nobody is active, a call of `DOIO` with an address that leads to no
    device or to one whose semaphore is raised, the answer of a device while
    nobody waits for it and nobody is active, and a terminal that reports the end
    of no operation. -/
inductive Panicking (L : Layout) (m : Machine) (e : Event) : String → Prop
  | noCaller (hc : excClass e.hw.cause = .syscall) (hp : m.kernel.activeProcess = none) :
      Panicking L m e "A syscall happened while active_process was NULL\n"
  | nowhere (hcall : KernelCall DOIO m e) (ha : e.hw.bios.gpr .a1 ≠ L.null)
      (hout : 96 * 16 ≤ (e.hw.bios.gpr .a1 - DEV_REG_START).toNat) :
      Panicking L m e "Semaphore not found\n"
  | raised (hcall : KernelCall DOIO m e) (ha : e.hw.bios.gpr .a1 ≠ L.null)
      (hin : (e.hw.bios.gpr .a1 - DEV_REG_START).toNat < 96 * 16)
      (hv : m.kernel.mem (L.semAddr (blockUnit (e.hw.bios.gpr .a1))) = 1) :
      Panicking L m e "A device syncronization semaphore has a value > 0"
  | unheard {u : DevUnit} {status : Word} (hdev : DeviceInterrupt e)
      (ha : answer e.hw = some (u, status)) (hn : waiters m.kernel (L.semAddr u) = [])
      (hp : m.kernel.activeProcess = none) : Panicking L m e (unheardMsg u)
  | unexpected (hdev : DeviceInterrupt e) (ha : answer e.hw = none) :
      Panicking L m e "Unexpected interrupt from terminal device %d\n"

section Calls

variable {L : Layout} {hw : Hw} {k : Kernel} {p : PcbId}

/-- Among the system calls only `DOIO` panics. -/
theorem call_panic (h : Calling k p)
    (hal : Addressed L k p)
    (hdev : ∀ u : DevUnit, k.mem (L.semAddr u) = 0 ∨ k.mem (L.semAddr u) = 1) {msg : String}
    (hr : syscallHandler L hw k p = .error (.panic msg)) :
    callId k p = DOIO ∧ isUserMode (k.pcb p).pS = false ∧
      syscallDoIo L hw k p = .error (.panic msg) := by
  have hcases := @syscallHandler_cases L hw k p h hal hdev
  cases href : refused L k (k.pcb p).pS with
  | true =>
      exfalso
      rcases hcases.1 href with heq | heq
      · rw [heq] at hr
        exact (h.passUp _).quiet msg hr
      · rw [heq] at hr
        exact (h.reserved.passUp _).quiet msg hr
  | false =>
      have hg := hcases.2 href
      rw [hr] at hg
      cases hg with
      | panic hid hu hd => exact ⟨hid, hu, hd⟩

/-- `DOIO` panics only if the address leads to no device, or the semaphore of the
    device is raised. -/
theorem doIo_panic (h : Calling k p)
    (hdev : ∀ u : DevUnit, k.mem (L.semAddr u) = 0 ∨ k.mem (L.semAddr u) = 1) {msg : String}
    (hr : syscallDoIo L hw k p = .error (.panic msg)) : (k.pcb p).pS.gpr .a1 ≠ L.null ∧
      (96 * 16 ≤ ((k.pcb p).pS.gpr .a1 - DEV_REG_START).toNat ∧ msg = "Semaphore not found\n" ∨
      ((k.pcb p).pS.gpr .a1 - DEV_REG_START).toNat < 96 * 16 ∧
        k.mem (L.semAddr (blockUnit ((k.pcb p).pS.gpr .a1))) = 1 ∧
        msg = "A device syncronization semaphore has a value > 0") := by
  have hio : IoServed L hw k p _ := syscallDoIo_spec h hdev
  generalize hx : syscallDoIo L hw k p = x at hio
  rw [hr] at hx
  cases hio with
  | null => exact absurd hx.symm ((h.passUp _).quiet msg)
  | taken => exact absurd hx.symm ((h.passUp _).quiet msg)
  | nowhere ha hout =>
      rw [Except.error.injEq, Exit.panic.injEq] at hx
      exact ⟨ha, Or.inl ⟨hout, hx⟩⟩
  | raised ha hd _ hv =>
      have hin := (getIodev_ok_iff L _).mp ⟨_, hd⟩
      rcases getIodev_block L hin with ⟨line, hline⟩
      rw [hd, Except.ok.injEq] at hline
      rw [hline] at hv
      rw [Except.error.injEq, Exit.panic.injEq] at hx
      exact ⟨ha, Or.inr ⟨hin, hv, hx⟩⟩
  | start => cases hx
  | trap => cases hx

end Calls

/-! ## Exceptions -/

section Exceptions

variable {L : Layout} {m : Machine} {e : Event} {p : PcbId}

theorem syscallHandler_panic {msg : String} (hc : excClass e.hw.cause = .syscall)
    (hp : m.kernel.activeProcess = some p)
    (h : handleException L e.hw (m.entry e) = .error (.panic msg)) :
    syscallHandler L e.hw (calling m e) p = .error (.panic msg) := by
  rw [handleException_syscall hc] at h
  rcases hr : syscallHandler L e.hw (calling m e) p with x | ⟨ctrl, k⟩
  · rw [syscallException_error hp hr] at h
    exact h
  · rw [syscallException_ok hp hr] at h
    cases h

/-- A system call that panics is a bad call of `DOIO`. -/
theorem panics_of_call (hwf : MachineWf L m) (hok : e.Ok L m)
    (hc : excClass e.hw.cause = .syscall) (hp : m.kernel.activeProcess = some p) {msg : String}
    (h : handleException L e.hw (m.entry e) = .error (.panic msg)) : Panicking L m e msg := by
  have hstate : ((calling m e).pcb p).pS = e.hw.bios := calling_state hp
  have hcalling := calling_spec hwf.between hp (e := e)
  rcases call_panic hcalling (calling_addressed hok hc hp) (calling_device hwf hok.toTrusted)
    (syscallHandler_panic hc hp h) with ⟨hid, hu, hr⟩
  rcases doIo_panic hcalling (calling_device hwf hok.toTrusted) hr with ⟨hnull, hbad⟩
  rw [callId, hstate] at hid
  rw [hstate] at hu hnull hbad
  have hcall : KernelCall DOIO m e := ⟨hc, by rw [hp]; exact Option.some_ne_none p, hid, hu⟩
  rcases hbad with ⟨hout, rfl⟩ | ⟨hin, hv, rfl⟩
  · exact Panicking.nowhere hcall hnull hout
  · rw [calling_sem hok.toTrusted (Nat.lt_succ_of_lt (blockUnit_lt _))] at hv
    exact Panicking.raised hcall hnull hin hv

/-- The scheduler never panics. -/
theorem outcome_panic_iff (hwf : MachineWf L m) (hok : e.Ok L m) (msg : String) :
    m.outcome L e = .panic msg ↔ handleException L e.hw (m.entry e) = .error (.panic msg) := by
  rcases outcome_cases hwf hok with ⟨ctrl, k, hr, hs⟩ | ⟨k, ctx, hr, ho⟩ | ⟨msg', hr, ho⟩
  · rw [hr]
    refine iff_of_false (fun hc => ?_) (fun hc => by cases hc)
    rw [hc] at hs
    cases hs
  · rw [hr, ho]
    simp only [reduceCtorEq, Except.error.injEq]
  · rw [hr, ho]
    simp only [Outcome.panic.injEq, Except.error.injEq, Exit.panic.injEq]

/-- Nothing else panics. -/
theorem panics_of_panic (hwf : MachineWf L m) (hok : e.Ok L m) {msg : String}
    (h : m.outcome L e = .panic msg) : Panicking L m e msg := by
  have h' := (outcome_panic_iff hwf hok msg).mp h
  have hh := handleException_spec hwf hok
  generalize hr : handleException L e.hw (m.entry e) = r at h' hh
  subst h'
  cases hh with
  | interrupt hc hi =>
      cases hi with
      | device hi ha _ hans =>
          cases hans with
          | idle hn hq =>
              rw [charged_waiters] at hn
              rw [charged_active] at hq
              exact Panicking.unheard ⟨hc, hi⟩ ha hn hq
      | unexpected hi ha => exact Panicking.unexpected ⟨hc, hi⟩ ha
  | pass _ hpass => exact absurd rfl (hpass.quiet msg)
  | noCaller hc hq => exact Panicking.noCaller hc hq
  | leave hc hq _ => exact panics_of_call hwf hok hc hq hr

end Exceptions

/-- What processes and devices do to avoid a panic: there is a caller to every
    system call, `DOIO` gets the null pointer or the address of a command
    register, and a device interrupt reports the end of an operation. -/
structure Careful (L : Layout) (m : Machine) (e : Event) : Prop where
  caller : excClass e.hw.cause = .syscall → m.kernel.activeProcess ≠ none
  address : KernelCall DOIO m e → e.hw.bios.gpr .a1 = L.null ∨ ∃ u, e.hw.bios.gpr .a1 = commandReg u
  finished : DeviceInterrupt e → answer e.hw ≠ none

/-- The runs in which they do, and in which nobody is killed who waits for the
    answer of a device. -/
def careful (L : Layout) (b : Boot) : System Machine Event where
  init := (nucleus L b).init
  step m e m' := (nucleus L b).step m e m' ∧ Careful L m e ∧
    ∀ u p, m.pending u = some (.process p) → p ∉ m'.kernel.procq .pcbFree

/-- No semaphore of a device is raised, and whoever gave a command is alive. -/
structure Owed (L : Layout) (m : Machine) : Prop where
  zero : ∀ u : DevUnit, m.kernel.mem (L.semAddr u) = 0
  alive : ∀ u, m.pending u ≠ some .terminated

section Careful

variable {L : Layout} {m : Machine} {e : Event} {k : Kernel}

theorem disown_alive {i : Option Issuer} (h : i ≠ some .terminated)
    (hp : ∀ p, i = some (.process p) → p ∉ k.procq .pcbFree) : disown k i ≠ some .terminated := by
  cases i with
  | none => exact h
  | some i =>
      cases i with
      | terminated => exact absurd rfl h
      | process p =>
          rw [disown, if_neg (hp p rfl)]
          exact h

/-- Whoever a command waits for is in the queue of its sub-unit. -/
theorem Owed.waiting (h : Owed L m) (hwf : MachineWf L m) {u : DevUnit} (hp : m.pending u ≠ none) :
    waiters m.kernel (L.semAddr u) ≠ [] := by
  cases hi : m.pending u with
  | none => exact absurd hi hp
  | some i =>
      cases i with
      | terminated => exact absurd hi (h.alive u)
      | process p =>
          rw [hwf.owner u p hi]
          exact List.cons_ne_nil p []

/-- The semaphore of a device that has an issuer alive is never raised: its answer
    finds somebody in the queue. -/
theorem Owed.mem_after (h : Owed L m) (hwf : MachineWf L m) (hok : e.Ok L m)
    (heff : Effect L m e k) (u : DevUnit) : k.mem (L.semAddr u) = 0 := by
  have hz : e.mem (L.semAddr u) = 0 := (hok.mem _ (unit_lt u)).trans (h.zero u)
  cases heff with
  | still _ _ _ hmem => rw [hmem, hz]
  | create _ _ _ hmem => rw [hmem, hz]
  | kill _ _ _ _ _ hmem => rw [hmem, hz]
  | block _ _ _ _ _ hmem => rw [hmem, hz]
  | wake _ _ _ _ _ hmem => rw [hmem, hz]
  | @change op a bus why hn hv _ _ hmem =>
      by_cases ha : a = L.semAddr u
      · exfalso
        rcases why.device hok ha with ⟨rfl, _⟩ | ⟨_, _, hp, _⟩
        · rw [ha] at hv
          exact hv hz
        · rw [ha] at hn
          exact h.waiting hwf hp hn
      · rw [hmem]
        simp only [if_neg (fun hc : L.semAddr u = a => ha hc.symm), hz]
  | drain _ _ _ _ _ hmem =>
      rw [hmem]
      simp only [if_neg (semAddr_ne_timer L u), hz]

/-- A new command comes from the active process, and the old ones keep their
    issuers. -/
theorem Owed.devices_after (h : Owed L m) (hb : Between m.kernel) (hok : e.Ok L m)
    (heff : Effect L m e k)
    (hkeep : ∀ u p, m.pending u = some (.process p) → p ∉ k.procq .pcbFree) (u : DevUnit) :
    m.devices e k u ≠ some .terminated ∧
      ∀ p, m.devices e k u = some (.process p) → p ∉ k.procq .pcbFree := by
  have hold : m.devices e k u = m.pending u → m.devices e k u ≠ some .terminated ∧
      ∀ p, m.devices e k u = some (.process p) → p ∉ k.procq .pcbFree := by
    intro hd
    rw [hd]
    exact ⟨h.alive u, hkeep u⟩
  have hnone : m.devices e k u = none → m.devices e k u ≠ some .terminated ∧
      ∀ p, m.devices e k u = some (.process p) → p ∉ k.procq .pcbFree := by
    intro hd
    rw [hd]
    refine ⟨fun hx => ?_, fun p hx => ?_⟩
    · cases hx
    · cases hx
  have hsem : ∀ {op a}, Why L m e op a k.bus → k.procq .pcbFree = m.kernel.procq .pcbFree →
      m.devices e k u ≠ some .terminated ∧
        ∀ p, m.devices e k u = some (.process p) → p ∉ k.procq .pcbFree := by
    intro op a why hfree
    by_cases ha : a = L.semAddr u
    · rcases why.device hok ha with ⟨_, hc, _⟩ | ⟨_, hc, _, hbus⟩
      · rcases devices_call (m := m) (e := e) (k := k) (u := u) hc with hd | hd | hd
        · exact hold hd
        · exact hnone hd
        · cases hq : m.kernel.activeProcess with
          | none =>
              rw [hq] at hd
              exact hnone hd
          | some q =>
              rw [hq, Option.map_some] at hd
              rw [hd]
              refine ⟨fun hx => ?_, fun p hx => ?_⟩
              · cases hx
              · rw [Option.some.injEq, Issuer.process.injEq] at hx
                rw [hfree, ← hx]
                exact hb.at_.not_free (Option.mem_toFinset.mpr hq)
      · exact hnone (devices_acked hc hbus)
    · exact hold (devices_other why ha)
  cases heff with
  | still _ _ _ _ hbus => exact hold (devices_silent hbus u)
  | create _ _ _ _ hbus => exact hold (devices_silent hbus u)
  | kill _ _ _ _ _ _ hbus => exact hold (devices_silent hbus u)
  | block why _ _ hfree _ _ hbus => exact hsem (hbus ▸ why) hfree
  | wake why _ _ hfree _ _ hbus => exact hsem (hbus ▸ why) hfree
  | change why _ _ hfree _ _ hbus => exact hsem (hbus ▸ why) hfree
  | drain _ _ _ _ _ _ hbus => exact hold (devices_silent hbus u)

/-- One exception of a careful run keeps every device owed an answer by somebody
    alive. -/
theorem owed_after (h : Owed L m) (hwf : MachineWf L m) (hok : e.Ok L m)
    (hk : (m.outcome L e).next = some k)
    (hkeep : ∀ u p, m.pending u = some (.process p) → p ∉ k.procq .pcbFree) :
    Owed L (m.after e k) := by
  have heff := (effect_of_next hwf hok hk).1
  refine ⟨h.mem_after hwf hok heff, fun u => ?_⟩
  rcases h.devices_after hwf.between hok heff hkeep u with ⟨hne, hlive⟩
  exact disown_alive hne hlive

/-- No device is raised in a careful run, and every device is owed by somebody
    alive. -/
theorem careful_run {b : Boot} {es : List Event} (h : (careful L b).Run es m) :
    (nucleus L b).Run es m ∧ Owed L m := by
  have hrun : ∀ {es m}, (careful L b).Run es m → (nucleus L b).Run es m := by
    intro es m hr
    exact System.run_mono (S := careful L b) (T := nucleus L b) (fun _ hm => hm)
      (fun _ _ _ hs => hs.1) hr
  refine ⟨hrun h, System.run_invariant (fun m hm => ?_) (fun es m e m' hr ho hs => ?_) h⟩
  · rcases hm with ⟨hk, hpend⟩
    refine ⟨fun u => main_mem hk (unit_lt u), fun u => ?_⟩
    rw [hpend]
    simp only [ne_eq, reduceCtorEq, not_false_eq_true]
  · rcases hs with ⟨⟨hok, k, hk, rfl⟩, _, hkeep⟩
    exact owed_after ho (machineWf_run (hrun hr)) hok hk hkeep

end Careful

/-- In every careful run no semaphore of a device is ever raised, the next
    careful exception is no panic, and if it is the answer of a device, the
    process that gave the command gets it. -/
theorem careful_never_panics {L : Layout} {b : Boot} {es : List Event} {m : Machine}
    (h : (careful L b).Run es m) : (∀ u : DevUnit, m.kernel.mem (L.semAddr u) = 0) ∧
      ∀ e, e.Ok L m → Careful L m e → (∀ msg, m.outcome L e ≠ .panic msg) ∧
        (DeviceInterrupt e → Delivered L m e) := by
  rcases careful_run h with ⟨hrun, howed⟩
  have hwf := machineWf_run hrun
  refine ⟨howed.zero, fun e hok hc => ⟨fun msg hm => ?_, fun hdev => ?_⟩⟩
  · cases panics_of_panic hwf hok hm with
    | noCaller hs hp => exact hc.caller hs hp
    | nowhere hcall ha hout =>
        rcases hc.address hcall with hn | ⟨u, hu⟩
        · exact ha hn
        · rcases getIodev_commandReg L u with ⟨line, hd⟩
          rw [← hu] at hd
          exact absurd ((getIodev_ok_iff L _).mp ⟨_, hd⟩) (Nat.not_lt_of_le hout)
    | raised _ _ _ hv =>
        rw [howed.zero ⟨_, blockUnit_lt _⟩] at hv
        exact absurd hv (by decide)
    | unheard hdev ha hn _ =>
        exact howed.waiting hwf (handled_answer hdev (handleException_spec hwf hok) ha).1 hn
    | unexpected hdev ha => exact hc.finished hdev ha
  · refine delivered_of_owned hwf hok hdev ?_
    rcases handled_device hdev (handleException_spec hwf hok) with
      ⟨u, status, ha, hpend, _⟩ | ⟨ha, _⟩
    · cases hi : m.pending u with
      | none => exact absurd hi hpend
      | some i =>
          cases i with
          | terminated => exact absurd hi (howed.alive u)
          | process p => exact ⟨u, status, p, ha, hi⟩
    · exact absurd ha (hc.finished hdev)

/-- The first process writes a command to a flash device, which answers it. -/
theorem careful_never_panics_sample : ∃ es m e, (careful sampleLayout sampleBoot).Run es m ∧
    e.Ok sampleLayout m ∧ DeviceInterrupt e ∧ Delivered sampleLayout m e := by
  have hstart : (Machine.start sampleLayout sampleBoot).any (fun m =>
      decide (m.kernel.activeProcess = some 19 ∧ (Event.quiet m flashCommand).Ok sampleLayout m) &&
      (m.next sampleLayout (Event.quiet m flashCommand)).any (fun m' =>
        decide ((Event.quiet m' flashReady).Ok sampleLayout m'))) = true := by
    decide +kernel
  rw [Option.any_eq_true] at hstart
  rcases hstart with ⟨m, hm, hall⟩
  rw [Bool.and_eq_true, decide_eq_true_iff, Option.any_eq_true] at hall
  rcases hall with ⟨⟨hp, hok⟩, m', hm', hok'⟩
  have hinit := init_of_start hm
  have hcall : excClass flashCommand.1.cause ≠ .interrupt := by decide
  have hready : DeviceInterrupt (Event.quiet m' flashReady) := by
    have hdev : excClass flashReady.1.cause = .interrupt ∧
        intClass flashReady.1.cause = .device := by
      decide
    exact hdev
  have hrun : (careful sampleLayout sampleBoot).Run [Event.quiet m flashCommand] m' := by
    refine System.Run.step (System.Run.init hinit) ⟨step_iff_next.mpr ⟨hok, hm'⟩,
      ⟨fun _ hn => ?_, fun _ => Or.inr ⟨⟨8, by decide⟩, rfl⟩, fun hdev => absurd hdev.1 hcall⟩,
      fun u p hu => ?_⟩
    · rw [hp] at hn
      cases hn
    · rw [hinit.2] at hu
      cases hu
  have hsys : excClass flashReady.1.cause ≠ .syscall := by decide
  have hans : answer flashReady.1 ≠ none := by decide
  exact ⟨_, _, _, hrun, of_decide_eq_true hok', hready, ((careful_never_panics hrun).2 _
    (of_decide_eq_true hok') ⟨fun hc => absurd hc hsys, fun hc => absurd hc.1 hsys,
      fun _ => hans⟩).2 hready⟩

end Pandos
