import Mathlib.Data.Nat.Init
import Pandos.Theory.Runs

/-!
# Replaying Exceptions

Runs that are computed. The machine is trusted with conditions that range over
finitely many lines, devices and semaphores, so a list of exceptions can be
replayed and each one checked on the way. Processes leave memory alone between
the exceptions of a replay.

The machine of the samples is as plain as the layout allows: memory is zero and
no device has anything to say unless an exception is about it.

## Main definitions

* `Machine.next`: The machine after an exception, if it goes on.
* `Machine.start`: The machine after initialisation.
* `replay`: The machine after a list of exceptions.
* `sampleLayout`, `sampleBoot`: The machine of the samples.
* `callHw`, `interruptHw`: The hardware at a system call and at an interrupt.

## Theorems

* `step_iff_next`: The steps of the nucleus are computed by `next`.
* `exists_run_of`, `exists_run`: A replay shows that a run exists.
-/

namespace Pandos

/-- The machine after an exception, if the nucleus goes on. -/
def Machine.next (L : Layout) (m : Machine) (e : Event) : Option Machine :=
  (m.outcome L e).next.map (m.after e)

/-- The machine after initialisation. -/
def Machine.start (L : Layout) (b : Boot) : Option Machine :=
  (main L b).next.map (fun k => { kernel := k, pending := fun _ => none })

theorem step_iff_next {L : Layout} {b : Boot} {m m' : Machine} {e : Event} :
    (nucleus L b).step m e m' ↔ e.Ok L m ∧ m.next L e = some m' := by
  refine and_congr_right (fun _ => ?_)
  rw [Machine.next, Option.map_eq_some_iff]
  constructor
  · rintro ⟨k, hk, rfl⟩
    exact ⟨k, hk, rfl⟩
  · rintro ⟨k, hk, rfl⟩
    exact ⟨k, hk, rfl⟩

theorem init_of_start {L : Layout} {b : Boot} {m : Machine} (h : Machine.start L b = some m) :
    (nucleus L b).init m := by
  rw [Machine.start, Option.map_eq_some_iff] at h
  rcases h with ⟨k, hk, rfl⟩
  exact ⟨hk, rfl⟩

/-! ## What the machine is trusted with -/

/-- The conditions on an event as one conjunction. -/
theorem event_trusted_iff (L : Layout) (m : Machine) (e : Event) : e.Trusted L m ↔
    (∀ i, i < SEMAPHORES_NUM → e.mem (L.semAddr i) = m.kernel.mem (L.semAddr i)) ∧
    (excClass e.hw.cause = .syscall → isUserMode e.hw.bios = false →
      (e.hw.bios.gpr .a0).toInt = PASSEREN ∨ (e.hw.bios.gpr .a0).toInt = VERHOGEN →
      e.hw.bios.gpr .a1 ≠ L.null →
      Aligned (e.hw.bios.gpr .a1) ∧ ∀ u : DevUnit, e.hw.bios.gpr .a1 ≠ L.semAddr u) ∧
    (∀ il, IL_DISK ≤ il → il ≤ IL_TERMINAL → e.hw.cause &&& CAUSE_IP il ≠ 0 →
      e.hw.bitmap il ≠ 0 ∧ (e.hw.bitmap il).toNat < 2 ^ N_DEV_PER_IL) ∧
    (∀ il, IL_DISK ≤ il → il ≤ IL_PRINTER → ∀ devN, deviceBit (e.hw.bitmap il) devN →
      m.pending (genericUnit il devN) ≠ none) ∧
    (∀ devN, deviceBit (e.hw.bitmap IL_TERMINAL) devN →
      m.pending (transmUnit devN) ≠ none ∨ m.pending (recvUnit devN) ≠ none) ∧
    (∀ devN : Fin 8,
      (e.hw.devreg IL_TERMINAL devN).transmStatus &&& TERMSTATMASK = DEV_STATUS_TERMINAL_OK →
      m.pending (transmUnit devN) ≠ none) ∧
    (∀ devN : Fin 8,
      (e.hw.devreg IL_TERMINAL devN).status &&& TERMSTATMASK = DEV_STATUS_TERMINAL_OK →
      m.pending (recvUnit devN) ≠ none) ∧
    (∀ il, IL_DISK ≤ il → il ≤ IL_PRINTER → ∀ devN : Fin 8, m.pending (genericUnit il devN) ≠ none →
      (e.hw.devreg il devN).status &&& TERMSTATMASK ≠ DEV_STATUS_NOTINSTALLED) ∧
    (∀ devN : Fin 8, m.pending (transmUnit devN) ≠ none ∨ m.pending (recvUnit devN) ≠ none →
      (e.hw.devreg IL_TERMINAL devN).transmStatus &&& TERMSTATMASK ≠ DEV_STATUS_NOTINSTALLED ∧
        (e.hw.devreg IL_TERMINAL devN).status &&& TERMSTATMASK ≠ DEV_STATUS_NOTINSTALLED) := by
  constructor
  · intro h
    exact ⟨h.mem, h.request, h.line, fun il h3 h6 devN => h.generic il devN h3 h6, h.terminal,
      h.transm, h.recv, fun il h3 h6 devN => h.installed il devN h3 h6, h.installedTerm⟩
  · rintro ⟨hmem, hreq, hline, hgen, hterm, htr, hrc, hinst, hinstT⟩
    exact ⟨hmem, hreq, hline, fun il devN h3 h6 => hgen il h3 h6 devN, hterm, htr, hrc,
      fun il devN h3 h6 => hinst il h3 h6 devN, hinstT⟩

set_option synthInstance.maxSize 512 in
instance (L : Layout) (m : Machine) (e : Event) : Decidable (e.Trusted L m) :=
  decidable_of_iff _ (event_trusted_iff L m e).symm

theorem event_ok_iff (L : Layout) (m : Machine) (e : Event) : e.Ok L m ↔ e.Trusted L m ∧
    (excClass e.hw.cause = .syscall → isUserMode e.hw.bios = false →
      (e.hw.bios.gpr .a0).toInt = DOIO → e.hw.bios.gpr .a1 ≠ L.null →
      (e.hw.bios.gpr .a1 - DEV_REG_START).toNat < 96 * 16 → Aligned (e.hw.bios.gpr .a1)) :=
  ⟨fun h => ⟨h.toTrusted, h.command⟩, fun h => ⟨h.1, h.2⟩⟩

instance (L : Layout) (m : Machine) (e : Event) : Decidable (e.Ok L m) :=
  decidable_of_iff _ (event_ok_iff L m e).symm

/-! ## Replays -/

/-- An exception that finds memory as the nucleus left it. -/
def Event.quiet (m : Machine) (x : Hw × Accept) : Event :=
  { mem := m.kernel.mem, sup := m.kernel.sup, hw := x.1, accept := x.2 }

/-- The machine after one exception of a replay, if it is trusted with it and
    goes on. -/
def replayStep (L : Layout) (m : Machine) (x : Hw × Accept) : Option Machine :=
  if (Event.quiet m x).Ok L m then m.next L (Event.quiet m x) else none

/-- The machine after a list of exceptions. -/
def replay (L : Layout) (m : Machine) (xs : List (Hw × Accept)) : Option Machine :=
  xs.foldlM (replayStep L) m

theorem replayStep_some {L : Layout} {m m' : Machine} {x : Hw × Accept}
    (h : replayStep L m x = some m') :
    (Event.quiet m x).Ok L m ∧ m.next L (Event.quiet m x) = some m' := by
  unfold replayStep at h
  split at h
  · rename_i hok
    exact ⟨hok, h⟩
  · exact absurd h (by simp only [reduceCtorEq, not_false_eq_true])

/-- A replay is a run of every system that allows its steps. -/
theorem run_of_replay {L : Layout} {S : System Machine Event} (xs : List (Hw × Accept))
    (hs : ∀ x ∈ xs, ∀ m m', (Event.quiet m x).Ok L m → m.next L (Event.quiet m x) = some m' →
      S.step m (Event.quiet m x) m')
    {es : List Event} {m m' : Machine} (hrun : S.Run es m) (h : replay L m xs = some m') :
    ∃ es', S.Run es' m' := by
  refine System.run_of_foldlM xs (fun x hx m m' hstep => ?_) hrun h
  rcases replayStep_some hstep with ⟨hok, hn⟩
  exact ⟨Event.quiet m x, hs x hx m m' hok hn⟩

/-- A replay that ends in a machine with a property shows that some run does. -/
theorem exists_run_of {L : Layout} {b : Boot} {S : System Machine Event}
    (hi : ∀ m, Machine.start L b = some m → S.init m) (xs : List (Hw × Accept))
    (hs : ∀ x ∈ xs, ∀ m m', (Event.quiet m x).Ok L m → m.next L (Event.quiet m x) = some m' →
      S.step m (Event.quiet m x) m') (P : Machine → Prop) [DecidablePred P]
    (h : ((Machine.start L b).bind (fun m => replay L m xs)).any (fun m => decide (P m)) = true) :
    ∃ es m, S.Run es m ∧ P m := by
  rw [Option.any_eq_true] at h
  rcases h with ⟨m, hm, hp⟩
  rw [Option.bind_eq_some_iff] at hm
  rcases hm with ⟨m₀, hstart, hreplay⟩
  rcases run_of_replay xs hs (System.Run.init (hi m₀ hstart)) hreplay with ⟨es, hrun⟩
  exact ⟨es, m, hrun, of_decide_eq_true hp⟩

theorem exists_run {L : Layout} {b : Boot} (xs : List (Hw × Accept)) (P : Machine → Prop)
    [DecidablePred P]
    (h : ((Machine.start L b).bind (fun m => replay L m xs)).any (fun m => decide (P m)) = true) :
    ∃ es m, (nucleus L b).Run es m ∧ P m :=
  exists_run_of (fun _ hm => init_of_start hm) xs
    (fun _ _ _ _ hok hn => step_iff_next.mpr ⟨hok, hn⟩) P h

/-! ## The machine of the samples -/

/-- The semaphores of the nucleus in the middle of RAM, the null pointer at the
    end of the address space. -/
def sampleLayout : Layout where
  null := 0xFFFFFFFF
  semaphores := 0x20001000
  aligned := by decide
  fits := by decide
  not_null := by decide

/-- Hardware without anything to report. -/
def quietHw : Hw where
  bios := nullState
  cause := 0
  status := 0
  todEntry := 0
  todSyscall := 0
  todReturn := 0
  todTakeover := 0
  bitmap := fun _ => 0
  devreg := fun _ _ => { status := 1, transmStatus := 1 }
  readState := fun _ => nullState

/-- A machine whose memory is zero. -/
def sampleBoot : Boot where
  mem := fun _ => 0
  sup := fun _ => { supExceptState := fun _ => nullState, supExceptContext := fun _ =>
    { stackPtr := 0, status := 0, pc := 0 } }
  tod := 0
  ramTop := 0x20100000
  initPc := 0x20000000
  hw := quietHw

/-- The hardware at a system call. -/
def callHw (id : Int) (a1 a2 a3 : Word) : Hw :=
  { quietHw with
    cause := 8 <<< CAUSESHIFT
    bios :=
      (((nullState.setReg .a0 (BitVec.ofInt 32 id)).setReg .a1 a1).setReg .a2 a2).setReg .a3 a3 }

/-- The hardware at an interrupt of one line. -/
def interruptHw (il : Nat) (bitmap : Word) (reg : DevReg) : Hw :=
  { quietHw with
    cause := CAUSE_IP il
    bitmap := fun i => if i = il then bitmap else 0
    devreg := fun _ _ => reg }

/-- A machine that created a process, blocked the first one on a semaphore and
    handled a tick. -/
theorem sample_run : ∃ es m, (nucleus sampleLayout sampleBoot).Run es m ∧
    m.kernel.processCount.val = 2 ∧ m.kernel.softblockCount.val = 1 ∧
      19 ∉ m.kernel.procq .pcbFree :=
  exists_run [(callHw CREATEPROCESS 0x20002000 0 0x20003000, .ignore),
    (callHw PASSEREN 0x20004000 0 0, .ignore),
    (interruptHw IL_TIMER 0 { status := 1, transmStatus := 1 }, .ignore)]
    (fun m => m.kernel.processCount.val = 2 ∧ m.kernel.softblockCount.val = 1 ∧
      19 ∉ m.kernel.procq .pcbFree) (by decide +kernel)

end Pandos
