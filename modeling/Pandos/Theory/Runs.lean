import Pandos.Theory.Boot
import Pandos.Theory.Effects

/-!
# Runs of the Nucleus

The invariant of the machine holds in every run. For the queues and the
counters that is the contract of the handlers and the scheduler; for the
device semaphores it follows from the effects of an exception, together with
the stores to the command registers that come with them.

## Theorems

* `Why.device`: Who operates on the semaphore of a device.
* `sem_zero_of_pending`: The semaphore of a device with a command is zero.
* `devices_other`: A sub-unit hears of its own semaphore only.
* `machineWf_after`: One exception keeps the invariant.
* `machineWf_run`: The invariant holds in every run.
-/

namespace Pandos

section Device

variable {L : Layout} {m : Machine} {e : Event}

/-- Only `DOIO` and the handler of its interrupt operate on the semaphore of a
    device. -/
theorem Why.device (hok : e.Ok L m) {op : SemOp} {a : Word} {bus : List (Word × Word)}
    (h : Why L m e op a bus) {u : DevUnit} (ha : a = L.semAddr u) :
    (op = .P ∧ excClass e.hw.cause = .syscall ∧ waiters m.kernel (L.semAddr u) = [] ∧
      e.mem (L.semAddr u) = 0) ∨
    (op = .V ∧ excClass e.hw.cause = .interrupt ∧ m.pending u ≠ none ∧
      bus = [(commandReg u, DEV_C_ACK)]) := by
  cases h with
  | passeren hc hp hid hu hn => exact absurd ha ((hok.request hc hu (Or.inl hid) hn).2 u)
  | verhogen hc hp hid hu hn => exact absurd ha ((hok.request hc hu (Or.inr hid) hn).2 u)
  | clock => exact absurd ha.symm (semAddr_ne_timer L u)
  | @io p v line hc hp hid hdev hn hv =>
      have huv : v = u := Fin.ext (semAddr_inj L (unit_lt v) (unit_lt u) ha)
      subst huv
      exact Or.inl ⟨rfl, hc, hn, hv⟩
  | @answer v status hc hi hans hp =>
      have huv : v = u := Fin.ext (semAddr_inj L (unit_lt v) (unit_lt u) ha)
      subst huv
      exact Or.inr ⟨rfl, hc, hp, rfl⟩

/-- The semaphore of a sub-unit with a command is zero. -/
theorem sem_zero_of_pending (hwf : MachineWf L m) (hok : e.Ok L m) {u : DevUnit}
    (hp : m.pending u ≠ none) : e.mem (L.semAddr u) = 0 := by
  rw [hok.mem _ (unit_lt u)]
  exact (hwf.device u).resolve_right (fun h1 => hp (hwf.raised u h1).2)

/-- A store to a command register comes with an operation on the semaphore of
    its sub-unit. -/
theorem Why.stores {op : SemOp} {a : Word} {bus : List (Word × Word)} (h : Why L m e op a bus)
    {u : DevUnit} (hu : bus.any (fun st => st.1 == commandReg u) = true) : a = L.semAddr u := by
  cases h with
  | passeren => exact absurd hu (by simp only [List.any_nil, Bool.false_eq_true, not_false_eq_true])
  | verhogen => exact absurd hu (by simp only [List.any_nil, Bool.false_eq_true, not_false_eq_true])
  | clock => exact absurd hu (by simp only [List.any_nil, Bool.false_eq_true, not_false_eq_true])
  | @io p v line hc hp hid hdev hn hv =>
      have hreg : e.hw.bios.gpr .a1 = commandReg u := by
        simpa only [List.any_cons, List.any_nil, Bool.or_false, beq_iff_eq] using hu
      rcases getIodev_commandReg L u with ⟨il, hil⟩
      rw [hreg, hil, Except.ok.injEq, Iodev.mk.injEq] at hdev
      exact hdev.1.symm
  | @answer v status hc hi hans hp =>
      have hreg : commandReg v = commandReg u := by
        simpa only [List.any_cons, List.any_nil, Bool.or_false, beq_iff_eq] using hu
      rw [commandReg_inj v u hreg]

theorem devices_silent {k : Kernel} (hbus : k.bus = []) (u : DevUnit) :
    m.devices e k u = m.pending u := by
  rw [Machine.devices, hbus]
  rfl

/-- A sub-unit hears of the operations on its own semaphore only. -/
theorem devices_other {op : SemOp} {a : Word} {k : Kernel} (h : Why L m e op a k.bus)
    {u : DevUnit} (ha : a ≠ L.semAddr u) : m.devices e k u = m.pending u := by
  rw [Machine.devices, if_neg (fun hu => ha (h.stores hu))]

/-- An acknowledgement leaves the sub-unit without a command. -/
theorem devices_acked {k : Kernel} {u : DevUnit} (hc : excClass e.hw.cause = .interrupt)
    (hbus : k.bus = [(commandReg u, DEV_C_ACK)]) : m.devices e k u = none := by
  have hany : k.bus.any (fun st => st.1 == commandReg u) = true := by
    rw [hbus]
    simp only [List.any_cons, beq_self_eq_true, Bool.true_or]
  rw [Machine.devices, if_pos hany, hc, if_neg (by simp only [reduceCtorEq, not_false_eq_true])]

/-- The commands of a sub-unit after `DOIO`: the old one, none, or that of the
    caller. -/
theorem devices_call {k : Kernel} {u : DevUnit} (hc : excClass e.hw.cause = .syscall) :
    m.devices e k u = m.pending u ∨ m.devices e k u = none ∨
      m.devices e k u = m.kernel.activeProcess.map .process := by
  unfold Machine.devices
  by_cases hb : k.bus.any (fun st => st.1 == commandReg u) = true
  · rw [if_pos hb, if_pos hc]
    cases e.accept with
    | ignore => exact Or.inl rfl
    | finish => exact Or.inr (Or.inl rfl)
    | start => exact Or.inr (Or.inr rfl)
  · rw [if_neg hb]
    exact Or.inl rfl

theorem disown_none (k : Kernel) {i : Option Issuer} (h : i = none) : disown k i = none := by
  rw [h]
  rfl

/-- A command keeps its owner while the owner lives. -/
theorem disown_process {k : Kernel} {i : Option Issuer} {p : PcbId}
    (h : disown k i = some (.process p)) : i = some (.process p) ∧ p ∉ k.procq .pcbFree := by
  cases i with
  | none => exact absurd h (by simp only [disown, reduceCtorEq, not_false_eq_true])
  | some i =>
      cases i with
      | terminated => exact absurd h (by simp only [disown, Option.some.injEq, reduceCtorEq,
          not_false_eq_true])
      | process q =>
          simp only [disown, Option.some.injEq] at h
          split at h
          · exact absurd h (by simp only [reduceCtorEq, not_false_eq_true])
          · rename_i hq
            have hqp : q = p := Issuer.process.inj h
            exact ⟨by rw [hqp], hqp ▸ hq⟩

end Device

/-! ## One exception -/

/-- The values zero and one are closed under operations that do not block. -/
theorem binary_next {v : Word} (hv : v = 0 ∨ v = 1) {op : SemOp} (hb : v ≠ op.bound) :
    op.next v = 0 ∨ op.next v = 1 := by
  cases op with
  | P =>
      rw [hv.resolve_left hb]
      exact Or.inl rfl
  | V =>
      rw [hv.resolve_right hb]
      exact Or.inr rfl

/-- The value of a semaphore that was zero or one stays zero or one. -/
theorem Effect.binary {L : Layout} {m : Machine} {e : Event} {k : Kernel} (h : Effect L m e k)
    {a : Word} (hv : e.mem a = 0 ∨ e.mem a = 1) : k.mem a = 0 ∨ k.mem a = 1 := by
  cases h with
  | still _ _ _ hmem => rwa [hmem]
  | create _ _ _ hmem => rwa [hmem]
  | kill _ _ _ _ _ hmem => rwa [hmem]
  | block _ _ _ _ _ hmem => rwa [hmem]
  | wake _ _ _ _ _ hmem => rwa [hmem]
  | @change op b _ _ _ hne _ _ hmem =>
      rw [hmem]
      by_cases hab : a = b
      · simp only [if_pos hab]
        subst hab
        exact binary_next hv hne
      · simp only [if_neg hab]
        exact hv
  | drain _ _ _ _ _ hmem =>
      rw [hmem]
      by_cases hab : a = getTimerSemaphore L
      · simp only [if_pos hab]
        exact Or.inr trivial
      · simp only [if_neg hab]
        exact hv

/-- A raised device semaphore stays without waiters and without a command. -/
theorem Effect.raised {L : Layout} {m : Machine} {e : Event} {k : Kernel} (hwf : MachineWf L m)
    (hok : e.Ok L m) (h : Effect L m e k) (u : DevUnit) (hv : k.mem (L.semAddr u) = 1) :
    waiters k (L.semAddr u) = [] ∧ m.devices e k u = none := by
  -- A value of one before the step means that nobody waits and no operation is pending.
  have hold : e.mem (L.semAddr u) = 1 →
      waiters m.kernel (L.semAddr u) = [] ∧ m.pending u = none := by
    intro h1
    rw [hok.mem _ (unit_lt u)] at h1
    exact hwf.raised u h1
  cases h with
  | still _ _ hwait hmem hbus =>
      rw [hmem] at hv
      rw [hwait, devices_silent hbus]
      exact hold hv
  | create _ _ hwait hmem hbus =>
      rw [hmem] at hv
      rw [hwait, devices_silent hbus]
      exact hold hv
  | kill _ _ _ _ hwait hmem hbus =>
      rw [hmem] at hv
      rw [hwait, devices_silent hbus, (hold hv).1]
      exact ⟨rfl, (hold hv).2⟩
  | @block op a bus p why _ hb _ hwait hmem hbus =>
      rw [hmem] at hv
      subst hbus
      by_cases ha : a = L.semAddr u
      · rw [ha, hv] at hb
        -- A step that waits here finds the semaphore at its bound.
        rcases why.device hok ha with ⟨rfl, _⟩ | ⟨rfl, _, hp, _⟩
        · exact absurd hb (by decide)
        · exact absurd (hold hv).2 hp
      · rw [hwait, if_neg (fun h => ha h.symm), devices_other why ha]
        exact hold hv
  | @wake op a bus t ts why ht _ _ hwait hmem hbus =>
      rw [hmem] at hv
      subst hbus
      by_cases ha : a = L.semAddr u
      · rw [ha, (hold hv).1] at ht
        exact absurd ht (by simp only [List.nil_eq, reduceCtorEq, not_false_eq_true])
      · rw [hwait, if_neg (fun h => ha h.symm), devices_other why ha]
        exact hold hv
  | @change op a bus why hn hb _ hwait hmem hbus =>
      subst hbus
      rw [hmem] at hv
      by_cases ha : a = L.semAddr u
      · simp only [ha, if_true] at hv
        rw [hwait, ← ha]
        refine ⟨hn, ?_⟩
        rcases why.device hok ha with ⟨rfl, _, _, hz⟩ | ⟨rfl, hc, _, hbus⟩
        · rw [hz] at hv
          exact absurd hv (by decide)
        · exact devices_acked hc hbus
      · simp only [if_neg (fun h : L.semAddr u = a => ha h.symm)] at hv
        rw [hwait, devices_other why ha]
        exact hold hv
  | drain _ _ _ _ hwait hmem hbus =>
      rw [hmem] at hv
      simp only [if_neg (semAddr_ne_timer L u)] at hv
      rw [hwait, if_neg (semAddr_ne_timer L u), devices_silent hbus]
      exact hold hv

/-- The owner of a command that has not been answered waits alone. -/
theorem Effect.owner {L : Layout} {m : Machine} {e : Event} {k : Kernel} (hwf : MachineWf L m)
    (hok : e.Ok L m) (h : Effect L m e k) (u : DevUnit) {p : PcbId}
    (hd : m.devices e k u = some (.process p)) (hp : p ∉ k.procq .pcbFree) :
    waiters k (L.semAddr u) = [p] := by
  have hold : m.devices e k u = m.pending u → waiters m.kernel (L.semAddr u) = [p] :=
    fun h => hwf.owner u p (h ▸ hd)
  cases h with
  | still _ _ hwait _ hbus =>
      rw [hwait]
      exact hold (devices_silent hbus u)
  | create _ _ hwait _ hbus =>
      rw [hwait]
      exact hold (devices_silent hbus u)
  | kill _ _ _ hfree hwait _ hbus =>
      have hpk : p ∉ _ := fun h => hp (hfree ▸ List.mem_append_left _ h)
      rw [hwait, hold (devices_silent hbus u), List.filter_eq_self]
      intro q hq
      rw [List.mem_singleton.mp hq]
      exact decide_eq_true hpk
  | @block op a bus q why hq hb _ hwait _ hbus =>
      subst hbus
      by_cases ha : a = L.semAddr u
      · rw [hwait, if_pos ha.symm, ha]
        -- Either the process has just given the command, or an interrupt waits, which it never
        -- does.
        rcases why.device hok ha with ⟨_, hc, hn, _⟩ | ⟨rfl, _, hpend, _⟩
        · rcases devices_call (m := m) (e := e) (k := k) (u := u) hc with h | h | h
          · rw [hold h] at hn
            exact absurd hn (by simp only [reduceCtorEq, not_false_eq_true])
          · rw [hd] at h
            exact absurd h (by simp only [reduceCtorEq, not_false_eq_true])
          · rw [hd, hq, Option.map_some, Option.some.injEq, Issuer.process.injEq] at h
            rw [hn, h]
            rfl
        · rw [ha, hok.mem _ (unit_lt u)] at hb
          exact absurd (hwf.raised u hb).2 hpend
      · rw [hwait, if_neg (fun h => ha h.symm)]
        exact hold (devices_other why ha)
  | @wake op a bus t ts why ht hb _ hwait _ hbus =>
      subst hbus
      by_cases ha : a = L.semAddr u
      · rcases why.device hok ha with ⟨rfl, _, _, hz⟩ | ⟨_, hc, _, hbus⟩
        · exact absurd (ha ▸ hz) hb
        · rw [devices_acked hc hbus] at hd
          exact absurd hd (by simp only [reduceCtorEq, not_false_eq_true])
      · rw [hwait, if_neg (fun h => ha h.symm)]
        exact hold (devices_other why ha)
  | @change op a bus why hn hb _ hwait _ hbus =>
      subst hbus
      by_cases ha : a = L.semAddr u
      · rcases why.device hok ha with ⟨rfl, _, _, hz⟩ | ⟨_, hc, _, hbus⟩
        · exact absurd (ha ▸ hz) hb
        · rw [devices_acked hc hbus] at hd
          exact absurd hd (by simp only [reduceCtorEq, not_false_eq_true])
      · rw [hwait]
        exact hold (devices_other why ha)
  | drain _ _ _ _ hwait _ hbus =>
      rw [hwait, if_neg (semAddr_ne_timer L u)]
      exact hold (devices_silent hbus u)

/-- One exception keeps the invariant of the machine. -/
theorem machineWf_after {L : Layout} {m : Machine} {e : Event} (hwf : MachineWf L m)
    (hok : e.Ok L m) {k : Kernel} (hk : (m.outcome L e).next = some k) :
    MachineWf L (m.after e k) := by
  rcases effect_of_next hwf hok hk with ⟨heff, hb⟩
  refine ⟨hb, heff.binary ?_, fun u => heff.binary ?_, fun u hv => ?_, fun u p hp => ?_⟩
  · rw [show e.mem (getTimerSemaphore L) = m.kernel.mem (getTimerSemaphore L) from
      hok.mem _ (Nat.lt_succ_self 48)]
    exact hwf.timer
  · rw [hok.mem _ (unit_lt u)]
    exact hwf.device u
  · rcases heff.raised hwf hok u hv with ⟨hn, hd⟩
    exact ⟨hn, disown_none k hd⟩
  · rcases disown_process hp with ⟨hd, hfree⟩
    exact heff.owner hwf hok u hd hfree

/-- The invariant of the machine holds in every run. -/
theorem machineWf_run {L : Layout} {b : Boot} {es : List Event} {m : Machine}
    (h : (nucleus L b).Run es m) : MachineWf L m := by
  refine System.run_invariant (fun m hm => ?_) (fun es m e m' _ hwf hstep => ?_) h
  · rcases hm with ⟨hk, hpend⟩
    have hwf := machineWf_main hk
    rwa [← hpend] at hwf
  · rcases hstep with ⟨hok, k, hk, rfl⟩
    exact machineWf_after hwf hok hk

end Pandos
