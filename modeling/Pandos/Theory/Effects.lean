import Pandos.Theory.Exceptions

/-!
# Effects of an Exception

What one exception does to processes and semaphores, without registers, times
and ready queues: it does nothing, creates a process, kills a subtree, carries
out one operation on one semaphore, or drains the timer semaphore. The
invariants of runs that speak about semaphores are shown for each effect.

An operation comes with its occasion: who asked for it, on which word, and what
was written to a device register meanwhile.

## Main definitions

* `SemOp.bound`, `SemOp.next`: The value at which an operation blocks, and the
  change it makes to any other.
* `asked`: The semaphore operation an exception is about.
* `Why`: The occasion of an operation.
* `Effect`: What an exception does to processes and semaphores.
* `Ended`: How an exception ends.

## Theorems

* `Why.asked`: Who asks for an operation.
* `Handled.effect`: Every branch of the handler has one of the effects.
* `outcome_cases`, `outcome_spec`: How the next exception ends.
* `effect_of_next`: The effect of an exception after which the nucleus goes on.
* `next_of_asked`: The nucleus goes on after an operation on a semaphore.
-/

namespace Pandos

open Forest

/-- The value at which an operation blocks. -/
def SemOp.bound : SemOp → Word
  | .P => 0
  | .V => 1

/-- What an operation that neither blocks nor wakes does to the value. -/
def SemOp.next : SemOp → Word → Word
  | .P, v => v - 1
  | .V, v => v + 1

/-- The semaphore operation the exception is a system call for. -/
def asked (L : Layout) (m : Machine) (e : Event) : Option (SemOp × Word) :=
  if excClass e.hw.cause = .syscall ∧ m.kernel.activeProcess ≠ none then semRequest L e.hw.bios
  else none

/-- The occasion of an operation on a semaphore, with the stores to device
    registers it comes with. -/
inductive Why (L : Layout) (m : Machine) (e : Event) : SemOp → Word → List (Word × Word) → Prop
  | passeren {p : PcbId} (hc : excClass e.hw.cause = .syscall)
      (hp : m.kernel.activeProcess = some p) (hid : (e.hw.bios.gpr .a0).toInt = PASSEREN)
      (hu : isUserMode e.hw.bios = false) (hn : e.hw.bios.gpr .a1 ≠ L.null) :
      Why L m e .P (e.hw.bios.gpr .a1) []
  | verhogen {p : PcbId} (hc : excClass e.hw.cause = .syscall)
      (hp : m.kernel.activeProcess = some p) (hid : (e.hw.bios.gpr .a0).toInt = VERHOGEN)
      (hu : isUserMode e.hw.bios = false) (hn : e.hw.bios.gpr .a1 ≠ L.null) :
      Why L m e .V (e.hw.bios.gpr .a1) []
  | clock {p : PcbId} (hc : excClass e.hw.cause = .syscall)
      (hp : m.kernel.activeProcess = some p) (hid : (e.hw.bios.gpr .a0).toInt = CLOCKWAIT)
      (hu : isUserMode e.hw.bios = false) : Why L m e .P (getTimerSemaphore L) []
  | io {p : PcbId} {u : DevUnit} {line : Int} (hc : excClass e.hw.cause = .syscall)
      (hp : m.kernel.activeProcess = some p) (hid : (e.hw.bios.gpr .a0).toInt = DOIO)
      (hdev : getIodev L (e.hw.bios.gpr .a1)
        = .ok { semaphore := L.semAddr u, interruptLine := line })
      (hn : waiters m.kernel (L.semAddr u) = []) (hv : e.mem (L.semAddr u) = 0) :
      Why L m e .P (L.semAddr u) [(e.hw.bios.gpr .a1, e.hw.bios.gpr .a2)]
  | answer {u : DevUnit} {status : Word} (hc : excClass e.hw.cause = .interrupt)
      (hi : intClass e.hw.cause = .device) (ha : answer e.hw = some (u, status))
      (hp : m.pending u ≠ none) : Why L m e .V (L.semAddr u) [(commandReg u, DEV_C_ACK)]

theorem asked_other {L : Layout} {m : Machine} {e : Event} (h : excClass e.hw.cause ≠ .syscall) :
    asked L m e = none := by
  rw [asked, if_neg (fun hc => h hc.1)]

theorem asked_call {L : Layout} {m : Machine} {e : Event} {p : PcbId}
    (hc : excClass e.hw.cause = .syscall) (hp : m.kernel.activeProcess = some p) :
    asked L m e = semRequest L e.hw.bios := by
  rw [asked, if_pos ⟨hc, by rw [hp]; exact Option.some_ne_none p⟩]

/-- An operation was asked for by a system call of the active process, or it is
    about the semaphore of a device. -/
theorem Why.asked {L : Layout} {m : Machine} {e : Event} {op : SemOp} {a : Word}
    {bus : List (Word × Word)} (h : Why L m e op a bus) :
    (∃ p, m.kernel.activeProcess = some p ∧ asked L m e = some (op, a)) ∨
      (asked L m e = none ∧ ∃ u : DevUnit, a = L.semAddr u) := by
  cases h with
  | passeren hc hp hid hu hn =>
      exact Or.inl ⟨_, hp, (asked_call hc hp).trans (semRequest_passeren hu hid hn)⟩
  | verhogen hc hp hid hu hn =>
      exact Or.inl ⟨_, hp, (asked_call hc hp).trans (semRequest_verhogen hu hid hn)⟩
  | clock hc hp hid hu => exact Or.inl ⟨_, hp, (asked_call hc hp).trans (semRequest_clock hu hid)⟩
  | @io p u line hc hp hid =>
      exact Or.inr ⟨(asked_call hc hp).trans (semRequest_other hid (by decide)), u, rfl⟩
  | @answer u status hc =>
      exact Or.inr ⟨asked_other (by rw [hc]; exact ExcClass.noConfusion), u, rfl⟩

/-- What an exception does to processes and semaphores. -/
inductive Effect (L : Layout) (m : Machine) (e : Event) (k : Kernel) : Prop
  | still (hask : asked L m e = none) (hfree : k.procq .pcbFree = m.kernel.procq .pcbFree)
      (hwait : ∀ a, waiters k a = waiters m.kernel a) (hmem : k.mem = e.mem) (hbus : k.bus = [])
  | create {c : PcbId} (hask : asked L m e = none)
      (hfree : m.kernel.procq .pcbFree = c :: k.procq .pcbFree)
      (hwait : ∀ a, waiters k a = waiters m.kernel a) (hmem : k.mem = e.mem) (hbus : k.bus = [])
  | kill {t : PcbId} {ks : List PcbId} (hask : asked L m e = none)
      (hlive : t ∉ m.kernel.procq .pcbFree)
      (hks : ∀ q, q ∈ ks ↔ Below (parentOf m.kernel) t q)
      (hfree : k.procq .pcbFree = ks ++ m.kernel.procq .pcbFree)
      (hwait : ∀ a, waiters k a = (waiters m.kernel a).filter (· ∉ ks)) (hmem : k.mem = e.mem)
      (hbus : k.bus = [])
  | block {op : SemOp} {a : Word} {bus : List (Word × Word)} {p : PcbId} (why : Why L m e op a bus)
      (hp : m.kernel.activeProcess = some p) (hv : e.mem a = op.bound)
      (hfree : k.procq .pcbFree = m.kernel.procq .pcbFree)
      (hwait : ∀ b, waiters k b
        = if b = a then waiters m.kernel a ++ [p] else waiters m.kernel b)
      (hmem : k.mem = e.mem) (hbus : k.bus = bus)
  | wake {op : SemOp} {a : Word} {bus : List (Word × Word)} {t : PcbId} {ts : List PcbId}
      (why : Why L m e op a bus) (ht : waiters m.kernel a = t :: ts) (hv : e.mem a ≠ op.bound)
      (hfree : k.procq .pcbFree = m.kernel.procq .pcbFree)
      (hwait : ∀ b, waiters k b = if b = a then ts else waiters m.kernel b)
      (hmem : k.mem = e.mem) (hbus : k.bus = bus)
  | change {op : SemOp} {a : Word} {bus : List (Word × Word)} (why : Why L m e op a bus)
      (hn : waiters m.kernel a = []) (hv : e.mem a ≠ op.bound)
      (hfree : k.procq .pcbFree = m.kernel.procq .pcbFree)
      (hwait : ∀ b, waiters k b = waiters m.kernel b)
      (hmem : k.mem = fun b => if b = a then op.next (e.mem a) else e.mem b) (hbus : k.bus = bus)
  | drain (hc : excClass e.hw.cause = .interrupt) (hi : intClass e.hw.cause = .tick)
      (hv : e.mem (getTimerSemaphore L) = 0)
      (hfree : k.procq .pcbFree = m.kernel.procq .pcbFree)
      (hwait : ∀ b, waiters k b
        = if b = getTimerSemaphore L then [] else waiters m.kernel b)
      (hmem : k.mem = fun b => if b = getTimerSemaphore L then 1 else e.mem b) (hbus : k.bus = [])

/-- An effect depends on the free list, the queues of the semaphores, their
    values and the log of the bus. -/
theorem Effect.congr {L : Layout} {m : Machine} {e : Event} {k k' : Kernel} (h : Effect L m e k)
    (hf : k'.procq .pcbFree = k.procq .pcbFree) (hw : ∀ a, waiters k' a = waiters k a)
    (hm : k'.mem = k.mem) (hb : k'.bus = k.bus) : Effect L m e k' := by
  cases h with
  | still hask hfree hwait hmem hbus =>
      exact Effect.still hask (hf.trans hfree) (fun a => (hw a).trans (hwait a)) (hm.trans hmem)
        (hb.trans hbus)
  | create hask hfree hwait hmem hbus =>
      exact Effect.create hask (by rw [hf]; exact hfree) (fun a => (hw a).trans (hwait a))
        (hm.trans hmem) (hb.trans hbus)
  | kill hask hlive hks hfree hwait hmem hbus =>
      exact Effect.kill hask hlive hks (hf.trans hfree) (fun a => (hw a).trans (hwait a))
        (hm.trans hmem) (hb.trans hbus)
  | block why hp hv hfree hwait hmem hbus =>
      exact Effect.block why hp hv (hf.trans hfree) (fun a => (hw a).trans (hwait a))
        (hm.trans hmem) (hb.trans hbus)
  | wake why ht hv hfree hwait hmem hbus =>
      exact Effect.wake why ht hv (hf.trans hfree) (fun a => (hw a).trans (hwait a))
        (hm.trans hmem) (hb.trans hbus)
  | change why hn hv hfree hwait hmem hbus =>
      exact Effect.change why hn hv (hf.trans hfree) (fun a => (hw a).trans (hwait a))
        (hm.trans hmem) (hb.trans hbus)
  | drain hc hi hv hfree hwait hmem hbus =>
      exact Effect.drain hc hi hv (hf.trans hfree) (fun a => (hw a).trans (hwait a))
        (hm.trans hmem) (hb.trans hbus)

theorem Effect.of_kept {L : Layout} {m : Machine} {e : Event} {k k' : Kernel} (h : Effect L m e k)
    (hk : Kept k k') : Effect L m e k' :=
  h.congr hk.free hk.waiters hk.mem hk.bus

theorem Effect.of_touched {L : Layout} {m : Machine} {e : Event} {k k' : Kernel}
    (h : Effect L m e k) (ht : Touched k k') (hb : k'.bus = k.bus) : Effect L m e k' :=
  h.congr ht.free ht.waiters ht.mem hb

/-! ## From the branches to the effects -/

/-- A state that agrees with the one in which the exception was raised. -/
structure Base (m : Machine) (e : Event) (k : Kernel) : Prop where
  asl : AslWf k
  free : k.procq .pcbFree = m.kernel.procq .pcbFree
  waiters : ∀ a, waiters k a = waiters m.kernel a
  mem : k.mem = e.mem
  parent : parentOf k = parentOf m.kernel
  bus : k.bus = []
  active : k.activeProcess = m.kernel.activeProcess

theorem Base.of_touched {m : Machine} {e : Event} {k k' : Kernel} (h : Base m e k)
    (ht : Touched k k') (hb : k'.bus = k.bus) : Base m e k' :=
  ⟨ht.same.aslWf h.asl, ht.free.trans h.free, fun a => (ht.waiters a).trans (h.waiters a),
    ht.mem.trans h.mem, (funext ht.same.parent).trans h.parent, hb.trans h.bus,
    ht.active.trans h.active⟩

theorem base_charged {m : Machine} (hb : Between m.kernel) (e : Event) :
    Base m e (charged m e) := by
  have hentry : Base m e (m.entry e) :=
    ⟨(same_entry m e).aslWf hb.at_.wf.asl, rfl, fun _ => rfl, rfl, rfl, rfl, rfl⟩
  refine hentry.of_touched (touched_chargeAndSave e.hw _) ?_
  unfold charged chargeAndSave
  cases (m.entry e).activeProcess with
  | none => rfl
  | some p => rfl

theorem base_calling {m : Machine} (hb : Between m.kernel) (e : Event) :
    Base m e (calling m e) :=
  (base_charged hb e).of_touched (touched_startTod _ _) rfl

section Effects

variable {L : Layout} {m : Machine} {e : Event} {k : Kernel}

theorem Base.effect (hb : Base m e k) (hask : asked L m e = none) : Effect L m e k :=
  Effect.still hask hb.free hb.waiters hb.mem hb.bus

theorem Killed.effect (hb : Base m e k) (hask : asked L m e = none) {t : PcbId} {ks : List PcbId}
    {s : Queues SemdList SemdId} (hk : Killed k t ks s) : Effect L m e (k.killed ks s) := by
  refine @Effect.kill L m e _ t ks hask ?_ ?_ ?_ ?_ hb.mem hb.bus
  · rw [← hb.free]
    exact hk.live
  · rw [← hb.parent]
    exact hk.mem
  · rw [killed_free, hb.free]
  · intro a
    rw [waiters_killed hb.asl hk.wf.asl, hb.waiters]

theorem PassUp.effect (hb : Base m e k) (hask : asked L m e = none) {type : Fin 2}
    {ctrl : SchedulerControl} {k' : Kernel}
    (h : PassUp e.hw k type (.ok (ctrl, k'))) : Effect L m e k' := by
  cases h with
  | idle => exact hb.effect hask
  | die _ _ hk => exact hk.effect hb hask

/-- The three branches of an operation, seen from a state reached later in the
    same exception. -/
theorem Blocked.effect (hb : Base m e k) {op : SemOp} {a : Word} {bus : List (Word × Word)}
    (why : Why L m e op a bus) {p : PcbId} (hp : k.activeProcess = some p)
    (hv : k.mem a = op.bound) {k₁ k' : Kernel} (h : Blocked k a p k₁) (ht : Touched k₁ k')
    (hbus : k'.bus = bus) : Effect L m e k' := by
  refine Effect.block why (hb.active.symm.trans hp) (hb.mem ▸ hv)
    ((ht.free.trans h.frame.free).trans hb.free) (fun b => ?_)
    ((ht.mem.trans h.mem).trans hb.mem) hbus
  rw [ht.waiters, h.waiters, hb.waiters, hb.waiters]

theorem Woken.effect (hb : Base m e k) {op : SemOp} {a : Word} {bus : List (Word × Word)}
    (why : Why L m e op a bus) (hv : k.mem a ≠ op.bound) {t : PcbId} {k₁ k' : Kernel}
    (h : Woken k a t k₁) (ht : Touched k₁ k') (hbus : k'.bus = bus) : Effect L m e k' := by
  rcases h.head with ⟨ts, hts⟩
  refine Effect.wake why ((hb.waiters a).symm.trans hts) (hb.mem ▸ hv)
    ((ht.free.trans (h.frame hb.asl).free).trans hb.free) (fun b => ?_)
    ((ht.mem.trans h.mem).trans hb.mem) hbus
  rw [ht.waiters, h.waiters hb.asl, hts, List.tail_cons, hb.waiters]

theorem store_effect (hb : Base m e k) {op : SemOp} {a : Word} {bus : List (Word × Word)}
    (why : Why L m e op a bus) (hv : k.mem a ≠ op.bound) (hn : waiters k a = []) {k' : Kernel}
    (ht : Touched (k.store a (op.next (k.mem a))) k') (hbus : k'.bus = bus) :
    Effect L m e k' := by
  refine Effect.change why ((hb.waiters a).symm.trans hn) (hb.mem ▸ hv) (ht.free.trans hb.free)
    (fun b => (ht.waiters b).trans (hb.waiters b)) ?_ hbus
  rw [ht.mem, ← hb.mem]
  rfl

theorem PStep.effect (hb : Base m e k) {a : Word} {bus : List (Word × Word)}
    (why : Why L m e .P a bus) {p : PcbId} (hp : k.activeProcess = some p)
    {ctrl : SchedulerControl} {k₁ k' : Kernel} (h : PStep k a p ctrl k₁) (ht : Touched k₁ k')
    (hbus : k'.bus = bus) : Effect L m e k' := by
  cases h with
  | block hv h => exact h.effect hb why hp hv ht hbus
  | wake hv h => exact h.effect hb why hv ht hbus
  | lower hv hn => exact store_effect hb why hv hn ht hbus

theorem VStep.effect (hb : Base m e k) {a : Word} {bus : List (Word × Word)}
    (why : Why L m e .V a bus) {p : PcbId} (hp : k.activeProcess = some p)
    {r : Option PcbId} {k₁ k' : Kernel} (h : VStep k a r k₁) (ht : Touched k₁ k')
    (hbus : k'.bus = bus) : Effect L m e k' := by
  cases h with
  | block hv _ h =>
      rename_i q hq
      exact h.effect hb why hq hv ht hbus
  | idle _ hq => exact absurd (hp.symm.trans hq) (Option.some_ne_none p)
  | wake hv h => exact h.effect hb why hv ht hbus
  | raise hv hn => exact store_effect hb why hv hn ht hbus

theorem Interrupted.effect (hb : Base m e k) (hc : excClass e.hw.cause = .interrupt)
    (hv : ∀ u, m.pending u ≠ none → k.mem (L.semAddr u) ≠ 1) {ctrl : SchedulerControl}
    {k' : Kernel} (h : Interrupted L m e.hw k (.ok (ctrl, k'))) : Effect L m e k' := by
  have hask : asked L m e = none := asked_other (by rw [hc]; exact ExcClass.noConfusion)
  cases h with
  | resume => exact hb.effect hask
  | tick hi _ hd =>
      rcases hd with ⟨hz, hd⟩ | ⟨_, rfl⟩
      · refine Effect.drain hc hi (hb.mem ▸ hz) (hd.frame.free.trans hb.free) (fun b => ?_) ?_
          (hd.frame.bus.trans hb.bus)
        · by_cases hbt : b = getTimerSemaphore L
          · rw [if_pos hbt, hbt, hd.none]
          · rw [if_neg hbt, hd.other b hbt, hb.waiters]
        · funext b
          by_cases hbt : b = getTimerSemaphore L
          · rw [if_pos hbt, hbt, hd.one]
          · rw [if_neg hbt, hd.mem b hbt, hb.mem]
      · exact hb.effect hask
  | @device u status _ hi ha hp h =>
      have why : Why L m e .V (L.semAddr u) [(commandReg u, DEV_C_ACK)] := Why.answer hc hi ha hp
      have hv' : k.mem (L.semAddr u) ≠ SemOp.V.bound := hv u hp
      cases h with
      | @wake t k₁ h =>
          have ht := touched_trans (touched_setResult k₁ t status) (touched_acked _ u)
          refine h.effect hb why hv' ht ?_
          have hbus : k₁.bus = [] := (h.frame hb.asl).bus.trans hb.bus
          change (commandReg u, DEV_C_ACK) :: k₁.bus = _
          rw [hbus]
      | @stray q hn _ =>
          have ht := touched_trans (touched_setResult (k.store (L.semAddr u)
            (k.mem (L.semAddr u) + 1)) q status) (touched_acked _ u)
          refine store_effect hb why hv' hn ht ?_
          change (commandReg u, DEV_C_ACK) :: k.bus = _
          rw [hb.bus]

theorem Served.effect (hb : Base m e k) (hc : excClass e.hw.cause = .syscall) {p : PcbId}
    (hp : m.kernel.activeProcess = some p) (hs : (k.pcb p).pS = e.hw.bios)
    {ctrl : SchedulerControl} {k' : Kernel} (h : Served L e.hw k p (.ok (ctrl, k'))) :
    Effect L m e k' := by
  have hp' := hb.active.trans hp
  have hcall : callId k p = (e.hw.bios.gpr .a0).toInt := by rw [callId, hs]
  -- Only three of the calls ask for an operation on a semaphore.
  have hask : ∀ {id : Int}, callId k p = id → id ≠ PASSEREN ∧ id ≠ VERHOGEN ∧ id ≠ CLOCKWAIT →
      asked L m e = none := by
    intro id hid hne
    rw [asked_call hc hp]
    exact semRequest_other (hcall.symm.trans hid) hne
  cases h with
  | reserved hu h =>
      rw [hs] at hu
      exact h.effect (hb.of_touched (touched_reserved k p) rfl)
        ((asked_call hc hp).trans (semRequest_user hu))
  | pass hr h =>
      rw [hs] at hr
      exact h.effect hb ((asked_call hc hp).trans hr)
  | full hid =>
      exact (hb.effect (hask hid (by decide))).of_touched (touched_setResult k p NULL_PID) rfl
  | @create c k₁ prio support state hid hs hcp _ =>
      rcases hs.free with ⟨cs, hf, hf'⟩
      have heff : Effect L m e k₁ := by
        refine Effect.create (c := c) (hask hid (by decide)) ?_
          (fun a => (hs.waiters a).trans (hb.waiters a))
          (hs.mem.trans hb.mem) (hs.bus.trans hb.bus)
        rw [hf', ← hb.free, hf]
      exact heff.congr rfl (fun _ => rfl) rfl rfl
  | terminate hid _ hk => exact hk.effect hb (hask hid (by decide))
  | @passeren a _ _ hid hu ha hn h =>
      rw [hs] at hu ha
      rw [hcall] at hid
      subst ha
      exact h.effect hb (Why.passeren hc hp hid hu hn) hp' (touched_refl _)
        ((h.frame hb.asl).bus.trans hb.bus)
  | @verhogen a _ _ hid hu ha hn h =>
      rw [hs] at hu ha
      rw [hcall] at hid
      subst ha
      exact h.effect hb (Why.verhogen hc hp hid hu hn) hp' (touched_refl _)
        ((h.frame hb.asl).bus.trans hb.bus)
  | @doIo u line k₁ hid hdev hn hv h =>
      rw [hs] at hdev ⊢
      rw [hcall] at hid
      have why : Why L m e .P (L.semAddr u) [(e.hw.bios.gpr .a1, e.hw.bios.gpr .a2)] :=
        Why.io hc hp hid hdev ((hb.waiters _).symm.trans hn) (hb.mem ▸ hv)
      refine h.effect hb why hp' hv (touched_ioStarted _ _ _ _ _) ?_
      -- The command is the only word written to the bus.
      have hbus : k₁.bus = [] := h.frame.bus.trans hb.bus
      change (e.hw.bios.gpr .a1, e.hw.bios.gpr .a2) :: k₁.bus = _
      rw [hbus]
  | waitClock hid hu h =>
      rw [hs] at hu
      rw [hcall] at hid
      exact h.effect hb (Why.clock hc hp hid hu) hp' (touched_refl _)
        ((h.frame hb.asl).bus.trans hb.bus)
  | get v hid =>
      have hnone : asked L m e = none := by
        rcases hid with ⟨hid, _⟩ | hid | hid
        · exact hask hid (by decide)
        · exact hask hid (by decide)
        · exact hask hid (by decide)
      exact (hb.effect hnone).of_touched (touched_setResult k p v) rfl
  | yield hid => exact (hb.effect (hask hid (by decide))).congr rfl (fun _ => rfl) rfl rfl

end Effects

/-! ## The end of an exception -/

theorem Handled.effect {L : Layout} {m : Machine} {e : Event} (hwf : MachineWf L m)
    (hok : e.Ok L m) {ctrl : SchedulerControl} {k : Kernel} (h : Handled L m e (.ok (ctrl, k))) :
    Effect L m e k := by
  have hb := hwf.between
  cases h with
  | interrupt hc h =>
      refine h.effect (base_charged hb e) hc (fun u hu hv => ?_)
      rw [charged_sem hok.toTrusted (unit_lt u)] at hv
      exact hu (hwf.raised u hv).2
  | pass hc h =>
      refine h.effect (base_charged hb e) (asked_other ?_)
      rcases hc with hc | hc <;> rw [hc] <;> exact ExcClass.noConfusion
  | @call p _ k₁ hc hp h =>
      exact (h.effect (base_calling hb e) hc hp (calling_state hp)).of_touched
        (touched_afterSyscall e.hw k₁ p) rfl

/-- An exception that is passed up does nothing to processes and semaphores. -/
theorem Handled.context {L : Layout} {m : Machine} {e : Event} {k : Kernel} {ctx : Context}
    (hb : Between m.kernel) (h : Handled L m e (.error (.loadContext k ctx))) :
    asked L m e = none ∧ Touched (m.entry e) k ∧ k.bus = [] := by
  have hcharged := touched_chargeAndSave e.hw (m.entry e)
  have hbus := (base_charged hb e).bus
  cases h with
  | interrupt _ h =>
      cases h with
      | device _ _ _ h => cases h
  | pass hc h =>
      cases h with
      | up _ _ =>
          refine ⟨asked_other ?_, touched_trans hcharged (touched_passedUp _ _ _ _), hbus⟩
          rcases hc with hc | hc <;> rw [hc] <;> exact ExcClass.noConfusion
  | leave hc hp h =>
      cases h with
      | reserved hu h =>
          rw [calling_state hp] at hu
          cases h with
          | up _ _ =>
              exact ⟨(asked_call hc hp).trans (semRequest_user hu),
                touched_trans (touched_trans (touched_trans hcharged (touched_startTod _ _))
                  (touched_reserved _ _)) (touched_passedUp _ _ _ _), hbus⟩
      | pass hr h =>
          rw [calling_state hp] at hr
          cases h with
          | up _ _ =>
              exact ⟨(asked_call hc hp).trans hr, touched_trans (touched_trans hcharged
                (touched_startTod _ _)) (touched_passedUp _ _ _ _), hbus⟩

/-- How an exception ends: the scheduler takes over, the exception is passed up
    to a support structure, or the nucleus panics. -/
inductive Ended (L : Layout) (m : Machine) (e : Event) : Outcome → Prop
  | scheduled {ctrl : SchedulerControl} {k : Kernel} {o : Outcome}
      (hh : Handled L m e (.ok (ctrl, k))) (hr : Ready ctrl k) (hs : Scheduled e.hw k o) :
      Ended L m e o
  | context {k : Kernel} {ctx : Context} (hh : Handled L m e (.error (.loadContext k ctx))) :
      Ended L m e (.context k ctx)
  | panic {msg : String} (hh : Handled L m e (.error (.panic msg))) : Ended L m e (.panic msg)

/-- A handler that does not return panics or loads a context. -/
theorem Handled.leaves {L : Layout} {m : Machine} {e : Event} {x : Exit}
    (h : Handled L m e (.error x)) :
    (∃ msg, x = .panic msg) ∨ ∃ k ctx, x = .loadContext k ctx := by
  have hpass : ∀ {k : Kernel} {type : Fin 2}, PassUp e.hw k type (.error x) →
      (∃ msg, x = .panic msg) ∨ ∃ k ctx, x = .loadContext k ctx := by
    intro k type hp
    cases hp with
    | up => exact Or.inr ⟨_, _, rfl⟩
  cases h with
  | interrupt _ h =>
      cases h with
      | device _ _ _ h =>
          cases h with
          | idle => exact Or.inl ⟨_, rfl⟩
      | unexpected => exact Or.inl ⟨_, rfl⟩
  | pass _ h => exact hpass h
  | noCaller => exact Or.inl ⟨_, rfl⟩
  | leave _ _ h =>
      cases h with
      | reserved _ h => exact hpass h
      | pass _ h => exact hpass h
      | panic => exact Or.inl ⟨_, rfl⟩

/-- What a handler returns goes to the scheduler, and the handlers never leave
    through a null pointer or a loop that does not end. -/
theorem outcome_cases {L : Layout} {m : Machine} {e : Event} (hwf : MachineWf L m)
    (hok : e.Ok L m) :
    (∃ ctrl k, handleException L e.hw (m.entry e) = .ok (ctrl, k) ∧
      Scheduled e.hw k (m.outcome L e)) ∨
    (∃ k ctx, handleException L e.hw (m.entry e) = .error (.loadContext k ctx) ∧
      m.outcome L e = .context k ctx) ∨
    (∃ msg, handleException L e.hw (m.entry e) = .error (.panic msg) ∧
      m.outcome L e = .panic msg) := by
  have hh := handleException_spec hwf hok
  unfold Machine.outcome exceptionHandler
  rcases hr : handleException L e.hw (m.entry e) with x | ⟨ctrl, k⟩ <;> rw [hr] at hh
  · rcases hh.leaves with ⟨msg, rfl⟩ | ⟨k, ctx, rfl⟩
    · exact Or.inr (Or.inr ⟨msg, rfl, rfl⟩)
    · exact Or.inr (Or.inl ⟨k, ctx, rfl, rfl⟩)
  · exact Or.inl ⟨ctrl, k, rfl, schedule_spec (hh.ready hwf.between)⟩

theorem outcome_spec {L : Layout} {m : Machine} {e : Event} (hwf : MachineWf L m)
    (hok : e.Ok L m) : Ended L m e (m.outcome L e) := by
  have hh := handleException_spec hwf hok
  rcases outcome_cases hwf hok with ⟨ctrl, k, hr, hs⟩ | ⟨k, ctx, hr, ho⟩ | ⟨msg, hr, ho⟩
  · rw [hr] at hh
    exact Ended.scheduled hh (hh.ready hwf.between) hs
  · rw [hr] at hh
    rw [ho]
    exact Ended.context hh
  · rw [hr] at hh
    rw [ho]
    exact Ended.panic hh

/-- The effect of an exception after which the nucleus goes on. -/
theorem effect_of_next {L : Layout} {m : Machine} {e : Event} (hwf : MachineWf L m)
    (hok : e.Ok L m) {k : Kernel} (hk : (m.outcome L e).next = some k) :
    Effect L m e k ∧ Between k := by
  have hend := outcome_spec hwf hok
  generalize m.outcome L e = o at hend hk
  cases hend with
  | @scheduled ctrl k₁ _ hh hr hs =>
      have heff := hh.effect hwf hok
      cases hs with
      | run hkept hb _ _ =>
          rw [Outcome.next, Option.some.injEq] at hk
          exact hk ▸ ⟨heff.of_kept hkept, hb⟩
      | wait hkept hb =>
          rw [Outcome.next, Option.some.injEq] at hk
          exact hk ▸ ⟨heff.of_kept hkept, hb⟩
      | halt => exact absurd hk (by simp only [Outcome.next, reduceCtorEq, not_false_eq_true])
  | @context k₁ ctx hh =>
      rw [Outcome.next, Option.some.injEq] at hk
      rcases hh.context hwf.between with ⟨hask, ht, hbus⟩
      subst hk
      refine ⟨Effect.still hask ht.free ht.waiters ht.mem hbus, ?_,
        ht.yield.trans hwf.between.yield⟩
      rw [ht.active]
      exact hwf.between.at_.of_same (same_trans (same_entry m e) ht.same)
  | panic => exact absurd hk (by simp only [Outcome.next, reduceCtorEq, not_false_eq_true])

/-- A panic is no answer to a semaphore operation. -/
theorem Handled.panic {L : Layout} {m : Machine} {e : Event} {msg : String}
    (h : Handled L m e (.error (.panic msg))) : asked L m e = none := by
  cases h with
  | interrupt hc => exact asked_other (by rw [hc]; exact ExcClass.noConfusion)
  | pass _ h => cases h
  | noCaller _ hp => rw [asked, if_neg (fun h => h.2 hp)]
  | leave hc hp h =>
      cases h with
      | reserved _ h => cases h
      | pass _ h => cases h
      | panic hr =>
          rw [calling_state hp] at hr
          exact (asked_call hc hp).trans hr

/-- The nucleus goes on after every system call for a semaphore operation. -/
theorem next_of_asked {L : Layout} {m : Machine} {e : Event} (hwf : MachineWf L m)
    (hok : e.Ok L m) (hask : asked L m e ≠ none) : ∃ k, (m.outcome L e).next = some k := by
  have hend := outcome_spec hwf hok
  generalize m.outcome L e = o at hend
  cases hend with
  | @scheduled ctrl k₁ _ hh _ hs =>
      cases hs with
      | run => exact ⟨_, rfl⟩
      | wait => exact ⟨_, rfl⟩
      | @halt k hkept hlive =>
          -- The caller is still there.
          exfalso
          have hfree : k₁.procq .pcbFree = m.kernel.procq .pcbFree := by
            cases hh.effect hwf hok with
            | still h => exact absurd h hask
            | create h => exact absurd h hask
            | kill h => exact absurd h hask
            | block _ _ _ hfree => exact hfree
            | wake _ _ _ hfree => exact hfree
            | change _ _ _ hfree => exact hfree
            | drain hc => exact absurd (asked_other (by rw [hc]; exact ExcClass.noConfusion)) hask
          have hactive : m.kernel.activeProcess ≠ none := by
            intro hn
            exact hask (by rw [asked, if_neg (fun h => h.2 hn)])
          rcases Option.ne_none_iff_exists'.mp hactive with ⟨p, hp⟩
          have hp' := hwf.between.at_.not_free (Option.mem_toFinset.mpr hp)
          rw [← hfree, ← hkept.free, ← mem_live, hlive] at hp'
          exact absurd hp' (Finset.notMem_empty p)
  | context hh => exact absurd (hh.context hwf.between).1 hask
  | panic hh => exact absurd hh.panic hask

end Pandos
