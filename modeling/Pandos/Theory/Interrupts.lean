import Pandos.Theory.Devices
import Pandos.Theory.Scheduler

/-!
# Interrupts

What the handler of an interrupt can do. The interval timer drains its
semaphore: it wakes every waiter, then leaves the value one behind. A device
interrupt answers one sub-unit: it wakes the longest waiter of its semaphore
and hands it the status, or, if nobody waits, raises the semaphore and hands
the status to the active process.

## Main definitions

* `Drained`: What the interval timer does.
* `answer`: The sub-unit a device interrupt answers, with its status.
* `Interrupted`: The branches of `interrupt_handler`.

## Theorems

* `drainTimer_spec`: The loop of the interval timer ends and drains.
* `interruptHandler_spec`: An interrupt takes one of the branches.
-/

namespace Pandos

theorem frame_trans {k k' k'' : Kernel} (h : Frame k k') (h' : Frame k' k'') : Frame k k'' :=
  ⟨h'.child.trans h.child, h'.processCount.trans h.processCount,
    h'.activeProcess.trans h.activeProcess, h'.yieldProcess.trans h.yieldProcess,
    h'.startTod.trans h.startTod, h'.recycleCount.trans h.recycleCount, h'.sup.trans h.sup,
    h'.bus.trans h.bus, fun p => (h'.parent p).trans (h.parent p),
    fun p => (h'.state p).trans (h.state p), fun p => (h'.time p).trans (h.time p),
    fun p => (h'.support p).trans (h.support p), fun p => (h'.prio p).trans (h.prio p),
    fun p => (h'.pid p).trans (h.pid p), h'.free.trans h.free⟩

/-! ## The interval timer -/

/-- Every waiter of the timer semaphore was woken, and its value is one. -/
structure Drained (L : Layout) (k k' : Kernel) : Prop where
  frame : Frame k k'
  none : waiters k' (getTimerSemaphore L) = []
  other : ∀ a, a ≠ getTimerSemaphore L → waiters k' a = waiters k a
  ready : Readied k (waiters k (getTimerSemaphore L)) k'
  one : k'.mem (getTimerSemaphore L) = 1
  mem : ∀ a, a ≠ getTimerSemaphore L → k'.mem a = k.mem a

/-- The drain loop wakes one waiter in each round, raises the semaphore in the
    next one and ends in the one after that. -/
theorem drainTimer_of_zero (L : Layout) (fuel : Nat) : ∀ k s, At k s →
    (∀ p, k.activeProcess = some p → k.procq.Null p) → k.mem (getTimerSemaphore L) = 0 →
    (waiters k (getTimerSemaphore L)).length + 2 ≤ fuel →
    ∃ k', drainTimer L fuel k = .ok k' ∧ Drained L k k' ∧ At k' s := by
  have hal : Aligned (getTimerSemaphore L) := semAddr_aligned L (Nat.lt_succ_self 48)
  induction fuel with
  | zero => exact fun k s _ _ _ h => absurd h (by omega)
  | succ fuel ih =>
      intro k s hat hact hzero hfuel
      have hne : k.mem (getTimerSemaphore L) ≠ 1 := by
        rw [hzero]
        decide
      rcases V_spec hat.wf.asl hal hact with ⟨r, k₁, hV, hstep⟩
      rw [drainTimer, if_pos hne, hV]
      cases hstep with
      | block hv => exact absurd hv hne
      | idle hv => exact absurd hv hne
      | @wake _ t _ hb =>
          have hframe := hb.frame hat.wf.asl
          have hmem := hb.mem
          have hwait := hb.waiters hat.wf.asl
          rcases hb.head with ⟨ts, hts⟩
          -- One waiter less is left, so the fuel is still enough.
          have hlen : (waiters k₁ (getTimerSemaphore L)).length + 2 ≤ fuel := by
            rw [hwait, if_pos rfl, hts, List.tail_cons]
            rw [hts, List.length_cons] at hfuel
            omega
          have hat₁ := hb.at hat
          have hact₁ : ∀ p, k₁.activeProcess = some p → k₁.procq.Null p := by
            intro p hp
            rw [hframe.activeProcess] at hp
            rw [hat₁.running, ← hat.running]
            exact hact p hp
          rcases ih k₁ s hat₁ hact₁ (hmem ▸ hzero) hlen with ⟨k', heq, hd, hat'⟩
          refine ⟨k', heq, ⟨frame_trans hframe hd.frame, hd.none, fun a ha => ?_, ?_, hd.one,
            fun a ha => ?_⟩, hat'⟩
          · rw [hd.other a ha, hwait, if_neg ha]
          · have hrest := hd.ready
            rw [hwait, if_pos rfl, hts, List.tail_cons] at hrest
            rw [hts]
            exact (hb.readied hat.wf.asl).trans hrest hd.frame.prio
          · rw [hd.mem a ha, hmem]
      | raise _ hw =>
          have hval : (k.store (getTimerSemaphore L) (k.mem (getTimerSemaphore L) + 1)).mem
              (getTimerSemaphore L) = 1 := by
            simp only [Kernel.store, if_true, hzero]
            decide
          refine ⟨_, ?_, ⟨frame_store k _ _, hw, fun _ _ => rfl, ?_, hval, fun a ha => ?_⟩,
            hat.of_same (same_store k _ _)⟩
          · -- The value is one now, which ends the loop.
            cases fuel with
            | zero => omega
            | succ fuel =>
                simp only []
                rw [drainTimer, if_neg (not_not_intro hval)]
          · rw [hw]
            exact readied_of_same rfl
          · simp only [Kernel.store, if_neg ha]

theorem waiters_length_le {k : Kernel} (hw : AslWf k) (a : Word) :
    (waiters k a).length ≤ MAX_PROC := by
  rw [← List.toFinset_card_of_nodup (waiters_nodup hw a)]
  exact card_le_maxProc _

/-- The interval timer drains its semaphore, unless its value is one already. -/
theorem drainTimer_spec {L : Layout} {k : Kernel} {s : Finset PcbId} (hat : At k s)
    (hact : ∀ p, k.activeProcess = some p → k.procq.Null p)
    (hbin : k.mem (getTimerSemaphore L) = 0 ∨ k.mem (getTimerSemaphore L) = 1) :
    ∃ k', drainTimer L drainFuel k = .ok k' ∧ At k' s ∧
      (k.mem (getTimerSemaphore L) = 0 ∧ Drained L k k' ∨
        k.mem (getTimerSemaphore L) = 1 ∧ k' = k) := by
  rcases hbin with h | h
  · have hle := waiters_length_le hat.wf.asl (getTimerSemaphore L)
    rcases drainTimer_of_zero L drainFuel k s hat hact h (by unfold drainFuel; omega) with
      ⟨k', heq, hd, hat'⟩
    exact ⟨k', heq, hat', Or.inl ⟨h, hd⟩⟩
  · refine ⟨k, ?_, hat, Or.inr ⟨h, rfl⟩⟩
    rw [drainFuel, drainTimer, if_neg (not_not_intro h)]

/-! ## Devices -/

/-- What an interrupt is about. -/
inductive IntClass
  | other
  | tick
  | device
  deriving DecidableEq

/-- The source of an interrupt: the interprocessor line and the local timer
    come before the interval timer, and that before the devices. -/
def intClass (cause : Word) : IntClass :=
  if cause &&& CAUSE_IP IL_IPI ≠ 0 ∨ cause &&& CAUSE_IP IL_CPUTIMER ≠ 0 then .other
  else if cause &&& CAUSE_IP IL_TIMER ≠ 0 then .tick
  else if cause &&& (CAUSE_IP IL_DISK ||| CAUSE_IP IL_FLASH ||| CAUSE_IP IL_ETHERNET |||
      CAUSE_IP IL_PRINTER) ≠ 0 ∨ cause &&& CAUSE_IP IL_TERMINAL ≠ 0 then .device
  else .other

/-- The sub-unit a device interrupt answers, with the status it reports. The
    lines with a lower number come first, the devices with a higher one, and
    the transmitter of a terminal comes before its receiver. A terminal that
    reports the end of no operation answers nothing. -/
def answer (hw : Hw) : Option (DevUnit × Word) :=
  if hw.cause &&& (CAUSE_IP IL_DISK ||| CAUSE_IP IL_FLASH ||| CAUSE_IP IL_ETHERNET |||
      CAUSE_IP IL_PRINTER) ≠ 0 then
    let il := genericLine hw.cause
    let devN := findDeviceNumber (hw.bitmap il)
    some (genericUnit il (Fin.ofNat 8 devN), (hw.devreg il devN).status)
  else
    let devN := findDeviceNumber (hw.bitmap IL_TERMINAL)
    let reg := hw.devreg IL_TERMINAL devN
    if reg.transmStatus &&& TERMSTATMASK = DEV_STATUS_TERMINAL_OK then
      some (transmUnit (Fin.ofNat 8 devN), reg.transmStatus)
    else if reg.status &&& TERMSTATMASK = DEV_STATUS_TERMINAL_OK then
      some (recvUnit (Fin.ofNat 8 devN), reg.status)
    else none

/-- The command of a sub-unit was acknowledged. -/
def acked (k : Kernel) (u : DevUnit) : Kernel :=
  { k with bus := (commandReg u, DEV_C_ACK) :: k.bus }

/-- What the nucleus says when nobody can be told of an answer. -/
def unheardMsg (u : DevUnit) : String :=
  if u.val < 32 then "No active process (Interrupt Generic)\n"
  else "No active process (Interrupt Terminal)\n"

/-- The branches of the handlers of a device interrupt, for the sub-unit they
    answer. -/
inductive Answered (L : Layout) (k : Kernel) (u : DevUnit) (status : Word) :
    Result (SchedulerControl × Kernel) → Prop
  | wake {t : PcbId} {k₁ : Kernel} (hb : Woken k (L.semAddr u) t k₁) :
      Answered L k u status
        (.ok (CONTROL_PRESERVE k.activeProcess, acked (setResult k₁ t status) u))
  | stray {q : PcbId} (hn : waiters k (L.semAddr u) = []) (hq : k.activeProcess = some q) :
      Answered L k u status (.ok (CONTROL_RESCHEDULE k,
        acked (setResult (k.store (L.semAddr u) (k.mem (L.semAddr u) + 1)) q status) u))
  | idle (hn : waiters k (L.semAddr u) = []) (hq : k.activeProcess = none) :
      Answered L k u status (.error (.panic (unheardMsg u)))

/-- The branches of `interrupt_handler`. -/
inductive Interrupted (L : Layout) (m : Machine) (hw : Hw) (k : Kernel) :
    Result (SchedulerControl × Kernel) → Prop
  | resume (enqueue : Bool) (hc : intClass hw.cause = .other) :
      Interrupted L m hw k (.ok ({ pcb := k.activeProcess, enqueue := enqueue }, k))
  | tick {k' : Kernel} (hc : intClass hw.cause = .tick) (hat : At k' k.activeProcess.toFinset)
      (hd : k.mem (getTimerSemaphore L) = 0 ∧ Drained L k k' ∨
        k.mem (getTimerSemaphore L) = 1 ∧ k' = k) :
      Interrupted L m hw k (.ok (CONTROL_PRESERVE k.activeProcess, k'))
  | device {u : DevUnit} {status : Word} {r : Result (SchedulerControl × Kernel)}
      (hc : intClass hw.cause = .device) (ha : answer hw = some (u, status))
      (hp : m.pending u ≠ none) (h : Answered L k u status r) : Interrupted L m hw k r
  | unexpected (hc : intClass hw.cause = .device) (ha : answer hw = none) :
      Interrupted L m hw k (.error (.panic "Unexpected interrupt from terminal device %d\n"))

section Answer

variable {L : Layout} {k : Kernel} {u : DevUnit}

/-- The process that is woken is not the active one, which stands in no queue. -/
theorem woken_ne_active {a : Word} {t : PcbId} {k₁ : Kernel} (hw : AslWf k)
    (hact : ∀ p, k.activeProcess = some p → k.procq.Null p) (hb : Woken k a t k₁) :
    k.activeProcess ≠ some t := by
  intro h
  rcases hb.head with ⟨ts, hts⟩
  have ht : t ∈ waiters k a := hts ▸ List.mem_cons_self
  exact ((nowhere_iff hw t).mp (hact t h)).2.2.2 a ht

/-- The end of `interrupt_generic`, once `V` was called. -/
theorem generic_answered (hw : AslWf k) (hact : ∀ p, k.activeProcess = some p → k.procq.Null p)
    (hv : k.mem (L.semAddr u) ≠ 1) (hu : u.val < 32) (status : Word) :
    Answered L k u status (match V k (some (L.semAddr u)) with
      | .error e => .error e
      | .ok (p, k) =>
        match returnStatus k p status with
        | .error e => .error e
        | .ok (ctrl, k) => .ok (ctrl, { k with bus := (commandReg u, DEV_C_ACK) :: k.bus })) := by
  rcases V_spec hw (semAddr_aligned L (unit_lt u)) hact with ⟨r, k₁, hV, hstep⟩
  rw [hV]
  cases hstep with
  | block h => exact absurd h hv
  | idle h => exact absurd h hv
  | @wake _ t _ hb =>
      have hne := woken_ne_active hw hact hb
      have hactive := (hb.frame hw).activeProcess
      have hret : returnStatus k₁ (some t) status
          = .ok (CONTROL_PRESERVE k.activeProcess, setResult k₁ t status) := by
        rw [returnStatus, hactive, if_neg (fun h => hne h.symm)]
      simp only [hret]
      exact Answered.wake hb
  | raise _ hn =>
      cases hactive : k.activeProcess with
      | none =>
          have hret : ∀ k' : Kernel, k'.activeProcess = none →
              returnStatus k' none status = .error (.panic (unheardMsg u)) := by
            intro k' hk'
            rw [returnStatus, hk', if_pos rfl, unheardMsg, if_pos hu]
          simp only [hret (k.store _ _) hactive]
          exact Answered.idle hn hactive
      | some q =>
          have hret : ∀ k' : Kernel, k'.activeProcess = some q → returnStatus k' (some q) status
              = .ok (CONTROL_RESCHEDULE k', setResult k' q status) := by
            intro k' hk'
            rw [returnStatus, hk', if_pos rfl]
          simp only [hret (k.store _ _) hactive]
          exact Answered.stray hn hactive

/-- The end of `interrupt_terminal`, once `V` was called. -/
theorem terminal_answered (hw : AslWf k) (hact : ∀ p, k.activeProcess = some p → k.procq.Null p)
    (hv : k.mem (L.semAddr u) ≠ 1) (hu : ¬ u.val < 32) (status : Word) :
    Answered L k u status (match V k (some (L.semAddr u)) with
      | .error e => .error e
      | .ok (p, k) => terminalDone k p status (commandReg u)) := by
  rcases V_spec hw (semAddr_aligned L (unit_lt u)) hact with ⟨r, k₁, hV, hstep⟩
  rw [hV]
  cases hstep with
  | block h => exact absurd h hv
  | idle h => exact absurd h hv
  | @wake _ t _ hb =>
      have hne := woken_ne_active hw hact hb
      have hactive := (hb.frame hw).activeProcess
      simp only [terminalDone, hactive, if_neg hne]
      exact Answered.wake hb
  | raise _ hn =>
      cases hactive : k.activeProcess with
      | none =>
          have hactive' : (k.store (L.semAddr u) (k.mem (L.semAddr u) + 1)).activeProcess = none :=
            hactive
          have hidle : Answered L k u status _ := Answered.idle hn hactive
          rw [unheardMsg, if_neg hu] at hidle
          simp only [terminalDone, hactive']
          exact hidle
      | some q =>
          have hactive' : (k.store (L.semAddr u) (k.mem (L.semAddr u) + 1)).activeProcess
            = some q := hactive
          simp only [terminalDone, hactive', if_true]
          exact Answered.stray hn hactive

end Answer

/-! ## The handler -/

section Handler

variable {L : Layout} {m : Machine} {e : Event} {k : Kernel}

/-- The device `interrupt_generic` serves has a command to answer. -/
theorem interruptGeneric_spec (hok : e.Ok L m) (hw : AslWf k)
    (hact : ∀ p, k.activeProcess = some p → k.procq.Null p)
    (hv : ∀ u, m.pending u ≠ none → k.mem (L.semAddr u) ≠ 1)
    (hline : e.hw.cause &&& (CAUSE_IP IL_DISK ||| CAUSE_IP IL_FLASH ||| CAUSE_IP IL_ETHERNET |||
      CAUSE_IP IL_PRINTER) ≠ 0) :
    ∃ u status, answer e.hw = some (u, status) ∧ m.pending u ≠ none ∧
      Answered L k u status (interruptGeneric L e.hw k) := by
  rcases genericLine_spec hline with ⟨h1, h2, hbit⟩
  have h3 : genericLine e.hw.cause ≤ IL_TERMINAL := Nat.le_succ_of_le h2
  rcases hok.line _ h1 h3 hbit with ⟨hne, hlt⟩
  rcases findDeviceNumber_spec hne hlt with ⟨d, hd, hset⟩
  have hpend := hok.generic _ d h1 h2 hset
  have hinst := hok.installed _ d h1 h2 hpend
  have hreg : devRegAddr (genericLine e.hw.cause) d + 4
      = commandReg (genericUnit (genericLine e.hw.cause) d) :=
    commandReg_generic ⟨_, Nat.lt_succ_of_le h2⟩ h1 d
  refine ⟨genericUnit (genericLine e.hw.cause) d, (e.hw.devreg (genericLine e.hw.cause) d).status,
    ?_, hpend, ?_⟩
  · rw [answer, if_pos hline]
    simp only [hd, Fin.ofNat_eq_cast, Fin.cast_val_eq_self]
  · have hlow : (genericUnit (genericLine e.hw.cause) d).val < 32 := by
      have hval := genericUnit_val ⟨_, Nat.lt_succ_of_le h2⟩ h1 d
      simp only [IL_DISK, IL_PRINTER, DEVPERINT] at h1 h2 hval
      omega
    have hans := generic_answered hw hact (hv _ hpend) hlow
      (e.hw.devreg (genericLine e.hw.cause) d).status
    simp only [interruptGeneric, hd, getSemaphore_generic L h1 h2 d, if_neg hinst, hreg]
    exact hans

/-- The sub-unit `interrupt_terminal` serves has a command to answer, unless
    the terminal reports the end of no operation. -/
theorem interruptTerminal_spec (hok : e.Ok L m) (hw : AslWf k)
    (hact : ∀ p, k.activeProcess = some p → k.procq.Null p)
    (hv : ∀ u, m.pending u ≠ none → k.mem (L.semAddr u) ≠ 1)
    (hgen : ¬ e.hw.cause &&& (CAUSE_IP IL_DISK ||| CAUSE_IP IL_FLASH ||| CAUSE_IP IL_ETHERNET |||
      CAUSE_IP IL_PRINTER) ≠ 0)
    (hline : e.hw.cause &&& CAUSE_IP IL_TERMINAL ≠ 0) :
    (∃ u status, answer e.hw = some (u, status) ∧ m.pending u ≠ none ∧
      Answered L k u status (interruptTerminal L e.hw k)) ∨
    (answer e.hw = none ∧ interruptTerminal L e.hw k =
      .error (.panic "Unexpected interrupt from terminal device %d\n")) := by
  rcases hok.line IL_TERMINAL (by decide) (Nat.le_refl _) hline with ⟨hne, hlt⟩
  rcases findDeviceNumber_spec hne hlt with ⟨d, hd, hset⟩
  rcases hok.installedTerm d (hok.terminal d hset) with ⟨ht, hr⟩
  have hans : answer e.hw = if (e.hw.devreg IL_TERMINAL d).transmStatus &&& TERMSTATMASK
        = DEV_STATUS_TERMINAL_OK then
      some (transmUnit d, (e.hw.devreg IL_TERMINAL d).transmStatus)
    else if (e.hw.devreg IL_TERMINAL d).status &&& TERMSTATMASK = DEV_STATUS_TERMINAL_OK then
      some (recvUnit d, (e.hw.devreg IL_TERMINAL d).status)
    else none := by
    rw [answer, if_neg hgen]
    simp only [hd, Fin.ofNat_eq_cast, Fin.cast_val_eq_self]
  rw [hans]
  simp only [interruptTerminal, hd, (getSemaphore_terminal L d).1, (getSemaphore_terminal L d).2,
    if_neg ht]
  by_cases htok : (e.hw.devreg IL_TERMINAL d).transmStatus &&& TERMSTATMASK = DEV_STATUS_TERMINAL_OK
  · have hpend := hok.transm d htok
    simp only [if_pos htok, commandReg_transm]
    exact Or.inl ⟨_, _, rfl, hpend, terminal_answered hw hact (hv _ hpend)
      (termUnit_high d).1 _⟩
  · simp only [if_neg htok, if_neg hr]
    by_cases hrok : (e.hw.devreg IL_TERMINAL d).status &&& TERMSTATMASK = DEV_STATUS_TERMINAL_OK
    · have hpend := hok.recv d hrok
      simp only [if_pos hrok, commandReg_recv]
      exact Or.inl ⟨_, _, rfl, hpend, terminal_answered hw hact (hv _ hpend)
        (termUnit_high d).2 _⟩
    · simp only [if_neg hrok]
      exact Or.inr ⟨trivial, trivial⟩

/-- An interrupt takes one of the branches of the handler, if the semaphore of
    no command that waits for its answer was raised. -/
theorem interruptHandler_spec (hok : e.Ok L m) (hat : At k k.activeProcess.toFinset)
    (hbin : k.mem (getTimerSemaphore L) = 0 ∨ k.mem (getTimerSemaphore L) = 1)
    (hv : ∀ u, m.pending u ≠ none → k.mem (L.semAddr u) ≠ 1) :
    Interrupted L m e.hw k (interruptHandler L e.hw k) := by
  have hact : ∀ p, k.activeProcess = some p → k.procq.Null p := by
    intro p hp
    rw [hat.running, hp]
    exact Finset.mem_singleton_self p
  unfold interruptHandler
  -- The lines are looked at in the order of the handler.
  by_cases h0 : e.hw.cause &&& CAUSE_IP IL_IPI ≠ 0
  · have hc : intClass e.hw.cause = .other := by rw [intClass, if_pos (Or.inl h0)]
    simp only [if_pos h0]
    exact Interrupted.resume false hc
  by_cases h1 : e.hw.cause &&& CAUSE_IP IL_CPUTIMER ≠ 0
  · have hc : intClass e.hw.cause = .other := by rw [intClass, if_pos (Or.inr h1)]
    simp only [if_neg h0, if_pos h1]
    exact Interrupted.resume true hc
  have h01 : ¬ (e.hw.cause &&& CAUSE_IP IL_IPI ≠ 0 ∨ e.hw.cause &&& CAUSE_IP IL_CPUTIMER ≠ 0) :=
    fun h => h.elim h0 h1
  by_cases h2 : e.hw.cause &&& CAUSE_IP IL_TIMER ≠ 0
  · have hc : intClass e.hw.cause = .tick := by rw [intClass, if_neg h01, if_pos h2]
    rcases drainTimer_spec hat hact hbin with ⟨k', heq, hat', hd⟩
    have hactive : k'.activeProcess = k.activeProcess := by
      rcases hd with ⟨_, hd⟩ | ⟨_, rfl⟩
      · exact hd.frame.activeProcess
      · rfl
    simp only [if_neg h0, if_neg h1, if_pos h2, interruptTimer, heq, hactive]
    exact Interrupted.tick hc hat' hd
  simp only [if_neg h0, if_neg h1, if_neg h2]
  by_cases h3 : e.hw.cause &&& (CAUSE_IP IL_DISK ||| CAUSE_IP IL_FLASH ||| CAUSE_IP IL_ETHERNET |||
      CAUSE_IP IL_PRINTER) ≠ 0
  · have hc : intClass e.hw.cause = .device := by
      rw [intClass, if_neg h01, if_neg h2, if_pos (Or.inl h3)]
    rcases interruptGeneric_spec hok hat.wf.asl hact hv h3 with ⟨u, status, ha, hp, hans⟩
    rw [if_pos h3]
    exact Interrupted.device hc ha hp hans
  by_cases h4 : e.hw.cause &&& CAUSE_IP IL_TERMINAL ≠ 0
  · have hc : intClass e.hw.cause = .device := by
      rw [intClass, if_neg h01, if_neg h2, if_pos (Or.inr h4)]
    rw [if_neg h3, if_pos h4]
    rcases interruptTerminal_spec hok hat.wf.asl hact hv h3 h4 with ⟨u, status, ha, hp, hans⟩ |
      ⟨ha, heq⟩
    · exact Interrupted.device hc ha hp hans
    · rw [heq]
      exact Interrupted.unexpected hc ha
  have hc : intClass e.hw.cause = .other := by
    rw [intClass, if_neg h01, if_neg h2, if_neg (fun h => h.elim h3 h4)]
  rw [if_neg h3, if_neg h4]
  exact Interrupted.resume true hc

end Handler

end Pandos
