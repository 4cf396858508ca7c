import Pandos.Theory.Replay
import Pandos.Theory.Times

/-!
# CPU Time

`p_time` is charged at the entry of an exception and at the end of a system
call, for the time since `start_tod`. A system call sets `start_tod` anew, and
so does the scheduler when a process takes over. An exception that is passed up
does neither if it is no system call: the support handler goes on with the
`start_tod` from before the charge, and the next exception charges the same time
again.

A meter beside the machine keeps what the clock says. It adds up the time
during which each process was active, from below: while the scheduler hands the
processor from one process to another nobody is active.

## Main definitions

* `Meter`: The clock, the active times and the calls of `GETTIME`.
* `Clocked`: The clock does not go back.
* `SparesTraps`: No exception but a system call is passed up.
* `metered`: The runs of the nucleus together with a meter.

## Theorems

* `charges_of_next`: What one exception charges.
* `tod_of_next`: `start_tod` is the time at which the active process went on.
* `metered_step`: One exception keeps the times below those of the meter.
* `cpu_time_charged_once`: In every run without such exceptions no time is
  charged twice.
* `cpu_time_charged_twice`: A page fault that is passed up is charged twice.
-/

namespace Pandos

/-! ## The meter -/

/-- A call of `GETTIME`: the caller, the time it is told, and the clock when the
    call was made. -/
structure TimeCall where
  who : PcbId
  result : Int
  tod : Int
  deriving DecidableEq

/-- The clock at the end of the last exception, the time during which each
    process was active since its creation, and the calls of `GETTIME` of the
    live processes. -/
structure Meter where
  now : Int
  active : PcbId → Int
  calls : List TimeCall

/-- The meter at the first dispatch. -/
def Meter.start (m : Machine) : Meter :=
  { now := m.kernel.startTod, active := fun _ => 0, calls := [] }

/-- The last reading of the clock before the scheduler is called. -/
def Event.returned (e : Event) : Int :=
  if excClass e.hw.cause = .syscall then e.hw.todReturn else e.hw.todEntry

/-- The last reading of the clock before an exception is passed up. -/
def Event.passed (e : Event) : Int :=
  if excClass e.hw.cause = .syscall then e.hw.todSyscall else e.hw.todEntry

/-- The last reading of the clock in an exception. -/
def Outcome.clock (e : Event) : Outcome → Int
  | .run _ => e.hw.todTakeover
  | .context _ _ => e.passed
  | _ => e.returned

/-- The call of `GETTIME` an exception is. -/
def timeCalls (m : Machine) (e : Event) : List TimeCall :=
  match m.kernel.activeProcess with
  | none => []
  | some p =>
    if KernelCall GETTIME m e then
      [{ who := p, result := ((charged m e).pcb p).pTime, tod := e.hw.todEntry }]
    else []

/-- The time until which a process that was active stays active: the end of the
    exception if it goes on, else the end of the handler. -/
def Machine.until (L : Layout) (m : Machine) (e : Event) (k : Kernel) (q : PcbId) : Int :=
  if k.activeProcess = some q then (m.outcome L e).clock e else e.returned

/-- The meter after an exception. A block that was free has no active time. -/
def Meter.note (L : Layout) (m : Machine) (e : Event) (m' : Machine) (x : Meter) : Meter where
  now := (m.outcome L e).clock e
  active q :=
    if q ∈ m.kernel.procq .pcbFree then 0
    else if m.kernel.activeProcess = some q then x.active q + (m.until L e m'.kernel q - x.now)
    else x.active q
  calls := (timeCalls m e ++ x.calls).filter (fun c => c.who ∉ m'.kernel.procq .pcbFree)

/-- The clock does not go back, within an exception and from one to the next. -/
structure Clocked (x : Meter) (e : Event) : Prop where
  entry : x.now ≤ e.hw.todEntry
  call : e.hw.todEntry ≤ e.hw.todSyscall
  ret : e.hw.todSyscall ≤ e.hw.todReturn
  takeover : e.hw.todReturn ≤ e.hw.todTakeover

instance (x : Meter) (e : Event) : Decidable (Clocked x e) :=
  decidable_of_iff (x.now ≤ e.hw.todEntry ∧ e.hw.todEntry ≤ e.hw.todSyscall ∧
    e.hw.todSyscall ≤ e.hw.todReturn ∧ e.hw.todReturn ≤ e.hw.todTakeover)
    ⟨fun ⟨h₁, h₂, h₃, h₄⟩ => ⟨h₁, h₂, h₃, h₄⟩,
      fun h => ⟨h.entry, h.call, h.ret, h.takeover⟩⟩

/-- A page fault or a program trap is not raised by a process with a support
    structure, so it is not passed up. -/
def SparesTraps (m : Machine) (e : Event) : Prop :=
  excClass e.hw.cause = .tlb ∨ excClass e.hw.cause = .other →
    ∀ p, m.kernel.activeProcess = some p → (m.kernel.pcb p).pSupport = none

/-- The runs of the nucleus under a clock that does not go back, together with a
    meter. -/
def metered (L : Layout) (b : Boot) : System (Machine × Meter) Event :=
  ((nucleus L b).observed Meter.start (Meter.note L)).restrict (fun s e => Clocked s.2 e)

theorem mem_timeCalls {m : Machine} {e : Event} {c : TimeCall} (h : c ∈ timeCalls m e) :
    m.kernel.activeProcess = some c.who ∧ c.result = ((charged m e).pcb c.who).pTime ∧
      c.tod = e.hw.todEntry := by
  unfold timeCalls at h
  split at h
  · exact absurd h List.not_mem_nil
  · rename_i p hp
    split at h
    · rw [List.mem_singleton.mp h]
      exact ⟨hp, rfl, rfl⟩
    · exact absurd h List.not_mem_nil

/-! ## One exception -/

section Step

variable {L : Layout} {m : Machine} {x : Meter} {e : Event} {k : Kernel}

theorem Clocked.returned (h : Clocked x e) :
    e.hw.todEntry ≤ e.returned ∧ e.returned ≤ e.hw.todTakeover := by
  have h₁ := h.call
  have h₂ := h.ret
  have h₃ := h.takeover
  unfold Event.returned
  split <;> omega

theorem Clocked.passed (h : Clocked x e) : e.hw.todEntry ≤ e.passed := by
  have h₁ := h.call
  unfold Event.passed
  split <;> omega

theorem Clocked.clock (h : Clocked x e) (o : Outcome) : e.hw.todEntry ≤ o.clock e := by
  cases o with
  | run => exact h.returned.1.trans h.returned.2
  | context => exact h.passed
  | _ => exact h.returned.1

theorem Clocked.until (h : Clocked x e) (L : Layout) (m : Machine) (k : Kernel) (q : PcbId) :
    e.hw.todEntry ≤ m.until L e k q := by
  unfold Machine.until
  split
  · exact h.clock _
  · exact h.returned.1

/-- What an exception charges after its entry: at most the time during which the
    active process stays active, and nothing to the others. -/
structure Charges (L : Layout) (m : Machine) (e : Event) (k : Kernel) (q : PcbId) : Prop where
  live : q ∉ m.kernel.procq .pcbFree
  low : ((charged m e).pcb q).pTime ≤ (k.pcb q).pTime
  high : (k.pcb q).pTime ≤ ((charged m e).pcb q).pTime + (m.until L e k q - e.hw.todEntry)
  clock : (k.pcb q).pTime ≤ ((charged m e).pcb q).pTime +
    ((m.outcome L e).clock e - e.hw.todEntry)
  other : m.kernel.activeProcess ≠ some q → (k.pcb q).pTime = (m.kernel.pcb q).pTime

theorem charges_of_handled (hc : Clocked x e) {q : PcbId}
    (hlive : q ∉ m.kernel.procq .pcbFree)
    (htime : (k.pcb q).pTime = (m.kernel.pcb q).pTime +
      (if m.kernel.activeProcess = some q then spent m e else 0))
    (hclock : e.returned ≤ (m.outcome L e).clock e) : Charges L m e k q := by
  have hcharged := charged_time m e q
  have hcall := hc.call
  have hret := hc.ret
  have hlater : e.returned ≤ m.until L e k q := by
    unfold Machine.until
    split
    · exact hclock
    · exact Int.le_refl _
  -- A system call that returned is charged from its second reading on.
  have hspent : (k.pcb q).pTime = ((charged m e).pcb q).pTime +
      (if m.kernel.activeProcess = some q ∧ excClass e.hw.cause = .syscall then
        e.hw.todReturn - e.hw.todSyscall else 0) := by
    rw [htime, hcharged, spent]
    by_cases hq : m.kernel.activeProcess = some q
    · simp only [hq, true_and, if_true]
      omega
    · simp only [hq, false_and, if_false, Int.add_zero]
  have hle : (k.pcb q).pTime ≤ ((charged m e).pcb q).pTime + (e.returned - e.hw.todEntry) ∧
      ((charged m e).pcb q).pTime ≤ (k.pcb q).pTime := by
    rw [hspent, Event.returned]
    split
    · rename_i h
      rw [if_pos h.2]
      omega
    · split <;> omega
  refine ⟨hlive, hle.2, by omega, by omega, fun hq => ?_⟩
  rw [htime, if_neg hq, Int.add_zero]

/-- A live process after an exception is new and has used no time, or it was
    charged. -/
theorem charges_of_next (hwf : MachineWf L m) (hok : e.Ok L m) (hc : Clocked x e)
    (hk : (m.outcome L e).next = some k) {q : PcbId} (hq : q ∉ k.procq .pcbFree) :
    (q ∈ m.kernel.procq .pcbFree ∧ (k.pcb q).pTime = 0) ∨ Charges L m e k q := by
  have hend := outcome_spec hwf hok
  -- What the handler did to the times is what the scheduler leaves.
  have haged : ∀ {ctrl : SchedulerControl} {k₁ : Kernel}, Handled L m e (.ok (ctrl, k₁)) →
      Kept k₁ k → e.returned ≤ (m.outcome L e).clock e →
      (q ∈ m.kernel.procq .pcbFree ∧ (k.pcb q).pTime = 0) ∨ Charges L m e k q := by
    intro ctrl k₁ hh hkept hclock
    rw [hkept.free] at hq
    rcases hh.aged hwf.between q hq with ⟨hf, hz⟩ | ⟨hf, ht⟩
    · exact Or.inl ⟨hf, (hkept.time q).trans hz⟩
    · exact Or.inr (charges_of_handled hc hf ((hkept.time q).trans ht) hclock)
  cases ho : m.outcome L e with
  | run k' =>
      rw [ho] at hend hk
      rw [Outcome.next, Option.some.injEq] at hk
      subst hk
      cases hend with
      | scheduled hh _ hs =>
          cases hs with
          | run hkept =>
              refine haged hh hkept ?_
              rw [ho]
              exact hc.returned.2
  | wait k' status =>
      rw [ho] at hend hk
      rw [Outcome.next, Option.some.injEq] at hk
      subst hk
      cases hend with
      | scheduled hh _ hs =>
          cases hs with
          | wait hkept =>
              refine haged hh hkept ?_
              rw [ho]
              exact Int.le_refl _
  | context k' ctx =>
      rw [ho] at hend hk
      rw [Outcome.next, Option.some.injEq] at hk
      subst hk
      cases hend with
      | scheduled _ _ hs => cases hs
      | context hh =>
          -- A U-proc that goes on in its own context was charged before.
          have htime := (hh.aged_context).2 q
          rw [← charged_time] at htime
          have hfree := (hh.context hwf.between).2.1.free
          have hclock := hc.clock (m.outcome L e)
          have huntil := hc.until L m k' q
          rw [hfree] at hq
          refine Or.inr ⟨hq, Int.le_of_eq htime.symm, by omega, by omega, fun hn => ?_⟩
          rw [htime, charged_time, if_neg hn, Int.add_zero]
  | trap => exact absurd (ho ▸ hk) (by simp only [Outcome.next, reduceCtorEq, not_false_eq_true])
  | halt => exact absurd (ho ▸ hk) (by simp only [Outcome.next, reduceCtorEq, not_false_eq_true])
  | panic => exact absurd (ho ▸ hk) (by simp only [Outcome.next, reduceCtorEq, not_false_eq_true])
  | fault => exact absurd (ho ▸ hk) (by simp only [Outcome.next, reduceCtorEq, not_false_eq_true])
  | diverge => exact absurd (ho ▸ hk) (by simp only [Outcome.next, reduceCtorEq, not_false_eq_true])

/-- After an exception that is not passed up, or is a system call, `start_tod`
    is the last reading of the clock. -/
theorem tod_of_next (hwf : MachineWf L m) (hok : e.Ok L m) (hs : SparesTraps m e)
    (hk : (m.outcome L e).next = some k) {p : PcbId} (hp : k.activeProcess = some p) :
    k.startTod = (m.outcome L e).clock e := by
  have hend := outcome_spec hwf hok
  generalize m.outcome L e = o at hend hk
  cases hend with
  | scheduled _ _ hs =>
      cases hs with
      | run _ _ _ ht =>
          rw [Outcome.next, Option.some.injEq] at hk
          exact hk ▸ ht
      | wait _ _ hn =>
          rw [Outcome.next, Option.some.injEq] at hk
          rw [← hk, hn] at hp
          exact absurd hp (by simp only [reduceCtorEq, not_false_eq_true])
      | halt => exact absurd hk (by simp only [Outcome.next, reduceCtorEq, not_false_eq_true])
  | @context k₁ ctx hh =>
      rw [Outcome.next, Option.some.injEq] at hk
      subst hk
      rw [hh.aged_context.1, Outcome.clock, Event.passed]
      rcases hh.origin with hc | ⟨hc, q, hq, hsup⟩
      · rw [if_pos hc, if_pos hc]
      · exact absurd (hs hc q hq) hsup
  | panic => exact absurd hk (by simp only [Outcome.next, reduceCtorEq, not_false_eq_true])

/-! ## Runs -/

/-- The times of the live processes lie below those of the meter, and so does
    what they gained since they were told their time. -/
structure Metered (m : Machine) (x : Meter) : Prop where
  tod : ∀ p, m.kernel.activeProcess = some p → m.kernel.startTod = x.now
  time : ∀ q, q ∉ m.kernel.procq .pcbFree → (m.kernel.pcb q).pTime ≤ x.active q
  calls : ∀ c ∈ x.calls, c.who ∉ m.kernel.procq .pcbFree ∧
    (m.kernel.pcb c.who).pTime - c.result ≤ x.now - c.tod

/-- The charge at the entry is the time since the last reading. -/
theorem Metered.charged (h : Metered m x) (e : Event) (q : PcbId) :
    ((charged m e).pcb q).pTime = (m.kernel.pcb q).pTime +
      (if m.kernel.activeProcess = some q then e.hw.todEntry - x.now else 0) := by
  rw [charged_time]
  by_cases hq : m.kernel.activeProcess = some q
  · rw [if_pos hq, if_pos hq, h.tod q hq]
  · rw [if_neg hq, if_neg hq]

/-- One exception keeps the times below those of the meter. -/
theorem metered_step (hwf : MachineWf L m) (hok : e.Ok L m) (hc : Clocked x e)
    (hs : SparesTraps m e) (h : Metered m x) (hk : (m.outcome L e).next = some k) :
    Metered (m.after e k) (x.note L m e (m.after e k)) := by
  refine ⟨fun p hp => tod_of_next hwf hok hs hk hp, fun q hq => ?_, fun c hmem => ?_⟩
  · change (k.pcb q).pTime ≤ if _ then _ else _
    rcases charges_of_next hwf hok hc hk hq with ⟨hf, hz⟩ | hch
    · rw [if_pos hf, hz]
    · have htime := h.time q hch.live
      have hhigh := hch.high
      rw [h.charged] at hhigh
      rw [if_neg hch.live]
      by_cases hact : m.kernel.activeProcess = some q
      · rw [if_pos hact] at hhigh ⊢
        change _ ≤ x.active q + (m.until L e k q - x.now)
        omega
      · rw [if_neg hact, hch.other hact]
        exact htime
  · rw [Meter.note, List.mem_filter, decide_eq_true_iff] at hmem
    rcases hmem with ⟨hmem, hq⟩
    refine ⟨hq, ?_⟩
    change (k.pcb c.who).pTime - c.result ≤ (m.outcome L e).clock e - c.tod
    have hclock := hc.clock (m.outcome L e)
    have hentry := hc.entry
    have hcharges : c.who ∉ m.kernel.procq .pcbFree → Charges L m e k c.who := by
      intro hlive
      rcases charges_of_next hwf hok hc hk hq with ⟨hf, _⟩ | hch
      · exact absurd hf hlive
      · exact hch
    rcases List.mem_append.mp hmem with hnew | hold
    · rcases mem_timeCalls hnew with ⟨hact, hres, htod⟩
      have hchg := (hcharges (hwf.between.at_.not_free (Option.mem_toFinset.mpr hact))).clock
      rw [hres, htod]
      omega
    · have hprev := (h.calls c hold).2
      have hchg := (hcharges (h.calls c hold).1).clock
      rw [h.charged] at hchg
      split at hchg <;> omega

/-- The time of a process does not decrease while it lives. -/
theorem time_mono (hwf : MachineWf L m) (hok : e.Ok L m) (hc : Clocked x e) (h : Metered m x)
    (hk : (m.outcome L e).next = some k) {q : PcbId} (hlive : q ∉ m.kernel.procq .pcbFree)
    (hq : q ∉ k.procq .pcbFree) : (m.kernel.pcb q).pTime ≤ (k.pcb q).pTime := by
  rcases charges_of_next hwf hok hc hk hq with ⟨hf, _⟩ | hch
  · exact absurd hf hlive
  · have hlow := hch.low
    have hentry := hc.entry
    rw [h.charged] at hlow
    split at hlow <;> omega

end Step

theorem metered_main {L : Layout} {b : Boot} {m : Machine} (h : (nucleus L b).init m) :
    MachineWf L m ∧ Metered m (Meter.start m) := by
  rcases h with ⟨hk, hpend⟩
  refine ⟨?_, fun _ _ => rfl, fun q _ => ?_, fun c hc => absurd hc List.not_mem_nil⟩
  · have hwf := machineWf_main hk
    rwa [← hpend] at hwf
  · rw [(main_kept hk).1.time q, (init_spec L b).2.2.1 q]
    exact Int.le_refl 0

/-- In every run in which no page fault and no program trap is passed up, the
    time of a live process is at most the time during which it was active, it
    does not decrease with the next exception, and from one `GETTIME` to a later
    one of the same process the result grows by at most what the clock shows. -/
theorem cpu_time_charged_once {L : Layout} {b : Boot} {es : List Event} {m : Machine} {x : Meter}
    (h : ((metered L b).restrict (fun s e => SparesTraps s.1 e)).Run es (m, x)) :
    (∀ q, q ∉ m.kernel.procq .pcbFree → (m.kernel.pcb q).pTime ≤ x.active q) ∧
    (∀ e k, e.Ok L m → Clocked x e → (m.outcome L e).next = some k →
      ∀ q, q ∉ m.kernel.procq .pcbFree → q ∉ k.procq .pcbFree →
        (m.kernel.pcb q).pTime ≤ (k.pcb q).pTime) ∧
    (∀ e p, e.Ok L m → Clocked x e → m.kernel.activeProcess = some p → KernelCall GETTIME m e →
      ∃ k t, (m.outcome L e).next = some k ∧ (k.pcb p).pS.gpr .v0 = BitVec.ofInt 32 t ∧
        t = ((charged m e).pcb p).pTime ∧
        ∀ c ∈ x.calls, c.who = p → t - c.result ≤ e.hw.todEntry - c.tod) := by
  have hinv : MachineWf L m ∧ Metered m x := by
    refine System.run_invariant (P := fun s => MachineWf L s.1 ∧ Metered s.1 s.2)
      (fun s hs => ?_) (fun es s e s' _ hs hstep => ?_) h
    · rcases hs with ⟨hinit, hx⟩
      rw [hx]
      exact metered_main hinit
    · rcases hstep with ⟨⟨⟨⟨hok, k, hk, hm⟩, hx⟩, hclock⟩, hspare⟩
      rw [hx, hm]
      exact ⟨machineWf_after hs.1 hok hk, metered_step hs.1 hok hclock hspare hs.2 hk⟩
  rcases hinv with ⟨hwf, hmet⟩
  refine ⟨hmet.time, fun e k hok hc hk q => time_mono hwf hok hc hmet hk,
    fun e p hok hc hp hcall => ?_⟩
  rcases getTime_returns hwf hok hp hcall with ⟨k, hk, _, hv⟩
  refine ⟨k, _, hk, hv, rfl, ?_⟩
  rintro c hmem rfl
  have hprev := (hmet.calls c hmem).2
  rw [hmet.charged, if_pos hp]
  omega

/-! ## Replays under a clock -/

/-- The machine and its meter after one exception. -/
def meterStep (L : Layout) (s : Machine × Meter) (hw : Hw) : Option (Machine × Meter) :=
  let e := Event.quiet s.1 (hw, .ignore)
  if e.Ok L s.1 ∧ Clocked s.2 e then
    (s.1.next L e).map (fun m => (m, s.2.note L s.1 e m))
  else none

theorem meterStep_some {L : Layout} {b : Boot} {s s' : Machine × Meter} {hw : Hw}
    (h : meterStep L s hw = some s') :
    (metered L b).step s (Event.quiet s.1 (hw, .ignore)) s' := by
  unfold meterStep at h
  simp only [] at h
  split at h
  · rename_i hok
    rw [Option.map_eq_some_iff] at h
    rcases h with ⟨m, hm, rfl⟩
    exact ⟨⟨step_iff_next.mpr ⟨hok.1, hm⟩, rfl⟩, hok.2⟩
  · exact absurd h (by simp only [reduceCtorEq, not_false_eq_true])

theorem exists_metered {L : Layout} {b : Boot} {A : Machine → Event → Prop} (xs : List Hw)
    (hs : ∀ hw ∈ xs, ∀ m, A m (Event.quiet m (hw, .ignore))) (P : Machine × Meter → Prop)
    [DecidablePred P]
    (h : ((Machine.start L b).bind (fun m => xs.foldlM (meterStep L) (m, Meter.start m))).any
      (fun s => decide (P s)) = true) :
    ∃ es s, ((metered L b).restrict (fun s e => A s.1 e)).Run es s ∧ P s := by
  rw [Option.any_eq_true] at h
  rcases h with ⟨s, hm, hp⟩
  rw [Option.bind_eq_some_iff] at hm
  rcases hm with ⟨m₀, hstart, hreplay⟩
  rcases System.run_of_foldlM (S := (metered L b).restrict (fun s e => A s.1 e)) xs
    (fun hw hmem s s' hstep => ⟨_, meterStep_some hstep, hs hw hmem s.1⟩)
    (System.Run.init ⟨init_of_start hstart, rfl⟩) hreplay with ⟨es, hrun⟩
  exact ⟨es, s, hrun, of_decide_eq_true hp⟩

/-- The hardware with the given readings of the clock. -/
def Hw.at (hw : Hw) (entry call ret takeover : Int) : Hw :=
  { hw with todEntry := entry, todSyscall := call, todReturn := ret, todTakeover := takeover }

/-- The hardware at a page fault. -/
def faultHw : Hw := { quietHw with cause := 2 <<< CAUSESHIFT }

/-- A process is told its time, and asks again. -/
theorem cpu_time_charged_once_sample : ∃ es m x p e k,
    ((metered sampleLayout sampleBoot).restrict (fun s e => SparesTraps s.1 e)).Run es (m, x) ∧
    (m.kernel.pcb p).pTime = 5 ∧ (m.kernel.pcb p).pTime ≤ x.active p ∧
    (m.outcome sampleLayout e).next = some k ∧ ((charged m e).pcb p).pTime = 9 := by
  have hspare : ∀ hw ∈ [(callHw GETTIME 0 0 0).at 4 4 5 6], ∀ m,
      SparesTraps m (Event.quiet m (hw, .ignore)) := by
    intro hw hmem m hc
    rw [List.mem_singleton.mp hmem] at hc
    have hcall : excClass ((callHw GETTIME 0 0 0).at 4 4 5 6).cause = .syscall := by decide
    exact absurd hc (by simp only [Event.quiet, hcall, reduceCtorEq, or_self, not_false_eq_true])
  rcases exists_metered (L := sampleLayout) (b := sampleBoot) _ hspare
    (fun s => s.1.kernel.activeProcess = some 19 ∧ 19 ∉ s.1.kernel.procq .pcbFree ∧
      (s.1.kernel.pcb 19).pTime = 5 ∧
      (Event.quiet s.1 ((callHw GETTIME 0 0 0).at 10 10 10 10, .ignore)).Ok sampleLayout s.1 ∧
      Clocked s.2 (Event.quiet s.1 ((callHw GETTIME 0 0 0).at 10 10 10 10, .ignore)) ∧
      KernelCall GETTIME s.1 (Event.quiet s.1 ((callHw GETTIME 0 0 0).at 10 10 10 10, .ignore)) ∧
      ((charged s.1 (Event.quiet s.1 ((callHw GETTIME 0 0 0).at 10 10 10 10,
        .ignore))).pcb 19).pTime = 9)
    (by decide +kernel) with ⟨es, ⟨m, x⟩, hrun, hact, hlive, htime, hok, hclock, hcall, hnine⟩
  have honce := cpu_time_charged_once hrun
  rcases honce.2.2 _ 19 hok hclock hact hcall with ⟨k, _, hk, _⟩
  exact ⟨es, m, x, 19, _, k, hrun, htime, honce.1 19 hlive, hk, hnine⟩

/-- A process with a support structure was active for 15 units of time. Its page
    fault was passed up after ten of them, and these were charged twice. -/
theorem cpu_time_charged_twice : ∃ es m x p,
    (metered sampleLayout sampleBoot).Run es (m, x) ∧ p ∉ m.kernel.procq .pcbFree ∧
    (m.kernel.pcb p).pTime = 25 ∧ x.active p = 15 := by
  rcases exists_metered (L := sampleLayout) (b := sampleBoot) (A := fun _ _ => True)
    [(callHw CREATEPROCESS 0x20002000 0 0x20003000).at 1 1 1 1, (callHw YIELD 0 0 0).at 2 2 2 10,
      faultHw.at 20 20 20 20, (callHw GETTIME 0 0 0).at 25 25 25 25]
    (fun _ _ _ => trivial)
    (fun s => 18 ∉ s.1.kernel.procq .pcbFree ∧ (s.1.kernel.pcb 18).pTime = 25 ∧ s.2.active 18 = 15)
    (by decide +kernel) with ⟨es, ⟨m, x⟩, hrun, hlive, htime, hactive⟩
  exact ⟨es, m, x, 18, System.run_of_restrict hrun, hlive, htime, hactive⟩

end Pandos
