import Pandos.Theory.Replay

/-!
# Processes

Every block of the process table is in exactly one place, and the counters say
how many processes there are and how many of them wait, so that the scheduler
halts, waits or goes on for the right reason.

## Main definitions

* `Place`, `StandsIn`: The places a block can be in.
* `Placed`: Every block is in exactly one place, the one its record names.
* `RightlyIdle`: The scheduler halts and waits for the right reason.

## Theorems

* `placed_of_between`: The invariant puts every block in one place.
* `process_in_one_place`: No process is lost or duplicated in any run.
* `counters_exact`: The counters are exact and drive the idle decision.
-/

namespace Pandos

/-- The places a block of the process table can be in. -/
inductive Place
  | free
  | ready (high : Bool)
  | waiting (sem : SemdId)
  | cpu
  deriving DecidableEq

/-- A block stands in a place. -/
def StandsIn (k : Kernel) (p : PcbId) : Place → Prop
  | .free => p ∈ k.procq .pcbFree
  | .ready true => p ∈ k.procq .readyQueueHi
  | .ready false => p ∈ k.procq .readyQueueLo
  | .waiting i => p ∈ k.procq (.sProcq i)
  | .cpu => k.activeProcess = some p ∧ k.procq.Null p

/-- Every block is in exactly one place, once, and its record names the place. -/
structure Placed (k : Kernel) : Prop where
  one : ∀ p, ∃! x, StandsIn k p x
  once : ∀ h, (k.procq h).Nodup
  free : ∀ p, StandsIn k p .free ↔ (k.pcb p).pPid = NULL_PID
  high : ∀ p, StandsIn k p (.ready true) → (k.pcb p).pPrio = PROCESS_PRIO_HIGH
  low : ∀ p, StandsIn k p (.ready false) → (k.pcb p).pPrio = PROCESS_PRIO_LOW
  waiting : ∀ p, ¬ StandsIn k p .free →
    ((∃ i, StandsIn k p (.waiting i)) ↔ (k.pcb p).pSemAdd ≠ none)
  key : ∀ p i, StandsIn k p (.waiting i) →
    i ∈ k.slink .semdH ∧ (k.pcb p).pSemAdd = some (k.sKey i)
  yield : k.yieldProcess = none
  active : ∀ p, k.activeProcess = some p →
    StandsIn k p .cpu ∧ (k.pcb p).pPid ≠ NULL_PID ∧ (k.pcb p).pSemAdd = none

/-- The queue behind the sentinel of a place. -/
def Place.queue : Place → Option ProcQ
  | .free => some .pcbFree
  | .ready true => some .readyQueueHi
  | .ready false => some .readyQueueLo
  | .waiting i => some (.sProcq i)
  | .cpu => none

theorem queue_inj {x y : Place} (h : x.queue = y.queue) : x = y := by
  rcases x with _ | (_ | _) | i | _ <;> rcases y with _ | (_ | _) | j | _ <;>
    simp_all only [Place.queue, reduceCtorEq, Option.some.injEq, ProcQ.sProcq.injEq]

/-- Every queue is the queue of a place. -/
theorem exists_place (h : ProcQ) : ∃ x : Place, x.queue = some h := by
  cases h with
  | pcbFree => exact ⟨.free, rfl⟩
  | readyQueueLo => exact ⟨.ready false, rfl⟩
  | readyQueueHi => exact ⟨.ready true, rfl⟩
  | sProcq i => exact ⟨.waiting i, rfl⟩

theorem standsIn_iff (k : Kernel) (p : PcbId) (x : Place) : StandsIn k p x ↔
    (∃ h, x.queue = some h ∧ p ∈ k.procq h) ∨
      x.queue = none ∧ k.activeProcess = some p ∧ k.procq.Null p := by
  rcases x with _ | (_ | _) | i | _ <;>
    simp only [StandsIn, Place.queue, Option.some.injEq, exists_eq_left', reduceCtorEq, false_and,
      or_false, exists_false, true_and, false_or]

/-- A block without a queue is on the processor, and a block in a queue is in
    the place of this queue alone. -/
theorem standsIn_unique {k : Kernel} (hb : Between k) (p : PcbId) : ∃! x, StandsIn k p x := by
  have hw := hb.at_.wf.asl.procq
  by_cases hn : k.procq.Null p
  · have hact : k.activeProcess = some p := by
      have hmem := (hb.at_.running p).mp hn
      exact Option.mem_toFinset.mp hmem
    refine ⟨.cpu, ⟨hact, hn⟩, fun y hy => ?_⟩
    rcases (standsIn_iff k p y).mp hy with ⟨h, _, hp⟩ | ⟨hq, _⟩
    · exact absurd hp (hn h)
    · exact queue_inj hq
  · unfold Queues.Null at hn
    push Not at hn
    rcases hn with ⟨h, hp⟩
    rcases exists_place h with ⟨x, hx⟩
    refine ⟨x, (standsIn_iff k p x).mpr (Or.inl ⟨h, hx, hp⟩), fun y hy => ?_⟩
    rcases (standsIn_iff k p y).mp hy with ⟨h', hy', hp'⟩ | ⟨_, _, hnull⟩
    · exact queue_inj (by rw [hy', hx, hw.unique h' h p hp' hp])
    · exact absurd hp (hnull h)

/-- The invariant between two exceptions puts every block in one place. -/
theorem placed_of_between {k : Kernel} (hb : Between k) : Placed k := by
  have hw := hb.at_.wf
  have hsem : ∀ p i, p ∈ k.procq (.sProcq i) → i ∈ k.slink .semdH := by
    intro p i hp
    refine (hw.asl.listed i).resolve_left (fun hf => ?_)
    rw [hw.asl.idle i hf] at hp
    exact absurd hp List.not_mem_nil
  refine ⟨standsIn_unique hb, hw.asl.procq.nodup, hw.pcb.free_iff, hw.pcb.hi, hw.pcb.lo,
    fun p hf => ⟨?_, fun hs => ?_⟩, fun p i hp => ⟨hsem p i hp, hw.asl.queued i p hp⟩, hb.yield,
    fun p hp => ?_⟩
  · rintro ⟨i, hi⟩
    rw [hw.asl.queued i p hi]
    exact Option.some_ne_none _
  · rcases Option.ne_none_iff_exists'.mp hs with ⟨a, ha⟩
    rcases hw.asl.blocked p a ha hf with ⟨i, _, _, hq⟩
    exact ⟨i, hq⟩
  · have hmem : p ∈ k.activeProcess.toFinset := Option.mem_toFinset.mpr hp
    refine ⟨⟨hp, hb.at_.null hmem⟩, ?_, hb.at_.semAdd_none hmem⟩
    rw [ne_eq, ← hw.pcb.free_iff]
    exact hb.at_.not_free hmem

/-- In every run of the nucleus no process is lost or duplicated, and the next
    exception neither goes through a null pointer nor runs forever. -/
theorem process_in_one_place {L : Layout} {b : Boot} {es : List Event} {m : Machine}
    (h : (nucleus L b).Run es m) : Placed m.kernel ∧
      ∀ e : Event, e.Ok L m → m.outcome L e ≠ .fault ∧ m.outcome L e ≠ .diverge := by
  have hwf := machineWf_run h
  refine ⟨placed_of_between hwf.between, fun e hok => ?_⟩
  have hend := outcome_spec hwf hok
  generalize m.outcome L e = o at hend
  cases hend with
  | scheduled _ _ hs =>
      cases hs <;> exact ⟨by simp only [ne_eq, reduceCtorEq, not_false_eq_true],
        by simp only [ne_eq, reduceCtorEq, not_false_eq_true]⟩
  | context => exact ⟨by simp only [ne_eq, reduceCtorEq, not_false_eq_true],
      by simp only [ne_eq, reduceCtorEq, not_false_eq_true]⟩
  | panic => exact ⟨by simp only [ne_eq, reduceCtorEq, not_false_eq_true],
      by simp only [ne_eq, reduceCtorEq, not_false_eq_true]⟩

theorem process_in_one_place_sample : ∃ es m, (nucleus sampleLayout sampleBoot).Run es m ∧
    Placed m.kernel := by
  rcases sample_run with ⟨es, m, hrun, _⟩
  exact ⟨es, m, hrun, (process_in_one_place hrun).1⟩

/-! ## Counters -/

/-- The scheduler halts when no process is left, and it waits for an interrupt
    when there are processes, all of them wait, and none is ready. -/
def RightlyIdle : Outcome → Prop
  | .halt k => live k = ∅
  | .wait k _ => live k ≠ ∅ ∧ live k = blocked k ∧ k.procq .readyQueueHi = [] ∧
      k.procq .readyQueueLo = []
  | _ => True

theorem blocked_subset_live (k : Kernel) : blocked k ⊆ live k := by
  intro p hp
  rw [mem_live]
  exact ((mem_blocked k p).mp hp).1

theorem Scheduled.rightlyIdle {hw : Hw} {k : Kernel} {o : Outcome} (h : Scheduled hw k o) :
    RightlyIdle o := by
  cases h with
  | run => exact trivial
  | wait _ _ _ _ hlive hlo hhi hall =>
      exact ⟨hlive, Finset.Subset.antisymm hall (blocked_subset_live _), hhi, hlo⟩
  | halt _ hlive => exact hlive

/-- The counters are exact in every run and never underflow, and whenever the
    scheduler halts or waits it does so for the right reason. -/
theorem counters_exact {L : Layout} {b : Boot} {es : List Event} {m : Machine}
    (h : (nucleus L b).Run es m) :
    (m.kernel.processCount.Is (live m.kernel).card ∧
      m.kernel.softblockCount.Is (blocked m.kernel).card) ∧
      RightlyIdle (main L b) ∧ ∀ e : Event, e.Ok L m → RightlyIdle (m.outcome L e) := by
  have hwf := machineWf_run h
  have hc := hwf.between.at_.counted
  refine ⟨⟨hc.processes, hc.softblock⟩, (main_spec L b).rightlyIdle, fun e hok => ?_⟩
  have hend := outcome_spec hwf hok
  generalize m.outcome L e = o at hend
  cases hend with
  | scheduled _ _ hs => exact hs.rightlyIdle
  | context => exact trivial
  | panic => exact trivial

theorem counters_exact_sample : ∃ es m, (nucleus sampleLayout sampleBoot).Run es m ∧
    m.kernel.processCount.Is (live m.kernel).card := by
  rcases sample_run with ⟨es, m, hrun, _⟩
  exact ⟨es, m, hrun, (counters_exact hrun).1.1⟩

end Pandos
