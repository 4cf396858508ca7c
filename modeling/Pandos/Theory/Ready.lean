import Pandos.Lib.TwoLevel
import Pandos.Theory.Effects

/-!
# The Ready Queues

The scheduler as a two-level scheduler. The two ready queues and the pointer to
the process that yielded are its state, a call of `schedule` is one of its
calls, and a handler does nothing to the ready queues but take the processes
that died out of them and put the processes that became ready at their ends.

## Main definitions

* `ready`: The state of the two-level scheduler.
* `Handed`: What a call of `schedule` relies on.
* `Follows`: The outcome of a call is the one of the two-level scheduler.
* `Changed`: What a handler does to the ready queues.
* `callOf`: A call, with what the handler did before.

## Theorems

* `schedule_follows`: A call of `schedule` is one of the two-level scheduler.
* `Changed.call`: What a handler does is what the call says.
* `Handled.changed`: What the branches of the handler do to the ready queues.
-/

namespace Pandos

open TwoLevel

/-- The ready queues and the process that yielded. -/
def ready (k : Kernel) : TwoLevel PcbId :=
  { hi := k.procq .readyQueueHi, lo := k.procq .readyQueueLo, yielded := k.yieldProcess }

/-- The process handed to `schedule` and the one that yielded are two, and the
    only ones in no queue. -/
structure Handed (k : Kernel) (pcb : Option PcbId) : Prop where
  at_ : At k (pcb.toFinset ∪ k.yieldProcess.toFinset)
  ne : ∀ p, pcb = some p → k.yieldProcess ≠ some p

theorem Ready.handed {ctrl : SchedulerControl} {k : Kernel} (h : Ready ctrl k) :
    Handed k ctrl.pcb := by
  refine ⟨h.at_, fun p hp hy => ?_⟩
  rcases h.one with hn | hn
  · exact absurd (hn.symm.trans hp) (Option.some_ne_none p).symm
  · exact absurd (hn.symm.trans hy) (Option.some_ne_none p).symm

/-- The outcome of a call is the one of the two-level scheduler: the process it
    dispatches takes over, or there is none and `wait_or_die` decides. -/
inductive Follows (hw : Hw) (k : Kernel) (r : Option PcbId × TwoLevel PcbId) : Outcome → Prop
  | dispatch {p : PcbId} {k' : Kernel} (hr : r = (some p, ready k'))
      (ha : k'.activeProcess = some p) : Follows hw k r (.run k')
  | idle (hr : r = (none, ready k)) : Follows hw k r (waitOrDie hw k)

/-! ## A call -/

section Schedule

variable (hw : Hw) {k : Kernel} {p : PcbId}

theorem ready_enqueueProcess (hp : k.procq.Null p) :
    ready (enqueueProcess k p) = (ready k).enqueue (isHigh k) p := by
  rw [enqueueProcess_eq hp]
  unfold TwoLevel.enqueue processQueue
  by_cases hprio : (k.pcb p).pPrio ≠ 0
  · have hhigh : isHigh k p = true := bne_iff_ne.mpr hprio
    simp only [hhigh, if_true, if_pos hprio, ready, Queues.addTail_self]
    rw [Queues.addTail_other _ _ _ _ (by simp only [ne_eq, reduceCtorEq, not_false_eq_true])]
  · have hlow : isHigh k p = false := bne_eq_false_iff_eq.mpr (not_not.mp hprio)
    simp only [hlow, Bool.false_eq_true, if_false, if_neg hprio, ready, Queues.addTail_self]
    rw [Queues.addTail_other _ _ _ _ (by simp only [ne_eq, reduceCtorEq, not_false_eq_true])]

/-- The process that takes over is in no list, and the one that yielded goes to
    the end of its own. -/
theorem dispatch_run (h : At k (insert p k.yieldProcess.toFinset)) :
    ∃ k', dispatch hw k p = .run k' ∧ k'.activeProcess = some p ∧
      ready k' = (ready k).settle (isHigh k) := by
  cases hy : k.yieldProcess with
  | none =>
      refine ⟨_, rfl, ?_, ?_⟩
      · simp only [hy]
        rfl
      · simp only [hy, settle, ready, Kernel.modPcb]
  | some y =>
      have hnull : k.procq.Null y := by
        refine h.null (Finset.mem_insert_of_mem ?_)
        rw [hy]
        exact Finset.mem_singleton_self y
      have henq : ready (enqueueProcess { k with activeProcess := some p } y)
          = (ready k).enqueue (isHigh k) y := ready_enqueueProcess hnull
      refine ⟨_, rfl, ?_, ?_⟩
      · simp only [hy]
        rfl
      · have hready : (ready k).settle (isHigh k)
            = { (ready k).enqueue (isHigh k) y with yielded := none } := by
          simp only [settle, show (ready k).yielded = some y from hy]
        rw [hready, ← henq]
        simp only [hy]
        rfl

theorem leave_of_out (hp : k.procq.Null p) (hy : k.yieldProcess ≠ some p) :
    (ready k).leave p = ready k := by
  have hif : (if (ready k).yielded = some p then none else (ready k).yielded) = k.yieldProcess :=
    if_neg hy
  rw [leave, hif]
  simp only [ready, List.erase_of_not_mem (hp _)]

/-- The scheduler takes the next process, and waits or ends if there is none. -/
theorem selectReady_follows (h : At k k.yieldProcess.toFinset) :
    (∀ p, (ready k).next = some p → ∃ k', selectReady hw k = .run k' ∧
      k'.activeProcess = some p ∧ ready k' = ((ready k).leave p).settle (isHigh k)) ∧
    ((ready k).next = none → selectReady hw k = waitOrDie hw k) := by
  -- The head of a ready queue did not yield, so it only leaves its queue.
  have hhead : ∀ {q : ProcQ} {p : PcbId}, p ∈ k.procq q → q = .readyQueueHi ∨ q = .readyQueueLo →
      ∃ k', dispatch hw (listSdel k p) p = .run k' ∧ k'.activeProcess = some p ∧
        ready k' = ((ready k).leave p).settle (isHigh k) := by
    intro q p hp hq
    have hne : k.yieldProcess ≠ some p := by
      intro hy
      refine h.null (p := p) ?_ q hp
      rw [hy]
      exact Finset.mem_singleton_self p
    rcases dispatch_run hw (k := listSdel k p) (at_listSdel h hp hq) with
      ⟨k', hrun, hact, hready⟩
    refine ⟨k', hrun, hact, hready.trans ?_⟩
    have hleave : (ready k).leave p = ready (listSdel k p) := by
      have hif : (if (ready k).yielded = some p then none else (ready k).yielded)
          = k.yieldProcess := if_neg hne
      rw [leave, hif]
      rfl
    rw [hleave]
    rfl
  unfold selectReady
  cases hhi : k.procq .readyQueueHi with
  | cons p ps =>
      rw [removeProcQ_cons hhi, next_hi (s := ready k) hhi]
      refine ⟨fun r hr => ?_, fun hn => absurd hn (Option.some_ne_none p)⟩
      rw [Option.some.injEq] at hr
      subst hr
      exact hhead (hhi ▸ List.mem_cons_self) (Or.inl rfl)
  | nil =>
      rw [removeProcQ_nil hhi]
      cases hlo : k.procq .readyQueueLo with
      | cons p ps =>
          rw [next_lo (s := ready k) hhi hlo]
          simp only [removeProcQ_cons hlo]
          refine ⟨fun r hr => ?_, fun hn => absurd hn (Option.some_ne_none p)⟩
          rw [Option.some.injEq] at hr
          subst hr
          exact hhead (hlo ▸ List.mem_cons_self) (Or.inr rfl)
      | nil =>
          rw [next_nil (s := ready k) hhi hlo, show (ready k).yielded = k.yieldProcess from rfl]
          simp only [removeProcQ_nil hlo]
          cases hy : k.yieldProcess with
          | none => exact ⟨fun r hr => absurd hr.symm (Option.some_ne_none r), fun _ => rfl⟩
          | some y =>
              refine ⟨fun r hr => ?_, fun hn => absurd hn (Option.some_ne_none y)⟩
              rw [Option.some.injEq] at hr
              subst hr
              rw [hy] at h
              rcases dispatch_run hw (k := { k with yieldProcess := none }) (p := y)
                (at_pointers h k.activeProcess none) with ⟨k', hrun, hact, hready⟩
              refine ⟨k', hrun, hact, hready.trans ?_⟩
              have hleave : (ready k).leave y = ready { k with yieldProcess := none } := by
                simp only [leave, ready, hy, hhi, hlo, List.erase_nil, if_true]
              rw [hleave]
              rfl

/-- A call of `schedule` is a call of the two-level scheduler. -/
theorem schedule_follows {pcb : Option PcbId} (h : Handed k pcb) (enqueue : Bool) :
    Follows hw k ((ready k).schedule (isHigh k) pcb enqueue) (schedule hw k pcb enqueue) := by
  rcases h with ⟨hat, hne⟩
  cases pcb with
  | none =>
      rw [Option.toFinset_none, Finset.empty_union] at hat
      have hsel := selectReady_follows hw hat
      have hpick : (ready k).pick (isHigh k) none enqueue = (ready k).next := rfl
      have hsched : schedule hw k none enqueue = selectReady hw k := by
        cases enqueue <;> rfl
      rw [hsched, TwoLevel.schedule, hpick]
      cases hn : (ready k).next with
      | none =>
          rw [hsel.2 hn]
          exact Follows.idle rfl
      | some p =>
          rcases hsel.1 p hn with ⟨k', hrun, hact, hready⟩
          rw [hrun]
          exact Follows.dispatch (by rw [hready]; rfl) hact
  | some p =>
      have hnull : k.procq.Null p :=
        hat.null (Finset.mem_union_left _ (Finset.mem_singleton_self p))
      cases enqueue with
      | false =>
          have hat' : At k (insert p k.yieldProcess.toFinset) := hat
          rcases dispatch_run hw hat' with ⟨k', hrun, hact, hready⟩
          have hsched : schedule hw k (some p) false = dispatch hw k p := rfl
          rw [hsched, hrun]
          refine Follows.dispatch ?_ hact
          have hleave := leave_of_out hnull (hne p rfl)
          rw [hready, ← hleave]
          simp only [TwoLevel.schedule, pick, offer, hleave]
      | true =>
          have hsched : schedule hw k (some p) true = selectReady hw (enqueueProcess k p) := rfl
          have hmem : p ∈ (some p).toFinset ∪ k.yieldProcess.toFinset :=
            Finset.mem_union_left _ (Finset.mem_singleton_self p)
          have henq := at_enqueueProcess hat hmem
          -- The process is in a queue now, so only the yielding one is outside.
          have hset : ((some p).toFinset ∪ k.yieldProcess.toFinset).erase p
              = k.yieldProcess.toFinset := by
            ext r
            have hy := hne p rfl
            simp only [Finset.mem_erase, Finset.mem_union, Option.mem_toFinset, Option.mem_def]
            grind
          rw [hset] at henq
          have hsel := selectReady_follows hw (k := enqueueProcess k p) henq
          have hready := ready_enqueueProcess hnull
          have hhigh : isHigh (enqueueProcess k p) = isHigh k := rfl
          have hpick : (ready k).pick (isHigh k) (some p) true
              = (ready (enqueueProcess k p)).next := by
            rw [hready]
            rfl
          rw [hsched, TwoLevel.schedule, hpick]
          cases hn : (ready (enqueueProcess k p)).next with
          | none =>
              -- The process that was queued is there to be taken.
              exfalso
              have hlevel : ((ready k).enqueue (isHigh k) p).level (isHigh k p) = _ :=
                level_enqueue (ready k) p (isHigh k p)
              rw [if_pos rfl, ← hready] at hlevel
              unfold next at hn
              split at hn
              · exact absurd hn (Option.some_ne_none _)
              · exact absurd hn (Option.some_ne_none _)
              · rename_i hhi hlo
                cases hb : isHigh k p with
                | true =>
                    rw [hb] at hlevel
                    exact List.append_ne_nil_of_right_ne_nil _ (List.cons_ne_nil p [])
                      (hlevel.symm.trans hhi)
                | false =>
                    rw [hb] at hlevel
                    exact List.append_ne_nil_of_right_ne_nil _ (List.cons_ne_nil p [])
                      (hlevel.symm.trans hlo)
          | some r =>
              rcases hsel.1 r hn with ⟨k', hrun, hact, hready'⟩
              rw [hrun]
              refine Follows.dispatch ?_ hact
              rw [hready', hready, hhigh]
              rfl

end Schedule

/-! ## Between two calls -/

/-- The processes that died left the ready queues, and others, which were in
    none, went to the ends of the queues of their priorities. -/
structure Changed (k k' : Kernel) : Prop where
  woken : ∃ ws : List PcbId,
    (∀ p ∈ ws, p ∉ k.procq .readyQueueHi ∧ p ∉ k.procq .readyQueueLo) ∧
    k'.procq .readyQueueHi
      = (k.procq .readyQueueHi).filter (· ∉ k'.procq .pcbFree) ++ ws.filter (isHigh k') ∧
    k'.procq .readyQueueLo
      = (k.procq .readyQueueLo).filter (· ∉ k'.procq .pcbFree) ++ ws.filter (!isHigh k' ·)

/-- A call of `schedule` after a handler took the nucleus from one state to
    another. -/
def callOf (k k' : Kernel) (pcb : Option PcbId) (enqueue : Bool) : Call PcbId :=
  { high := isHigh k'
    gone := k'.procq .pcbFree
    woken := (k'.procq .readyQueueHi ++ k'.procq .readyQueueLo).filter
      (fun p => p ∉ k.procq .readyQueueHi ∧ p ∉ k.procq .readyQueueLo)
    yielded := k'.yieldProcess
    pcb := pcb
    enqueue := enqueue }

section Changes

variable {k k₁ k' : Kernel}

/-- A handler does to the ready queues what the call says. -/
theorem Changed.call (h : Changed k k') (pcb : Option PcbId) (enqueue : Bool) :
    (ready k).change (callOf k k' pcb enqueue) = ready k' := by
  rcases h.woken with ⟨ws, hout, hhi, hlo⟩
  -- Of the processes that are ready now, those that were not before are `ws`.
  have hnew : ∀ (q : ProcQ) (f : PcbId → Bool), q = .readyQueueHi ∨ q = .readyQueueLo →
      k'.procq q = (k.procq q).filter (· ∉ k'.procq .pcbFree) ++ ws.filter f →
      (k'.procq q).filter (fun p => p ∉ k.procq .readyQueueHi ∧ p ∉ k.procq .readyQueueLo)
        = ws.filter f := by
    intro q f hq heq
    rw [heq, List.filter_append, List.filter_eq_nil_iff.mpr, List.nil_append,
      List.filter_eq_self.mpr]
    · intro p hp
      rw [decide_eq_true_iff]
      exact hout p (List.mem_of_mem_filter hp)
    · intro p hp
      have hmem := List.mem_of_mem_filter hp
      rw [decide_eq_true_iff]
      rcases hq with rfl | rfl
      · exact fun hc => hc.1 hmem
      · exact fun hc => hc.2 hmem
  have hwoken : (callOf k k' pcb enqueue).woken
      = ws.filter (isHigh k') ++ ws.filter (!isHigh k' ·) := by
    rw [callOf, List.filter_append, hnew _ _ (Or.inl rfl) hhi, hnew _ _ (Or.inr rfl) hlo]
  have hup : (callOf k k' pcb enqueue).woken.filter (isHigh k') = ws.filter (isHigh k') := by
    rw [hwoken, List.filter_append, List.filter_filter, List.filter_filter]
    simp only [Bool.and_self, Bool.and_not_self, List.filter_false, List.append_nil]
  have hdown : (callOf k k' pcb enqueue).woken.filter (!isHigh k' ·)
      = ws.filter (!isHigh k' ·) := by
    rw [hwoken, List.filter_append, List.filter_filter, List.filter_filter]
    simp only [Bool.and_self, Bool.not_and_self, List.filter_false, List.nil_append]
  rw [ready, ready, change, hhi, hlo, ← hup, ← hdown]
  rfl

/-- A ready process is alive. -/
theorem not_free_of_ready (hw : AslWf k) {p : PcbId}
    (hp : p ∈ k.procq .readyQueueHi ∨ p ∈ k.procq .readyQueueLo) : p ∉ k.procq .pcbFree := by
  intro hf
  rcases hp with hp | hp
  · exact absurd (hw.procq.unique _ _ p hp hf) (by simp only [reduceCtorEq, not_false_eq_true])
  · exact absurd (hw.procq.unique _ _ p hp hf) (by simp only [reduceCtorEq, not_false_eq_true])

/-- Processes became ready while nobody died. -/
theorem Readied.changed {ws : List PcbId} (h : Readied k ws k') (hw : AslWf k)
    (hfree : ∀ p, p ∈ k'.procq .pcbFree → p ∈ k.procq .pcbFree)
    (hws : ∀ p ∈ ws, p ∉ k.procq .readyQueueHi ∧ p ∉ k.procq .readyQueueLo) : Changed k k' := by
  have hall : ∀ q : ProcQ, q = .readyQueueHi ∨ q = .readyQueueLo →
      (k.procq q).filter (· ∉ k'.procq .pcbFree) = k.procq q := by
    intro q hq
    refine List.filter_eq_self.mpr (fun p hp => decide_eq_true (fun hf => ?_))
    refine not_free_of_ready hw ?_ (hfree p hf)
    rcases hq with rfl | rfl
    · exact Or.inl hp
    · exact Or.inr hp
  refine ⟨ws, hws, ?_, ?_⟩
  · rw [hall _ (Or.inl rfl), h.hi]
  · rw [hall _ (Or.inr rfl), h.lo]

theorem changed_of_same (h : Same k k') (hw : AslWf k) : Changed k k' := by
  refine (readied_of_same h.procq).changed hw (fun p hp => h.procq ▸ hp) ?_
  exact fun p hp => absurd hp List.not_mem_nil

theorem Changed.of_touched (h : Changed k k₁) (ht : Touched k₁ k') : Changed k k' := by
  have hhigh := isHigh_congr ht.same.prio
  rcases h.woken with ⟨ws, hout, hhi, hlo⟩
  refine ⟨ws, hout, ?_, ?_⟩
  · rw [ht.same.procq, hhigh]
    exact hhi
  · rw [ht.same.procq, hhigh]
    exact hlo

theorem Changed.of_from (hs : Same k k₁) (h : Changed k₁ k') : Changed k k' := by
  rcases h.woken with ⟨ws, hout, hhi, hlo⟩
  rw [hs.procq] at hout hhi hlo
  exact ⟨ws, hout, hhi, hlo⟩

/-- A process that waits is in no ready queue. -/
theorem not_ready_of_waiting (hw : AslWf k) {a : Word} {p : PcbId} (hp : p ∈ waiters k a) :
    p ∉ k.procq .readyQueueHi ∧ p ∉ k.procq .readyQueueLo := by
  rcases (mem_waiters_iff hw a p).mp hp with ⟨i, _, _, hq⟩
  constructor
  · intro h
    exact absurd (hw.procq.unique _ _ p h hq) (by simp only [reduceCtorEq, not_false_eq_true])
  · intro h
    exact absurd (hw.procq.unique _ _ p h hq) (by simp only [reduceCtorEq, not_false_eq_true])

theorem Blocked.changed {a : Word} {p : PcbId} (h : Blocked k a p k') (hw : AslWf k) :
    Changed k k' := by
  have hhi : k'.procq .readyQueueHi = k.procq .readyQueueHi := congrArg Places.hi h.places
  have hlo : k'.procq .readyQueueLo = k.procq .readyQueueLo := congrArg Places.lo h.places
  have hready : Readied k [] k' := by
    constructor
    · rw [hhi, List.filter_nil, List.append_nil]
    · rw [hlo, List.filter_nil, List.append_nil]
  exact hready.changed hw (fun q hq => h.frame.free ▸ hq)
    (fun q hq => absurd hq List.not_mem_nil)

theorem Woken.changed {a : Word} {p : PcbId} (h : Woken k a p k') (hw : AslWf k) :
    Changed k k' := by
  rcases h.head with ⟨ps, hps⟩
  refine (h.readied hw).changed hw (fun q hq => (h.frame hw).free ▸ hq) (fun q hq => ?_)
  rw [List.mem_singleton.mp hq]
  exact not_ready_of_waiting hw (hps ▸ List.mem_cons_self)

theorem Drained.changed {L : Layout} (h : Drained L k k') (hw : AslWf k) : Changed k k' :=
  h.ready.changed hw (fun _ hq => h.frame.free ▸ hq) (fun _ hq => not_ready_of_waiting hw hq)

theorem Spawned.changed {prio : Word} {p : PcbId} (h : Spawned k prio p k') (hw : AslWf k) :
    Changed k k' := by
  rcases h.free with ⟨ps, hf, hf'⟩
  refine h.ready.changed hw (fun q hq => ?_) (fun q hq => ?_)
  · rw [hf]
    exact List.mem_cons_of_mem p (hf' ▸ hq)
  · -- The process was a free block before.
    have hfree : q ∈ k.procq .pcbFree := by
      rw [List.mem_singleton.mp hq, hf]
      exact List.mem_cons_self
    exact ⟨fun hc => not_free_of_ready hw (Or.inl hc) hfree,
      fun hc => not_free_of_ready hw (Or.inr hc) hfree⟩

/-- The processes that were killed left the ready queues. -/
theorem changed_of_killed (hw : AslWf k) (ks : List PcbId) (s : Queues SemdList SemdId) :
    Changed k (k.killed ks s) := by
  have hleft : ∀ q : ProcQ, q = .readyQueueHi ∨ q = .readyQueueLo →
      (k.killed ks s).procq q = (k.procq q).filter (· ∉ (k.killed ks s).procq .pcbFree) := by
    intro q hq
    have hne : q ≠ .pcbFree := by
      rcases hq with rfl | rfl <;> simp only [ne_eq, reduceCtorEq, not_false_eq_true]
    rw [killed_procq k ks s hne, killed_free]
    refine List.filter_congr (fun p hp => ?_)
    have hfree : p ∉ k.procq .pcbFree := by
      refine not_free_of_ready hw ?_
      rcases hq with rfl | rfl
      · exact Or.inl hp
      · exact Or.inr hp
    simp only [List.mem_append, hfree, or_false]
  refine ⟨[], fun p hp => absurd hp List.not_mem_nil, ?_, ?_⟩
  · rw [List.filter_nil, List.append_nil]
    exact hleft _ (Or.inl rfl)
  · rw [List.filter_nil, List.append_nil]
    exact hleft _ (Or.inr rfl)

/-- A word of memory plays no part in the ready queues. -/
theorem changed_of_store (hw : AslWf k) (a v : Word) : Changed k (k.store a v) :=
  changed_of_same (same_store k a v) hw

theorem PStep.changed {a : Word} {p : PcbId} {ctrl : SchedulerControl} (h : PStep k a p ctrl k')
    (hw : AslWf k) : Changed k k' := by
  cases h with
  | block _ hb => exact hb.changed hw
  | wake _ hb => exact hb.changed hw
  | lower => exact changed_of_store hw _ _

theorem VStep.changed {a : Word} {r : Option PcbId} (h : VStep k a r k') (hw : AslWf k) :
    Changed k k' := by
  cases h with
  | block _ _ hb => exact hb.changed hw
  | idle => exact changed_of_same (same_refl k) hw
  | wake _ hb => exact hb.changed hw
  | raise => exact changed_of_store hw _ _

theorem PassUp.changed {hw : Hw} {type : Fin 2} {ctrl : SchedulerControl}
    (h : PassUp hw k type (.ok (ctrl, k'))) (hwf : AslWf k) : Changed k k' := by
  cases h with
  | idle => exact changed_of_same (same_refl _) hwf
  | die => exact changed_of_killed hwf _ _

theorem Interrupted.changed {L : Layout} {m : Machine} {hw : Hw} {ctrl : SchedulerControl}
    (h : Interrupted L m hw k (.ok (ctrl, k'))) (hwf : AslWf k) : Changed k k' := by
  cases h with
  | resume => exact changed_of_same (same_refl _) hwf
  | tick _ _ hd =>
      rcases hd with ⟨_, hd⟩ | ⟨_, rfl⟩
      · exact hd.changed hwf
      · exact changed_of_same (same_refl _) hwf
  | @device u status _ _ _ _ h =>
      cases h with
      | @wake t k₂ hb =>
          exact (hb.changed hwf).of_touched
            (touched_trans (touched_setResult k₂ t status) (touched_acked _ u))
      | @stray q _ _ =>
          exact (changed_of_store hwf _ _).of_touched
            (touched_trans (touched_setResult _ q status) (touched_acked _ u))

theorem Served.changed {L : Layout} {hw : Hw} {p : PcbId} {ctrl : SchedulerControl}
    (h : Served L hw k p (.ok (ctrl, k'))) (hwf : AslWf k) : Changed k k' := by
  have hsame : Changed k k := changed_of_same (same_refl k) hwf
  cases h with
  | reserved _ h =>
      have ht := touched_reserved k p
      have hwf' : AslWf (Pandos.reserved k p) := ht.same.aslWf hwf
      exact Changed.of_from ht.same (h.changed hwf')
  | pass _ h => exact h.changed hwf
  | full => exact hsame.of_touched (touched_setResult k p NULL_PID)
  | @create c k₂ prio support state _ hs _ _ =>
      -- Filling the record in and getting a parent leave queues and priorities alone.
      rcases (hs.changed hwf).woken with ⟨ws, hout, hhi, hlo⟩
      have hprio : ∀ q, ((adopted (filled k₂ c support state) p c).pcb q).pPrio
          = (k₂.pcb q).pPrio := by
        intro q
        rw [(adopted_fields _ p c q).2.2.1, (same_filled k₂ c support state).prio]
      have hhigh := isHigh_congr hprio
      have hadopt : Changed k (adopted (filled k₂ c support state) p c) := by
        refine ⟨ws, hout, ?_, ?_⟩
        · rw [hhigh]
          exact hhi
        · rw [hhigh]
          exact hlo
      exact hadopt.of_touched (touched_setResult _ p _)
  | terminate => exact changed_of_killed hwf _ _
  | passeren _ _ _ _ h => exact h.changed hwf
  | verhogen _ _ _ _ h => exact h.changed hwf
  | doIo _ _ _ _ hb => exact (hb.changed hwf).of_touched (touched_ioStarted _ _ _ _ _)
  | waitClock _ _ h => exact h.changed hwf
  | get v => exact hsame.of_touched (touched_setResult k p v)
  | yield => exact ⟨hsame.woken⟩

end Changes

/-- What a handler does to the ready queues. -/
theorem Handled.changed {L : Layout} {m : Machine} {e : Event} {ctrl : SchedulerControl}
    {k : Kernel} (h : Handled L m e (.ok (ctrl, k))) (hb : Between m.kernel) :
    Changed m.kernel k := by
  have hwf : AslWf (charged m e) := (charged_at hb e).wf.asl
  cases h with
  | interrupt _ h => exact Changed.of_from (same_charged m e) (h.changed hwf)
  | pass _ h => exact Changed.of_from (same_charged m e) (h.changed hwf)
  | @call p _ k₁ _ hp h =>
      have hsame : Same m.kernel (calling m e) :=
        same_trans (same_charged m e) (touched_startTod _ _).same
      have hwf' : AslWf (calling m e) := (calling_spec hb hp).at_.wf.asl
      exact (Changed.of_from hsame (h.changed hwf')).of_touched (touched_afterSyscall e.hw k₁ p)

end Pandos
