import Pandos.Theory.Replay

/-!
# The Drain Loop of the Interval Timer

The loop of `interrupt_timer` has no bound of its own. It ends because every
round but the last two takes a process off the timer semaphore, and it never
blocks the active process because the value becomes one only when nobody is
left, which ends the loop before the next `V`.

The queue of a semaphore shows who waits for it in the order of blocking. An
observer keeps this order from what it sees of each step.

## Main definitions

* `blockOrder`: An observer of the order of blocking.
* `WokenAll`: What the loop leaves behind.

## Theorems

* `drainTimer_mono`: More rounds change nothing.
* `waiters_blockOrder`: The queue of a semaphore is the order of blocking.
* `Drained.wokenAll`: A drained semaphore has woken everybody once.
* `timer_drains`: The loop ends in every state a run reaches.
-/

namespace Pandos

/-- Who waits for a semaphore, in the order of blocking: whoever waits no longer
    leaves the order, and whoever starts to wait is the last one. -/
def blockOrder (a : Word) (m : Machine) (_ : Event) (m' : Machine) (order : List PcbId) :
    List PcbId :=
  order.filter (· ∈ waiters m'.kernel a) ++
    (List.finRange MAX_PROC).filter
      (fun p => p ∈ waiters m'.kernel a ∧ p ∉ waiters m.kernel a)

/-- Those that waited for the timer are behind the ready processes of their
    priorities, in the order of blocking. They wait for nothing, the counter of
    blocked processes knows, and their descriptor is free. Whoever waits for
    something else goes on waiting, the active process is in no queue, and the
    timer semaphore is one while all other values are as before. -/
structure WokenAll (L : Layout) (k : Kernel) (order : List PcbId) (k' : Kernel) : Prop where
  hi : k'.procq .readyQueueHi = k.procq .readyQueueHi ++ order.filter (isHigh k)
  lo : k'.procq .readyQueueLo = k.procq .readyQueueLo ++ order.filter (!isHigh k ·)
  off : ∀ p ∈ order, (k'.pcb p).pSemAdd = none
  softblock : k'.softblockCount.val.toNat + order.length = k.softblockCount.val.toNat
  freed : ∀ i ∈ k.slink .semdH, k.sKey i = getTimerSemaphore L → i ∈ k'.slink .semdFree
  other : ∀ a, a ≠ getTimerSemaphore L → waiters k' a = waiters k a
  active : k'.activeProcess = k.activeProcess
  unqueued : ∀ p, k.activeProcess = some p → k'.procq.Null p ∧ (k'.pcb p).pSemAdd = none
  one : k'.mem (getTimerSemaphore L) = 1
  mem : ∀ a, a ≠ getTimerSemaphore L → k'.mem a = k.mem a

/-- The interrupt of the interval timer. -/
def timerInterrupt : Hw × Accept :=
  (interruptHw IL_TIMER 0 { status := 1, transmStatus := 1 }, .ignore)

section Drain

variable {L : Layout}

/-- A loop that ended does not need the rounds that are left. -/
theorem drainTimer_mono (fuel more : Nat) : ∀ k k', drainTimer L fuel k = .ok k' →
    fuel ≤ more → drainTimer L more k = .ok k' := by
  induction fuel generalizing more with
  | zero =>
      intro k k' h
      cases h
  | succ fuel ih =>
      intro k k' h hle
      cases more with
      | zero => omega
      | succ more =>
          unfold drainTimer at h ⊢
          by_cases hone : k.mem (getTimerSemaphore L) ≠ 1
          · rw [if_pos hone] at h ⊢
            cases hV : V k (some (getTimerSemaphore L)) with
            | error e =>
                rw [hV] at h
                exact absurd h (by simp only [reduceCtorEq, not_false_eq_true])
            | ok r =>
                rw [hV] at h
                exact ih more r.2 k' h (Nat.le_of_succ_le_succ hle)
          · rw [if_neg hone] at h ⊢
            exact h

/-- The loop changes no key. -/
theorem drainTimer_sKey (fuel : Nat) : ∀ k k' s, At k s →
    (∀ p, k.activeProcess = some p → k.procq.Null p) → k.mem (getTimerSemaphore L) = 0 →
    drainTimer L fuel k = .ok k' → k'.sKey = k.sKey := by
  have hal : Aligned (getTimerSemaphore L) := semAddr_aligned L (Nat.lt_succ_self 48)
  induction fuel with
  | zero => exact fun k k' s _ _ _ h => absurd h (by
      simp only [drainTimer, reduceCtorEq, not_false_eq_true])
  | succ fuel ih =>
      intro k k' s hat hact hzero h
      have hne : k.mem (getTimerSemaphore L) ≠ 1 := by
        rw [hzero]
        decide
      rcases V_spec hat.wf.asl hal hact with ⟨r, k₁, hV, hstep⟩
      rw [drainTimer, if_pos hne, hV] at h
      cases hstep with
      | block hv => exact absurd hv hne
      | idle hv => exact absurd hv hne
      | @wake _ t _ hb =>
          have hat₁ := hb.at hat
          have hkey : k₁.sKey = k.sKey := by
            rcases hb.rest with ⟨q, s, rfl⟩
            rfl
          have hact₁ : ∀ p, k₁.activeProcess = some p → k₁.procq.Null p := by
            intro p hp
            rw [(hb.frame hat.wf.asl).activeProcess] at hp
            rw [hat₁.running, ← hat.running]
            exact hact p hp
          exact (ih k₁ k' s hat₁ hact₁ (hb.mem ▸ hzero) h).trans hkey
      | raise _ hw =>
          have hval : (k.store (getTimerSemaphore L) (k.mem (getTimerSemaphore L) + 1)).mem
              (getTimerSemaphore L) = 1 := by
            simp only [Kernel.store, if_true, hzero]
            decide
          -- The value is one now, which ends the loop.
          cases fuel with
          | zero => exact absurd h (by simp only [drainTimer, reduceCtorEq, not_false_eq_true])
          | succ fuel =>
              simp only [] at h
              rw [drainTimer, if_neg (not_not_intro hval)] at h
              rw [← Except.ok.inj h]
              rfl

/-- A process that waits for something is in the queue of a semaphore. -/
theorem mem_blocked_iff {k : Kernel} (hw : AslWf k) (p : PcbId) :
    p ∈ blocked k ↔ ∃ a, p ∈ waiters k a := by
  rw [mem_blocked]
  constructor
  · rintro ⟨hfree, hsem⟩
    rcases Option.ne_none_iff_exists'.mp hsem with ⟨a, ha⟩
    exact ⟨a, mem_waiters_of_semAdd hw ha hfree⟩
  · rintro ⟨a, ha⟩
    refine ⟨not_free_of_mem_waiters hw ha, ?_⟩
    rw [semAdd_of_mem_waiters hw ha]
    exact Option.some_ne_none a

/-- A drained semaphore has woken everybody once. -/
theorem Drained.wokenAll {k k' : Kernel} {s : Finset PcbId} (h : Drained L k k') (hat : At k s)
    (hat' : At k' s) (hact : ∀ p, k.activeProcess = some p → k.procq.Null p)
    (hkey : k'.sKey = k.sKey) : WokenAll L k (waiters k (getTimerSemaphore L)) k' := by
  have hw := hat.wf.asl
  have hw' := hat'.wf.asl
  have hhigh := isHigh_congr h.frame.prio
  have hready := h.ready
  have hnone := h.none
  -- Whoever waits afterwards waited before, and not for the timer.
  have hblocked : blocked k = blocked k' ∪ (waiters k (getTimerSemaphore L)).toFinset := by
    ext p
    rw [Finset.mem_union, List.mem_toFinset, mem_blocked_iff hw, mem_blocked_iff hw']
    constructor
    · rintro ⟨a, ha⟩
      by_cases hat : a = getTimerSemaphore L
      · exact Or.inr (hat ▸ ha)
      · exact Or.inl ⟨a, by rw [h.other a hat]; exact ha⟩
    · rintro (⟨a, ha⟩ | ha)
      · by_cases hat : a = getTimerSemaphore L
        · rw [hat, hnone] at ha
          exact absurd ha List.not_mem_nil
        · exact ⟨a, by rw [← h.other a hat]; exact ha⟩
      · exact ⟨_, ha⟩
  have hoff : ∀ p ∈ waiters k (getTimerSemaphore L), p ∉ blocked k' := by
    intro p hp hb
    rcases (mem_blocked_iff hw' p).mp hb with ⟨a, ha⟩
    by_cases hat : a = getTimerSemaphore L
    · rw [hat, hnone] at ha
      exact List.not_mem_nil ha
    · rw [h.other a hat] at ha
      exact hat (Option.some.inj
        ((semAdd_of_mem_waiters hw ha).symm.trans (semAdd_of_mem_waiters hw hp)))
  refine ⟨?_, ?_, fun p hp => ?_, ?_, fun i hi hikey => ?_, h.other, h.frame.activeProcess,
    fun p hp => ?_, h.one, h.mem⟩
  · rw [hready.hi, hhigh]
  · rw [hready.lo, hhigh]
  · by_contra hsem
    refine hoff p hp ((mem_blocked k' p).mpr ⟨?_, hsem⟩)
    rw [h.frame.free]
    exact not_free_of_mem_waiters hw hp
  · rw [hat.counted.softblock.1, hat'.counted.softblock.1, hblocked, Finset.card_union_of_disjoint,
      List.toFinset_card_of_nodup (waiters_nodup hw _)]
    rw [Finset.disjoint_left]
    exact fun p hb hp => hoff p (List.mem_toFinset.mp hp) hb
  · refine (hw'.listed i).resolve_right (fun hused => ?_)
    have hq := hw'.waiting i hused
    rw [← waiters_of_key hw'.key_inj hused (hkey ▸ hikey), hnone] at hq
    exact hq rfl
  · have hnull : k'.procq.Null p := by
      rw [hat'.running, ← hat.running]
      exact hact p hp
    exact ⟨hnull, semAdd_none_of_null hw' hnull⟩

end Drain

/-! ## The order of blocking -/

section Order

variable {L : Layout} {m : Machine} {e : Event}

theorem filter_finRange_single (p : PcbId) :
    (List.finRange MAX_PROC).filter (fun q => decide (q = p)) = [p] := by
  revert p
  decide +kernel

/-- A queue after some of its processes left it. -/
theorem order_of_filter {xs ys : List PcbId} {f : PcbId → Bool} (h : ys = xs.filter f) :
    ys = xs.filter (· ∈ ys) ++ (List.finRange MAX_PROC).filter (fun p => p ∈ ys ∧ p ∉ xs) := by
  have hnew : (List.finRange MAX_PROC).filter (fun p => p ∈ ys ∧ p ∉ xs) = [] := by
    refine List.filter_eq_nil_iff.mpr (fun p _ hp => ?_)
    rw [decide_eq_true_iff, h] at hp
    exact hp.2 (List.mem_of_mem_filter hp.1)
  have hold : xs.filter (· ∈ ys) = ys := by
    refine (List.filter_congr (fun p hp => ?_)).trans h.symm
    rw [Bool.eq_iff_iff, decide_eq_true_iff, h, List.mem_filter]
    exact and_iff_right hp
  rw [hnew, hold, List.append_nil]

/-- A queue after a process was put at its end. -/
theorem order_of_append {xs ys : List PcbId} {p : PcbId} (h : ys = xs ++ [p]) (hp : p ∉ xs) :
    ys = xs.filter (· ∈ ys) ++ (List.finRange MAX_PROC).filter (fun q => q ∈ ys ∧ q ∉ xs) := by
  have hnew : (List.finRange MAX_PROC).filter (fun q => q ∈ ys ∧ q ∉ xs) = [p] := by
    rw [← filter_finRange_single p]
    refine List.filter_congr (fun q _ => ?_)
    rw [decide_eq_decide, h, List.mem_append, List.mem_singleton]
    constructor
    · rintro ⟨hq | hq, hnot⟩
      · exact absurd hq hnot
      · exact hq
    · rintro rfl
      exact ⟨Or.inr rfl, hp⟩
  have hold : xs.filter (· ∈ ys) = xs := by
    refine List.filter_eq_self.mpr (fun q hq => decide_eq_true ?_)
    rw [h]
    exact List.mem_append_left _ hq
  rw [hnew, hold, h]

/-- One exception takes processes off a queue and puts at most one at its end. -/
theorem Effect.blockOrder {k : Kernel} (h : Effect L m e k) (hw : AslWf m.kernel)
    (hact : ∀ p, m.kernel.activeProcess = some p → m.kernel.procq.Null p) (a : Word) :
    waiters k a = (waiters m.kernel a).filter (· ∈ waiters k a) ++
      (List.finRange MAX_PROC).filter (fun p => p ∈ waiters k a ∧ p ∉ waiters m.kernel a) := by
  have hsame : waiters k a = waiters m.kernel a →
      waiters k a = (waiters m.kernel a).filter (fun _ => true) :=
    fun h => h.trans (List.filter_true _).symm
  cases h with
  | still _ _ hwait => exact order_of_filter (hsame (hwait a))
  | create _ _ hwait => exact order_of_filter (hsame (hwait a))
  | kill _ _ _ _ hwait => exact order_of_filter (hwait a)
  | @block op b bus p _ hp _ _ hwait =>
      by_cases hab : a = b
      · refine order_of_append (p := p) (by rw [hwait, if_pos hab, hab]) (fun hm => ?_)
        rcases (mem_waiters_iff hw a p).mp hm with ⟨i, -, -, hq⟩
        exact hact p hp (.sProcq i) hq
      · exact order_of_filter (hsame (by rw [hwait, if_neg hab]))
  | @wake op b bus t ts _ ht _ _ hwait =>
      by_cases hab : a = b
      · -- The longest waiting process leaves.
        have hnd := waiters_nodup hw a
        rw [hab, ht, List.nodup_cons] at hnd
        refine order_of_filter (f := fun q => decide (q ≠ t)) ?_
        rw [hwait, if_pos hab, hab, ht, List.filter_cons_of_neg (by simp only [ne_eq,
          not_true_eq_false, decide_false, Bool.false_eq_true, not_false_eq_true])]
        refine (List.filter_eq_self.mpr (fun q hq => decide_eq_true ?_)).symm
        exact fun hc => hnd.1 (hc ▸ hq)
      · exact order_of_filter (hsame (by rw [hwait, if_neg hab]))
  | change _ _ _ _ hwait => exact order_of_filter (hsame (hwait a))
  | drain _ _ _ _ hwait =>
      by_cases hab : a = getTimerSemaphore L
      · refine order_of_filter (f := fun _ => false) ?_
        rw [hwait, if_pos hab, List.filter_false]
      · exact order_of_filter (hsame (by rw [hwait, if_neg hab]))

/-- The nucleus with an observer of the order of blocking on a semaphore. -/
def orderedRuns (L : Layout) (b : Boot) (a : Word) : System (Machine × List PcbId) Event :=
  (nucleus L b).observed (fun _ => []) (blockOrder a)

/-- Nobody waits when the first process starts. -/
theorem waiters_main {b : Boot} {k : Kernel} (hk : (main L b).next = some k) (a : Word) :
    waiters k a = [] := by
  rcases init_spawned L b with ⟨k₀, p, k₁, hblank, -, hs, hsame, -⟩
  rw [(main_kept hk).1.waiters, show waiters (init L b) a = waiters k₁ a from
    congrFun (congrArg Places.wait hsame.places) a, hs.waiters]
  refine waiters_of_no_key (fun i hi => ?_)
  rw [hblank.slink] at hi
  simp only [reduceCtorEq, if_false, List.not_mem_nil] at hi

theorem active_null (hb : Between m.kernel) (p : PcbId) (hp : m.kernel.activeProcess = some p) :
    m.kernel.procq.Null p := by
  rw [hb.at_.running, hp, Option.toFinset_some, Finset.mem_singleton]

/-- The queue of a semaphore is the order of blocking. -/
theorem waiters_blockOrder {b : Boot} {a : Word} {es : List Event} {order : List PcbId}
    (h : (orderedRuns L b a).Run es (m, order)) : waiters m.kernel a = order := by
  refine System.run_invariant (P := fun s => waiters s.1.kernel a = s.2) (fun s hs => ?_)
    (fun es s e s' hrun horder hstep => ?_) h
  · rw [hs.2]
    exact waiters_main hs.1.1 a
  · have hwf := machineWf_run (System.run_of_observed hrun)
    rcases hstep with ⟨⟨hok, k, hk, hm'⟩, hnote⟩
    have heff := (effect_of_next hwf hok hk).1
    rw [hnote, blockOrder, ← horder, hm']
    exact heff.blockOrder hwf.between.at_.wf.asl (active_null hwf.between) a

/-- In every state a run reaches the loop of `interrupt_timer` ends, however many
    rounds it is given beyond those it needs. If the timer semaphore was zero it
    wakes everybody who waits, in the order of blocking and once; if it was one
    nothing happens. -/
theorem timer_drains {b : Boot} {es : List Event} {order : List PcbId}
    (h : (orderedRuns L b (getTimerSemaphore L)).Run es (m, order)) (hok : e.Ok L m) :
    ∃ k', (∀ fuel, order.length + 2 ≤ fuel → drainTimer L fuel (charged m e) = .ok k') ∧
      interruptTimer L (charged m e) = .ok (CONTROL_PRESERVE m.kernel.activeProcess, k') ∧
      (m.kernel.mem (getTimerSemaphore L) = 0 → WokenAll L (charged m e) order k') ∧
      (m.kernel.mem (getTimerSemaphore L) = 1 → k' = charged m e) := by
  have hwf := machineWf_run (System.run_of_observed h)
  have hat := charged_at hwf.between e
  have hact : ∀ p, (charged m e).activeProcess = some p → (charged m e).procq.Null p := by
    intro p hp
    rw [hat.running, hp, Option.toFinset_some, Finset.mem_singleton]
  have horder : waiters (charged m e) (getTimerSemaphore L) = order := by
    rw [charged_waiters, waiters_blockOrder h]
  have htimer := charged_timer hok.toTrusted
  -- Any number of rounds from the bound on gives the same state.
  have hends : ∀ {k'}, drainTimer L (order.length + 2) (charged m e) = .ok k' →
      k'.activeProcess = (charged m e).activeProcess →
      (∀ fuel, order.length + 2 ≤ fuel → drainTimer L fuel (charged m e) = .ok k') ∧
        interruptTimer L (charged m e) = .ok (CONTROL_PRESERVE m.kernel.activeProcess, k') := by
    intro k' hk' hactive
    have hall := fun fuel hle => drainTimer_mono (order.length + 2) fuel _ k' hk' hle
    have hle := waiters_length_le hat.wf.asl (getTimerSemaphore L)
    rw [horder] at hle
    refine ⟨hall, ?_⟩
    rw [interruptTimer, hall drainFuel (by unfold drainFuel; omega), ← charged_active m e,
      ← hactive]
  rcases hwf.timer with hzero | hone
  · have hz : (charged m e).mem (getTimerSemaphore L) = 0 := htimer.trans hzero
    rcases drainTimer_of_zero L (order.length + 2) _ _ hat hact hz (by rw [horder]) with
      ⟨k', heq, hd, hat'⟩
    rcases hends heq hd.frame.activeProcess with ⟨hall, hint⟩
    refine ⟨k', hall, hint, fun _ => ?_, fun hone => ?_⟩
    · rw [← horder]
      exact hd.wokenAll hat hat' hact (drainTimer_sKey _ _ _ _ hat hact hz heq)
    · rw [hone] at hzero
      exact absurd hzero (by decide)
  · have hstop : drainTimer L (order.length + 2) (charged m e) = .ok (charged m e) := by
      rw [drainTimer, htimer, if_neg (not_not_intro hone)]
    rcases hends hstop rfl with ⟨hall, hint⟩
    refine ⟨_, hall, hint, fun hzero => ?_, fun _ => rfl⟩
    rw [hone] at hzero
    exact absurd hzero (by decide)

end Order

/-- A process of high priority waits for the clock, and then the first process
    does, which has low priority. The tick wakes both. -/
theorem timer_drains_sample : ∃ es m e order k',
    (orderedRuns sampleLayout sampleBoot (getTimerSemaphore sampleLayout)).Run es (m, order) ∧
    e.Ok sampleLayout m ∧ order = [18, 19] ∧ isHigh m.kernel 18 = true ∧
    isHigh m.kernel 19 = false ∧ WokenAll sampleLayout (charged m e) order k' := by
  rcases exists_run (L := sampleLayout) (b := sampleBoot)
    [(callHw CREATEPROCESS 0x20002000 PROCESS_PRIO_HIGH 0x20003000, .ignore),
      (callHw YIELD 0 0 0, .ignore), (callHw CLOCKWAIT 0 0 0, .ignore),
      (callHw CLOCKWAIT 0 0 0, .ignore)]
    (fun m => (Event.quiet m timerInterrupt).Ok sampleLayout m ∧
      m.kernel.mem (getTimerSemaphore sampleLayout) = 0 ∧
      waiters m.kernel (getTimerSemaphore sampleLayout) = [18, 19] ∧
      isHigh m.kernel 18 = true ∧ isHigh m.kernel 19 = false)
    (by decide +kernel) with ⟨es, m, hrun, hok, hzero, hwait, hhigh, hlow⟩
  rcases System.run_observed (fun _ => [])
    (blockOrder (getTimerSemaphore sampleLayout)) hrun with ⟨order, horder⟩
  rcases timer_drains horder hok with ⟨k', -, -, hwoken, -⟩
  exact ⟨es, m, _, order, k', horder, hok, (waiters_blockOrder horder).symm.trans hwait, hhigh,
    hlow, hwoken hzero⟩

end Pandos
