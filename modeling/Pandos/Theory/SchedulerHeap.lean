import Pandos.Theory.AslHeap
import Pandos.Theory.KillProgeny
import Pandos.Theory.Scheduler

/-!
# Scheduling and Semaphores in Memory

Processes come, wait, run and go on the pointers as the nucleus is told.

## Theorems

* `enqueueProcess_keeps`, `dequeueProcess_keeps`: The ready queues.
* `spawnProcess_keeps`, `killProcess_keeps`, `killProgeny_keeps`: Processes.
* `P_keeps`, `V_keeps`: Semaphores.
* `schedule_keeps`: The choice of the next process.
-/

namespace Pandos

variable {m : NucleusHeap} {k k' : Kernel} {p : PcbId}

/-! ## Ready queues -/

theorem processQueue_keeps (h : Keeps m k) (p : PcbId) :
    m.processQueue p = headCell (processQueue k p) := by
  rcases h with ⟨L, born, h⟩
  unfold NucleusHeap.processQueue processQueue
  rw [h.agrees.pPrio]
  split <;> rfl

theorem inUse_hi (k : Kernel) : InUse k .readyQueueHi :=
  inUse_ready k (fun _ => by simp only [ne_eq, reduceCtorEq, not_false_eq_true])

theorem inUse_lo (k : Kernel) : InUse k .readyQueueLo :=
  inUse_ready k (fun _ => by simp only [ne_eq, reduceCtorEq, not_false_eq_true])

/-- A ready queue has its sentinel. -/
theorem inUse_processQueue (k : Kernel) (p : PcbId) :
    InUse k (processQueue k p) ∧ processQueue k p ≠ .pcbFree := by
  rcases processQueue_eq k p with h | h
  · rw [h]
    exact ⟨inUse_hi k, by simp only [ne_eq, reduceCtorEq, not_false_eq_true]⟩
  · rw [h]
    exact ⟨inUse_lo k, by simp only [ne_eq, reduceCtorEq, not_false_eq_true]⟩

/-- `enqueue_process`. -/
theorem enqueueProcess_keeps (h : Keeps m k) (hp : p ∉ k.procq .pcbFree) :
    ∃ m', m.enqueueProcess (some p) = some m' ∧ Keeps m' (enqueueProcess k p) := by
  rcases inUse_processQueue k p with ⟨hq, hfree⟩
  rcases insertProcQ_keeps h hq hfree hp with ⟨m', hrun, hkeep⟩
  refine ⟨m', ?_, hkeep⟩
  simp only [NucleusHeap.enqueueProcess, processQueue_keeps h, hrun]

/-- `dequeue_process`. -/
theorem dequeueProcess_keeps (h : Keeps m k) (p : PcbId) :
    ∃ m', m.dequeueProcess (some p) = some ((dequeueProcess k p).1, m') ∧
      Keeps m' (dequeueProcess k p).2 := by
  rcases inUse_processQueue k p with ⟨hq, hfree⟩
  rcases outProcQ_keeps h hq hfree p with ⟨pcbs, hrun, hkeep⟩
  refine ⟨{ m with pcbs := pcbs }, ?_, hkeep⟩
  simp only [NucleusHeap.dequeueProcess, processQueue_keeps h, hrun, Option.bind_eq_bind,
    Option.bind_some, Option.pure_def]
  rfl

/-- `list_null` tells the processes that are in no queue. -/
theorem listNull_keeps (h : Keeps m k) (p : PcbId) :
    m.pcbs.links.listNull (some (.pList p)) = some (decide (k.procq.Null p)) := by
  rcases h with ⟨L, born, h⟩
  rw [Links.listNull_some]
  by_cases hp : k.procq.Null p
  · rcases h.pointers.null p (h.shape.blocks p) (h.shape.null hp) with ⟨hnext, hprev⟩
    simp only [hnext, hprev, hp, Option.isNone_none, Bool.and_self, decide_true]
  · have hcopy := hp
    unfold Queues.Null at hp
    push Not at hp
    rcases hp with ⟨q, hq⟩
    rw [← h.shape.queues] at hq
    have hmem : (Cell.pList p : Cell ProcQ PcbId) ∈ (L.queue (headCell q)).map .pList :=
      List.mem_map_of_mem hq
    have hnext := ((h.pointers.ring _ (PcbLists.mem_heads hq)).neighbours hmem).1
    simp only [Option.isNone_eq_false_iff.mpr hnext, hcopy, Bool.and_false, decide_false]

/-- A process that is linked is taken from its ready queue. -/
theorem dequeueLinked_keeps (h : Keeps m k) (p : PcbId) :
    ∃ m', m.dequeueLinked p = some m' ∧
      Keeps m' (if k.procq.Null p then k else (dequeueProcess k p).2) := by
  have hnull := listNull_keeps h p
  by_cases hp : k.procq.Null p
  · rw [if_pos hp]
    refine ⟨m, ?_, h⟩
    simp only [NucleusHeap.dequeueLinked, hnull, hp, decide_true, if_true, Option.bind_eq_bind,
      Option.bind_some, Option.pure_def]
  · rw [if_neg hp]
    rcases dequeueProcess_keeps h p with ⟨m', hrun, hkeep⟩
    refine ⟨m', ?_, hkeep⟩
    simp only [NucleusHeap.dequeueLinked, hnull, hp, hrun, decide_false, Bool.false_eq_true,
      if_false, Option.bind_eq_bind, Option.bind_some, Option.pure_def]

/-! ## Globals -/

section Globals

variable (h : Keeps m k)

include h

theorem Keeps.processCount : m.processCount = k.processCount :=
  congrArg Globals.processCount h.globals

theorem Keeps.softblockCount : m.softblockCount = k.softblockCount :=
  congrArg Globals.softblockCount h.globals

theorem Keeps.activeProcess : m.activeProcess = k.activeProcess :=
  congrArg Globals.activeProcess h.globals

theorem Keeps.yieldProcess : m.yieldProcess = k.yieldProcess :=
  congrArg Globals.yieldProcess h.globals

theorem Keeps.recycleCount : m.recycleCount = k.recycleCount :=
  congrArg Globals.recycleCount h.globals

theorem Keeps.mem : m.mem = k.mem := congrArg Globals.mem h.globals

theorem Keeps.softblockDecr : Keeps { m with softblockCount := m.softblockCount.decr }
    { k with softblockCount := k.softblockCount.decr } :=
  h.withGlobals ⟨rfl, rfl, rfl⟩ ⟨rfl, rfl, rfl, rfl, rfl⟩
    (congrArg (fun g : Globals => { g with softblockCount := g.softblockCount.decr }) h.globals)

theorem Keeps.softblockIncr : Keeps { m with softblockCount := m.softblockCount.incr }
    { k with softblockCount := k.softblockCount.incr } :=
  h.withGlobals ⟨rfl, rfl, rfl⟩ ⟨rfl, rfl, rfl, rfl, rfl⟩
    (congrArg (fun g : Globals => { g with softblockCount := g.softblockCount.incr }) h.globals)

theorem Keeps.processDecr : Keeps { m with processCount := m.processCount.decr }
    { k with processCount := k.processCount.decr } :=
  h.withGlobals ⟨rfl, rfl, rfl⟩ ⟨rfl, rfl, rfl, rfl, rfl⟩
    (congrArg (fun g : Globals => { g with processCount := g.processCount.decr }) h.globals)

/-- The memory holds the words of the semaphores. -/
theorem Keeps.store (a v : Word) : Keeps (m.store a v) (k.store a v) := by
  refine h.withGlobals ⟨rfl, rfl, rfl⟩ ⟨rfl, rfl, rfl, rfl, rfl⟩ ?_
  have hmem : Function.update m.mem a v = fun b => if b = a then v else k.mem b := by
    rw [h.mem]
    funext b
    exact Function.update_apply _ _ _ _
  have hg := congrArg (fun g : Globals => { g with mem := Function.update m.mem a v }) h.globals
  exact hg.trans (congrArg (fun mem => { k.globals with mem := mem }) hmem)

end Globals

/-! ## Processes -/

/-- An allocated block is not free any more. -/
theorem allocPcb_not_free {k₁ : Kernel} (hw : Wf k) (h : allocPcb k = (some p, k₁)) :
    p ∉ k₁.procq .pcbFree := by
  cases hk : k.procq .pcbFree with
  | nil =>
      unfold allocPcb at h
      rw [hk] at h
      cases h
  | cons q qs =>
      rw [allocPcb_cons hw hk] at h
      cases h
      exact (Queues.null_del hw.asl.procq p p).mpr (Or.inr rfl) .pcbFree

/-- `spawn_process`. -/
theorem spawnProcess_keeps (h : Keeps m k) (hw : Wf k) (priority : Word) :
    ∃ m', m.spawnProcess priority = some ((spawnProcess k priority).1, m') ∧
      Keeps m' (spawnProcess k priority).2 := by
  by_cases hprio : priority ≠ PROCESS_PRIO_HIGH ∧ priority ≠ PROCESS_PRIO_LOW
  · have hres : spawnProcess k priority = (none, k) := if_pos hprio
    rw [hres]
    exact ⟨m, if_pos hprio, h⟩
  · rcases allocPcb_keeps h hw with ⟨pcbs, halloc, hkeep⟩
    rcases hk : allocPcb k with ⟨found, k₁⟩
    rw [hk] at halloc hkeep
    cases found with
    | none =>
        have hres : spawnProcess k priority = (none, k₁) := by
          simp only [spawnProcess, if_neg hprio, hk]
        rw [hres]
        refine ⟨{ m with pcbs := pcbs }, ?_, hkeep⟩
        simp only [NucleusHeap.spawnProcess, if_neg hprio, halloc, Option.bind_eq_bind,
          Option.bind_some, Option.pure_def]
    | some p =>
        have hrecycle : m.recycleCount = k₁.recycleCount := hkeep.recycleCount
        have hfree := allocPcb_not_free hw hk
        have hcount : Keeps { m with
              pcbs := pcbs
              processCount := m.processCount.incr
              recycleCount := m.recycleCount + 1 }
            { k₁ with
              processCount := k₁.processCount.incr
              recycleCount := k₁.recycleCount + 1 } :=
          hkeep.withGlobals ⟨rfl, rfl, rfl⟩ ⟨rfl, rfl, rfl, rfl, rfl⟩ (congrArg (fun g : Globals =>
            { g with
              processCount := g.processCount.incr
              recycleCount := g.recycleCount + 1 }) hkeep.globals)
        -- The process gets its pid and its priority.
        have hpid := hcount.modPcb
          (f := fun t => { t with
            pPid := makePid (BitVec.ofNat 32 p.val) m.recycleCount, pPrio := priority })
          (g := fun t => { t with
            pPid := makePid (BitVec.ofNat 32 p.val) k₁.recycleCount, pPrio := priority }) p
          (fun t => by rw [hrecycle]; rfl)
        rcases enqueueProcess_keeps hpid hfree with ⟨m', hrun, hkeep'⟩
        have hres : spawnProcess k priority = (some p, enqueueProcess (Kernel.modPcb { k₁ with
              processCount := k₁.processCount.incr
              recycleCount := k₁.recycleCount + 1 } p (fun t => { t with
                pPid := makePid (BitVec.ofNat 32 p.val) k₁.recycleCount, pPrio := priority }))
            p) := by
          simp only [spawnProcess, if_neg hprio, hk]
        rw [hres]
        refine ⟨m', ?_, hkeep'⟩
        simp only [NucleusHeap.spawnProcess, if_neg hprio, halloc, hrun, Option.bind_eq_bind,
          Option.bind_some, Option.pure_def]

/-- What `out_blocked` returns is the process it was given. -/
theorem outBlocked_fst (k : Kernel) (p : PcbId) :
    (outBlocked k (some p)).1 = none ∨ (outBlocked k (some p)).1 = some p := by
  simp only [outBlocked]
  split
  · exact Or.inl rfl
  · split
    · split
      · split
        · exact Or.inl rfl
        · exact Or.inr rfl
      · exact Or.inr rfl
    · exact Or.inl rfl

/-- The process leaves the queue it stands in. -/
theorem killUnlink_keeps (h : Keeps m k) (p : PcbId) :
    ∃ m', m.killUnlink p = some m' ∧ Keeps m' (killUnlink k p) := by
  have hnull := listNull_keeps h p
  have hsem : (m.pcbs.pcb p).pSemAdd = (k.pcb p).pSemAdd := by
    rcases h with ⟨L, born, h⟩
    exact h.agrees.pSemAdd p
  by_cases hp : k.procq.Null p
  · have hres : killUnlink k p = k := if_pos hp
    rw [hres]
    refine ⟨m, ?_, h⟩
    simp only [NucleusHeap.killUnlink, hnull, hp, decide_true, if_true, Option.bind_eq_bind,
      Option.bind_some, Option.pure_def]
  · cases hadd : (k.pcb p).pSemAdd with
    | none =>
        rcases dequeueProcess_keeps h p with ⟨m', hrun, hkeep⟩
        have hres : killUnlink k p = (dequeueProcess k p).2 := by
          simp only [killUnlink, if_neg hp, hadd, ne_eq, not_true_eq_false, if_false]
        rw [hres]
        refine ⟨m', ?_, hkeep⟩
        simp only [NucleusHeap.killUnlink, hnull, hp, hsem, hadd, hrun, decide_false,
          Option.isSome_none, Bool.false_eq_true, if_false, Option.bind_eq_bind, Option.bind_some,
          Option.pure_def]
    | some a =>
        rcases outBlocked_keeps h (some p) with ⟨m₁, hout, h₁⟩
        rcases hk : outBlocked k (some p) with ⟨found, k₁⟩
        have hfst := outBlocked_fst k p
        rw [hk] at hout h₁ hfst
        rcases hfst with rfl | rfl
        · -- The process is not in the queue of a descriptor.
          rcases dequeueProcess_keeps h₁ p with ⟨m', hrun, hkeep⟩
          have hres : killUnlink k p = (dequeueProcess k₁ p).2 := by
            simp only [killUnlink, if_neg hp, hadd, hk, ne_eq, reduceCtorEq, not_false_eq_true,
              if_true]
          rw [hres]
          refine ⟨m', ?_, hkeep⟩
          simp only [NucleusHeap.killUnlink, hnull, hp, hsem, hadd, hout, hrun, decide_false,
            Option.isSome_some, Bool.false_eq_true, if_false, if_true, reduceCtorEq,
            Option.bind_eq_bind, Option.bind_some, Option.pure_def]
        · have hres : killUnlink k p =
              { k₁ with softblockCount := k₁.softblockCount.decr } := by
            simp only [killUnlink, if_neg hp, hadd, hk, ne_eq, reduceCtorEq, not_false_eq_true,
              if_true]
          rw [hres]
          refine ⟨_, ?_, h₁.softblockDecr⟩
          simp only [NucleusHeap.killUnlink, hnull, hp, hsem, hadd, hout, decide_false,
            Option.isSome_some, Bool.false_eq_true, if_false, if_true, Option.bind_eq_bind,
            Option.bind_some, Option.pure_def]

/-- `kill_process`. -/
theorem killProcess_keeps (h : Keeps m k) (hw : TreeWf k) (p : PcbId) :
    ∃ m', m.killProcess (some p) = some ((killProcess k p).1, m') ∧
      Keeps m' (killProcess k p).2 := by
  have hpar : (m.pcbs.pcb p).pParent = (k.pcb p).pParent := by
    rcases h with ⟨L, born, h⟩
    exact h.agrees.pParent p
  -- What happens once the process has left its parent.
  have hrest : ∀ m₁ k₁, Keeps m₁ k₁ → ∃ m₂ pcbs,
      NucleusHeap.killUnlink { m₁ with processCount := m₁.processCount.decr } p = some m₂ ∧
      m₂.pcbs.freePcb listRounds (some p) = some pcbs ∧ Keeps { m₂ with pcbs := pcbs }
        (freePcb (killUnlink { k₁ with processCount := k₁.processCount.decr } p) p) := by
    intro m₁ k₁ h₁
    rcases killUnlink_keeps h₁.processDecr p with ⟨m₂, hunlink, h₂⟩
    rcases freePcb_keeps h₂ p with ⟨pcbs, hfree, h₃⟩
    exact ⟨m₂, pcbs, hunlink, hfree, h₃⟩
  cases hk : (k.pcb p).pParent with
  | none =>
      rcases hrest m k h with ⟨m₂, pcbs, hunlink, hfree, hkeep⟩
      have hres : killProcess k p = (0, freePcb (killUnlink
          { k with processCount := k.processCount.decr } p) p) := by
        simp only [killProcess, hk, ne_eq, not_true_eq_false, false_and, if_false]
      rw [hres]
      refine ⟨{ m₂ with pcbs := pcbs }, ?_, hkeep⟩
      simp only [NucleusHeap.killProcess, hpar, hk, hunlink, hfree, Option.isSome_none,
        Bool.false_eq_true, if_false, ne_eq, not_true_eq_false, Option.bind_eq_bind,
        Option.bind_some, Option.pure_def]
  | some q =>
      rcases outChild_keeps h hw p with ⟨pcbs₁, hout, h₁⟩
      have heq := outChild_eq hw (p := q) (c := p) hk
      rw [heq] at hout h₁
      rcases hrest _ _ h₁ with ⟨m₂, pcbs, hunlink, hfree, hkeep⟩
      have hres : killProcess k p = (0, freePcb (killUnlink
          { detach k p with processCount := (detach k p).processCount.decr } p) p) := by
        simp only [killProcess, hk, heq, ne_eq, reduceCtorEq, not_false_eq_true, not_true_eq_false,
          and_false, if_false, if_true]
      rw [hres]
      refine ⟨{ m₂ with pcbs := pcbs }, ?_, hkeep⟩
      simp only [NucleusHeap.killProcess, hpar, hk, hout, hunlink, hfree, Option.isSome_some,
        if_true, ne_eq, not_true_eq_false, if_false, Option.bind_eq_bind, Option.bind_some,
        Option.pure_def]

/-- What is left of a tree after the subtree of a child was killed. -/
theorem killProgeny_child {c : PcbId} (hw : Wf k) (hp : p ∉ k.procq .pcbFree)
    (hc : parentOf k c = some p) {fuel : Nat} (hfuel : (attached k).card < fuel + 1) :
    ∃ k', killProgeny fuel (detach k c) c = some (0, k') ∧ Wf k' ∧ p ∉ k'.procq .pcbFree ∧
      (attached k').card < fuel := by
  have hcard := card_attached_detach hc
  rcases killProgeny_of_fuel fuel (detach k c) c (wf_detach hw c) (hw.tree.live p c hc).1
    (by omega) with ⟨ks, s, heq, hwf, _, hks⟩
  have hle := card_attached_killed (detach k c) ks s
  refine ⟨_, heq, hwf, ?_, by omega⟩
  rw [killed_free, List.mem_append, not_or]
  refine ⟨fun hmem => ?_, hp⟩
  -- The parent is not below its child.
  rw [hks, parentOf_detach, Forest.below_cut hw.tree.acyclic] at hmem
  exact hw.tree.acyclic p c hc hmem

/-- `kill_progeny`. The induction is on the bound, which is large enough for the
    tree as it is now. -/
theorem killProgeny_keeps (fuel : Nat) : ∀ m k p, Keeps m k → Wf k → p ∉ k.procq .pcbFree →
    (attached k).card < fuel → ∃ r k' m', killProgeny fuel k p = some (r, k') ∧
      m.killProgeny fuel p = some (r, m') ∧ Keeps m' k' := by
  induction fuel with
  | zero => exact fun m k p _ _ _ hfuel => absurd hfuel (Nat.not_lt_zero _)
  | succ fuel ih =>
      intro m k p h hw hp hfuel
      rcases removeChild_keeps h hw.tree hp with ⟨pcbs, hrun, h₁⟩
      cases hcs : k.child p with
      | nil =>
          rw [removeChild_none hcs] at hrun h₁
          rcases killProcess_keeps h₁ hw.tree p with ⟨m', hkill, hkeep⟩
          refine ⟨(killProcess k p).1, (killProcess k p).2, m', ?_, ?_, hkeep⟩
          · rw [killProgeny, removeChild_none hcs]
          · simp only [NucleusHeap.killProgeny, hrun, hkill, Option.bind_eq_bind, Option.bind_some]
      | cons c cs =>
          rcases removeChild_some hw.tree hcs with ⟨hc, hrem⟩
          rw [hrem] at hrun h₁
          rcases killProgeny_child hw hp hc hfuel with ⟨k₂, heq, hw₂, hp₂, hfuel₂⟩
          have hcard := card_attached_detach hc
          rcases ih _ (detach k c) c h₁ (wf_detach hw c) (hw.tree.live p c hc).1 (by omega) with
            ⟨r, k₃, m₂, heq', hrun₂, h₂⟩
          rw [heq] at heq'
          cases heq'
          rcases ih m₂ k₂ p h₂ hw₂ hp₂ hfuel₂ with ⟨r, k', m', hlast, hrun₃, hkeep⟩
          refine ⟨r, k', m', ?_, ?_, hkeep⟩
          · rw [killProgeny, hrem]
            simp only [heq]
            exact hlast
          · simp only [NucleusHeap.killProgeny, hrun, hrun₂, hrun₃, ne_eq, not_true_eq_false,
              if_false, Option.bind_eq_bind, Option.bind_some]

/-! ## Semaphores -/

/-- Both sides return the same and go on from states that belong together, or both
    panic with the same message. -/
def Tracks {β : Type} (r : Option (Except String (β × NucleusHeap)))
    (r' : Result (β × Kernel)) : Prop :=
  (∃ b m' k', r = some (.ok (b, m')) ∧ r' = .ok (b, k') ∧ Keeps m' k') ∨
    ∃ msg, r = some (.error msg) ∧ r' = .error (.panic msg)

/-- A process that `out_blocked` returns is in no queue. -/
theorem outBlocked_null {t : PcbId} {k₁ : Kernel} (hw : k.procq.Wf)
    (h : outBlocked k (some p) = (some t, k₁)) : k₁.procq.Null t := by
  have hnull : (k.procq.del p).Null p := (Queues.null_del hw p p).mpr (Or.inr rfl)
  simp only [outBlocked] at h
  split at h
  · cases h
  · split at h
    · split at h
      · rename_i sem _ _ hnil
        unfold freeSemd at h
        rw [if_neg (not_not.mpr hnil)] at h
        cases h
        exact hnull
      · cases h
        exact hnull
    · cases h

theorem removeBlocked_null {t : PcbId} {k₁ : Kernel} (hw : k.procq.Wf) {semAddr : Option Word}
    (h : removeBlocked k semAddr = (some t, k₁)) : k₁.procq.Null t := by
  unfold removeBlocked at h
  cases hh : headBlocked k semAddr with
  | none =>
      rw [hh] at h
      cases h
  | some p =>
      rw [hh] at h
      exact outBlocked_null hw h

/-- A process waits for a semaphore. -/
theorem block_keeps (h : Keeps m k) (hw : AslWf k) (hp : k.procq.Null p) (a : Word) :
    ∃ m₁ m₂, m.dequeueLinked p = some m₁ ∧
      m₁.insertBlocked (some a) (some p) =
        some ((insertBlocked k (some a) (some p)).1, m₂) ∧
      Keeps m₂ (insertBlocked k (some a) (some p)).2 := by
  rcases dequeueLinked_keeps h p with ⟨m₁, hdeq, h₁⟩
  rw [if_pos hp] at h₁
  rcases insertBlocked_keeps h₁ hw (some a) (some p)
    (fun r hr => Option.some.inj hr ▸ hp) with ⟨m₂, hins, h₂⟩
  exact ⟨m₁, m₂, hdeq, hins, h₂⟩

/-- `P`, for a process in no queue. -/
theorem P_keeps (h : Keeps m k) (hw : AslWf k) (semAddr : Option Word) (p : Option PcbId)
    (hp : ∀ r, p = some r → k.procq.Null r) : Tracks (m.P semAddr p) (P k semAddr p) := by
  have hcontrol : ∀ m₁ k₁, Keeps m₁ k₁ →
      NucleusHeap.controlReschedule m₁ = CONTROL_RESCHEDULE k₁ := by
    intro m₁ k₁ h₁
    unfold NucleusHeap.controlReschedule CONTROL_RESCHEDULE
    rw [h₁.activeProcess]
  have hrefl : ∀ r : Result (SchedulerControl × Kernel), r = .ok (CONTROL_RESCHEDULE k, k) →
      Tracks (some (.ok (m.controlReschedule, m))) r :=
    fun r hr => Or.inl ⟨_, m, k, rfl, by rw [hr, hcontrol m k h], h⟩
  cases semAddr with
  | none => exact hrefl _ (by cases p <;> rfl)
  | some a =>
      cases p with
      | none => exact hrefl _ rfl
      | some p =>
          have hnull := hp p rfl
          have hmem : m.mem a = k.mem a := congrFun h.mem a
          by_cases hzero : k.mem a = 0
          · rcases block_keeps h hw hnull a with ⟨m₁, m₂, hdeq, hins, h₂⟩
            rcases hk : insertBlocked k (some a) (some p) with ⟨r, k₂⟩
            rw [hk] at hins h₂
            cases r with
            | zero =>
                refine Or.inl ⟨CONTROL_BLOCK, _, _, ?_, ?_, h₂.softblockIncr⟩
                · simp only [NucleusHeap.P, hmem, hzero, hdeq, hins, if_true, gt_iff_lt,
                    Nat.lt_irrefl, if_false, Option.bind_eq_bind, Option.bind_some,
                    Option.pure_def]
                · simp only [P, hzero, hnull, hk, if_true]
            | succ n =>
                refine Or.inr ⟨"PASSEREN failed %d\n", ?_, ?_⟩
                · simp only [NucleusHeap.P, hmem, hzero, hdeq, hins, if_true, gt_iff_lt,
                    Nat.zero_lt_succ, Option.bind_eq_bind, Option.bind_some, Option.pure_def]
                · simp only [P, hzero, hnull, hk, if_true]
          · rcases removeBlocked_keeps h hw (some a) with ⟨m₁, hrem, h₁⟩
            rcases hk : removeBlocked k (some a) with ⟨found, k₁⟩
            rw [hk] at hrem h₁
            cases found with
            | some t =>
                have hfree := removeBlocked_null hw.procq hk .pcbFree
                rcases enqueueProcess_keeps h₁ hfree with ⟨m₂, henq, h₂⟩
                refine Or.inl ⟨m₂.controlReschedule, _, _, ?_, ?_, h₂.softblockDecr⟩
                · simp only [NucleusHeap.P, hmem, hzero, hrem, henq, if_false, Option.bind_eq_bind,
                    Option.bind_some, Option.pure_def]
                · simp only [P, hzero, hk, if_false, hcontrol m₂ _ h₂]
            | none =>
                have hmem₁ : m₁.mem a = k₁.mem a := congrFun h₁.mem a
                refine Or.inl ⟨m₁.controlReschedule, _, _, ?_, ?_, h₁.store a (k₁.mem a - 1)⟩
                · simp only [NucleusHeap.P, hmem, hzero, hrem, hmem₁, if_false, Option.bind_eq_bind,
                    Option.bind_some, Option.pure_def]
                · simp only [P, hzero, hk, if_false, hcontrol m₁ k₁ h₁]

/-- `V`, while the active process is in no queue. -/
theorem V_keeps (h : Keeps m k) (hw : AslWf k) (semAddr : Option Word)
    (hp : ∀ r, k.activeProcess = some r → k.procq.Null r) :
    Tracks (m.V semAddr) (V k semAddr) := by
  cases semAddr with
  | none => exact Or.inl ⟨_, m, k, rfl, rfl, h⟩
  | some a =>
      have hmem : m.mem a = k.mem a := congrFun h.mem a
      by_cases hone : k.mem a = 1
      · cases hact : k.activeProcess with
        | none =>
            have hact' : m.activeProcess = none := h.activeProcess.trans hact
            refine Or.inl ⟨none, m, k, ?_, ?_, h⟩
            · simp only [NucleusHeap.V, hmem, hone, hact', if_true]
            · simp only [V, hone, hact, if_true]
        | some p =>
            have hact' : m.activeProcess = some p := h.activeProcess.trans hact
            have hnull := hp p hact
            have hsem : (m.pcbs.pcb p).pSemAdd = none := by
              rcases h with ⟨L, born, h⟩
              rw [h.agrees.pSemAdd]
              exact semAdd_none_of_null hw hnull
            have hsem' := semAdd_none_of_null hw hnull
            rcases dequeueLinked_keeps h p with ⟨m₁, hdeq, h₁⟩
            rw [if_pos hnull] at h₁
            rcases insertBlocked_keeps h₁.softblockIncr (aslWf_softblock hw _) (some a) (some p)
              (fun r hr => Option.some.inj hr ▸ hnull) with ⟨m₂, hins, h₂⟩
            rcases hk : insertBlocked { k with softblockCount := k.softblockCount.incr } (some a)
              (some p) with ⟨r, k₂⟩
            rw [hk] at hins h₂
            rw [hact] at hk
            cases r with
            | zero =>
                refine Or.inl ⟨none, m₂, k₂, ?_, ?_, h₂⟩
                · simp only [NucleusHeap.V, hmem, hone, hact', hsem, hdeq, hins, if_true,
                    Option.isSome_none, Bool.false_eq_true, if_false, gt_iff_lt, Nat.lt_irrefl,
                    Option.bind_eq_bind, Option.bind_some, Option.pure_def]
                · simp only [V, hone, hact, hsem', hnull, hk, if_true]
            | succ n =>
                refine Or.inr ⟨"VERHOGEN failed\n", ?_, ?_⟩
                · simp only [NucleusHeap.V, hmem, hone, hact', hsem, hdeq, hins, if_true,
                    Option.isSome_none, Bool.false_eq_true, if_false, gt_iff_lt, Nat.zero_lt_succ,
                    Option.bind_eq_bind, Option.bind_some, Option.pure_def]
                · simp only [V, hone, hact, hsem', hnull, hk, if_true]
      · rcases removeBlocked_keeps h hw (some a) with ⟨m₁, hrem, h₁⟩
        rcases hk : removeBlocked k (some a) with ⟨found, k₁⟩
        rw [hk] at hrem h₁
        cases found with
        | some t =>
            have hfree := removeBlocked_null hw.procq hk .pcbFree
            rcases enqueueProcess_keeps h₁.softblockDecr hfree with ⟨m₂, henq, h₂⟩
            refine Or.inl ⟨some t, _, _, ?_, ?_, h₂⟩
            · simp only [NucleusHeap.V, hmem, hone, hrem, henq, if_false, Option.bind_eq_bind,
                Option.bind_some, Option.pure_def]
            · simp only [V, hone, hk, if_false]
        | none =>
            have hmem₁ : m₁.mem a = k₁.mem a := congrFun h₁.mem a
            refine Or.inl ⟨k₁.activeProcess, _, _, ?_, ?_, h₁.store a (k₁.mem a + 1)⟩
            · simp only [NucleusHeap.V, hmem, hone, hrem, hmem₁, h₁.activeProcess, if_false,
                Option.bind_eq_bind, Option.bind_some, Option.pure_def]
            · simp only [V, hone, hk, if_false]

/-! ## The choice of the next process -/

/-- A process that yielded goes back to its ready queue. -/
theorem requeueYield_keeps (h : Keeps m k)
    (hy : ∀ y, k.yieldProcess = some y → y ∉ k.procq .pcbFree) :
    ∃ m', m.requeueYield = some m' ∧ Keeps m' (match k.yieldProcess with
      | none => k
      | some y => { insertProcQ k (processQueue k y) y with yieldProcess := none }) := by
  have hyield := h.yieldProcess
  cases hk : k.yieldProcess with
  | none =>
      refine ⟨m, ?_, h⟩
      simp only [NucleusHeap.requeueYield, hyield, hk]
  | some y =>
      rcases inUse_processQueue k y with ⟨hq, hfree⟩
      rcases insertProcQ_keeps h hq hfree (hy y hk) with ⟨m', hrun, hkeep⟩
      refine ⟨{ m' with yieldProcess := none }, ?_, hkeep.withGlobals ⟨rfl, rfl, rfl⟩
        ⟨rfl, rfl, rfl, rfl, rfl⟩
        (congrArg (fun g : Globals => { g with yieldProcess := none }) hkeep.globals)⟩
      simp only [NucleusHeap.requeueYield, hyield, hk, processQueue_keeps h, hrun,
        Option.bind_eq_bind, Option.bind_some, Option.pure_def]

/-- A process is selected. -/
theorem dispatch_keeps (h : Keeps m k) (hy : ∀ y, k.yieldProcess = some y → y ∉ k.procq .pcbFree)
    (p : PcbId) : ∃ m' k', m.dispatch p = some m' ∧
      (∀ hw, dispatch hw k p = schedulerTakeover hw k' p) ∧ Keeps m' k' := by
  have hactive : Keeps { m with activeProcess := some p } { k with activeProcess := some p } :=
    h.withGlobals ⟨rfl, rfl, rfl⟩ ⟨rfl, rfl, rfl, rfl, rfl⟩
      (congrArg (fun g : Globals => { g with activeProcess := some p }) h.globals)
  rcases requeueYield_keeps hactive hy with ⟨m', hrun, hkeep⟩
  exact ⟨m', _, hrun, fun hw => rfl, hkeep⟩

/-- The sentinel of a ready queue tells whether there is anybody behind it. -/
theorem listEmpty_keeps (h : Keeps m k) {q : ProcQ} (hq : InUse k q) :
    m.pcbs.links.listEmpty (some (headCell q)) = some (k.procq q).isEmpty := by
  rcases h with ⟨L, born, h⟩
  rw [← h.shape.queues]
  exact empty_list h.pointers (h.shape.heads q hq)

/-- Both sides let the same process take over, or both come to `wait_or_die`. -/
def Chooses (r : Option (Option PcbId × NucleusHeap)) (o : Hw → Outcome) : Prop :=
  (∃ p m' k', r = some (some p, m') ∧ (∀ hw, o hw = schedulerTakeover hw k' p) ∧ Keeps m' k') ∨
    ∃ m' k', r = some (none, m') ∧ (∀ hw, o hw = waitOrDie hw k') ∧ Keeps m' k'

/-- The next process is the same on both sides. -/
theorem selectReady_keeps (h : Keeps m k) :
    ∃ next m₁ k₁, m.selectReady = some (next, m₁) ∧ Keeps m₁ k₁ ∧
      (∀ y, k₁.yieldProcess = some y → k.yieldProcess = some y) ∧
      (∀ p ∈ k₁.procq .pcbFree, p ∈ k.procq .pcbFree) ∧
      ∀ hw, selectReady hw k = match next with
        | some p => dispatch hw k₁ p
        | none => waitOrDie hw k₁ := by
  have hhi := inUse_hi k
  have hlo := inUse_lo k
  have hehi : m.pcbs.links.listEmpty (some (.queue .readyQueueHi)) =
      some (k.procq .readyQueueHi).isEmpty := listEmpty_keeps h hhi
  have helo : m.pcbs.links.listEmpty (some (.queue .readyQueueLo)) =
      some (k.procq .readyQueueLo).isEmpty := listEmpty_keeps h hlo
  cases hqhi : k.procq .readyQueueHi with
  | cons p ps =>
      have hne : ProcQ.readyQueueHi ≠ .pcbFree :=
        by simp only [ne_eq, reduceCtorEq, not_false_eq_true]
      rcases removeProcQ_keeps h hhi hne with ⟨m₁, hrem, h₁⟩
      rw [removeProcQ_cons hqhi] at hrem h₁
      have hrem' : m.removeProcQ (.queue .readyQueueHi) = some (some p, m₁) := hrem
      refine ⟨some p, m₁, listSdel k p, ?_, h₁, fun _ hy => hy,
        fun _ hf => List.mem_of_mem_erase hf, fun hw => ?_⟩
      · simp only [NucleusHeap.selectReady, hehi, hqhi, hrem', List.isEmpty_cons, Bool.not_false,
          if_true, Option.bind_eq_bind, Option.bind_some]
      · simp only [selectReady, removeProcQ_cons hqhi]
  | nil =>
      cases hqlo : k.procq .readyQueueLo with
      | cons p ps =>
          have hne : ProcQ.readyQueueLo ≠ .pcbFree :=
            by simp only [ne_eq, reduceCtorEq, not_false_eq_true]
          rcases removeProcQ_keeps h hlo hne with ⟨m₁, hrem, h₁⟩
          rw [removeProcQ_cons hqlo] at hrem h₁
          have hrem' : m.removeProcQ (.queue .readyQueueLo) = some (some p, m₁) := hrem
          refine ⟨some p, m₁, listSdel k p, ?_, h₁, fun _ hy => hy,
            fun _ hf => List.mem_of_mem_erase hf, fun hw => ?_⟩
          · simp only [NucleusHeap.selectReady, hehi, helo, hqhi, hqlo, hrem', List.isEmpty_cons,
              List.isEmpty_nil, Bool.not_false, Bool.not_true, Bool.false_eq_true, if_false,
              if_true, Option.bind_eq_bind, Option.bind_some]
          · simp only [selectReady, removeProcQ_nil hqhi, removeProcQ_cons hqlo]
      | nil =>
          -- Nobody is ready, so it is the turn of the process that yielded.
          have hkeep : Keeps { m with yieldProcess := none } { k with yieldProcess := none } :=
            h.withGlobals ⟨rfl, rfl, rfl⟩ ⟨rfl, rfl, rfl, rfl, rfl⟩
              (congrArg (fun g : Globals => { g with yieldProcess := none }) h.globals)
          have hrun : m.selectReady = some (k.yieldProcess, { m with yieldProcess := none }) := by
            simp only [NucleusHeap.selectReady, hehi, helo, hqhi, hqlo, List.isEmpty_nil,
              Bool.not_true, Bool.false_eq_true, if_false, h.yieldProcess, Option.bind_eq_bind,
              Option.bind_some, Option.pure_def]
          have hnone : ∀ y, ({ k with yieldProcess := none } : Kernel).yieldProcess = some y →
              k.yieldProcess = some y := fun y hy => by cases hy
          refine ⟨k.yieldProcess, _, { k with yieldProcess := none }, hrun, hkeep, hnone,
            fun _ hf => hf, fun hw => ?_⟩
          simp only [selectReady, removeProcQ_nil hqhi, removeProcQ_nil hqlo]
          cases hk : k.yieldProcess with
          | none =>
              have hsame : ({ k with yieldProcess := none } : Kernel) = k := by rw [← hk]
              rw [hsame]
          | some y => rfl

/-- `schedule`, for a process that exists. -/
theorem schedule_keeps (h : Keeps m k) {pcb : Option PcbId} (enqueue : Bool)
    (hp : ∀ p, pcb = some p → p ∉ k.procq .pcbFree)
    (hy : ∀ y, k.yieldProcess = some y → y ∉ k.procq .pcbFree) :
    Chooses (m.schedule pcb enqueue) (fun hw => schedule hw k pcb enqueue) := by
  -- The choice from the ready queues, once the process itself is in one of them.
  have hready : ∀ m₁ k₁, Keeps m₁ k₁ → (∀ y, k₁.yieldProcess = some y → y ∉ k₁.procq .pcbFree) →
      Chooses (m₁.schedule none false) (fun hw => selectReady hw k₁) := by
    intro m₁ k₁ h₁ hy₁
    rcases selectReady_keeps h₁ with ⟨next, m₂, k₂, hrun, h₂, hyield, hfree, heq⟩
    cases next with
    | none =>
        refine Or.inr ⟨m₂, k₂, ?_, heq, h₂⟩
        simp only [NucleusHeap.schedule, hrun, Option.isSome_none, Bool.false_and,
          Bool.false_eq_true, if_false, Option.bind_eq_bind, Option.bind_some, Option.pure_def]
    | some p =>
        rcases dispatch_keeps h₂ (fun y hk hf => hy₁ y (hyield y hk) (hfree y hf)) p with
          ⟨m', k', hdis, hto, hkeep⟩
        refine Or.inl ⟨p, m', k', ?_, fun hw => (heq hw).trans (hto hw), hkeep⟩
        simp only [NucleusHeap.schedule, hrun, hdis, Option.isSome_none, Bool.false_and,
          Bool.false_eq_true, if_false, Option.bind_eq_bind, Option.bind_some, Option.pure_def]
  cases pcb with
  | none =>
      have hsame : m.schedule none enqueue = m.schedule none false := by
        simp only [NucleusHeap.schedule, Option.isSome_none, Bool.and_false, Bool.false_and,
          Bool.false_eq_true, if_false]
      rw [hsame]
      exact hready m k h hy
  | some p =>
      have hpf := hp p rfl
      cases enqueue with
      | false =>
          rcases dispatch_keeps h hy p with ⟨m', k', hdis, hto, hkeep⟩
          refine Or.inl ⟨p, m', k', ?_, hto, hkeep⟩
          simp only [NucleusHeap.schedule, hdis, Option.isSome_some, Bool.false_and, Bool.not_false,
            Bool.and_self, Bool.false_eq_true, if_false, if_true, Option.bind_eq_bind,
            Option.bind_some, Option.pure_def]
      | true =>
          rcases enqueueProcess_keeps h hpf with ⟨m₁, henq, h₁⟩
          have hsame : m.schedule (some p) true = m₁.schedule none false := by
            simp only [NucleusHeap.schedule, henq, Option.isSome_some, Option.isSome_none,
              Bool.true_and, Bool.not_true, Bool.and_false, Bool.false_and, Bool.false_eq_true,
              if_false, if_true, Option.bind_eq_bind, Option.bind_some, Option.pure_def]
          rw [hsame]
          refine hready m₁ (enqueueProcess k p) h₁ (fun y hk hf => hy y hk ?_)
          change y ∈ (k.procq.del p).addTail (processQueue k p) p .pcbFree at hf
          rw [Queues.addTail_other _ _ _ _ (inUse_processQueue k p).2.symm] at hf
          exact List.mem_of_mem_erase hf

/-- The process that takes over gets its status on both sides. -/
theorem schedulerTakeover_keeps (h : Keeps m k) (hw : Hw) (p : PcbId) : ∃ k',
    schedulerTakeover hw k p = .run k' ∧ Keeps (m.schedulerTakeover p) k' ∧
      k'.activeProcess = k.activeProcess := by
  have hstatus := h.modPcb (f := fun t =>
      { t with pS := { t.pS with status := takeoverStatus t.pPrio t.pS.status } })
    (g := fun t => { t with pS := { t.pS with status := takeoverStatus t.pPrio t.pS.status } }) p
    (fun _ => rfl)
  exact ⟨_, rfl, hstatus.withGlobals ⟨rfl, rfl, rfl⟩ ⟨rfl, rfl, rfl, rfl, rfl⟩ hstatus.globals, rfl⟩

end Pandos
