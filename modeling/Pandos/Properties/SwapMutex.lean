import Pandos.Theory.FlashQueues
import Pandos.Theory.MemoryReplay
import Pandos.Theory.SupportMemory

/-!
# The Mutex of the Swap Pool

The section of `support_tlb` between `PASSEREN` and `VERHOGEN` on
`sem_swap_pool_table`, watched over a run. The watcher counts the operations of
each U-proc; whether a U-proc is inside follows from the counts and not from the
batons.

The baton of a U-proc is found through the ASID in its support structure, so the
section is guarded as long as U-procs have structures of their own. They have if
`allocate` and `deallocate` are never called while another call is under way.

## Main definitions

* `countCalls`: The record of the watcher.
* `Entered`: A U-proc is between its `PASSEREN` and its `VERHOGEN`.
* `Pc.left`: A U-proc has left the handlers, or is past its last `VERHOGEN`.
* `PoolGuarded`: The section is guarded.

## Theorems

* `swap_pool_guarded`: On every path the section is entered by one U-proc at a
  time and left by exactly one `VERHOGEN`, which does not wait, if the calls do not
  overlap.
* `swap_pool_shared`: Calls that overlap let two U-procs in.
-/

namespace Pandos

section SwapMutex

variable {n : Nat}

open SupportLevel

/-- The operations on `sem_swap_pool_table` each U-proc has performed. -/
abbrev Calls (n : Nat) := SemOp → Fin n → Nat

/-- The watcher counts one more step. -/
def countCalls (s : SupportLevel n) (e : UEvent n) (_ : SupportLevel n) (calls : Calls n) :
    Calls n :=
  fun o i => calls o i + called s e o i

/-- A U-proc has performed more `PASSEREN`s than `VERHOGEN`s, and does not wait
    in its last `PASSEREN`. -/
def Entered (s : SupportLevel n) (calls : Calls n) (i : Fin n) : Prop :=
  calls .V i < calls .P i ∧ ∀ f, s.pc i ≠ .passing f

/-- A U-proc is back in user mode, or past the call of
    `release_sem_swap_pool_table` in `sys_terminate`. -/
def Pc.left : Pc n → Bool
  | .user => true
  | .mark _ _ => true
  | .unmark _ _ => true
  | .free => true
  | .post => true
  | .posting => true
  | .exit => true
  | .dead => true
  | _ => false

theorem Pc.phase_of_left {pc : Pc n} (h : pc.left = true) (b : Bool) : pc.phase b = .out := by
  cases pc with
  | trap => cases h
  | _ =>
      first
        | rfl
        | cases h

variable {S : Platform n} {es : List (UEvent n)} {s : SupportLevel n} {calls : Calls n}

/-- The runs of the support level with the watcher. -/
abbrev countedLevels (S : Platform n) : System (SupportLevel n × Calls n) (UEvent n) :=
  (supportLevel S).observed (fun _ _ _ => 0) countCalls

/-- The counts differ by the operations that are outstanding. -/
theorem calls_balance (h : (countedLevels S).Run es (s, calls)) (i : Fin n) :
    calls .P i = calls .V i + s.due i := by
  refine System.run_invariant (P := fun x => ∀ i, x.2 .P i = x.2 .V i + x.1.due i)
    (fun x hx i => ?_) (fun es x e x' hrun hx hstep i => ?_) h i
  · rcases x with ⟨s, calls⟩
    rcases hx with ⟨⟨free, _, hs⟩, hc⟩
    simp only [] at hs hc
    rw [hs, hc]
    rfl
  · -- Each step counts what it opens and what it answers.
    rcases hstep with ⟨hnext, hcount⟩
    have hbase := System.run_of_observed hrun
    have hc :=
      (conducted_step (allotted_run hbase) (guarded_run hbase) (ustep_of_next hnext).2).calls i
    have hi := hx i
    rw [hcount]
    simp only [countCalls]
    omega

theorem inside_of_entered (h : (countedLevels S).Run es (s, calls)) {i : Fin n}
    (hi : Entered s calls i) : s.phases i = .inside := by
  have hb := calls_balance h i
  have hlt := hi.1
  -- One operation is outstanding, so the U-proc is inside or waits.
  cases hp : s.phases i with
  | inside => rfl
  | out =>
      rw [due, if_pos hp] at hb
      omega
  | waiting =>
      rcases passing_of_waiting (guarded_run (System.run_of_observed h)) hp with ⟨f, hf⟩
      exact absurd hf (hi.2 f)

theorem entered_of_inside (h : (countedLevels S).Run es (s, calls)) {i : Fin n}
    (hi : s.phases i = .inside) : Entered s calls i := by
  have hb := calls_balance h i
  rw [due, if_neg (fun hc => by rw [hi] at hc; cases hc)] at hb
  refine ⟨by omega, fun f hf => ?_⟩
  rw [phases, hf] at hi
  cases hi

/-- At most one U-proc is between its `PASSEREN` and its `VERHOGEN`. The two
    alternate, a U-proc that left the handlers or terminates has performed as many
    of one as of the other, and only a U-proc inside performs a `VERHOGEN`. No
    U-proc ever waits in one, and no flash device has anybody waiting when a
    command is given to it. -/
structure PoolGuarded (s : SupportLevel n) (calls : Calls n) : Prop where
  one : ∀ i j, Entered s calls i → Entered s calls j → i = j
  alternate : ∀ i, calls .V i ≤ calls .P i ∧ calls .P i ≤ calls .V i + 1
  left : ∀ i, (s.pc i).left = true → calls .P i = calls .V i
  holder : ∀ e i, mutexCall s e = some (.V, i) → Entered s calls i
  unblocked : ∀ i, (s.pc i).stuck = false
  ready : ∀ p dev, issues s p = some dev → (s.flash dev).queue = []

/-- The section is guarded where each call of `allocate` and `deallocate` is one
    step. -/
theorem guarded_of_counted (h : (countedLevels S).Run es (s, calls)) : PoolGuarded s calls := by
  have hbase := System.run_of_observed h
  have hg := guarded_run hbase
  refine ⟨fun i j hi hj => hg.mutex.one i j (inside_of_entered h hi) (inside_of_entered h hj),
    fun i => ?_, fun i hi => ?_, fun e i hcall => entered_of_inside h ?_, hg.unblocked,
    fun p dev => device_idle (allotted_run hbase) hg (queued_run hbase)⟩
  · have hb := calls_balance h i
    rw [due] at hb
    split at hb
    · omega
    · omega
  · have hb := calls_balance h i
    rw [due, phases, if_pos (Pc.phase_of_left hi _)] at hb
    exact hb
  · -- `VERHOGEN` is called at two places, and both are inside.
    cases e with
    | step j =>
        simp only [mutexCall] at hcall
        cases hpc : s.pc j with
        | release f =>
            rw [hpc] at hcall
            cases hcall
            rw [phases, hpc]
            rfl
        | clean asid =>
            rw [hpc] at hcall
            cases hcall
            rw [phases, hpc]
            rfl
        | _ =>
            rw [hpc] at hcall
            cases hcall
    | _ => cases hcall

/-! ## The accesses to the free structures -/

/-- The runs of the support level with the pointers, whose steps meet a
    condition, with the watcher. -/
abbrev countedRuns (S : Platform n) (ok : SupportMemory n → UEvent n → Prop) :
    System (SupportMemory n × Calls n) (UEvent n) :=
  ((supportMemory S).restrict ok).observed (fun _ _ _ => 0)
    (fun x e x' => countCalls x.level e x'.level)

/-- No operation on the semaphore happens in the middle of `allocate` or
    `deallocate`. -/
theorem countCalls_listCall {e : UEvent n} (h : s.listCall e ≠ none) (s' : SupportLevel n)
    (calls : Calls n) : countCalls s e s' calls = calls := by
  have hcall : mutexCall s e = none := by
    cases e with
    | step i => simp only [mutexCall, free_of_listCall h]
    | _ => rfl
  funext o i
  simp only [countCalls, called, hcall, reduceCtorEq, if_false, Nat.add_zero]

/-- Runs in which the calls do not overlap are runs without pointers. -/
theorem counted_of_orderly {x : SupportMemory n}
    (h : (countedRuns S SupportMemory.Orderly).Run es (x, calls)) :
    ∃ ds s, (countedLevels S).Run ds (s, calls) ∧ Abstracts x s := by
  have hsim := System.run_simulates (T := countedLevels S)
    (R := fun (x : SupportMemory n × Calls n) t => t.2 = x.2 ∧ Abstracts x.1 t.1)
    (fun x hx => ?_) (fun x e x' ds t ht hr hstep => ?_) h
  · rcases hsim with ⟨ds, ⟨s, calls'⟩, hrun, hc, ha⟩
    subst hc
    exact ⟨ds, s, hrun, ha⟩
  · rcases abstracts_start hx.1 with ⟨s, hs, ha⟩
    exact ⟨(s, fun _ _ => 0), ⟨hs, rfl⟩, hx.2.symm, ha⟩
  · rcases t with ⟨s, calls'⟩
    rcases hr with ⟨hc, l, hs, hcarries⟩
    subst hs hc
    rcases hstep with ⟨⟨hnext, hord⟩, hcount⟩
    have hall := allotted_run (System.run_of_observed ht)
    rcases memory_simulates hall hcarries hord hnext with ⟨hcall, hlevel, hcarries'⟩ |
      ⟨l', hnext', hcarries'⟩
    · refine Or.inl ⟨?_, l, by rw [hlevel], hcarries'⟩
      exact (hcount.trans (countCalls_listCall hcall _ _)).symm
    · exact Or.inr ⟨e, (x'.1.level.withFree l', x'.2), ⟨hnext', hcount⟩, rfl, l', rfl, hcarries'⟩

/-- In every run in which no call of `allocate` or `deallocate` begins while
    another one is under way, at most one U-proc is inside the section of
    `support_tlb`, every `PASSEREN` is answered by exactly one `VERHOGEN`, and
    nobody ever waits in one. -/
theorem swap_pool_guarded {x : SupportMemory n}
    (h : (countedRuns S SupportMemory.Orderly).Run es (x, calls)) :
    PoolGuarded x.level calls := by
  rcases counted_of_orderly h with ⟨ds, s, hrun, l, rfl, _⟩
  have hg := guarded_of_counted hrun
  exact ⟨hg.one, hg.alternate, hg.left, hg.holder, hg.unblocked, hg.ready⟩

end SwapMutex

/-! ## Samples -/

/-- The state after one more event, with the watcher. -/
def countedNext {n : Nat} (S : Platform n) (x : SupportMemory n × Calls n) (e : UEvent n) :
    Option (SupportMemory n × Calls n) :=
  (x.1.next S e).map (fun x' => (x', countCalls x.1.level e x'.level x.2))

/-- A replay with the watcher. -/
theorem exists_counted_run {n : Nat} (S : Platform n) (es : List (UEvent n))
    (P : SupportMemory n × Calls n → Prop) [DecidablePred P]
    (h : (((memoryStart S).map (fun x => (x, fun _ _ => 0))).bind (fun x =>
      es.foldlM (countedNext S) x)).any (fun x => decide (P x)) = true) :
    ∃ es x, (countedRuns S (fun _ _ => True)).Run es x ∧ P x := by
  refine System.exists_run_of_replay (S := countedRuns S (fun _ _ => True)) (fun x hx => ?_)
    (fun x e x' hstep => ?_) es P h
  · rcases Option.map_eq_some_iff.mp hx with ⟨y, hy, rfl⟩
    exact ⟨init_of_memoryStart hy, rfl⟩
  · rcases Option.map_eq_some_iff.mp hstep with ⟨y, hy, rfl⟩
    exact ⟨⟨hy, trivial⟩, rfl⟩

/-- A platform with four U-procs. -/
def fourPlatform : Platform 4 :=
  { swapPoolAddr := 0x20020000
    tlbSize := 8
    blocks := fun _ _ _ => 0 }

/-- A U-proc touches its first page and gets past its `PASSEREN`. -/
def enterSection (i : Fin 4) (slot : Nat) : List (UEvent 4) :=
  [.touch i KUSEG .load (TLBINVLDL <<< CAUSESHIFT) slot,
    .touch i KUSEG .load (TLBINVLDL <<< CAUSESHIFT) slot, .step i, .step i]

/-- U-proc 0 terminates. Its `list_add` has read the first cell of `support_free`
    when `test` allocates the structure of this cell for U-proc 1, and puts it back
    afterwards. U-proc 3 gets the same structure while U-proc 1 has a page fault,
    sees the baton of U-proc 1 when it terminates, and releases the section. -/
def overlapEvents : List (UEvent 4) :=
  createUproc 0 ++ .quit 0 :: List.replicate 15 (.step 0) ++ createUproc 1 ++
    List.replicate 4 (.step 0) ++ createUproc 2 ++ enterSection 1 0 ++ createUproc 3 ++
    [.step 1, .quit 3, .step 3, .step 3] ++ enterSection 2 1

/-- Two U-procs are inside the section at once, and another one has performed a
    `VERHOGEN` without a `PASSEREN`. -/
theorem swap_pool_shared : ∃ es x calls,
    (countedRuns fourPlatform (fun _ _ => True)).Run es (x, calls) ∧
      Entered x.level calls 1 ∧ Entered x.level calls 2 ∧ calls .P 3 = 0 ∧ calls .V 3 = 1 := by
  rcases exists_counted_run fourPlatform overlapEvents (fun x =>
    (match x.1.level.pc 1, x.1.level.pc 2 with
      | .pick _ _, .take _ => true
      | _, _ => false) = true ∧
    x.2 .P 1 = 1 ∧ x.2 .V 1 = 0 ∧ x.2 .P 2 = 1 ∧ x.2 .V 2 = 0 ∧ x.2 .P 3 = 0 ∧ x.2 .V 3 = 1)
    (by decide +kernel) with ⟨es, ⟨x, calls⟩, hrun, hpc, hp1, hv1, hp2, hv2, hp3, hv3⟩
  simp only [] at hp1 hv1 hp2 hv2
  have hpassing : (∀ f, x.level.pc 1 ≠ .passing f) ∧ ∀ f, x.level.pc 2 ≠ .passing f := by
    split at hpc
    · next h1 h2 =>
        refine ⟨fun f hc => ?_, fun f hc => ?_⟩
        · cases h1.symm.trans hc
        · cases h2.symm.trans hc
    · cases hpc
  refine ⟨es, x, calls, hrun, ⟨?_, hpassing.1⟩, ⟨?_, hpassing.2⟩, hp3, hv3⟩
  · rw [hp1, hv1]
    exact Nat.zero_lt_one
  · rw [hp2, hv2]
    exact Nat.zero_lt_one

/-- A flash read fails, so its U-proc leaves the section through
    `sys_terminate` while the other U-proc waits for the section. -/
theorem swap_pool_guarded_sample : ∃ es x calls,
    (countedRuns samplePlatform SupportMemory.Orderly).Run es (x, calls) ∧
    x.level.pc 0 = .clean 0 ∧ x.level.semSwapPoolTable.queue = [1] ∧ Entered x.level calls 0 ∧
      calls .P 0 ≤ calls .V 0 + 1 ∧ (x.level.pc 0).stuck = false := by
  rcases exists_memory_run samplePlatform SupportMemory.Orderly
    (createUprocs ++ pageFault 0 1 0 ++ (pageFault 1 1 1).take 4 ++ pickFrame 0 0 ++
      [.step 0, .flash 0 false, .step 0])
    (fun x => x.level.pc 0 = .clean 0 ∧ x.level.semSwapPoolTable.queue = [1])
    (by decide +kernel) with ⟨es, x, hrun, hpc, hq⟩
  rcases System.run_observed (fun _ _ _ => 0) (fun x e x' => countCalls x.level e x'.level)
    hrun with ⟨calls, hcalls⟩
  have hsound := swap_pool_guarded hcalls
  exact ⟨es, x, calls, hcalls, hpc, hq, hsound.holder (.step 0) 0 (by simp only [mutexCall, hpc]),
    (hsound.alternate 0).2, hsound.unblocked 0⟩

end Pandos
