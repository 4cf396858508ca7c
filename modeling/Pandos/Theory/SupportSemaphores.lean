import Pandos.Lib.Rendezvous
import Pandos.Theory.Supports

/-!
# The Semaphores of the Support Level

The two uses the support level makes of binary semaphores. `sem_swap_pool_table`
guards the sections of `support_tlb` between `PASSEREN` and `VERHOGEN`, and the
baton of a U-proc tells `sys_terminate` whether it has to leave such a section.
The baton is set after `PASSEREN` and cleared after `VERHOGEN`, so it is wrong
for a moment on both sides; a U-proc cannot be terminated in these moments,
because nothing it does there can fail. `master_semaphore` is the rendezvous of
the terminating U-procs with `test`.

## Main definitions

* `Pc.phase`: Where a U-proc stands with respect to the section.
* `Pc.baton`: What the baton has to be at a place of the code.
* `Pc.posted`, `TestPc.got`: The progress of the rendezvous.
* `Guarded`: The invariant of the two semaphores.
* `mutexCall`: The operations on `sem_swap_pool_table`.
* `Conducted`: What a step does to the semaphores.

## Theorems

* `conducted_step`: Every step keeps the invariant, and opens or answers at most
  the operations that were counted.
* `guarded_run`: The invariant holds in every run.
-/

namespace Pandos

section SupportSemaphores

variable {n : Nat}

open SupportLevel

/-! ## Phases -/

/-- Where a U-proc stands with respect to the section, for the value of its
    baton. -/
def Pc.phase (baton : Bool) : Pc n → Phase
  | .passing _ => .waiting
  | .releasing _ => .waiting
  | .cleaning _ => .waiting
  | .take _ => .inside
  | .pick _ _ => .inside
  | .copy _ _ => .inside
  | .evict _ _ _ => .inside
  | .write _ _ _ _ => .inside
  | .writing _ _ _ _ => .inside
  | .read _ _ => .inside
  | .reading _ _ => .inside
  | .commit _ _ => .inside
  | .release _ => .inside
  | .clean _ => .inside
  | .trap => if baton then .inside else .out
  | _ => .out

/-- What the baton of a U-proc has to be at a place of the code, if it
    matters. -/
def Pc.baton : Pc n → Option Bool
  | .unborn => some false
  | .user => some false
  | .cause _ => some false
  | .pass _ => some false
  | .passing _ => some false
  | .take _ => some false
  | .pick _ _ => some true
  | .copy _ _ => some true
  | .evict _ _ _ => some true
  | .write _ _ _ _ => some true
  | .writing _ _ _ _ => some true
  | .read _ _ => some true
  | .reading _ _ => some true
  | .commit _ _ => some true
  | .release _ => some true
  | .releasing _ => some true
  | .drop _ => some true
  | .clean _ => some true
  | .cleaning _ => some true
  | _ => none

/-- A U-proc waits in a `VERHOGEN` on `sem_swap_pool_table`. -/
def Pc.stuck : Pc n → Bool
  | .releasing _ => true
  | .cleaning _ => true
  | _ => false

/-- How far a U-proc is with its `master_semaphore_v`. -/
def Pc.posted : Pc n → Posted
  | .posting => .posting
  | .exit => .done
  | .dead => .done
  | _ => .before

/-- How many of its `master_semaphore_p` calls `test` has behind it. -/
def TestPc.got : TestPc n → Nat
  | .wait i => i
  | .waiting i => i
  | _ => 0

/-- `test` waits in a `master_semaphore_p`. -/
def TestPc.blocked : TestPc n → Bool
  | .waiting _ => true
  | _ => false

namespace SupportLevel

def phases (s : SupportLevel n) (i : Fin n) : Phase := (s.pc i).phase (s.swapPoolBatons i)

def posted (s : SupportLevel n) (i : Fin n) : Posted := (s.pc i).posted

end SupportLevel

/-- The invariant of the two semaphores. -/
structure Guarded (s : SupportLevel n) : Prop where
  mutex : Mutex s.semSwapPoolTable s.phases
  baton : ∀ i b, (s.pc i).baton = some b → s.swapPoolBatons i = b
  unblocked : ∀ i, (s.pc i).stuck = false
  joined : Rendezvous s.masterSemaphore s.posted s.test.got s.test.blocked
  round : s.test.got ≤ n
  turn : s.test.blocked = true → s.test.got < n

/-- The operation on `sem_swap_pool_table` a step performs. -/
def mutexCall (s : SupportLevel n) : UEvent n → Option (SemOp × Fin n)
  | .step i =>
    match s.pc i with
    | .pass _ => some (.P, i)
    | .release _ => some (.V, i)
    | .clean _ => some (.V, i)
    | _ => none
  | _ => none

theorem guarded_start {S : Platform n} {s : SupportLevel n} (h : (supportLevel S).init s) :
    Guarded s := by
  rcases h with ⟨free, _, rfl⟩
  -- Every baton is down, and every place of the code that is reached wants it so.
  refine ⟨mutex_init, fun i b hb => ?_, fun _ => rfl, rendezvous_init, Nat.zero_le _,
    fun hc => (by cases hc)⟩
  cases hb
  rfl

variable {s s' : SupportLevel n} {i : Fin n}

/-! ## Steps that leave the semaphores alone -/

/-- A step that neither touches a semaphore nor moves anybody into or out of
    the section. -/
theorem Guarded.congr (h : Guarded s) (hsem : s'.semSwapPoolTable = s.semSwapPoolTable)
    (hmaster : s'.masterSemaphore = s.masterSemaphore) (hphase : s'.phases = s.phases)
    (hposted : s'.posted = s.posted)
    (hbaton : ∀ i b, (s'.pc i).baton = some b → s'.swapPoolBatons i = b)
    (hstuck : ∀ i, (s'.pc i).stuck = false) (hgot : s'.test.got = s.test.got)
    (hblocked : s'.test.blocked = s.test.blocked) : Guarded s' := by
  refine ⟨?_, hbaton, hstuck, ?_, ?_, ?_⟩
  · rw [hsem, hphase]
    exact h.mutex
  · rw [hmaster, hposted, hgot, hblocked]
    exact h.joined
  · rw [hgot]
    exact h.round
  · rw [hgot, hblocked]
    exact h.turn

/-- The place of a U-proc may change from `pc` to `pc'` without any use of a
    semaphore. -/
structure Idle (baton : Bool) (pc pc' : Pc n) : Prop where
  phase : pc'.phase baton = pc.phase baton
  baton : ∀ b, pc'.baton = some b → baton = b
  stuck : pc'.stuck = false
  posted : pc'.posted = pc.posted

theorem Idle.refl (h : Guarded s) (i : Fin n) : Idle (s.swapPoolBatons i) (s.pc i) (s.pc i) :=
  ⟨rfl, h.baton i, h.unblocked i, rfl⟩

/-- Two places of the code at which the baton has to be the same. -/
theorem Idle.alike (h : Guarded s) {pc pc' : Pc n} (hpc : s.pc i = pc)
    (hphase : ∀ b, pc'.phase b = pc.phase b) (hbaton : pc'.baton = pc.baton)
    (hstuck : pc'.stuck = false) (hposted : pc'.posted = pc.posted) :
    Idle (s.swapPoolBatons i) (s.pc i) pc' := by
  have hb := h.baton i
  rw [hpc] at hb ⊢
  exact ⟨hphase _, hbaton ▸ hb, hstuck, hposted⟩

/-- A place of the code at which the baton does not matter any more. -/
theorem Idle.freed (h : Guarded s) {b : Bool} {pc pc' : Pc n} (hpc : s.pc i = pc)
    (hb : pc.baton = some b) (hphase : pc'.phase b = pc.phase b) (hnone : pc'.baton = none)
    (hstuck : pc'.stuck = false) (hposted : pc'.posted = pc.posted) :
    Idle (s.swapPoolBatons i) (s.pc i) pc' := by
  have hbat : s.swapPoolBatons i = b := h.baton i b (hpc ▸ hb)
  rw [hpc, hbat]
  refine ⟨hphase, fun c hc => ?_, hstuck, hposted⟩
  rw [hnone] at hc
  cases hc

/-- A U-proc that is released needs its baton as before, or not any more. -/
theorem Pc.resumed_baton {pc : Pc n} {b : Bool} (h : pc.resumed.baton = some b) :
    pc.baton = some b := by
  cases pc with
  | cleaning asid => cases h
  | posting => cases h
  | _ => exact h

theorem Pc.resumed_stuck {pc : Pc n} (h : pc.stuck = false) : pc.resumed.stuck = false := by
  cases pc with
  | releasing f => rfl
  | cleaning asid => rfl
  | _ => exact h

/-- One U-proc moves on. -/
theorem guarded_move (h : Guarded s) {pc : Pc n}
    (hidle : Idle (s.swapPoolBatons i) (s.pc i) pc) (hpc : s'.pc = Function.update s.pc i pc)
    (hbaton : s'.swapPoolBatons = s.swapPoolBatons)
    (hsem : s'.semSwapPoolTable = s.semSwapPoolTable)
    (hmaster : s'.masterSemaphore = s.masterSemaphore) (htest : s'.test = s.test) :
    Guarded s' ∧ s'.phases = s.phases := by
  -- Everybody else stays, so each U-proc moves between places that agree.
  have hcase : ∀ j, Idle (s.swapPoolBatons j) (s.pc j) (s'.pc j) := fun j => by
    rw [hpc]
    exact moves_update (R := fun j => Idle (s.swapPoolBatons j) (s.pc j)) hidle (Idle.refl h) j
  have hphase : s'.phases = s.phases := by
    funext j
    rw [phases, phases, hbaton]
    exact (hcase j).phase
  refine ⟨h.congr hsem hmaster hphase ?_ (fun j b hb => ?_) (fun j => (hcase j).stuck)
    (by rw [htest]) (by rw [htest]), hphase⟩
  · funext j
    exact (hcase j).posted
  · rw [hbaton]
    exact (hcase j).baton b hb

/-- Nobody moves. -/
theorem guarded_same (h : Guarded s) (hpc : s'.pc = s.pc)
    (hbaton : s'.swapPoolBatons = s.swapPoolBatons)
    (hsem : s'.semSwapPoolTable = s.semSwapPoolTable)
    (hmaster : s'.masterSemaphore = s.masterSemaphore) (hgot : s'.test.got = s.test.got)
    (hblocked : s'.test.blocked = s.test.blocked) : Guarded s' ∧ s'.phases = s.phases := by
  have hphase : s'.phases = s.phases := by
    funext j
    rw [phases, phases, hpc, hbaton]
  refine ⟨h.congr hsem hmaster hphase ?_ (fun j b hb => ?_) (fun j => ?_) hgot hblocked, hphase⟩
  · funext j
    rw [posted, posted, hpc]
  · rw [hbaton]
    rw [hpc] at hb
    exact h.baton j b hb
  · rw [hpc]
    exact h.unblocked j

/-- The branches that only move a U-proc on. -/
theorem Goes.idle {pc : Pc n} (ho : Allotted s) (h : Guarded s) (hg : Goes s i pc) :
    Idle (s.swapPoolBatons i) (s.pc i) pc := by
  cases hg with
  | modification hpc => exact Idle.freed h hpc rfl rfl rfl rfl rfl
  | missing hpc => exact Idle.alike h hpc (fun _ => rfl) rfl rfl rfl
  | occupied hpc => exact Idle.alike h hpc (fun _ => rfl) rfl rfl rfl
  | unoccupied hpc => exact Idle.alike h hpc (fun _ => rfl) rfl rfl rfl
  | evict hpc => exact Idle.alike h hpc (fun _ => rfl) rfl rfl rfl
  | read hpc => exact Idle.alike h hpc (fun _ => rfl) rfl rfl rfl
  | nobody hpc => exact Idle.freed h hpc rfl rfl rfl rfl rfl
  | nameless hpc =>
      -- Both of these places are inside the section.
      rcases hpc with hpc | hpc
      · exact Idle.freed h hpc rfl rfl rfl rfl rfl
      · exact Idle.freed h hpc rfl rfl rfl rfl rfl
  | clean hpc ha hbat =>
      -- The baton `sys_terminate` reads is the one of the U-proc itself.
      rw [ho.own (by rw [hpc]; rfl) ha] at hbat
      rw [hpc, hbat]
      exact ⟨rfl, fun b hc => Option.some.inj hc, rfl, rfl⟩
  | mark hpc ha hbat =>
      rw [ho.own (by rw [hpc]; rfl) ha] at hbat
      rw [hpc, hbat]
      exact ⟨rfl, fun b hc => (by cases hc), rfl, rfl⟩
  | kept hpc =>
      rw [hpc]
      exact ⟨rfl, fun b hc => (by cases hc), rfl, rfl⟩
  | owned hpc =>
      rw [hpc]
      exact ⟨rfl, fun b hc => (by cases hc), rfl, rfl⟩
  | marked hpc =>
      rw [hpc]
      exact ⟨rfl, fun b hc => (by cases hc), rfl, rfl⟩
  | die hpc =>
      rw [hpc]
      exact ⟨rfl, fun b hc => (by cases hc), rfl, rfl⟩

/-- Looking at the status of a flash operation. -/
theorem finished_idle (h : Guarded s) (i : Fin n) (ok : Bool) :
    Idle (s.swapPoolBatons i) (s.pc i) ((s.pc i).finished ok) := by
  cases hpc : s.pc i with
  | writing f v asid k =>
      rw [Pc.finished, ← hpc]
      cases ok with
      | true => exact Idle.alike h hpc (fun _ => rfl) rfl rfl rfl
      | false => exact Idle.freed h hpc rfl rfl rfl rfl rfl
  | reading f v =>
      rw [Pc.finished, ← hpc]
      cases ok with
      | true => exact Idle.alike h hpc (fun _ => rfl) rfl rfl rfl
      | false => exact Idle.freed h hpc rfl rfl rfl rfl rfl
  | _ =>
      -- Nobody else looks at a status.
      have hrefl := Idle.refl h i
      rw [hpc] at hrefl
      exact hrefl

/-! ## The two operations on `sem_swap_pool_table` -/

/-- Whoever waits for the section is in its `PASSEREN`. -/
theorem passing_of_waiting (h : Guarded s) (hw : s.phases i = .waiting) :
    ∃ f, s.pc i = .passing f := by
  have hstuck := h.unblocked i
  unfold phases at hw
  cases hpc : s.pc i with
  | passing f => exact ⟨f, rfl⟩
  -- A `VERHOGEN` inside the section never blocks.
  | releasing f =>
      rw [hpc] at hstuck
      cases hstuck
  | cleaning asid =>
      rw [hpc] at hstuck
      cases hstuck
  -- A trap is either inside or outside, whatever the baton says.
  | trap =>
      rw [hpc, Pc.phase] at hw
      cases hb : s.swapPoolBatons i with
      | true =>
          rw [hb] at hw
          cases hw
      | false =>
          rw [hb] at hw
          cases hw
  | _ =>
      rw [hpc] at hw
      cases hw

theorem guarded_lock (h : Guarded s) {f : Fault} (hpc : s.pc i = .pass f) :
    Guarded (s.swapPoolOp .P i (.passing f) (.take f)) ∧
      ∀ j, (s.swapPoolOp .P i (.passing f) (.take f)).phases j = .out ↔
        j ≠ i ∧ s.phases j = .out := by
  have hout : s.phases i = .out := by
    rw [phases, hpc]
    rfl
  have hbat : s.swapPoolBatons i = false := h.baton i false (by rw [hpc]; rfl)
  rcases mutex_enter h.mutex hout with ⟨hwoken, hmutex⟩
  -- The baton of the caller is still down on both sides of the `PASSEREN`.
  have hbatons : ∀ j b, ((s.swapPoolOp .P i (.passing f) (.take f)).pc j).baton = some b →
      s.swapPoolBatons j = b :=
    swapPoolOp_moves (R := fun j pc => ∀ b, pc.baton = some b → s.swapPoolBatons j = b)
      (fun b hb => hbat.trans (Option.some.inj hb)) (fun b hb => hbat.trans (Option.some.inj hb))
      (fun j b hb => h.baton j b (Pc.resumed_baton hb)) h.baton
  have hstuck : ∀ j, ((s.swapPoolOp .P i (.passing f) (.take f)).pc j).stuck = false :=
    swapPoolOp_moves (R := fun _ pc => pc.stuck = false) rfl rfl
      (fun j => Pc.resumed_stuck (h.unblocked j)) h.unblocked
  rw [swapPoolOp_eq, hwoken] at hbatons hstuck ⊢
  simp only [reduceCtorEq, if_false] at hbatons hstuck ⊢
  -- The caller waits or is inside, and nobody else moves.
  have hphase : SupportLevel.phases { s with
      semSwapPoolTable := (s.semSwapPoolTable.op .P i).sem
      pc := fun j => if j = i then
        if (s.semSwapPoolTable.op .P i).waits then .passing f else .take f else s.pc j } =
      Function.update s.phases i
        (if (s.semSwapPoolTable.op .P i).waits then .waiting else .inside) := by
    funext j
    by_cases hj : j = i
    · simp only [phases, hj, if_true, Function.update_self]
      split
      · rfl
      · rfl
    · simp only [phases, if_neg hj, Function.update_of_ne hj]
  refine ⟨⟨?_, hbatons, hstuck, ?_, h.round, h.turn⟩, fun j => ?_⟩
  · -- The mutex makes the step of the library.
    rw [hphase]
    exact hmutex
  · have hposted : SupportLevel.posted { s with
        semSwapPoolTable := (s.semSwapPoolTable.op .P i).sem
        pc := fun j => if j = i then
          if (s.semSwapPoolTable.op .P i).waits then .passing f else .take f else s.pc j } =
        s.posted := by
      funext j
      by_cases hj : j = i
      · simp only [posted, hj, if_true, hpc]
        split
        · rfl
        · rfl
      · simp only [posted, if_neg hj]
    rw [hposted]
    exact h.joined
  · rw [hphase]
    by_cases hj : j = i
    · rw [hj, Function.update_self]
      refine iff_of_false (fun hc => ?_) (fun hc => hc.1 rfl)
      split at hc
      · cases hc
      · cases hc
    · rw [Function.update_of_ne hj]
      exact (and_iff_right hj).symm

theorem Unlocks.inside {pc blocked next : Pc n} (h : Unlocks pc blocked next) (b : Bool) :
    pc.phase b = .inside ∧ pc.baton = some true ∧ pc.posted = .before ∧ next.phase b = .out ∧
      (∀ c, next.baton = some c → c = true) ∧ next.stuck = false ∧ next.posted = .before := by
  cases h with
  | release f => exact ⟨rfl, rfl, rfl, rfl, fun c hc => (Option.some.inj hc).symm, rfl, rfl⟩
  | clean asid => exact ⟨rfl, rfl, rfl, rfl, fun c hc => (by cases hc), rfl, rfl⟩

/-- The section is left, and passes to the longest waiting U-proc. -/
theorem guarded_unlock (h : Guarded s) {blocked next : Pc n} (hu : Unlocks (s.pc i) blocked next) :
    Guarded (s.swapPoolOp .V i blocked next) ∧
      ∀ j, (s.swapPoolOp .V i blocked next).phases j = .out ↔ j = i ∨ s.phases j = .out := by
  rcases hu.inside (s.swapPoolBatons i) with ⟨hin, hbt, hpost, hnext, hnb, hns, hnp⟩
  have hbat : s.swapPoolBatons i = true := h.baton i true hbt
  rcases mutex_leave h.mutex hin with ⟨hwaits, hwoken, hmutex⟩
  rw [swapPoolOp_eq, hwaits]
  simp only [Bool.false_eq_true, if_false]
  -- Whoever is released waited in `PASSEREN`, and sets its baton next.
  have hcase : ∀ j, j ≠ i → (s.semSwapPoolTable.op .V i).woken = some j →
      ∃ f, s.pc j = .passing f := fun j _ hw => passing_of_waiting h (hwoken j hw)
  have hphase : SupportLevel.phases { s with
      semSwapPoolTable := (s.semSwapPoolTable.op .V i).sem
      pc := fun j => if j = i then next
        else if (s.semSwapPoolTable.op .V i).woken = some j then (s.pc j).resumed else s.pc j } =
      fun j => if j = i then .out
        else if (s.semSwapPoolTable.op .V i).woken = some j then .inside else s.phases j := by
    funext j
    by_cases hj : j = i
    · simp only [phases, hj, if_true]
      exact hnext
    · by_cases hw : (s.semSwapPoolTable.op .V i).woken = some j
      · rcases hcase j hj hw with ⟨f, hf⟩
        simp only [phases, if_neg hj, if_pos hw, hf]
        rfl
      · simp only [phases, if_neg hj, if_neg hw]
  refine ⟨⟨?_, fun j b => ?_, fun j => ?_, ?_, h.round, h.turn⟩, fun j => ?_⟩
  · rw [hphase]
    exact hmutex
  · -- The baton of the caller is still up, that of the released one still down.
    by_cases hj : j = i
    · simp only [hj, if_true, hbat]
      exact fun hb => (hnb b hb).symm
    · by_cases hw : (s.semSwapPoolTable.op .V i).woken = some j
      · rcases hcase j hj hw with ⟨f, hf⟩
        simp only [if_neg hj, if_pos hw, hf]
        exact fun hb => h.baton j b (by rw [hf]; exact hb)
      · simp only [if_neg hj, if_neg hw]
        exact h.baton j b
  · by_cases hj : j = i
    · simp only [hj, if_true]
      exact hns
    · by_cases hw : (s.semSwapPoolTable.op .V i).woken = some j
      · rcases hcase j hj hw with ⟨f, hf⟩
        simp only [if_neg hj, if_pos hw, hf]
        rfl
      · simp only [if_neg hj, if_neg hw]
        exact h.unblocked j
  · have hposted : SupportLevel.posted { s with
        semSwapPoolTable := (s.semSwapPoolTable.op .V i).sem
        pc := fun j => if j = i then next
          else if (s.semSwapPoolTable.op .V i).woken = some j then (s.pc j).resumed else s.pc j } =
        s.posted := by
      funext j
      by_cases hj : j = i
      · simp only [posted, hj, if_true]
        rw [hnp, hpost]
      · by_cases hw : (s.semSwapPoolTable.op .V i).woken = some j
        · rcases hcase j hj hw with ⟨f, hf⟩
          simp only [posted, if_neg hj, if_pos hw, hf]
          rfl
        · simp only [posted, if_neg hj, if_neg hw]
    rw [hposted]
    exact h.joined
  · rw [hphase]
    by_cases hj : j = i
    · simp only [hj, if_true, true_or]
    · simp only [if_neg hj]
      refine Iff.trans ?_ (or_iff_right hj).symm
      by_cases hw : (s.semSwapPoolTable.op .V i).woken = some j
      · rw [if_pos hw, hwoken j hw]
        simp only [reduceCtorEq]
      · rw [if_neg hw]

/-! ## The two operations on `master_semaphore` -/

/-- Whoever waits for `test` is in its `master_semaphore_v`. -/
theorem posting_of_posted {pc : Pc n} (h : pc.posted = .posting) : pc = .posting := by
  cases pc with
  | posting => rfl
  | _ => cases h

/-- `test` is one round further when it was released. -/
theorem TestPc.resumed_got {t : TestPc n} (h : t.blocked = true) :
    t.resumed.got = t.got + 1 ∧ t.resumed.blocked = false := by
  cases t with
  | waiting k => exact ⟨rfl, rfl⟩
  | _ => cases h

theorem guarded_post (h : Guarded s) (hpc : s.pc i = .post) :
    Guarded (s.masterSemaphoreV i) ∧ (s.masterSemaphoreV i).phases = s.phases := by
  have hbefore : s.posted i = .before := by
    rw [posted, hpc]
    rfl
  rcases rendezvous_post h.joined hbefore with ⟨hwoken, hjoined⟩
  have hround := h.round
  have hturn := h.turn
  have hbatons : ∀ j b, ((s.masterSemaphoreV i).pc j).baton = some b → s.swapPoolBatons j = b :=
    masterSemaphoreV_moves (R := fun j pc => ∀ b, pc.baton = some b → s.swapPoolBatons j = b)
      (fun b hb => by cases hb) (fun b hb => by cases hb)
      (fun j b hb => h.baton j b (Pc.resumed_baton hb)) h.baton
  have hstuck : ∀ j, ((s.masterSemaphoreV i).pc j).stuck = false :=
    masterSemaphoreV_moves (R := fun _ pc => pc.stuck = false) rfl rfl
      (fun j => Pc.resumed_stuck (h.unblocked j)) h.unblocked
  -- Only `test` can be released.
  have hnone : ∀ j, ¬ (s.masterSemaphore.op .V (some i)).woken = some (some j) := fun j hw => by
    cases (hwoken _ hw).1
  rw [masterSemaphoreV_eq] at hbatons hstuck ⊢
  simp only [hnone, if_false] at hbatons hstuck ⊢
  have hphase : SupportLevel.phases { s with
      masterSemaphore := (s.masterSemaphore.op .V (some i)).sem
      test := if (s.masterSemaphore.op .V (some i)).woken = some none then s.test.resumed
        else s.test
      pc := fun j => if j = i then
        if (s.masterSemaphore.op .V (some i)).waits then .posting else .exit else s.pc j } =
      s.phases := by
    funext j
    by_cases hj : j = i
    · simp only [phases, hj, if_true, hpc]
      split
      · rfl
      · rfl
    · simp only [phases, if_neg hj]
  have hposted : SupportLevel.posted { s with
      masterSemaphore := (s.masterSemaphore.op .V (some i)).sem
      test := if (s.masterSemaphore.op .V (some i)).woken = some none then s.test.resumed
        else s.test
      pc := fun j => if j = i then
        if (s.masterSemaphore.op .V (some i)).waits then .posting else .exit else s.pc j } =
      Function.update s.posted i
        (if (s.masterSemaphore.op .V (some i)).waits then .posting else .done) := by
    funext j
    by_cases hj : j = i
    · simp only [posted, hj, if_true, Function.update_self]
      split
      · rfl
      · rfl
    · simp only [posted, if_neg hj, Function.update_of_ne hj]
  have htest : (s.masterSemaphore.op .V (some i)).woken = some none →
      s.test.resumed.got = s.test.got + 1 ∧ s.test.resumed.blocked = false ∧
        s.test.got < n := fun hw =>
    ⟨(TestPc.resumed_got (hwoken _ hw).2).1, (TestPc.resumed_got (hwoken _ hw).2).2,
      hturn (hwoken _ hw).2⟩
  refine ⟨⟨hphase ▸ h.mutex, hbatons, hstuck, ?_, ?_, ?_⟩, hphase⟩
  · -- The rendezvous makes the step of the library, with or without `test`.
    rw [hposted]
    by_cases hw : (s.masterSemaphore.op .V (some i)).woken = some none
    · rw [if_pos hw, if_pos hw] at hjoined
      simp only [if_pos hw]
      rw [(htest hw).1, (htest hw).2.1]
      exact hjoined
    · rw [if_neg hw, if_neg hw] at hjoined
      simp only [if_neg hw]
      exact hjoined
  · by_cases hw : (s.masterSemaphore.op .V (some i)).woken = some none
    · simp only [if_pos hw]
      rw [(htest hw).1]
      exact (htest hw).2.2
    · simp only [if_neg hw]
      exact hround
  · by_cases hw : (s.masterSemaphore.op .V (some i)).woken = some none
    · simp only [if_pos hw]
      rw [(htest hw).2.1]
      exact fun hc => absurd hc Bool.false_ne_true
    · simp only [if_neg hw]
      exact hturn

theorem guarded_wait (h : Guarded s) {k : Nat} (htest : s.test = .wait k) (hk : k < n) :
    Guarded (s.masterSemaphoreP k) ∧ (s.masterSemaphoreP k).phases = s.phases := by
  have hjoined := h.joined
  rw [htest] at hjoined
  rcases rendezvous_take hjoined with ⟨hwoken, hjoined⟩
  -- Whoever is released waited in its `master_semaphore_v`.
  have hcase : ∀ j, (s.masterSemaphore.op .P none).woken = some (some j) → s.pc j = .posting :=
    fun j hw => by
      rcases hwoken _ hw with ⟨j', hj', hp⟩
      cases hj'
      exact posting_of_posted hp
  have hbatons : ∀ j b, ((s.masterSemaphoreP k).pc j).baton = some b → s.swapPoolBatons j = b :=
    masterSemaphoreP_moves (R := fun j pc => ∀ b, pc.baton = some b → s.swapPoolBatons j = b)
      (fun j b hb => h.baton j b (Pc.resumed_baton hb)) h.baton
  have hstuck : ∀ j, ((s.masterSemaphoreP k).pc j).stuck = false :=
    masterSemaphoreP_moves (R := fun _ pc => pc.stuck = false)
      (fun j => Pc.resumed_stuck (h.unblocked j)) h.unblocked
  rw [masterSemaphoreP_eq] at hbatons hstuck ⊢
  -- Posting and having posted are both outside the section.
  have hphase : SupportLevel.phases { s with
      masterSemaphore := (s.masterSemaphore.op .P none).sem
      test := if (s.masterSemaphore.op .P none).waits then .waiting k else .wait (k + 1)
      pc := fun j => if (s.masterSemaphore.op .P none).woken = some (some j) then (s.pc j).resumed
        else s.pc j } = s.phases := by
    funext j
    by_cases hw : (s.masterSemaphore.op .P none).woken = some (some j)
    · simp only [phases, if_pos hw, hcase j hw]
      rfl
    · simp only [phases, if_neg hw]
  have hposted : SupportLevel.posted { s with
      masterSemaphore := (s.masterSemaphore.op .P none).sem
      test := if (s.masterSemaphore.op .P none).waits then .waiting k else .wait (k + 1)
      pc := fun j => if (s.masterSemaphore.op .P none).woken = some (some j) then (s.pc j).resumed
        else s.pc j } =
      fun j => if (s.masterSemaphore.op .P none).woken = some (some j) then .done
        else s.posted j := by
    funext j
    by_cases hw : (s.masterSemaphore.op .P none).woken = some (some j)
    · simp only [posted, if_pos hw, hcase j hw]
      rfl
    · simp only [posted, if_neg hw]
  refine ⟨⟨hphase ▸ h.mutex, hbatons, hstuck, ?_, ?_, ?_⟩, hphase⟩
  · rw [hposted]
    cases hwaits : (s.masterSemaphore.op .P none).waits with
    | true =>
        rw [hwaits] at hjoined
        exact hjoined
    | false =>
        rw [hwaits] at hjoined
        exact hjoined
  · -- A round that is over was one of the `UPROCMAX` rounds.
    cases hwaits : (s.masterSemaphore.op .P none).waits with
    | true =>
        simp only [if_true]
        exact Nat.le_of_lt hk
    | false =>
        simp only [Bool.false_eq_true, if_false]
        exact hk
  · cases hwaits : (s.masterSemaphore.op .P none).waits with
    | true =>
        simp only [if_true]
        exact fun _ => hk
    | false =>
        simp only [Bool.false_eq_true, if_false]
        exact fun hc => absurd hc Bool.false_ne_true

/-! ## Every step -/

namespace SupportLevel

/-- The `PASSEREN`s on `sem_swap_pool_table` a U-proc has not yet answered with
    a `VERHOGEN`. -/
def due (s : SupportLevel n) (i : Fin n) : Nat := if s.phases i = .out then 0 else 1

end SupportLevel

/-- How many operations of the given kind a step performs for a U-proc. -/
def called (s : SupportLevel n) (e : UEvent n) (o : SemOp) (i : Fin n) : Nat :=
  if mutexCall s e = some (o, i) then 1 else 0

theorem called_none {e : UEvent n} (h : mutexCall s e = none) (o : SemOp) (i : Fin n) :
    called s e o i = 0 := by
  rw [called, h, if_neg (Option.some_ne_none _).symm]

theorem Goes.call {pc : Pc n} (h : Goes s i pc) : mutexCall s (.step i) = none := by
  unfold mutexCall
  cases h with
  | modification h => simp only [h]
  | missing h => simp only [h]
  | occupied h => simp only [h]
  | unoccupied h => simp only [h]
  | evict h => simp only [h]
  | read h => simp only [h]
  | nobody h => simp only [h]
  | nameless h =>
      rcases h with h | h
      · simp only [h]
      · simp only [h]
  | clean h => simp only [h]
  | mark h => simp only [h]
  | kept h => simp only [h]
  | owned h => simp only [h]
  | marked h => simp only [h]
  | die h => simp only [h]

theorem Unlocks.call {blocked next : Pc n} (h : Unlocks (s.pc i) blocked next) :
    mutexCall s (.step i) = some (.V, i) := by
  unfold mutexCall
  generalize hpc : s.pc i = pc at h
  cases h with
  | release f => simp only [hpc]
  | clean asid => simp only [hpc]

/-- What a step does to the semaphores and to the operations outstanding. -/
structure Conducted (s : SupportLevel n) (e : UEvent n) (s' : SupportLevel n) : Prop where
  guarded : Guarded s'
  calls : ∀ j, s'.due j + called s e .V j = s.due j + called s e .P j

theorem conducted_idle {e : UEvent n} (h : Guarded s' ∧ s'.phases = s.phases)
    (hcall : mutexCall s e = none) : Conducted s e s' := by
  refine ⟨h.1, fun j => ?_⟩
  rw [called_none hcall, called_none hcall, due, due, h.2]

/-- A panic moves nobody. -/
theorem Panics.call {S : Platform n} {e : UEvent n} (h : Panics S s e) : mutexCall s e = none := by
  cases h with
  | refill => rfl
  | baton h =>
      rcases h with h | h | h
      · simp only [mutexCall, h]
      · simp only [mutexCall, h]
      · simp only [mutexCall, h]
  | vpn h => simp only [mutexCall, h]
  | index h => simp only [mutexCall, h]
  | evict h => simp only [mutexCall, h]
  | commit h => simp only [mutexCall, h]
  | double h => simp only [mutexCall, h]
  | empty => rfl

/-- The end of a flash operation moves at most its U-proc, and not across the
    border of the section. -/
theorem guarded_finish (hg : Guarded s' ∧ s'.phases = s.phases) (who : Party n) (ok : Bool)
    (data : Page) :
    Guarded (s'.finish who ok data) ∧ (s'.finish who ok data).phases = s.phases := by
  rcases hg with ⟨h, hphase⟩
  rw [← hphase]
  cases who with
  | some i => exact guarded_move h (finished_idle h i ok) rfl rfl rfl rfl rfl
  | none =>
      simp only [finish]
      split
      · next i t htest =>
          split
          · exact guarded_same h rfl rfl rfl rfl (by rw [htest]; rfl) (by rw [htest]; rfl)
          · exact guarded_same h rfl rfl rfl rfl (by rw [htest]; rfl) (by rw [htest]; rfl)
      · exact ⟨h, rfl⟩

/-- Setting the baton of a U-proc that moves on. -/
theorem guarded_baton (h : Guarded s) {b : Bool} {pc : Pc n}
    (hphase : pc.phase b = s.phases i) (hb : ∀ c, pc.baton = some c → b = c)
    (hstuck : pc.stuck = false) (hposted : pc.posted = s.posted i)
    (hpc : s'.pc = Function.update s.pc i pc)
    (hbaton : s'.swapPoolBatons = Function.update s.swapPoolBatons i b)
    (hsem : s'.semSwapPoolTable = s.semSwapPoolTable)
    (hmaster : s'.masterSemaphore = s.masterSemaphore) (hgot : s'.test.got = s.test.got)
    (hblocked : s'.test.blocked = s.test.blocked) : Guarded s' ∧ s'.phases = s.phases := by
  have hphases : s'.phases = s.phases := by
    funext j
    rw [phases, hpc, hbaton]
    by_cases hj : j = i
    · rw [hj, Function.update_self, Function.update_self, hphase]
    · rw [Function.update_of_ne hj, Function.update_of_ne hj, phases]
  refine ⟨h.congr hsem hmaster hphases ?_ (fun j c => ?_) (fun j => ?_) hgot hblocked, hphases⟩
  · funext j
    rw [posted, hpc]
    by_cases hj : j = i
    · rw [hj, Function.update_self, hposted]
    · rw [Function.update_of_ne hj, posted]
  · rw [hpc, hbaton]
    by_cases hj : j = i
    · rw [hj, Function.update_self, Function.update_self]
      exact hb c
    · rw [Function.update_of_ne hj, Function.update_of_ne hj]
      exact h.baton j c
  · rw [hpc]
    by_cases hj : j = i
    · rw [hj, Function.update_self, hstuck]
    · rw [Function.update_of_ne hj]
      exact h.unblocked j

/-- Every step keeps the invariant, and the operations outstanding are the ones
    that were counted. -/
theorem conducted_step {S : Platform n} {e : UEvent n} (ho : Allotted s) (h : Guarded s)
    (hstep : UStep S s e s') : Conducted s e s' := by
  cases hstep with
  | panic msg hp => exact conducted_idle (guarded_same h rfl rfl rfl rfl rfl rfl) hp.call
  -- A U-proc that leaves the user mode has its baton down.
  | @quit _ i hpc he =>
      have hcall : mutexCall s e = none := by
        rcases he with rfl | ⟨_, _, _, _, rfl, _⟩
        · rfl
        · rfl
      refine conducted_idle (guarded_move h ?_ rfl rfl rfl rfl rfl) hcall
      exact Idle.freed h hpc rfl rfl rfl rfl rfl
  | refill => exact conducted_idle (guarded_same h rfl rfl rfl rfl rfl rfl) rfl
  | @fault i _ _ _ _ _ _ hpc =>
      refine conducted_idle (guarded_move h ?_ rfl rfl rfl rfl rfl) rfl
      exact Idle.alike h hpc (fun _ => rfl) rfl rfl rfl
  | access => exact conducted_idle (guarded_same h rfl rfl rfl rfl rfl rfl) rfl
  | goes hg => exact conducted_idle (guarded_move h (hg.idle ho h) rfl rfl rfl rfl rfl) hg.call
  | @lock i f hpc =>
      rcases guarded_lock h hpc with ⟨hg, hout⟩
      have hcall : mutexCall s (.step i) = some (.P, i) := by simp only [mutexCall, hpc]
      have hi : s.phases i = .out := by
        rw [phases, hpc]
        rfl
      refine ⟨hg, fun j => ?_⟩
      by_cases hj : j = i
      · -- The caller has one more outstanding.
        have hj' := hout i
        rw [called, called, hcall, hj, if_neg (fun hc => by cases hc), if_pos rfl, due, due,
          if_pos hi, if_neg (fun hc => (hj'.mp hc).1 rfl)]
      · have hne : ∀ o : SemOp, ¬ some (SemOp.P, i) = some (o, j) := fun o hc =>
          hj (Prod.mk.inj (Option.some.inj hc)).2.symm
        rw [called, called, hcall, if_neg (hne _), if_neg (hne _), due, due]
        simp only [hout j, hj, ne_eq, not_false_eq_true, true_and]
  | @take i f asid hpc ha =>
      have hi : asid = i := ho.own (by rw [hpc]; rfl) ha
      refine conducted_idle
        (guarded_baton (i := i) (b := true) h ?_ ?_ rfl ?_ rfl ?_ rfl rfl rfl rfl)
        (by simp only [mutexCall, hpc])
      · rw [phases, hpc]
        rfl
      · exact fun c hc => Option.some.inj hc
      · rw [posted, hpc]
        rfl
      · rw [hi]
        rfl
  | @fifo i f index hpc =>
      refine conducted_idle (guarded_move (i := i) h ?_ rfl rfl rfl rfl rfl)
        (by simp only [mutexCall, hpc])
      exact Idle.alike h hpc (fun _ => rfl) rfl rfl rfl
  | @evict i _ _ _ _ _ _ _ hpc _ _ _ _ h₁ =>
      subst h₁
      refine conducted_idle (guarded_move (i := i) h ?_ rfl rfl rfl rfl rfl)
        (by simp only [mutexCall, hpc])
      exact Idle.alike h hpc (fun _ => rfl) rfl rfl rfl
  | @write i _ _ _ _ hpc =>
      refine conducted_idle (guarded_move (i := i) h ?_ rfl rfl rfl rfl rfl)
        (by simp only [mutexCall, hpc])
      exact Idle.alike h hpc (fun _ => rfl) rfl rfl rfl
  | @read i _ _ _ hpc =>
      refine conducted_idle (guarded_move (i := i) h ?_ rfl rfl rfl rfl rfl)
        (by simp only [mutexCall, hpc])
      exact Idle.alike h hpc (fun _ => rfl) rfl rfl rfl
  | @commit i _ _ _ _ hpc =>
      refine conducted_idle (guarded_move (i := i) h ?_ rfl rfl rfl rfl rfl)
        (by simp only [mutexCall, hpc])
      exact Idle.alike h hpc (fun _ => rfl) rfl rfl rfl
  | @unlock i blocked next hu =>
      rcases guarded_unlock h hu with ⟨hg, hout⟩
      have hi : s.phases i = .inside := (hu.inside _).1
      refine ⟨hg, fun j => ?_⟩
      by_cases hj : j = i
      · -- The caller has none outstanding any more.
        rw [called, called, hu.call, hj, if_pos rfl, if_neg (fun hc => by cases hc), due, due,
          if_pos ((hout i).mpr (Or.inl rfl)), if_neg (fun hc => by rw [hi] at hc; cases hc)]
      · have hne : ∀ o : SemOp, ¬ some (SemOp.V, i) = some (o, j) := fun o hc =>
          hj (Prod.mk.inj (Option.some.inj hc)).2.symm
        rw [called, called, hu.call, if_neg (hne _), if_neg (hne _), due, due]
        simp only [hout j, hj, false_or]
  | @drop i f asid hpc ha =>
      have hi : asid = i := ho.own (by rw [hpc]; rfl) ha
      refine conducted_idle
        (guarded_baton (i := i) (b := false) h ?_ ?_ rfl ?_ rfl ?_ rfl rfl rfl rfl)
        (by simp only [mutexCall, hpc])
      · rw [phases, hpc]
        rfl
      · exact fun c hc => Option.some.inj hc
      · rw [posted, hpc]
        rfl
      · rw [hi]
        rfl
  | @unmark i _ _ hpc =>
      refine conducted_idle (guarded_move (i := i) h ?_ rfl rfl rfl rfl rfl)
        (by simp only [mutexCall, hpc])
      rw [hpc]
      exact ⟨rfl, fun b hc => (by cases hc), rfl, rfl⟩
  | @free i hpc =>
      refine conducted_idle (guarded_move (i := i) h ?_ rfl rfl rfl rfl rfl)
        (by simp only [mutexCall, hpc])
      rw [hpc]
      exact ⟨rfl, fun b hc => (by cases hc), rfl, rfl⟩
  | post hpc => exact conducted_idle (guarded_post h hpc) (by simp only [mutexCall, hpc])
  -- The device has moved data only when the U-proc looks at its status.
  | complete _ h₁ =>
      rcases transfer_eq h₁ with ⟨ram, blocks, rfl⟩
      refine conducted_idle (guarded_finish (guarded_same h ?_ ?_ ?_ ?_ ?_ ?_) _ _ _) rfl
      all_goals rfl
  | alloc htest =>
      exact conducted_idle (guarded_same h rfl rfl rfl rfl (by rw [htest]; rfl)
        (by rw [htest]; rfl)) rfl
  | created htest =>
      exact conducted_idle (guarded_same h rfl rfl rfl rfl (by rw [htest]; rfl)
        (by rw [htest]; rfl)) rfl
  | header htest =>
      exact conducted_idle (guarded_same h rfl rfl rfl rfl (by rw [htest]; rfl)
        (by rw [htest]; rfl)) rfl
  | @fill i t data htest =>
      -- The U-proc is not there yet, and its baton is down anyway.
      have hpc : s.pc i = .unborn := ho.fresh (by rw [htest]; rfl)
      have hb := h.baton i false (by rw [hpc]; rfl)
      refine conducted_idle (guarded_same h rfl ?_ rfl rfl (by rw [htest]; rfl)
        (by rw [htest]; rfl)) rfl
      funext j
      by_cases hj : j = i
      · simp only [hj, Function.update_self, hb]
      · simp only [Function.update_of_ne hj]
  | @create i t htest =>
      have hpc : s.pc i = .unborn := ho.fresh (by rw [htest]; rfl)
      have hb := h.baton i
      rw [hpc] at hb
      refine conducted_idle (guarded_baton (i := i) (b := false) h ?_ ?_ rfl ?_ rfl ?_ rfl rfl
        (by rw [htest]; rfl) (by rw [htest]; rfl)) rfl
      · rw [phases, hpc]
        rfl
      · exact fun c hc => Option.some.inj hc
      · rw [posted, hpc]
        rfl
      · rw [← hb false rfl, Function.update_eq_self]
        rfl
  | wait htest hi => exact conducted_idle (guarded_wait h htest hi) rfl
  | halt => exact conducted_idle (guarded_same h rfl rfl rfl rfl rfl rfl) rfl

theorem guarded_run {S : Platform n} {es : List (UEvent n)} (h : (supportLevel S).Run es s) :
    Guarded s :=
  System.run_invariant (fun _ => guarded_start)
    (fun _ _ _ _ hrun hi hs =>
      (conducted_step (allotted_run hrun) hi (ustep_of_next hs).2).guarded) h

end SupportSemaphores

end Pandos
