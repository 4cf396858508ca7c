import Pandos.Theory.SupportSemaphores
import Pandos.Theory.Sweep
import Pandos.Theory.UprocReplay

/-!
# The End of the U-procs

`test` waits for the end of every U-proc by as many `master_semaphore_p` calls
as there are U-procs. The watcher counts how often the support structure of a
U-proc is put back on `support_free`.

## Main definitions

* `countReturns`: The record of the watcher.

## Theorems

* `returns_run`: Structures come back from the U-procs that have none any more.
* `uprocs_joined`: `test` gets past its last `master_semaphore_p` when all U-procs
  are through, and every support structure came back once and without frames.
-/

namespace Pandos

section Termination

variable {n : Nat}

open SupportLevel

/-- The watcher counts the structures that come back in one more step. -/
def countReturns (s : SupportLevel n) (_ : UEvent n) (s' : SupportLevel n)
    (returns : Fin n → Nat) : Fin n → Nat :=
  fun i => returns i + if Returns s s' i then 1 else 0

/-- The runs of the support level with the watcher. -/
abbrev returnedRuns (S : Platform n) : System (SupportLevel n × (Fin n → Nat)) (UEvent n) :=
  (supportLevel S).observed (fun _ _ => 0) countReturns

variable {S : Platform n} {es : List (UEvent n)} {s s' : SupportLevel n} {i : Fin n}

/-- Structures came back from the U-procs that have none any more, once from
    each of them. -/
theorem returns_run {returns : Fin n → Nat} (h : (returnedRuns S).Run es (s, returns)) (i : Fin n) :
    returns i = if (s.pc i).life = .gone then 1 else 0 := by
  refine System.run_invariant
    (P := fun x => ∀ i, x.2 i = if (x.1.pc i).life = .gone then 1 else 0)
    (fun x hx i => ?_) (fun es x e x' hrun hx hstep i => ?_) h i
  · rcases hx with ⟨⟨free, _, hs⟩, hr⟩
    rw [hr, hs]
    rfl
  · rcases hstep with ⟨hnext, hcount⟩
    have ho := allotted_run (System.run_of_observed hrun)
    have hgone := (retained_step ho (ustep_of_next hnext).2).gone ho i
    rw [hcount, countReturns, hx i]
    -- A U-proc is gone after the step in which its structure comes back, and not before.
    by_cases hret : Returns x.1 x'.1 i
    · have hheld : (x.1.pc i).life ≠ .gone := by
        rw [hret.1]
        simp only [Pc.life, ne_eq, reduceCtorEq, not_false_eq_true]
      rw [if_pos hret, if_neg hheld, if_pos (hgone.mpr (Or.inr hret))]
    · rw [if_neg hret]
      by_cases hg : (x.1.pc i).life = .gone
      · rw [if_pos hg, if_pos (hgone.mpr (Or.inl hg))]
      · rw [if_neg hg, if_neg (fun hc => (hgone.mp hc).elim hg hret)]

theorem gone_of_posted (h : s.posted i ≠ .before) : (s.pc i).life = .gone := by
  rw [posted] at h
  cases hpc : s.pc i with
  | posting => rfl
  | exit => rfl
  | dead => rfl
  | _ =>
      rw [hpc] at h
      exact absurd rfl h

/-- In every run, `test` has `n` finished `master_semaphore_p` calls behind it only
    if all U-procs have finished their `master_semaphore_v`, and then every
    structure is free. Before that, the value of the semaphore is the number of
    `V`s no `P` has answered, the `V`s that wait are the queue, and `test` waits
    only for a U-proc that has not called `V`. A structure comes back from a
    U-proc before its `V`, once, to a list it is not on, and with no frame left
    that the U-proc owns. -/
theorem uprocs_joined {returns : Fin n → Nat} (h : (returnedRuns S).Run es (s, returns)) :
    (s.test.got = n → ∀ i, s.posted i = .done) ∧
    (s.test = .wait n → ∀ t, t ∈ s.supportFree) ∧
    s.masterSemaphore.value + s.test.got = (through s.posted).card ∧
    (∀ i, some i ∈ s.masterSemaphore.queue ↔ s.posted i = .posting) ∧
    (s.test.blocked = true → ∃ i, s.posted i = .before) ∧
    (∀ i, returns i ≤ 1 ∧ (s.posted i ≠ .before → returns i = 1)) ∧
    (∀ i, s.pc i = .free → s.support i ∉ s.supportFree ∧
      ∀ f, (s.swapPoolTable f).swAsid ≠ some i) := by
  have hbase := System.run_of_observed h
  have ho := allotted_run hbase
  have hg := guarded_run hbase
  have hcard : Fintype.card (Fin n) = n := Fintype.card_fin n
  have hdone : s.test.got = n → ∀ i, s.posted i = .done := fun hgot =>
    rendezvous_all hg.joined (hgot.trans hcard.symm)
  refine ⟨hdone, fun htest t => ?_, hg.joined.count, hg.joined.members, fun hb => ?_, fun i => ?_,
    fun i hi => ⟨ho.held i (by rw [hi]; rfl),
      ((swept_run hbase).places i).nothing (by rw [hi]; rfl)⟩⟩
  · -- Nobody has a structure any more.
    rcases ho.all t with ht | ⟨i, hi, _⟩ | ⟨i, hi⟩
    · exact ht
    · have hgone := gone_of_posted (i := i) (s := s) (by
        rw [hdone (by rw [htest]; rfl) i]
        simp only [ne_eq, reduceCtorEq, not_false_eq_true])
      rw [hgone] at hi
      cases hi
    · rw [htest] at hi
      cases hi
  · have hjoined := hg.joined
    rw [hb] at hjoined
    exact rendezvous_blocked hjoined (hcard.symm ▸ hg.turn hb)
  · -- A `V` comes after the structure is back, and it comes back once.
    have hr := returns_run h i
    refine ⟨?_, fun hp => ?_⟩
    · rw [hr]
      split
      · exact Nat.le_refl 1
      · exact Nat.zero_le 1
    · rw [hr, if_pos (gone_of_posted hp)]

end Termination

/-- The second U-proc terminates before the first, which waits in its
    `master_semaphore_v` until `test` comes. -/
theorem uprocs_joined_sample : ∃ es s returns, (returnedRuns samplePlatform).Run es (s, returns) ∧
    s.test = .wait 2 ∧ (∀ i, s.posted i = .done) ∧ returns 0 = 1 ∧ 0 ∈ s.supportFree := by
  rcases exists_uproc_run samplePlatform (fun _ _ => True)
    (bootUprocs ++ .quit 1 :: List.replicate 9 (.step 1) ++ .quit 0 :: List.replicate 8 (.step 0) ++
      [.test, .test])
    (fun s => s.test.got = 2 ∧ s.test.atHand = none ∧ s.test.blocked = false)
    (by decide +kernel) with ⟨es, s, hrun, hgot, hhand, hblocked⟩
  have htest : s.test = .wait 2 := by
    cases ht : s.test with
    | wait k =>
        rw [ht] at hgot
        rw [show k = 2 from hgot]
    | waiting k =>
        rw [ht] at hblocked
        cases hblocked
    | _ =>
        rw [ht] at hgot
        cases hgot
  rcases System.run_observed (fun _ _ => 0) countReturns (System.run_of_restrict hrun) with
    ⟨returns, hreturns⟩
  have hsound := uprocs_joined hreturns
  have hdone := hsound.1 hgot
  exact ⟨es, s, returns, hreturns, htest, hdone,
    (hsound.2.2.2.2.2.1 0).2 (by rw [hdone 0]; simp only [ne_eq, reduceCtorEq, not_false_eq_true]),
    hsound.2.1 htest 0⟩

end Pandos
