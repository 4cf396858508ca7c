import Pandos.Theory.Runs

/-!
# Identifiers of Processes

What one exception does to identifiers. A process that lives keeps its own, and
a new one gets the index of its block together with `recycle_count`, which
counts the processes that were ever created. At most one process is created.

## Main definitions

* `Identified`: The identifiers and the counter after some part of an
  exception.

## Theorems

* `maskPidId_makePid`: The identifier of a process names its block.
* `identified_of_next`: What an exception does to identifiers.
-/

namespace Pandos

/-- The blocks in use keep their identifiers, or one block more is in use, under
    a new identifier. -/
inductive Identified (k k' : Kernel) : Prop
  | kept (hfree : ∀ q, q ∉ k'.procq .pcbFree → q ∉ k.procq .pcbFree)
      (hpid : ∀ q, q ∉ k'.procq .pcbFree → (k'.pcb q).pPid = (k.pcb q).pPid)
      (hcount : k'.recycleCount = k.recycleCount)
  | born {c : PcbId} (hc : c ∈ k.procq .pcbFree)
      (hfree : ∀ q, q ∉ k'.procq .pcbFree ↔ q = c ∨ q ∉ k.procq .pcbFree)
      (hself : (k'.pcb c).pPid = makePid (BitVec.ofNat 32 c.val) k.recycleCount)
      (hother : ∀ q, q ≠ c → (k'.pcb q).pPid = (k.pcb q).pPid)
      (hcount : k'.recycleCount = k.recycleCount + 1)

/-- The low bits of an identifier are the index of the block it was given to. -/
theorem maskPidId_makePid (p : PcbId) (recycleCount : Word) :
    (maskPidId (makePid (BitVec.ofNat 32 p.val) recycleCount)).toNat = p.val := by
  have hp : p.val < 20 := p.isLt
  have hone : (1 : Word).toNat = 1 := rfl
  have hmake := makePid_toNat p recycleCount
  rw [maskPidId, BitVec.toNat_and]
  change _ &&& (2 ^ 5 - 1) = _
  rw [Nat.and_two_pow_sub_one_eq_mod, BitVec.toNat_sub_of_le (by rw [BitVec.le_def]; omega), hmake]
  omega

/-! ## The branches -/

theorem identified_of {k k' : Kernel} (hfree : k'.procq .pcbFree = k.procq .pcbFree)
    (hpid : ∀ q, (k'.pcb q).pPid = (k.pcb q).pPid) (hcount : k'.recycleCount = k.recycleCount) :
    Identified k k' :=
  Identified.kept (fun _ hq => hfree ▸ hq) (fun q _ => hpid q) hcount

theorem identified_refl (k : Kernel) : Identified k k :=
  identified_of rfl (fun _ => rfl) rfl

/-- Identifiers do not change along with anything else. -/
theorem Identified.congr {k₀ k k' k₁ : Kernel} (h : Identified k k')
    (hfree₀ : k.procq .pcbFree = k₀.procq .pcbFree) (hpid₀ : ∀ q, (k.pcb q).pPid = (k₀.pcb q).pPid)
    (hcount₀ : k.recycleCount = k₀.recycleCount) (hfree : k₁.procq .pcbFree = k'.procq .pcbFree)
    (hpid : ∀ q, (k₁.pcb q).pPid = (k'.pcb q).pPid) (hcount : k₁.recycleCount = k'.recycleCount) :
    Identified k₀ k₁ := by
  cases h with
  | kept hf hp hc =>
      refine Identified.kept (fun q hq => ?_) (fun q hq => ?_) (hcount.trans (hc.trans hcount₀))
      · rw [← hfree₀]
        exact hf q (hfree ▸ hq)
      · rw [hpid, hp q (hfree ▸ hq), hpid₀]
  | @born c hmem hf hself hother hc =>
      refine Identified.born (hfree₀ ▸ hmem) (fun q => ?_) ?_ (fun q hq => ?_)
        (hcount.trans (by rw [hc, hcount₀]))
      · rw [hfree, hf q, hfree₀]
      · rw [hpid, hself, hcount₀]
      · rw [hpid, hother q hq, hpid₀]

theorem Identified.trans_left {k k' k₁ : Kernel} (h : Identified k k')
    (hfree : k₁.procq .pcbFree = k'.procq .pcbFree)
    (hpid : ∀ q, (k₁.pcb q).pPid = (k'.pcb q).pPid) (hcount : k₁.recycleCount = k'.recycleCount) :
    Identified k k₁ :=
  h.congr rfl (fun _ => rfl) rfl hfree hpid hcount

theorem Frame.identified {k k' : Kernel} (h : Frame k k') : Identified k k' :=
  identified_of h.free h.pid h.recycleCount

theorem Same.identified {k k' : Kernel} (h : Same k k')
    (hcount : k'.recycleCount = k.recycleCount) : Identified k k' :=
  identified_of (by rw [h.procq]) h.pid hcount

theorem identified_killed (k : Kernel) (ks : List PcbId) (s : Queues SemdList SemdId) :
    Identified k (k.killed ks s) := by
  have hfree : ∀ q, q ∉ (k.killed ks s).procq .pcbFree → q ∉ ks ∧ q ∉ k.procq .pcbFree := by
    intro q hq
    rwa [killed_free, List.mem_append, not_or] at hq
  refine Identified.kept (fun q hq => (hfree q hq).2) (fun q hq => ?_) rfl
  change (killedPcb k ks q).pPid = _
  rw [killedPcb_of_not_mem k (hfree q hq).1]

theorem Spawned.identified {k k' : Kernel} {prio : Word} {c : PcbId} (h : Spawned k prio c k')
    (hnd : (k.procq .pcbFree).Nodup) : Identified k k' := by
  rcases h.free with ⟨cs, hf, hf'⟩
  refine Identified.born (c := c) (hf ▸ List.mem_cons_self) (fun q => ?_) ?_ (fun q hq => ?_)
    h.recycle
  · -- The new process took the first free block, which stood there once.
    rw [hf, List.nodup_cons] at hnd
    rw [hf', hf, List.mem_cons, not_or]
    by_cases hq : q = c
    · simp only [hq, hnd.1, not_false_eq_true, true_or]
    · simp only [hq, not_false_eq_true, true_and, false_or]
  · rw [h.self]
  · rw [h.other q hq]

section Branches

variable {L : Layout} {hw : Hw} {k k' : Kernel} {ctrl : SchedulerControl}

theorem PassUp.identified {type : Fin 2} (h : PassUp hw k type (.ok (ctrl, k'))) :
    Identified k k' := by
  cases h with
  | idle => exact identified_refl _
  | die => exact identified_killed k _ _

theorem Interrupted.identified {m : Machine} (hasl : AslWf k)
    (h : Interrupted L m hw k (.ok (ctrl, k'))) : Identified k k' := by
  cases h with
  | resume => exact identified_refl _
  | tick _ _ hd =>
      rcases hd with ⟨_, hd⟩ | ⟨_, rfl⟩
      · exact hd.frame.identified
      · exact identified_refl _
  | @device u status _ _ _ _ h =>
      cases h with
      | @wake t k₁ hb =>
          exact (hb.frame hasl).identified.trans_left rfl (touched_setResult k₁ t status).same.pid
            rfl
      | @stray q hn hq =>
          exact identified_of rfl
            (touched_setResult (k.store (L.semAddr u) (k.mem (L.semAddr u) + 1)) q status).same.pid
            rfl

theorem Served.identified {p : PcbId} (hasl : AslWf k)
    (h : Served L hw k p (.ok (ctrl, k'))) : Identified k k' := by
  cases h with
  | reserved _ h =>
      exact h.identified.congr rfl (touched_reserved k p).same.pid rfl rfl (fun _ => rfl) rfl
  | pass _ h => exact h.identified
  | full => exact (touched_setResult k p NULL_PID).same.identified rfl
  | @create c k₁ prio support state _ hs hcp _ =>
      refine (hs.identified (hasl.procq.nodup .pcbFree)).trans_left rfl (fun q => ?_) rfl
      exact ((touched_setResult _ p _).same.pid q).trans
        ((adopted_fields _ p c q).2.1.trans ((same_filled k₁ c support state).pid q))
  | terminate => exact identified_killed k _ _
  | passeren _ _ _ _ h => exact (h.frame hasl).identified
  | verhogen _ _ _ _ h => exact (h.frame hasl).identified
  | doIo _ _ _ _ hb =>
      exact hb.frame.identified.trans_left rfl (touched_ioStarted _ p _ _ _).same.pid rfl
  | waitClock _ _ h => exact (h.frame hasl).identified
  | get v => exact (touched_setResult k p v).same.identified rfl
  | yield => exact identified_of rfl (fun _ => rfl) rfl

end Branches

/-! ## One exception -/

section Exception

variable {L : Layout} {m : Machine} {e : Event} {k : Kernel}

theorem charged_recycle (m : Machine) (e : Event) :
    (charged m e).recycleCount = m.kernel.recycleCount := by
  unfold charged chargeAndSave
  cases (m.entry e).activeProcess with
  | none => rfl
  | some p => rfl

theorem Handled.identified {ctrl : SchedulerControl} (hb : Between m.kernel)
    (h : Handled L m e (.ok (ctrl, k))) : Identified m.kernel k := by
  have hasl := (base_charged hb e).asl
  have hfree := (base_charged hb e).free
  have hpid := (same_charged m e).pid
  have hcount := charged_recycle m e
  cases h with
  | interrupt _ h =>
      exact (h.identified hasl).congr hfree hpid hcount rfl (fun _ => rfl) rfl
  | pass _ h => exact h.identified.congr hfree hpid hcount rfl (fun _ => rfl) rfl
  | @call p _ k₁ _ hp h =>
      exact (h.identified (base_calling hb e).asl).congr hfree hpid hcount rfl
        (touched_afterSyscall e.hw k₁ p).same.pid rfl

theorem Handled.recycle_context {ctx : Context}
    (h : Handled L m e (.error (.loadContext k ctx))) :
    k.recycleCount = m.kernel.recycleCount := by
  cases h with
  | interrupt _ h =>
      cases h with
      | device _ _ _ h => cases h
  | pass _ h =>
      cases h with
      | up => exact charged_recycle m e
  | leave _ _ h =>
      cases h with
      | reserved _ h =>
          cases h with
          | up => exact charged_recycle m e
      | pass _ h =>
          cases h with
          | up => exact charged_recycle m e

/-- What an exception after which the nucleus goes on does to identifiers. -/
theorem identified_of_next (hwf : MachineWf L m) (hok : e.Ok L m)
    (hk : (m.outcome L e).next = some k) : Identified m.kernel k := by
  have hend := outcome_spec hwf hok
  generalize m.outcome L e = o at hend hk
  cases hend with
  | scheduled hh _ hs =>
      have hid := hh.identified hwf.between
      cases hs with
      | run hkept =>
          rw [Outcome.next, Option.some.injEq] at hk
          subst hk
          exact hid.trans_left hkept.free hkept.pid hkept.recycleCount
      | wait hkept =>
          rw [Outcome.next, Option.some.injEq] at hk
          subst hk
          exact hid.trans_left hkept.free hkept.pid hkept.recycleCount
      | halt => exact absurd hk (by simp only [Outcome.next, reduceCtorEq, not_false_eq_true])
  | context hh =>
      rw [Outcome.next, Option.some.injEq] at hk
      subst hk
      have ht := (hh.context hwf.between).2.1
      exact (same_trans (same_entry m e) ht.same).identified hh.recycle_context
  | panic => exact absurd hk (by simp only [Outcome.next, reduceCtorEq, not_false_eq_true])

end Exception

end Pandos
