import Pandos.Theory.PassUp

/-!
# Exceptions Inside the Nucleus

The last thing `DOIO` does is a store to the address in `a1`. If the address is
not aligned, the store raises an exception while the handler runs, after the
caller was queued on the semaphore of the device. The caller is still the active
process, and the exception is a program error, so `pass_up_or_die` gets it. A
caller without a support structure dies and is taken out of the queue again. Any
other goes on in its support structure while it stands in the queue.

## Main definitions

* `trapped`: The state in which that exception is handled.

## Theorems

* `P_others`: Nobody else moves when a process is queued on a semaphore.
* `trapped_dies`: A caller without a support structure leaves no trace.
* `trapped_passes`: Any other is passed up.
-/

namespace Pandos

open Forest

/-- Nobody but the process moves when it is queued on a semaphore. -/
theorem insertBlocked_others {k : Kernel} (hw : AslWf k) (a : Word) (p : PcbId) (h : ProcQ) :
    ((insertBlocked k (some a) (some p)).2.procq h).filter (· ≠ p) =
      (k.procq h).filter (· ≠ p) := by
  have hadd : ∀ (q : Queues ProcQ PcbId) (i : SemdId),
      (q.addTail (.sProcq i) p h).filter (· ≠ p) = (q h).filter (· ≠ p) := by
    intro q i
    by_cases hi : h = .sProcq i
    · rw [hi, Queues.addTail_self, List.filter_append]
      simp only [ne_eq, not_true_eq_false, decide_false, Bool.false_eq_true, not_false_eq_true,
        List.filter_cons_of_neg, List.filter_nil, List.append_nil]
    · rw [Queues.addTail_other _ _ _ _ hi]
  by_cases hs : (k.pcb p).pSemAdd = none
  · simp only [insertBlocked, hs, ne_eq, not_true_eq_false, if_false]
    cases findSemd k .semdH (some a) with
    | some i => exact hadd _ i
    | none =>
        cases hfree : k.slink .semdFree with
        | nil => simp only [allocSemd, hfree]
        | cons i rest =>
            -- The queue of a free descriptor is empty.
            have hidle := hw.idle i (hfree ▸ List.mem_cons_self)
            simp only [allocSemd, hfree]
            refine (hadd _ i).trans ?_
            by_cases hi : h = .sProcq i
            · rw [hi, Queues.clear_self, hidle]
            · rw [Queues.clear_other _ _ _ hi]
  · simp only [insertBlocked, ne_eq, hs, not_false_eq_true, if_true]

theorem P_others {k k' : Kernel} (hw : AslWf k) {a : Word} {p : PcbId} {ctrl : SchedulerControl}
    (hv : k.mem a = 0) (hnull : k.procq.Null p)
    (hP : P k (some a) (some p) = .ok (ctrl, k')) (h : ProcQ) :
    (k'.procq h).filter (· ≠ p) = (k.procq h).filter (· ≠ p) := by
  have hothers := insertBlocked_others hw a p h
  simp only [P, if_pos hv, if_pos hnull] at hP
  generalize insertBlocked k (some a) (some p) = r at hP hothers
  rcases r with ⟨_ | n, k₁⟩
  · simp only [Except.ok.injEq, Prod.mk.injEq] at hP
    rw [← hP.2]
    exact hothers
  · cases hP

theorem counter_decr_incr {c : Counter} {n : Nat} (h : c.Is n) (hn : n ≤ MAX_PROC) :
    c.incr.decr = c := by
  rcases counter_is_incr h hn with ⟨hv, _⟩
  have hne : (c.val + 1 == 0) = false := by
    rw [beq_eq_false_iff_ne]
    intro hc
    rw [Counter.incr, hc] at hv
    exact absurd hv (Nat.zero_ne_add_one n)
  cases c
  simp only [Counter.incr, Counter.decr, hne, Bool.or_false, BitVec.add_sub_cancel]

/-- One member of a list passes a test and fails another one that agrees on all
    others. -/
theorem length_filter_succ {α : Type*} [DecidableEq α] {l : List α} {f g : α → Bool} {a : α}
    (hl : l.Nodup) (ha : a ∈ l) (hf : f a = true) (hg : g a = false)
    (hsame : ∀ b, b ≠ a → f b = g b) : (l.filter f).length = (l.filter g).length + 1 := by
  have hperm := List.perm_cons_erase ha
  have hrest : (l.erase a).filter f = (l.erase a).filter g :=
    List.filter_congr (fun b hb => hsame b ((hl.mem_erase_iff.mp hb).1))
  rw [(hperm.filter f).length_eq, (hperm.filter g).length_eq, List.filter_cons_of_pos hf,
    List.filter_cons_of_neg (ne_true_of_eq_false hg), List.length_cons, hrest]

section Trapped

variable {L : Layout} {m : Machine} {e : Event} {p : PcbId} {k : Kernel} {a : Word} {line : Int}

/-- The state in which the exception is handled that the store of `DOIO`
    raises. -/
def trapped (nested : Hw) (k : Kernel) (p : PcbId) (line : Int) : Kernel :=
  chargeAndSave nested (ioBlocked k p line)

theorem touched_trapped (nested : Hw) (k : Kernel) (p : PcbId) (line : Int) :
    Touched k (trapped nested k p line) :=
  touched_trans (touched_modPcb k p (fun t =>
    { t with pS := { t.pS with status := ioStatus t.pPrio t.pS.status line } })
    (fun _ => ⟨rfl, rfl, rfl, rfl⟩)) (touched_chargeAndSave nested _)

theorem trapped_pcb {nested : Hw} (hact : k.activeProcess = some p) {q : PcbId} (hq : q ≠ p) :
    (trapped nested k p line).pcb q = k.pcb q := by
  have hact' : (ioBlocked k p line).activeProcess = some p := hact
  simp only [trapped, chargeAndSave, hact']
  simp only [Kernel.modPcb, ioBlocked, if_neg hq]

theorem trapped_support {nested : Hw} (hact : k.activeProcess = some p) :
    ((trapped nested k p line).pcb p).pSupport = (k.pcb p).pSupport := by
  have hact' : (ioBlocked k p line).activeProcess = some p := hact
  simp only [trapped, chargeAndSave, hact']
  simp only [Kernel.modPcb, ioBlocked, if_true]

theorem trapped_data {nested : Hw} :
    (trapped nested k p line).sup = k.sup ∧ (trapped nested k p line).bus = k.bus := by
  unfold trapped chargeAndSave
  cases (ioBlocked k p line).activeProcess <;> exact ⟨rfl, rfl⟩

/-- What a process that is queued on a semaphore has in its record, and what the
    others have. -/
theorem blocked_records (hb : Between m.kernel) (hp : m.kernel.activeProcess = some p)
    (hblocked : Blocked (calling m e) a p k) : (k.pcb p).pSemAdd = some a ∧
      (∀ q, q ≠ p → k.pcb q = m.kernel.pcb q) ∧
      k.softblockCount = m.kernel.softblockCount.incr := by
  have hun := unserved_calling (e := e) hb hp
  rcases hblocked.rest with ⟨q, s, y, rfl⟩
  refine ⟨setSemAdd_self _ p (some a), fun q hq => ?_, ?_⟩
  · exact (setSemAdd_other _ p q (some a) hq).trans (hun.other q hq)
  · exact congrArg Counter.incr hun.same.softblockCount

/-- The caller is the only process in another place than before. -/
theorem trapped_others (hb : Between m.kernel) (hp : m.kernel.activeProcess = some p)
    (hv : (calling m e).mem a = 0)
    (hP : P (calling m e) (some a) (some p) = .ok (CONTROL_BLOCK, k)) {ks : List PcbId}
    (hks : p ∈ ks) (nested : Hw) (h : ProcQ) :
    ((trapped nested k p line).procq h).filter (· ∉ ks) = (m.kernel.procq h).filter (· ∉ ks) := by
  have hcalling := calling_spec (e := e) hb hp
  have hun := unserved_calling (e := e) hb hp
  have hnull := hcalling.at_.null (Finset.mem_singleton_self p)
  have hsplit : ∀ l : List PcbId, l.filter (· ∉ ks) = (l.filter (· ≠ p)).filter (· ∉ ks) := by
    intro l
    rw [List.filter_filter]
    refine List.filter_congr (fun q _ => ?_)
    by_cases hq : q = p
    · simp only [hq, hks, not_true_eq_false, decide_false, Bool.false_and]
    · simp only [ne_eq, hq, not_false_eq_true, decide_true, Bool.and_true]
  rw [hsplit, hsplit (m.kernel.procq h), (touched_trapped nested k p line).same.procq,
    P_others hcalling.at_.wf.asl hv hnull hP, hun.same.procq]

/-- The count of the call goes up by one, and so does the number of those among the
    dead that wait. -/
theorem trapped_softblock (hb : Between m.kernel) (hp : m.kernel.activeProcess = some p)
    (hblocked : Blocked (calling m e) a p k) {ks : List PcbId} (hd : ks.Nodup) (hks : p ∈ ks)
    (nested : Hw) : Counter.decr^[(waitingOf (trapped nested k p line) ks).length]
      (trapped nested k p line).softblockCount =
        Counter.decr^[(waitingOf m.kernel ks).length] m.kernel.softblockCount := by
  have hcalling := calling_spec (e := e) hb hp
  have hun := unserved_calling (e := e) hb hp
  have ht := touched_trapped nested k p line
  rcases blocked_records hb hp hblocked with ⟨hsem, hpcb, hsoft⟩
  have hnull := hcalling.at_.null (Finset.mem_singleton_self p)
  have hlen : (waitingOf (trapped nested k p line) ks).length =
      (waitingOf m.kernel ks).length + 1 := by
    refine length_filter_succ hd hks ?_ ?_ (fun q hq => ?_)
    · rw [ht.same.semAdd, hsem, Option.isSome_some]
    · rw [← hun.same.semAdd, semAdd_none_of_null hcalling.at_.wf.asl hnull, Option.isSome_none]
    · rw [ht.same.semAdd, hpcb q hq]
  have hcounted := hcalling.at_.counted.softblock
  have hle : (blocked (calling m e)).card ≤ MAX_PROC := card_le_maxProc _
  rw [hun.same.softblockCount] at hcounted
  rw [hlen, Function.iterate_succ_apply, ht.same.softblockCount, hsoft,
    counter_decr_incr hcounted hle]

/-- A caller without a support structure dies, and is taken out of the queue it
    was just put in. -/
theorem trapped_dies (hb : Between m.kernel) (hp : m.kernel.activeProcess = some p)
    (hv : (calling m e).mem a = 0)
    (hP : P (calling m e) (some a) (some p) = .ok (CONTROL_BLOCK, k))
    (hblocked : Blocked (calling m e) a p k) (hsup : (m.kernel.pcb p).pSupport = none)
    (nested : Hw) : ∃ ks k', passUpOrDie nested (trapped nested k p line) GENERALEXCEPT =
      .ok (CONTROL_BLOCK, k') ∧ (∀ q, q ∈ ks ↔ Below (parentOf m.kernel) p q) ∧
      OnlyKilled m e ks k' := by
  have hcalling := calling_spec (e := e) hb hp
  have hun := unserved_calling (e := e) hb hp
  have hframe := hblocked.frame
  have ht := touched_trapped nested k p line
  have hat : At (trapped nested k p line) (({p} : Finset PcbId).erase p) :=
    (hblocked.at hcalling.at_ (Finset.mem_singleton_self p)).of_same ht.same
  have hact : k.activeProcess = some p := hframe.activeProcess.trans hcalling.active
  have hlive : p ∉ (trapped nested k p line).procq .pcbFree := by
    rw [ht.free, hframe.free]
    exact hcalling.at_.not_free (Finset.mem_singleton_self p)
  rcases killProgeny_killed hat.wf hlive with ⟨ks, s, hkill, hk⟩
  refine ⟨ks, (trapped nested k p line).killed ks s, ?_, fun q => ?_, ?_⟩
  · have hact' := ht.active.trans hact
    have hnone : ((trapped nested k p line).pcb p).pSupport = none := by
      rw [trapped_support hact, hframe.support, hun.support, hsup]
    simp only [passUpOrDie, hact', hnone, hkill]
  · have hpar : parentOf (trapped nested k p line) = parentOf m.kernel :=
      funext (fun q => ((ht.same.parent q).trans (hframe.parent q)).trans (hun.same.parent q))
    rw [hk.mem, hpar]
  · have hwait := waiters_killed hat.wf.asl hk.wf.asl
    refine ⟨?_, fun r hr => ?_, fun b => ?_, fun q => ?_, ⟨?_, ?_⟩, fun q hq => ?_, ?_, ?_, ?_⟩
    · rw [killed_free, ht.free, hframe.free, hun.same.procq]
    · rw [killed_procq _ ks s hr, trapped_others hb hp hv hP hk.self nested]
    · rw [hwait, ht.waiters, hblocked.waiters, ← hun.base.waiters]
      by_cases hb' : b = a
      · rw [if_pos hb', hb', List.filter_append]
        simp only [hk.self, not_true_eq_false, decide_false, Bool.false_eq_true,
          not_false_eq_true, List.filter_cons_of_neg, List.filter_nil, List.append_nil]
      · rw [if_neg hb']
    · change ((trapped nested k p line).child q).filter _ = _
      rw [ht.same.child, hframe.child, hun.same.child]
    · change Counter.decr^[ks.length] (trapped nested k p line).processCount = _
      rw [ht.same.processCount, hframe.processCount, hun.same.processCount]
    · exact trapped_softblock hb hp hblocked hk.nodup hk.self nested
    · have hq' : q ≠ p := by
        rintro rfl
        exact hq hk.self
      refine (killedPcb_of_not_mem _ hq).trans ?_
      rw [trapped_pcb hact hq', (blocked_records hb hp hblocked).2.1 q hq']
    · exact (ht.mem.trans hblocked.mem).trans hun.base.mem
    · exact (trapped_data.1.trans hframe.sup).trans hun.sup
    · exact (trapped_data.2.trans hframe.bus).trans hun.base.bus

/-- Any other caller goes on in its support structure, and stands in the queue. -/
theorem trapped_passes (hb : Between m.kernel) (hp : m.kernel.activeProcess = some p)
    (hblocked : Blocked (calling m e) a p k) {s : Word} (hsup : (m.kernel.pcb p).pSupport = some s)
    (nested : Hw) : ∃ k' ctx, passUpOrDie nested (trapped nested k p line) GENERALEXCEPT =
      .error (.loadContext k' ctx) ∧ waiters k' a = waiters m.kernel a ++ [p] := by
  have hun := unserved_calling (e := e) hb hp
  have ht := touched_trapped nested k p line
  have hact : k.activeProcess = some p := hblocked.frame.activeProcess.trans (hun.active hp)
  have hsome : ((trapped nested k p line).pcb p).pSupport = some s := by
    rw [trapped_support hact, hblocked.frame.support, hun.support, hsup]
  refine ⟨passedUp nested (trapped nested k p line) s GENERALEXCEPT,
    ((trapped nested k p line).sup s).supExceptContext GENERALEXCEPT, ?_, ?_⟩
  · simp only [passUpOrDie, ht.active.trans hact, hsome, passedUp]
  · rw [(touched_passedUp nested _ s GENERALEXCEPT).waiters, ht.waiters, hblocked.waiters,
      if_pos rfl, hun.base.waiters]

end Trapped

end Pandos
