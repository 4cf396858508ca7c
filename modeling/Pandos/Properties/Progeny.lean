import Pandos.Theory.Replay

/-!
# Killing a Process with its Progeny

In every state between two exceptions the process tree is a forest, and
`kill_progeny` takes exactly one subtree out of it, whatever queues the members
of the subtree stand in.

## Main definitions

* `Removed`: The processes of a list are gone, and nothing else changed.

## Theorems

* `erase_child`: The list of children of a process outside of a subtree loses
  the root of the subtree at most.
* `removed_killed`: Killing the members of a subtree removes them.
* `kill_progeny_exact`: `kill_progeny` terminates and removes a subtree.
-/

namespace Pandos

open Forest

/-- The processes of the list are gone, first the subtree of `p`, and all that
    belongs to the others is as it was. -/
structure Removed (k : Kernel) (p : PcbId) (ks : List PcbId) (k' : Kernel) : Prop where
  /-- The members of the list are free blocks now. -/
  free : k'.procq .pcbFree = ks ++ k.procq .pcbFree
  pid : ∀ q ∈ ks, (k'.pcb q).pPid = NULL_PID
  /-- The counters drop by the members, and by those that were blocked. -/
  processes : k'.processCount.val.toNat + ks.length = k.processCount.val.toNat ∧
    k'.processCount.underflow = false
  softblock : k'.softblockCount.val.toNat + (ks.filter (fun q => (k.pcb q).pSemAdd.isSome)).length
    = k.softblockCount.val.toNat ∧ k'.softblockCount.underflow = false
  /-- The root is gone from the list of its parent. -/
  child : ∀ q, q ∉ ks → k'.child q = (k.child q).erase p
  /-- Descriptors without waiters are free. -/
  semd : ∀ i, k'.procq (.sProcq i) = [] ↔ i ∈ k'.slink .semdFree
  keys : k'.sKey = k.sKey
  /-- The records of the others and their order in every queue. -/
  record : ∀ q, q ∉ ks → k'.pcb q = k.pcb q
  queue : ∀ h, h ≠ .pcbFree → k'.procq h = (k.procq h).filter (· ∉ ks)
  mem : k'.mem = k.mem
  running : k'.activeProcess = k.activeProcess ∧ k'.yieldProcess = k.yieldProcess

/-- A process outside of a subtree has no child in it but its root. -/
theorem erase_child {k : Kernel} (hw : TreeWf k) {p q : PcbId} {ks : List PcbId}
    (hks : ∀ r, r ∈ ks ↔ Below (parentOf k) p r) (hq : q ∉ ks) :
    (k.child q).filter (· ∉ ks) = (k.child q).erase p := by
  rw [(hw.nodup q).erase_eq_filter]
  refine List.filter_congr (fun c hc => ?_)
  have hpar := (hw.mem_iff q c).mp hc
  by_cases hcp : c = p
  · subst hcp
    have hmem : c ∈ ks := (hks c).mpr Below.self
    simp only [hmem, not_true_eq_false, decide_false, bne_self_eq_false]
  · have hmem : c ∉ ks := by
      rw [hks]
      intro hb
      cases hb with
      | self => exact hcp rfl
      | child hr hb =>
          rw [hpar, Option.some.injEq] at hr
          subst hr
          exact hq ((hks q).mpr hb)
    rw [decide_eq_true hmem, bne_iff_ne.mpr hcp]

theorem counter_drop {c c' : Counter} {n n' d : Nat} (h : c.Is n) (h' : c'.Is n')
    (hn : n' + d = n) : c'.val.toNat + d = c.val.toNat ∧ c'.underflow = false := by
  rw [h.1, h'.1]
  exact ⟨hn, h'.2⟩

/-- The states that kill the members of a subtree remove the subtree. -/
theorem removed_killed {k : Kernel} {u : Finset PcbId} (hat : At k u) {p : PcbId}
    (hp : p ∉ k.procq .pcbFree) {ks : List PcbId} {s : Queues SemdList SemdId}
    (hw : Wf (k.killed ks s)) (hn : ks.Nodup) (hks : ∀ q, q ∈ ks ↔ Below (parentOf k) p q) :
    Removed k p ks (k.killed ks s) := by
  have hlive : ∀ q ∈ ks, q ∉ k.procq .pcbFree :=
    fun q hq => not_free_of_below hat.wf.tree hp ((hks q).mp hq)
  have hc := counted_killed hat.counted hn hlive s
  have hsub : ks.toFinset ⊆ live k := by
    intro q hq
    rw [mem_live]
    exact hlive q (List.mem_toFinset.mp hq)
  have hcard : (live (k.killed ks s)).card + ks.length = (live k).card := by
    have hdiff : live (k.killed ks s) = live k \ ks.toFinset := by
      ext q
      rw [Finset.mem_sdiff, List.mem_toFinset, mem_live, mem_live, killed_free, List.mem_append,
        not_or, and_comm]
    rw [hdiff, ← List.toFinset_card_of_nodup hn, Finset.card_sdiff_add_card_eq_card hsub]
  have hwait : (waitingOf k ks).toFinset ⊆ blocked k := by
    intro q hq
    rw [List.mem_toFinset, waitingOf, List.mem_filter, Option.isSome_iff_ne_none] at hq
    rw [mem_blocked]
    exact ⟨hlive q hq.1, hq.2⟩
  have hcard' : (blocked (k.killed ks s)).card + (waitingOf k ks).length = (blocked k).card := by
    have hnw : (waitingOf k ks).Nodup := hn.filter _
    have hdiff : blocked (k.killed ks s) = blocked k \ (waitingOf k ks).toFinset := by
      ext q
      rw [Finset.mem_sdiff, List.mem_toFinset, mem_blocked, mem_blocked, killed_free,
        List.mem_append, waitingOf, List.mem_filter, Option.isSome_iff_ne_none]
      change _ ∧ (killedPcb k ks q).pSemAdd ≠ none ↔ _
      by_cases hq : q ∈ ks
      · simp only [hq, true_or, not_true_eq_false, false_and, true_and, false_iff, not_and, not_not]
        exact fun h => h.2
      · simp only [killedPcb_of_not_mem k hq, hq, false_or, false_and, not_false_eq_true, and_true]
    rw [hdiff, ← List.toFinset_card_of_nodup hnw, Finset.card_sdiff_add_card_eq_card hwait]
  refine ⟨killed_free k ks s, fun q hq => ?_,
    counter_drop hat.counted.processes hc.processes hcard,
    counter_drop hat.counted.softblock hc.softblock hcard',
    fun q hq => erase_child hat.wf.tree hks hq,
    fun i => ⟨fun hi => ?_, hw.asl.idle i⟩, rfl, fun q hq => killedPcb_of_not_mem k hq,
    fun h hh => killed_procq k ks s hh, rfl, ⟨rfl, rfl⟩⟩
  · change (killedPcb k ks q).pPid = NULL_PID
    rw [killedPcb, if_pos hq]
  · exact (hw.asl.listed i).resolve_right (fun hH => hw.asl.waiting i hH hi)

/-- In every run the process tree is a forest of live processes, and wherever
    during the next exception `kill_progeny` is called on a live process, it
    terminates, returns zero and removes exactly the process and its
    descendants. -/
theorem kill_progeny_exact {L : Layout} {b : Boot} {es : List Event} {m : Machine}
    (h : (nucleus L b).Run es m) {k : Kernel} (hk : Same m.kernel k) :
    TreeWf k ∧ ∀ p, p ∉ k.procq .pcbFree → ∃ ks k',
      (∀ fuel, killFuel ≤ fuel → killProgeny fuel k p = some (0, k')) ∧
      ks.Nodup ∧ (∀ q, q ∈ ks ↔ Below (parentOf k) p q) ∧ Removed k p ks k' := by
  have hat := (machineWf_run h).between.at_.of_same hk
  refine ⟨hat.wf.tree, fun p hp => ?_⟩
  rcases killProgeny_spec hat.wf hp with ⟨ks, s, heq, hw, hn, hks⟩
  exact ⟨ks, k.killed ks s, heq, hn, hks, removed_killed hat hp hw hn hks⟩

theorem kill_progeny_exact_sample : ∃ es m, (nucleus sampleLayout sampleBoot).Run es m ∧
    TreeWf m.kernel ∧ ∃ ks k', killProgeny killFuel m.kernel 19 = some (0, k') ∧
      Removed m.kernel 19 ks k' := by
  rcases sample_run with ⟨es, m, hrun, _, _, hlive⟩
  have hexact := kill_progeny_exact hrun (same_refl m.kernel)
  rcases hexact.2 19 hlive with ⟨ks, k', heq, _, _, hr⟩
  exact ⟨es, m, hrun, hexact.1, ks, k', heq killFuel (Nat.le_refl _), hr⟩

end Pandos
