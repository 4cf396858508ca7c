import Mathlib.Data.Fintype.Card
import Pandos.Pcb
import Pandos.Theory.PcbFunctions

/-!
# Process Queues in Memory

Every function of `pcb.c` on queues changes the pointers the way it should
change the lists they stand for, and every search ends. A search needs one
round more than its list is long, so any bound above that gives the result.

The nucleus was modelled with the queues in place of the pointers. Here the two
meet: memory that holds the queues of the nucleus holds them after each call,
and the calls return the same blocks.

## Main definitions

* `headCell`, `Holds`: The queues of the nucleus in memory.

## Theorems

* `pcb_queues_implement_lists`: The pointers implement lists.
* `insertProcQ_held`, `outProcQ_held`, `removeProcQ_held`, `freePcb_held`,
  `allocPcb_held`: The functions of the nucleus are those on the pointers.
-/

namespace Pandos

variable {ι α : Type} [DecidableEq ι] [DecidableEq α] {m : PcbHeap ι α} {L : PcbLists ι α}
  {s : Cell ι α} {p : α}

/-! ## Lists -/

/-- The pointers implement lists: each function ends and does to the pointers
    what it should do to the lists, and a search needs no more rounds than the
    list has cells. -/
theorem pcb_queues_implement_lists (h : Represents m.links L) (hfree : .pcbFree ∈ L.heads) :
    -- `insert_proc_q`
    (∀ s p (hs : s ∈ L.heads) (hp : .pList p ∉ L.heads), ∃ m',
      m.insertProcQ (some s) (some p) = some m' ∧ Leads L m m' (L.requeue s p hs hp) ∧
        m'.pcb = m.pcb) ∧
    -- `remove_proc_q`
    (∀ s ∈ L.heads, ∀ rounds, (L.queue s).length < rounds →
      (L.queue s = [] → m.removeProcQ rounds (some s) = some (none, m)) ∧
      ∀ p ps, L.queue s = p :: ps → ∃ m', m.removeProcQ rounds (some s) = some (some p, m') ∧
        Leads L m m' (L.unlink p) ∧ m'.pcb = m.pcb) ∧
    -- `out_proc_q`
    (∀ s ∈ L.heads, ∀ p, .pList p ∉ L.heads → ∀ rounds, (L.queue s).length < rounds →
      (p ∉ L.queue s → m.outProcQ rounds (some s) (some p) = some (none, m)) ∧
      (p ∈ L.queue s → ∃ m', m.outProcQ rounds (some s) (some p) = some (some p, m') ∧
        Leads L m m' (L.unlink p) ∧ m'.pcb = m.pcb)) ∧
    -- `free_pcb`
    (∀ p (hp : .pList p ∉ L.heads), ∀ rounds, (L.queue .pcbFree).length < rounds → ∃ m',
      m.freePcb rounds (some p) = some m' ∧ Leads L m m' (L.free p hfree hp) ∧
        (∀ q, q ≠ p → m'.pcb q = m.pcb q) ∧
        ∀ rounds', ((L.free p hfree hp).queue .pcbFree).length < rounds' →
          m'.freePcb rounds' (some p) = some m') ∧
    -- `alloc_pcb`
    (L.queue .pcbFree = [] → m.allocPcb = some (none, m)) ∧
    ∀ p ps, L.queue .pcbFree = p :: ps → ∃ m', m.allocPcb = some (some p, m') ∧
      Represents m'.links (L.unlink p) ∧ m'.pcb = Function.update m.pcb p resetPcb ∧
      (m'.links.next (.pList p) = none ∧ m'.links.prev (.pList p) = none) ∧
      (m'.links.next (.pChild p) = some (.pChild p) ∧
        m'.links.prev (.pChild p) = some (.pChild p)) ∧
      (m'.links.next (.pSib p) = none ∧ m'.links.prev (.pSib p) = none) ∧
      ∀ c, c ∉ L.heads → (∀ q, c ≠ .pList q) → c ≠ .pChild p → c ≠ .pSib p →
        m'.links.next c = m.links.next c ∧ m'.links.prev c = m.links.prev c := by
  refine ⟨fun s p hs hp => insertProcQ_spec h hs hp, ?_, ?_, ?_, allocPcb_empty h hfree, ?_⟩
  · intro s hs rounds hr
    refine ⟨fun hq => removeProcQ_empty h hs hq rounds, fun p ps hq => ?_⟩
    have hmem : p ∈ L.queue s := hq ▸ List.mem_cons_self
    rw [removeProcQ_first h hs hq]
    exact outProcQ_mem h (L.apart s p hmem) hmem hr
  · intro s hs p hp rounds hr
    exact ⟨fun hmem => outProcQ_not_mem h hs hmem hr, fun hmem => outProcQ_mem h hp hmem hr⟩
  · intro p hp rounds hr
    by_cases hmem : p ∈ L.queue .pcbFree
    · have hsame : L.free p hfree hp = L := if_pos hmem
      rw [hsame]
      exact ⟨m, freePcb_free h hfree hmem hr, ⟨h, elsewhere_refl L _⟩, fun _ _ => rfl,
        fun rounds' hr' => freePcb_free h hfree hmem hr'⟩
    · rcases freePcb_used h hfree hp hmem hr with ⟨m', hrun, hleads, hpcb⟩
      refine ⟨m', hrun, hleads, ?_, ?_⟩
      · intro q hq
        rw [hpcb, Function.update_of_ne hq]
      · intro rounds' hr'
        have hheads : (L.free p hfree hp).heads = L.heads := by
          unfold PcbLists.free
          rw [if_neg hmem]
          rfl
        have hfirst : p ∈ (L.free p hfree hp).queue .pcbFree := by
          unfold PcbLists.free
          rw [if_neg hmem]
          change p ∈ (L.unlink p).queue.addHead .pcbFree p .pcbFree
          exact (Queues.mem_addHead _ _ _ _ _).mpr (Or.inr ⟨rfl, rfl⟩)
        exact freePcb_free hleads.1 (hheads ▸ hfree) hfirst hr'
  · intro p ps hq
    have hmem : p ∈ L.queue .pcbFree := hq ▸ List.mem_cons_self
    rcases allocPcb_first h hfree hq with ⟨m', hrun, hrep, hpcb, hchild, hsib, hrest⟩
    exact ⟨m', hrun, hrep, hpcb,
      hrep.null p (L.apart _ p hmem) (PcbLists.null_unlink L p), hchild, hsib, hrest⟩

/-! ## The nucleus -/

section Nucleus

/-- The cell of a sentinel of the nucleus. -/
def headCell : ProcQ → Cell ProcQ PcbId
  | .pcbFree => .pcbFree
  | q => .queue q

theorem headCell_inj {q q' : ProcQ} (h : headCell q = headCell q') : q = q' := by
  cases q <;> cases q' <;> cases h <;> rfl

/-- The fields of a block in the view of the nucleus. -/
def fieldsOf (t : Pcb) : PcbFields PcbId :=
  { pParent := t.pParent
    pS := t.pS
    pTime := t.pTime
    pSemAdd := t.pSemAdd
    pSupport := t.pSupport
    pPrio := t.pPrio
    pPid := t.pPid }

/-- The memory holds the queues and the blocks of the nucleus. -/
structure Holds (m : PcbHeap ProcQ PcbId) (L : PcbLists ProcQ PcbId) (k : Kernel) : Prop where
  pointers : Represents m.links L
  heads : ∀ q, headCell q ∈ L.heads
  blocks : ∀ p, .pList p ∉ L.heads
  queues : ∀ q, L.queue (headCell q) = k.procq q
  fields : ∀ p, m.pcb p = fieldsOf (k.pcb p)

variable {m : PcbHeap ProcQ PcbId} {L : PcbLists ProcQ PcbId} {k : Kernel} {q : ProcQ} {p : PcbId}

/-- The table of blocks bounds every search. -/
theorem rounds_suffice (L : PcbLists ProcQ PcbId) (s : Cell ProcQ PcbId) :
    (L.queue s).length < MAX_PROC + 1 := by
  have hle := (L.wf.nodup s).length_le_card
  rw [Fintype.card_fin] at hle
  exact Nat.lt_succ_of_le hle

/-- `insert_proc_q` does what the nucleus is told. -/
theorem insertProcQ_held (h : Holds m L k) (q : ProcQ) (p : PcbId) :
    ∃ m' L', m.insertProcQ (some (headCell q)) (some p) = some m' ∧
      Holds m' L' (insertProcQ k q p) := by
  rcases insertProcQ_spec h.pointers (h.heads q) (h.blocks p) with ⟨m', hrun, hleads, hpcb⟩
  refine ⟨m', _, hrun, hleads.1, h.heads, h.blocks, fun q' => ?_, fun p' => ?_⟩
  · change (L.queue.del p).addTail (headCell q) p (headCell q') = (k.procq.del p).addTail q p q'
    by_cases hq : q' = q
    · rw [hq, Queues.addTail_self, Queues.addTail_self]
      unfold Queues.del
      rw [h.queues]
    · have hne : headCell q' ≠ headCell q := fun hc => hq (headCell_inj hc)
      rw [Queues.addTail_other _ _ _ _ hne, Queues.addTail_other _ _ _ _ hq]
      unfold Queues.del
      rw [h.queues]
  · rw [hpcb]
    exact h.fields p'

theorem holds_unlink {m' : PcbHeap ProcQ PcbId} (h : Holds m L k)
    (hp : Represents m'.links (L.unlink p)) (hpcb : m'.pcb = m.pcb) :
    Holds m' (L.unlink p) (listSdel k p) := by
  refine ⟨hp, h.heads, h.blocks, fun q' => ?_, fun p' => ?_⟩
  · change (L.queue (headCell q')).erase p = (k.procq q').erase p
    rw [h.queues]
  · rw [hpcb]
    exact h.fields p'

/-- `out_proc_q` returns what the nucleus is told. -/
theorem outProcQ_held (h : Holds m L k) (q : ProcQ) (p : PcbId) :
    ∃ m' L', m.outProcQ (MAX_PROC + 1) (some (headCell q)) (some p) =
        some ((outProcQ k q p).1, m') ∧ Holds m' L' (outProcQ k q p).2 := by
  have hr := rounds_suffice L (headCell q)
  unfold outProcQ
  by_cases hmem : p ∈ k.procq q
  · rw [if_pos hmem]
    rw [← h.queues] at hmem
    rcases outProcQ_mem h.pointers (h.blocks p) hmem hr with ⟨m', hrun, hleads, hpcb⟩
    exact ⟨m', _, hrun, holds_unlink h hleads.1 hpcb⟩
  · rw [if_neg hmem]
    rw [← h.queues] at hmem
    exact ⟨m, L, outProcQ_not_mem h.pointers (h.heads q) hmem hr, h⟩

/-- `remove_proc_q` returns what the nucleus is told. -/
theorem removeProcQ_held (h : Holds m L k) (q : ProcQ) :
    ∃ m' L', m.removeProcQ (MAX_PROC + 1) (some (headCell q)) =
        some ((removeProcQ k q).1, m') ∧ Holds m' L' (removeProcQ k q).2 := by
  have hq := h.queues q
  unfold removeProcQ headProcQ
  cases hk : k.procq q with
  | nil => exact ⟨m, L, removeProcQ_empty h.pointers (h.heads q) (hq.trans hk) _, h⟩
  | cons p ps =>
      rw [removeProcQ_first h.pointers (h.heads q) (hq.trans hk)]
      exact outProcQ_held h q p

/-- `free_pcb` does what the nucleus is told. -/
theorem freePcb_held (h : Holds m L k) (p : PcbId) :
    ∃ m' L', m.freePcb (MAX_PROC + 1) (some p) = some m' ∧ Holds m' L' (freePcb k p) := by
  have hr := rounds_suffice L .pcbFree
  have hfree : L.queue .pcbFree = k.procq .pcbFree := h.queues .pcbFree
  unfold freePcb
  by_cases hmem : p ∈ k.procq .pcbFree
  · rw [if_pos hmem]
    rw [← hfree] at hmem
    exact ⟨m, L, freePcb_free h.pointers (h.heads .pcbFree) hmem hr, h⟩
  · rw [if_neg hmem]
    rw [← hfree] at hmem
    rcases freePcb_used h.pointers (h.heads .pcbFree) (h.blocks p) hmem hr with
      ⟨m', hrun, hleads, hpcb⟩
    unfold PcbLists.free at hleads
    rw [if_neg hmem] at hleads
    refine ⟨m', _, hrun, hleads.1, h.heads, h.blocks, fun q' => ?_, fun p' => ?_⟩
    · change (L.queue.del p).addHead .pcbFree p (headCell q') =
        (k.procq.del p).addHead .pcbFree p q'
      by_cases hq : q' = .pcbFree
      · subst hq
        change (L.queue.del p).addHead .pcbFree p .pcbFree = _
        rw [Queues.addHead_self, Queues.addHead_self]
        unfold Queues.del
        rw [hfree]
      · have hne : headCell q' ≠ .pcbFree := fun hc => hq (headCell_inj hc)
        rw [Queues.addHead_other _ _ _ _ hne, Queues.addHead_other _ _ _ _ hq]
        unfold Queues.del
        rw [h.queues]
    · rw [hpcb]
      unfold Kernel.modPcb
      by_cases hp : p' = p
      · subst hp
        simp only [Function.update_self, if_true, h.fields p']
        rfl
      · simp only [Function.update_of_ne hp, if_neg hp]
        exact h.fields p'

/-- `alloc_pcb` returns what the nucleus is told. -/
theorem allocPcb_held (h : Holds m L k) :
    ∃ m' L', m.allocPcb = some ((allocPcb k).1, m') ∧ Holds m' L' (allocPcb k).2 := by
  have hfree : L.queue .pcbFree = k.procq .pcbFree := h.queues .pcbFree
  unfold allocPcb
  cases hk : k.procq .pcbFree with
  | nil => exact ⟨m, L, allocPcb_empty h.pointers (h.heads .pcbFree) (hfree.trans hk), h⟩
  | cons p ps =>
      rcases allocPcb_first h.pointers (h.heads .pcbFree) (hfree.trans hk) with
        ⟨m', hrun, hrep, hpcb, _⟩
      refine ⟨m', _, hrun, hrep, h.heads, h.blocks, fun q' => ?_, fun p' => ?_⟩
      · -- The second removal finds nothing.
        have hout : p ∉ (L.queue (headCell q')).erase p := PcbLists.null_unlink L p (headCell q')
        change (L.queue (headCell q')).erase p = ((k.procq q').erase p).erase p
        rw [h.queues] at hout ⊢
        rw [List.erase_of_not_mem hout]
      · rw [hpcb]
        change _ = fieldsOf (if p' = p then nullPcbRecord else k.pcb p')
        by_cases hp : p' = p
        · subst hp
          rw [Function.update_self, if_pos rfl]
          rfl
        · rw [Function.update_of_ne hp, if_neg hp]
          exact h.fields p'

end Nucleus

/-! ## Sample -/

/-- Two queues after boot: the first free block is put into an empty queue. -/
theorem pcb_queues_sample : ∃ m m' : PcbHeap Unit (Fin MAX_PROC),
    m.insertProcQ (some (.queue ())) (some ⟨19, by decide⟩) = some m' ∧
      m'.links.next (.queue ()) = some (.pList ⟨19, by decide⟩) ∧
      m'.links.next (.pList ⟨19, by decide⟩) = some (.queue ()) := by
  let blank : PcbHeap Unit (Fin MAX_PROC) :=
    { links := { next := fun _ => none, prev := fun _ => none }
      pcb := fun _ => resetPcb }
  have hblank : ∀ p, blank.links.next (.pList p) = none ∧ blank.links.prev (.pList p) = none :=
    fun _ => ⟨rfl, rfl⟩
  rcases initPcbs_represents hblank with ⟨m₁, L₁, _, h₁, hheads, hqueue⟩
  have hcell : ∀ p, (.queue () : Cell Unit (Fin MAX_PROC)) ≠ .pChild p ∧
      (.queue () : Cell Unit (Fin MAX_PROC)) ≠ .pSib p :=
    fun _ => ⟨(fun hc => nomatch hc), (fun hc => nomatch hc)⟩
  have hempty : L₁.queue (.queue ()) = [] := hqueue _
  rcases mkEmptyProcQ_spec h₁ hcell (fun _ hc => nomatch hc) hempty with ⟨m₂, _, h₂, _⟩
  have hs : .queue () ∈ (L₁.withHead (.queue ()) hcell (fun _ hc => nomatch hc)).heads :=
    Set.mem_insert _ _
  have hfree : .pcbFree ∈ (L₁.withHead (.queue ()) hcell (fun _ hc => nomatch hc)).heads :=
    Set.mem_insert_of_mem _ ((hheads _).mpr rfl)
  have hp : .pList ⟨19, by decide⟩ ∉
      (L₁.withHead (.queue ()) hcell (fun _ hc => nomatch hc)).heads := by
    rintro (hc | hc)
    · cases hc
    · cases (hheads _).mp hc
  rcases (pcb_queues_implement_lists h₂ hfree).1 _ _ hs hp with ⟨m', hrun, hleads, _⟩
  refine ⟨m₂, m', hrun, ?_⟩
  have hring := hleads.1.ring _ hs
  have hone : ((L₁.withHead (.queue ()) hcell (fun _ hc => nomatch hc)).requeue (.queue ())
      ⟨19, by decide⟩ hs hp).queue (.queue ()) = [⟨19, by decide⟩] := by
    have hempty' : (L₁.withHead (.queue ()) hcell (fun _ hc => nomatch hc)).queue (.queue ()) =
        [] := hempty
    rw [PcbLists.requeue_self, hempty']
    rfl
  rw [hone] at hring
  exact ⟨hring.1.1, hring.2.1⟩

end Pandos
