import Pandos.Theory.PcbQueues

/-!
# Functions of Process Control Blocks

One specification for each function of `pcb.c` on queues: what it does to the
lists its pointers stand for.

`list_sdel` finds the list of a block by its pointers, and a block that is in no
list is known by its null pointers. `alloc_pcb` unlinks by `list_del`, which
leaves the pointers of the block behind, but it resets them afterwards.

## Main definitions

* `PcbLists.requeue`, `PcbLists.free`: What `insert_proc_q` and `free_pcb` do.
* `Leads`: The new pointers stand for the new lists.

## Theorems

* `insertProcQ_spec`, `outProcQ_mem`, `removeProcQ_first`, `freePcb_used`,
  `allocPcb_first`: The functions.
* `mkEmptyProcQ_spec`: A cell becomes the head of an empty list.
* `initPcbs_represents`: After `init_pcbs` all blocks are free.
-/

namespace Pandos

variable {ι α : Type} [DecidableEq ι] [DecidableEq α] {m : PcbHeap ι α} {L : PcbLists ι α}
  {s : Cell ι α} {p : α}

/-! ## Lists -/

namespace PcbLists

/-- The block leaves its list and comes last in another one. -/
def requeue (L : PcbLists ι α) (s : Cell ι α) (p : α) (hs : s ∈ L.heads) (hp : .pList p ∉ L.heads) :
    PcbLists ι α :=
  (L.unlink p).append s p hs hp (null_unlink L p)

theorem requeue_self (L : PcbLists ι α) (s : Cell ι α) (p : α) (hs : s ∈ L.heads)
    (hp : .pList p ∉ L.heads) : (L.requeue s p hs hp).queue s = (L.queue s).erase p ++ [p] :=
  Queues.addTail_self _ _ _

/-- A block that is not free leaves its list and comes first in the free list. -/
def free (L : PcbLists ι α) (p : α) (hs : .pcbFree ∈ L.heads) (hp : .pList p ∉ L.heads) :
    PcbLists ι α :=
  if p ∈ L.queue .pcbFree then L
  else (L.unlink p).prepend .pcbFree p hs hp (null_unlink L p)

end PcbLists

/-- The new pointers stand for the new lists. The cells of children and siblings
    are not touched, and neither is any other cell. -/
def Leads (L : PcbLists ι α) (m m' : PcbHeap ι α) (L' : PcbLists ι α) : Prop :=
  Represents m'.links L' ∧ Elsewhere L m.links m'.links

/-- A block with all fields reset. -/
def resetPcb : PcbFields α :=
  { pParent := none
    pS := nullState
    pTime := 0
    pSemAdd := none
    pSupport := none
    pPrio := 0
    pPid := NULL_PID }

/-! ## The functions -/

section Functions

/-- A search for a block ends. -/
theorem contains_list (h : Represents m.links L) (hs : s ∈ L.heads) (p : α) {rounds : Nat}
    (hr : (L.queue s).length < rounds) :
    m.links.listContains rounds (some (.pList p)) (some s) = some (decide (p ∈ L.queue s)) := by
  rw [Links.listContains_ring (h.ring s hs) (PcbLists.not_mem_map hs s) (by rwa [List.length_map])]
  refine congrArg some (decide_eq_decide.mpr ?_)
  exact List.mem_map_of_injective (fun _ _ hpq => Cell.pList.inj hpq)

theorem empty_list (h : Represents m.links L) (hs : s ∈ L.heads) :
    m.links.listEmpty (some s) = some (L.queue s).isEmpty := by
  rw [Links.listEmpty_ring (h.ring s hs) (PcbLists.not_mem_map hs s), List.isEmpty_map]

omit [DecidableEq ι] [DecidableEq α] in
theorem next_list (h : Represents m.links L) (hs : s ∈ L.heads) {ps : List α}
    (hq : L.queue s = p :: ps) : m.links.getNext (some s) = some (some (.pList p)) := by
  have hring := h.ring s hs
  rw [hq, List.map_cons] at hring
  exact congrArg some hring.1.1

/-- `insert_proc_q`. -/
theorem insertProcQ_spec (h : Represents m.links L) (hs : s ∈ L.heads) (hp : .pList p ∉ L.heads) :
    ∃ m', m.insertProcQ (some s) (some p) = some m' ∧ Leads L m m' (L.requeue s p hs hp) ∧
      m'.pcb = m.pcb := by
  rcases represents_sdel h hp with ⟨m₁, hdel, h₁, he₁⟩
  rcases represents_addTail (L := L.unlink p) h₁ hs hp (PcbLists.null_unlink L p) with
    ⟨m₂, hadd, h₂, he₂⟩
  refine ⟨{ m with links := m₂ }, ?_, ⟨h₂, he₁.trans he₂⟩, rfl⟩
  simp only [PcbHeap.insertProcQ, hdel, hadd, Option.bind_eq_bind, Option.bind_some,
    Option.pure_def]

/-- `out_proc_q` for a block of the list. -/
theorem outProcQ_mem (h : Represents m.links L) (hp : .pList p ∉ L.heads)
    (hmem : p ∈ L.queue s) {rounds : Nat} (hr : (L.queue s).length < rounds) :
    ∃ m', m.outProcQ rounds (some s) (some p) = some (some p, m') ∧ Leads L m m' (L.unlink p) ∧
      m'.pcb = m.pcb := by
  have hs := PcbLists.mem_heads hmem
  rcases represents_sdel h hp with ⟨m₁, hdel, h₁, he₁⟩
  refine ⟨{ m with links := m₁ }, ?_, ⟨h₁, he₁⟩, rfl⟩
  have hne : (L.queue s).isEmpty = false := List.isEmpty_eq_false_iff.mpr (List.ne_nil_of_mem hmem)
  simp only [PcbHeap.outProcQ, contains_list h hs p hr, empty_list h hs, hne, hmem, hdel,
    decide_true, Bool.not_true, Bool.false_eq_true, if_false, Option.bind_eq_bind,
    Option.bind_some, Option.pure_def]

/-- `out_proc_q` for any other block. -/
theorem outProcQ_not_mem (h : Represents m.links L) (hs : s ∈ L.heads) (hmem : p ∉ L.queue s)
    {rounds : Nat} (hr : (L.queue s).length < rounds) :
    m.outProcQ rounds (some s) (some p) = some (none, m) := by
  simp only [PcbHeap.outProcQ, contains_list h hs p hr, empty_list h hs, hmem, decide_false,
    Bool.not_false, if_true, ite_self, Option.bind_eq_bind, Option.bind_some, Option.pure_def]

/-- `remove_proc_q` on an empty list. -/
theorem removeProcQ_empty (h : Represents m.links L) (hs : s ∈ L.heads) (hq : L.queue s = [])
    (rounds : Nat) : m.removeProcQ rounds (some s) = some (none, m) := by
  simp only [PcbHeap.removeProcQ, empty_list h hs, hq, List.isEmpty_nil, if_true,
    Option.bind_eq_bind, Option.bind_some, Option.pure_def]

/-- `remove_proc_q` takes the first block of a list. -/
theorem removeProcQ_first (h : Represents m.links L) (hs : s ∈ L.heads) {ps : List α}
    (hq : L.queue s = p :: ps) (rounds : Nat) :
    m.removeProcQ rounds (some s) = m.outProcQ rounds (some s) (some p) := by
  have hempty := empty_list h hs
  rw [hq, List.isEmpty_cons] at hempty
  have hnext : m.links.listNext (some s) = some (some (.pList p)) := by
    simp only [Links.listNext, hempty, next_list h hs hq, Bool.false_eq_true, if_false,
      Option.bind_eq_bind, Option.bind_some]
  simp only [PcbHeap.removeProcQ, hempty, hnext, PcbHeap.containerOf, Bool.false_eq_true, if_false,
    Option.bind_eq_bind, Option.bind_some]

/-- `free_pcb` on a free block. -/
theorem freePcb_free (h : Represents m.links L) (hs : .pcbFree ∈ L.heads)
    (hmem : p ∈ L.queue .pcbFree) {rounds : Nat} (hr : (L.queue .pcbFree).length < rounds) :
    m.freePcb rounds (some p) = some m := by
  simp only [PcbHeap.freePcb, contains_list h hs p hr, hmem, decide_true, if_true,
    Option.bind_eq_bind, Option.bind_some, Option.pure_def]

/-- `free_pcb` on any other block. -/
theorem freePcb_used (h : Represents m.links L) (hs : .pcbFree ∈ L.heads)
    (hp : .pList p ∉ L.heads) (hmem : p ∉ L.queue .pcbFree) {rounds : Nat}
    (hr : (L.queue .pcbFree).length < rounds) :
    ∃ m', m.freePcb rounds (some p) = some m' ∧ Leads L m m' (L.free p hs hp) ∧
      m'.pcb = Function.update m.pcb p { m.pcb p with pPid := NULL_PID } := by
  rcases represents_sdel h hp with ⟨m₁, hdel, h₁, he₁⟩
  rcases represents_addHead (L := L.unlink p) h₁ hs hp (PcbLists.null_unlink L p) with
    ⟨m₂, hadd, h₂, he₂⟩
  have hfree : L.free p hs hp = (L.unlink p).prepend .pcbFree p hs hp (PcbLists.null_unlink L p) :=
    if_neg hmem
  refine ⟨{ m.modPcb p (fun t => { t with pPid := NULL_PID }) with links := m₂ }, ?_, ?_, rfl⟩
  · have hdel' : (m.modPcb p (fun t => { t with pPid := NULL_PID })).links.listSdel
        (some (.pList p)) = some m₁ := hdel
    simp only [PcbHeap.freePcb, contains_list h hs p hr, hmem, hdel', hadd, decide_false,
      Bool.false_eq_true, if_false, Option.bind_eq_bind, Option.bind_some, Option.pure_def]
  · rw [hfree]
    exact ⟨h₂, he₁.trans he₂⟩

/-- `alloc_pcb` without a free block. -/
theorem allocPcb_empty (h : Represents m.links L) (hs : .pcbFree ∈ L.heads)
    (hq : L.queue .pcbFree = []) : m.allocPcb = some (none, m) := by
  simp only [PcbHeap.allocPcb, empty_list h hs, hq, List.isEmpty_nil, if_true,
    Option.bind_eq_bind, Option.bind_some, Option.pure_def]

/-- `list_del` and `LIST_HEAD_NULL` on the block of a list are `list_sdel`. -/
theorem sdel_of_mem (h : Represents m.links L) (hmem : p ∈ L.queue s) :
    m.links.listSdel (some (.pList p)) =
      (m.links.listDel (some (.pList p))).bind (fun l => l.listHeadNull (some (.pList p))) := by
  have hcell : (Cell.pList p : Cell ι α) ∈ (L.queue s).map .pList := List.mem_map_of_mem hmem
  have hnext := ((h.ring s (PcbLists.mem_heads hmem)).neighbours hcell).1
  have hnull : m.links.listNull (some (.pList p)) = some false := by
    rw [Links.listNull_some, Option.isNone_eq_false_iff.mpr hnext, Bool.and_false]
  simp only [Links.listSdel, hnull, Bool.false_eq_true, if_false, Option.bind_eq_bind,
    Option.bind_some]

omit [DecidableEq ι] [DecidableEq α] in
/-- Pointers of cells that are in no list do not matter. -/
theorem represents_frame {l l' : Links (Cell ι α)} (h : Represents l L)
    (hsame : ∀ c, c ∈ L.heads ∨ (∃ q, c = .pList q) → l'.next c = l.next c ∧ l'.prev c = l.prev c) :
    Represents l' L := by
  constructor
  · intro s hs
    refine Links.ring_frame (h.ring s hs) ?_ ?_
    · intro c hc
      exact (hsame c (cell_of_ring (L := L) hs hc)).1
    · intro c hc
      exact (hsame c (cell_of_ring (L := L) hs hc)).2
  · intro q hq hnull
    rcases hsame (.pList q) (Or.inr ⟨q, rfl⟩) with ⟨hnext, hprev⟩
    rw [hnext, hprev]
    exact h.null q hq hnull

/-- `alloc_pcb` takes the first free block and resets it. -/
theorem allocPcb_first (h : Represents m.links L) (hs : .pcbFree ∈ L.heads) {ps : List α}
    (hq : L.queue .pcbFree = p :: ps) :
    ∃ m', m.allocPcb = some (some p, m') ∧ Represents m'.links (L.unlink p) ∧
      m'.pcb = Function.update m.pcb p resetPcb ∧
      (m'.links.next (.pChild p) = some (.pChild p) ∧
        m'.links.prev (.pChild p) = some (.pChild p)) ∧
      (m'.links.next (.pSib p) = none ∧ m'.links.prev (.pSib p) = none) ∧
      ∀ c, c ∉ L.heads → (∀ q, c ≠ .pList q) → c ≠ .pChild p → c ≠ .pSib p →
        m'.links.next c = m.links.next c ∧ m'.links.prev c = m.links.prev c := by
  have hmem : p ∈ L.queue .pcbFree := hq ▸ List.mem_cons_self
  have hp := L.apart _ p hmem
  rcases represents_sdel h hp with ⟨m₁, hsdel, h₁, he₁⟩
  rw [sdel_of_mem h hmem, Option.bind_eq_some_iff] at hsdel
  rcases hsdel with ⟨m₀, hdel, hnull⟩
  have hempty := empty_list h hs
  rw [hq, List.isEmpty_cons] at hempty
  -- The other two cells of the block are in no list of blocks.
  have hframe : ∀ c, c ≠ .pChild p → c ≠ .pSib p →
      ((m₁.join (.pChild p) (.pChild p)).null (.pSib p)).next c = m₁.next c ∧
        ((m₁.join (.pChild p) (.pChild p)).null (.pSib p)).prev c = m₁.prev c := by
    intro c hchild hsib
    rcases Links.null_of_ne (m₁.join (.pChild p) (.pChild p)) hsib with ⟨hnext, hprev⟩
    exact ⟨hnext.trans (Links.next_join m₁ hchild), hprev.trans (Links.prev_join m₁ hchild)⟩
  have hcs : (Cell.pChild p : Cell ι α) ≠ .pSib p := fun hc => nomatch hc
  refine ⟨{ links := (m₁.join (.pChild p) (.pChild p)).null (.pSib p)
            pcb := Function.update m.pcb p resetPcb }, ?_, ?_, rfl, ?_, ?_, ?_⟩
  · have hinit : m₁.initListHead (some (.pChild p)) = some (m₁.join (.pChild p) (.pChild p)) := rfl
    have hsib : (m₁.join (.pChild p) (.pChild p)).listHeadNull (some (.pSib p)) =
        some ((m₁.join (.pChild p) (.pChild p)).null (.pSib p)) := rfl
    simp only [PcbHeap.allocPcb, hempty, next_list h hs hq, PcbHeap.containerOf, hdel,
      PcbHeap.nullPcb, hnull, hinit, hsib, Bool.false_eq_true, if_false, Option.bind_eq_bind,
      Option.bind_some, Option.pure_def]
    rfl
  · refine represents_frame h₁ ?_
    rintro c (hc | ⟨q, rfl⟩)
    · refine hframe c ?_ ?_
      · rintro rfl
        exact L.child p hc
      · rintro rfl
        exact L.sib p hc
    · exact hframe _ (fun hc => nomatch hc) (fun hc => nomatch hc)
  · rcases Links.null_of_ne (m₁.join (.pChild p) (.pChild p)) hcs with ⟨hnext, hprev⟩
    rcases Links.linked_join m₁ (.pChild p) (.pChild p) with ⟨hself, hself'⟩
    exact ⟨hnext.trans hself, hprev.trans hself'⟩
  · exact ⟨Function.update_self _ _ _, Function.update_self _ _ _⟩
  · intro c hc hplist hchild hsib
    rcases hframe c hchild hsib with ⟨hnext, hprev⟩
    rcases he₁ c hc hplist with ⟨hnext₁, hprev₁⟩
    exact ⟨hnext.trans hnext₁, hprev.trans hprev₁⟩

end Functions

/-! ## The beginning -/

section Init

/-- A cell that is in no list becomes a head. -/
def PcbLists.withHead (L : PcbLists ι α) (s : Cell ι α) (hs : ∀ p, s ≠ .pChild p ∧ s ≠ .pSib p)
    (hnull : ∀ p, s = .pList p → L.queue.Null p) : PcbLists ι α where
  heads := insert s L.heads
  queue := L.queue
  wf := L.wf
  outside s' hs' := L.outside s' (fun hmem => hs' (Set.mem_insert_of_mem s hmem))
  apart s' p hp := by
    rintro (rfl | hmem)
    · exact hnull p rfl s' hp
    · exact L.apart s' p hp hmem
  child p := by
    rintro (hsp | hmem)
    · exact (hs p).1 hsp.symm
    · exact L.child p hmem
  sib p := by
    rintro (hsp | hmem)
    · exact (hs p).2 hsp.symm
    · exact L.sib p hmem

/-- `mk_empty_proc_q`. -/
theorem mkEmptyProcQ_spec (h : Represents m.links L) (hs : ∀ p, s ≠ .pChild p ∧ s ≠ .pSib p)
    (hnull : ∀ p, s = .pList p → L.queue.Null p) (hq : L.queue s = []) :
    ∃ m', m.mkEmptyProcQ (some s) = some m' ∧ Represents m'.links (L.withHead s hs hnull) ∧
      m'.pcb = m.pcb := by
  refine ⟨{ m with links := m.links.join s s }, rfl, ⟨?_, ?_⟩, rfl⟩
  · intro s' hs'
    by_cases hss : s' = s
    · have hempty : (L.withHead s hs hnull).queue s' = [] := hss ▸ hq
      rw [hempty, hss]
      exact Links.linked_join _ s s
    · have hs'' : s' ∈ L.heads := hs'.resolve_left hss
      have hout : s ∉ L.ring s' := by
        intro hmem
        rcases List.mem_cons.mp hmem with hsame | hmem
        · exact hss hsame.symm
        · rcases List.mem_map.mp hmem with ⟨p, hp, hps⟩
          exact hnull p hps.symm s' hp
      exact (h.ring s' hs'').join hout hout
  · intro p hp hpnull
    have hps : Cell.pList p ≠ s := fun hps => hp (Or.inl hps)
    rcases h.null p (fun hmem => hp (Or.inr hmem)) hpnull with ⟨hnext, hprev⟩
    exact ⟨(Links.next_join _ hps).trans hnext, (Links.prev_join _ hps).trans hprev⟩

/-- The rounds of `init_pcbs` fill the free list from its head. -/
theorem initLoop_spec {β : Type} [DecidableEq β] (ps : List β) {m : PcbHeap ι β}
    {L : PcbLists ι β} (h : Represents m.links L) (hs : .pcbFree ∈ L.heads) (hps : ps.Nodup)
    (hnull : ∀ p ∈ ps, .pList p ∉ L.heads ∧ L.queue.Null p) :
    ∃ m' L', ps.foldlM (fun m i => do
        let links ← m.links.listAdd (some (.pList i)) (some .pcbFree)
        return { m with links := links }.modPcb i (fun t => { t with pPid := NULL_PID })) m =
          some m' ∧
      Represents m'.links L' ∧ L'.heads = L.heads ∧
        L'.queue = ps.foldl (fun q p => q.addHead .pcbFree p) L.queue := by
  induction ps generalizing m L with
  | nil => exact ⟨m, L, rfl, h, rfl, rfl⟩
  | cons p ps ih =>
      rcases hnull p List.mem_cons_self with ⟨hp, hpnull⟩
      rcases represents_addHead h hs hp hpnull with ⟨m₁, hadd, h₁, _⟩
      have hnull' : ∀ q ∈ ps, .pList q ∉ (L.prepend .pcbFree p hs hp hpnull).heads ∧
          (L.prepend .pcbFree p hs hp hpnull).queue.Null q := by
        intro q hq
        refine ⟨(hnull q (List.mem_cons_of_mem p hq)).1, fun s' hmem => ?_⟩
        rcases (Queues.mem_addHead _ _ _ _ _).mp hmem with hmem | ⟨_, rfl⟩
        · exact (hnull q (List.mem_cons_of_mem p hq)).2 s' hmem
        · exact (List.nodup_cons.mp hps).1 hq
      have hm₁ : Represents (PcbHeap.modPcb { m with links := m₁ } p
          (fun t => { t with pPid := NULL_PID })).links (L.prepend .pcbFree p hs hp hpnull) := h₁
      rcases ih hm₁ hs (List.nodup_cons.mp hps).2 hnull' with ⟨m', L', hrun, hrep, hheads, hqueue⟩
      refine ⟨m', L', ?_, hrep, hheads, hqueue⟩
      rw [List.foldlM_cons, hadd]
      exact hrun

/-- No lists at all. -/
def PcbLists.noHeads (ι α : Type) : PcbLists ι α where
  heads := ∅
  queue _ := []
  wf := ⟨fun _ => List.nodup_nil, fun _ _ _ hp => absurd hp List.not_mem_nil⟩
  outside _ _ := rfl
  apart _ _ hp := absurd hp List.not_mem_nil
  child _ := Set.notMem_empty _
  sib _ := Set.notMem_empty _

/-- The first head. -/
theorem mkEmptyProcQ_first
    (h : ∀ p, m.links.next (.pList p) = none ∧ m.links.prev (.pList p) = none) :
    ∃ m' L, m.mkEmptyProcQ (some .pcbFree) = some m' ∧ Represents m'.links L ∧
      (∀ s, s ∈ L.heads ↔ s = .pcbFree) ∧ L.queue = fun _ => [] := by
  have hnone : Represents m.links (PcbLists.noHeads ι α) :=
    ⟨fun s hs => absurd hs (Set.notMem_empty s), fun p _ _ => h p⟩
  have hcell : ∀ p : α, (.pcbFree : Cell ι α) ≠ .pChild p ∧ (.pcbFree : Cell ι α) ≠ .pSib p :=
    fun p => ⟨(fun hc => nomatch hc), (fun hc => nomatch hc)⟩
  rcases mkEmptyProcQ_spec hnone hcell (fun _ hc => nomatch hc) rfl with ⟨m', hmk, hrep, _⟩
  refine ⟨m', _, hmk, hrep, fun s => ⟨?_, ?_⟩, rfl⟩
  · rintro (hs | hs)
    · exact hs
    · exact absurd hs (Set.notMem_empty s)
  · rintro rfl
    exact Set.mem_insert _ _

/-- After `init_pcbs` all blocks of the table are in the free list, the last
    one first. -/
theorem initPcbs_represents {m : PcbHeap ι (Fin MAX_PROC)}
    (h : ∀ p, m.links.next (.pList p) = none ∧ m.links.prev (.pList p) = none) :
    ∃ m' L, m.initPcbs = some m' ∧ Represents m'.links L ∧
      (∀ s, s ∈ L.heads ↔ s = .pcbFree) ∧
      ∀ s, L.queue s = if s = .pcbFree then (List.finRange MAX_PROC).reverse else [] := by
  rcases mkEmptyProcQ_first h with ⟨m₁, L₁, hmk, h₁, hheads₁, hqueue₁⟩
  have hnull : ∀ p ∈ List.finRange MAX_PROC, .pList p ∉ L₁.heads ∧ L₁.queue.Null p := by
    intro p _
    refine ⟨fun hp => ?_, fun s hp => ?_⟩
    · cases (hheads₁ _).mp hp
    · rw [hqueue₁] at hp
      exact absurd hp List.not_mem_nil
  rcases initLoop_spec (List.finRange MAX_PROC) h₁ ((hheads₁ _).mpr rfl) (List.nodup_finRange _)
    hnull with ⟨m', L, hrun, hrep, hheads, hqueue⟩
  refine ⟨m', L, ?_, hrep, ?_, ?_⟩
  · unfold PcbHeap.initPcbs
    unfold PcbHeap.mkEmptyProcQ at hmk
    rcases Option.bind_eq_some_iff.mp hmk with ⟨links, hinit, hlinks⟩
    rw [hinit, Option.bind_eq_bind, Option.bind_some]
    cases hlinks
    exact hrun
  · intro s
    rw [hheads]
    exact hheads₁ s
  · intro s
    rw [hqueue, Queues.foldl_addHead, hqueue₁]
    by_cases hs : s = .pcbFree
    · simp only [hs, if_true, List.append_nil]
    · simp only [hs, if_false]

end Init

end Pandos
