import Pandos.Lib.Queues
import Pandos.PcbHeap
import Pandos.Theory.Lists

/-!
# Queues of Process Control Blocks

What the pointers stand for. Some cells are the heads of lists, and the blocks
behind each head make a queue. A block is in one queue at most, and then its cell
is no head itself. `Represents` says that the pointers make a ring of each head
and its blocks, and that the cell of any other block is null.

`list_sdel`, `list_add` and `list_add_tail` change one ring each. All others are
made of other cells, so their pointers stay as they are, and so do all cells that
are neither heads nor in a queue.

## Main definitions

* `PcbLists`: Heads and queues that belong together.
* `PcbLists.unlink`, `PcbLists.append`, `PcbLists.prepend`: Changes of a queue.
* `Represents`: The pointers stand for the queues.
* `Elsewhere`: Other cells keep their pointers.

## Theorems

* `represents_sdel`: `list_sdel` unlinks a block.
* `represents_addTail`, `represents_addHead`: Insertion of an unlinked block.
-/

namespace Pandos

/-! ## The queues -/

/-- The heads of lists and the blocks behind each of them. A head is a sentinel
    or the cell of a block that is in no queue. -/
structure PcbLists (ι α : Type) where
  heads : Set (Cell ι α)
  queue : Queues (Cell ι α) α
  wf : queue.Wf
  outside : ∀ s, s ∉ heads → queue s = []
  apart : ∀ s p, p ∈ queue s → .pList p ∉ heads
  child : ∀ p, .pChild p ∉ heads
  sib : ∀ p, .pSib p ∉ heads

section Lists

variable {ι α : Type} {L : PcbLists ι α} {s : Cell ι α} {p : α}

namespace PcbLists

theorem ext_queue {L L' : PcbLists ι α} (hheads : L.heads = L'.heads) (h : L.queue = L'.queue) :
    L = L' := by
  cases L
  cases L'
  cases hheads
  cases h
  rfl

theorem mem_heads (hp : p ∈ L.queue s) : s ∈ L.heads := by
  by_contra hs
  rw [L.outside s hs] at hp
  exact List.not_mem_nil hp

/-- The cells of a list: its head and those of its blocks. -/
def ring (L : PcbLists ι α) (s : Cell ι α) : List (Cell ι α) := s :: (L.queue s).map .pList

theorem not_mem_map (hs : s ∈ L.heads) (s' : Cell ι α) : s ∉ (L.queue s').map Cell.pList := by
  intro hmem
  rcases List.mem_map.mp hmem with ⟨p, hp, rfl⟩
  exact L.apart s' p hp hs

theorem nodup_ring (hs : s ∈ L.heads) : (L.ring s).Nodup := by
  refine List.nodup_cons.mpr ⟨not_mem_map hs s, ?_⟩
  refine (L.wf.nodup s).map ?_
  intro p q hpq
  exact Cell.pList.inj hpq

/-- Two lists have no cell in common. -/
theorem rings_disjoint {s' c : Cell ι α} (hs : s ∈ L.heads) (hs' : s' ∈ L.heads) (hne : s' ≠ s)
    (hc : c ∈ L.ring s) : c ∉ L.ring s' := by
  intro hc'
  rcases List.mem_cons.mp hc with rfl | hc
  · rcases List.mem_cons.mp hc' with rfl | hc'
    · exact hne rfl
    · exact not_mem_map hs s' hc'
  · rcases List.mem_cons.mp hc' with rfl | hc'
    · exact not_mem_map hs' s hc
    · rcases List.mem_map.mp hc with ⟨p, hp, rfl⟩
      rcases List.mem_map.mp hc' with ⟨q, hq, hqp⟩
      cases hqp
      exact hne (L.wf.unique s' s p hq hp)

/-- The cell of a block that is in no queue is in no list. -/
theorem null_not_mem_ring (hp : .pList p ∉ L.heads) (hnull : L.queue.Null p) (hs : s ∈ L.heads) :
    .pList p ∉ L.ring s := by
  intro hmem
  rcases List.mem_cons.mp hmem with rfl | hmem
  · exact hp hs
  · rcases List.mem_map.mp hmem with ⟨q, hq, hqp⟩
    cases hqp
    exact hnull s hq

variable [DecidableEq α]

/-- Take a block out of its queue. -/
def unlink (L : PcbLists ι α) (p : α) : PcbLists ι α where
  heads := L.heads
  queue := L.queue.del p
  wf := Queues.wf_del L.wf p
  outside s hs := by
    unfold Queues.del
    rw [L.outside s hs]
    rfl
  apart s q hq := L.apart s q (List.mem_of_mem_erase hq)
  child := L.child
  sib := L.sib

theorem null_unlink (L : PcbLists ι α) (p : α) : (L.unlink p).queue.Null p :=
  (Queues.null_del L.wf p p).mpr (Or.inr rfl)

variable [DecidableEq ι]

/-- Put a block that is in no queue at the end of one. -/
def append (L : PcbLists ι α) (s : Cell ι α) (p : α) (hs : s ∈ L.heads)
    (hp : .pList p ∉ L.heads) (hnull : L.queue.Null p) : PcbLists ι α where
  heads := L.heads
  queue := L.queue.addTail s p
  wf := Queues.wf_addTail L.wf s hnull
  outside s' hs' := by
    have hne : s' ≠ s := fun hss => hs' (hss ▸ hs)
    rw [Queues.addTail_other _ _ _ _ hne]
    exact L.outside s' hs'
  apart s' q hq := by
    rcases (Queues.mem_addTail _ _ _ _ _).mp hq with hq | ⟨_, rfl⟩
    · exact L.apart s' q hq
    · exact hp
  child := L.child
  sib := L.sib

/-- Put a block that is in no queue at the front of one. -/
def prepend (L : PcbLists ι α) (s : Cell ι α) (p : α) (hs : s ∈ L.heads)
    (hp : .pList p ∉ L.heads) (hnull : L.queue.Null p) : PcbLists ι α where
  heads := L.heads
  queue := L.queue.addHead s p
  wf := Queues.wf_addHead L.wf s hnull
  outside s' hs' := by
    have hne : s' ≠ s := fun hss => hs' (hss ▸ hs)
    rw [Queues.addHead_other _ _ _ _ hne]
    exact L.outside s' hs'
  apart s' q hq := by
    rcases (Queues.mem_addHead _ _ _ _ _).mp hq with hq | ⟨_, rfl⟩
    · exact L.apart s' q hq
    · exact hp
  child := L.child
  sib := L.sib

end PcbLists

/-! ## The pointers -/

/-- The pointers stand for the queues. -/
structure Represents (m : Links (Cell ι α)) (L : PcbLists ι α) : Prop where
  ring : ∀ s ∈ L.heads, m.Ring s ((L.queue s).map .pList)
  null : ∀ p, .pList p ∉ L.heads → L.queue.Null p →
    m.next (.pList p) = none ∧ m.prev (.pList p) = none

/-- Cells that are neither heads nor in a queue keep their pointers. -/
def Elsewhere (L : PcbLists ι α) (m m' : Links (Cell ι α)) : Prop :=
  ∀ c, c ∉ L.heads → (∀ p, c ≠ .pList p) → m'.next c = m.next c ∧ m'.prev c = m.prev c

variable {m : Links (Cell ι α)}

theorem elsewhere_refl (L : PcbLists ι α) (m : Links (Cell ι α)) : Elsewhere L m m :=
  fun _ _ _ => ⟨rfl, rfl⟩

theorem Elsewhere.trans {m' m'' : Links (Cell ι α)} (h : Elsewhere L m m')
    (h' : Elsewhere L m' m'') : Elsewhere L m m'' := by
  intro c hc hp
  rcases h c hc hp with ⟨hnext, hprev⟩
  rcases h' c hc hp with ⟨hnext', hprev'⟩
  exact ⟨hnext'.trans hnext, hprev'.trans hprev⟩

theorem cell_of_ring {c : Cell ι α} (hs : s ∈ L.heads) (hc : c ∈ L.ring s) :
    c ∈ L.heads ∨ ∃ p, c = .pList p := by
  rcases List.mem_cons.mp hc with rfl | hc
  · exact Or.inl hs
  · rcases List.mem_map.mp hc with ⟨p, _, rfl⟩
    exact Or.inr ⟨p, rfl⟩

variable [DecidableEq ι] [DecidableEq α]

/-- The cells of lists and blocks are joined. -/
theorem elsewhere_join {a b : Cell ι α} (ha : a ∈ L.heads ∨ ∃ p, a = .pList p)
    (hb : b ∈ L.heads ∨ ∃ p, b = .pList p) : Elsewhere L m (m.join a b) := by
  intro c hc hp
  have hne : ∀ d, d ∈ L.heads ∨ (∃ p, d = .pList p) → c ≠ d := by
    rintro d (hd | ⟨p, rfl⟩) rfl
    · exact hc hd
    · exact hp p rfl
  exact ⟨Links.next_join m (hne a ha), Links.prev_join m (hne b hb)⟩

theorem elsewhere_null (p : α) : Elsewhere L m (m.null (.pList p)) := by
  intro c _ hp
  exact Links.null_of_ne m (hp p)

/-- `list_sdel` unlinks a block, whichever queue it is in. -/
theorem represents_sdel (h : Represents m L) (hp : .pList p ∉ L.heads) :
    ∃ m', m.listSdel (some (.pList p)) = some m' ∧ Represents m' (L.unlink p) ∧
      Elsewhere L m m' := by
  by_cases hnull : L.queue.Null p
  · rcases h.null p hp hnull with ⟨hnext, hprev⟩
    refine ⟨m, Links.listSdel_null hprev hnext, ?_, elsewhere_refl L m⟩
    have hsame : L.unlink p = L := PcbLists.ext_queue rfl (Queues.del_of_null hnull)
    rwa [hsame]
  · unfold Queues.Null at hnull
    push Not at hnull
    rcases hnull with ⟨s, hps⟩
    have hs := PcbLists.mem_heads hps
    rcases List.append_of_mem hps with ⟨u, v, huv⟩
    have hring := h.ring s hs
    have hnodup : (L.ring s).Nodup := PcbLists.nodup_ring hs
    unfold PcbLists.ring at hnodup
    rw [huv, List.map_append, List.map_cons] at hring hnodup
    rcases Links.ring_remove hring hnodup with ⟨a, b, hprev, hnext, ha, hb, hrest⟩
    rw [← List.map_append] at ha hb hrest
    have herase : (L.unlink p).queue s = u ++ v := by
      change (L.queue s).erase p = u ++ v
      have hpu : p ∉ u := by
        intro hpu
        have hd := L.wf.nodup s
        rw [huv] at hd
        exact List.disjoint_of_nodup_append hd hpu List.mem_cons_self
      rw [huv, List.erase_append_right _ hpu, List.erase_cons_head]
    rw [← herase] at ha hb hrest
    -- The neighbours are cells of the same list.
    have hmem : ∀ c ∈ (L.unlink p).ring s, c ∈ L.ring s := by
      intro c hc
      rcases List.mem_cons.mp hc with rfl | hc
      · exact List.mem_cons_self
      · rcases List.mem_map.mp hc with ⟨q, hq, rfl⟩
        exact List.mem_cons_of_mem s (List.mem_map_of_mem (List.mem_of_mem_erase hq))
    have ha' := hmem a ha
    have hb' := hmem b hb
    refine ⟨_, Links.listSdel_linked hprev hnext, ⟨?_, ?_⟩, ?_⟩
    · intro s' hs'
      have hout : .pList p ∉ (L.unlink p).ring s' :=
        PcbLists.null_not_mem_ring hp (PcbLists.null_unlink L p) hs'
      by_cases hss : s' = s
      · subst hss
        exact hrest.null hout
      · have hother : (L.unlink p).queue s' = L.queue s' := Queues.del_other L.wf hps hss
        refine Links.Ring.null ?_ hout
        rw [hother]
        exact (h.ring s' hs').join (PcbLists.rings_disjoint hs hs' hss ha')
          (PcbLists.rings_disjoint hs hs' hss hb')
    · intro q hq hqnull
      by_cases hqp : q = p
      · subst hqp
        exact ⟨Function.update_self _ _ _, Function.update_self _ _ _⟩
      · have hqnull' : L.queue.Null q :=
          ((Queues.null_del L.wf p q).mp hqnull).resolve_right hqp
        have hne : Cell.pList q ≠ (Cell.pList p : Cell ι α) := fun hc => hqp (Cell.pList.inj hc)
        have hnot := PcbLists.null_not_mem_ring (L := L) hq hqnull' hs
        have hqa : Cell.pList q ≠ a := fun hqa => hnot (hqa ▸ ha')
        have hqb : Cell.pList q ≠ b := fun hqb => hnot (hqb ▸ hb')
        rcases h.null q hq hqnull' with ⟨hqn, hqv⟩
        rcases Links.null_of_ne (m.join a b) hne with ⟨hnext', hprev'⟩
        rw [hnext', hprev', Links.next_join m hqa, Links.prev_join m hqb]
        exact ⟨hqn, hqv⟩
    · exact (elsewhere_join (cell_of_ring hs ha') (cell_of_ring hs hb')).trans (elsewhere_null p)

/-- A block is linked into one list, between two cells of it. -/
theorem represents_link {L' : PcbLists ι α} {a b : Cell ι α} (h : Represents m L)
    (hp : .pList p ∉ L.heads) (hnull : L.queue.Null p) (hs : s ∈ L.heads) (ha : a ∈ L.ring s)
    (hb : b ∈ L.ring s) (hheads : L'.heads = L.heads)
    (hqueue : ∀ s' q, q ∈ L'.queue s' ↔ q ∈ L.queue s' ∨ s' = s ∧ q = p)
    (hother : ∀ s', s' ≠ s → L'.queue s' = L.queue s')
    (hring : ((m.join (.pList p) b).join a (.pList p)).Ring s ((L'.queue s).map .pList)) :
    Represents ((m.join (.pList p) b).join a (.pList p)) L' ∧
      Elsewhere L m ((m.join (.pList p) b).join a (.pList p)) := by
  have hcell : ∀ c ∈ L.ring s, c ∈ L.heads ∨ ∃ q, c = .pList q := fun c hc => cell_of_ring hs hc
  refine ⟨⟨?_, ?_⟩, ?_⟩
  · intro s' hs'
    rw [hheads] at hs'
    by_cases hss : s' = s
    · subst hss
      exact hring
    · have hout := PcbLists.null_not_mem_ring hp hnull hs'
      rw [hother s' hss]
      have hr := (h.ring s' hs').join hout (PcbLists.rings_disjoint hs hs' hss hb)
      exact hr.join (PcbLists.rings_disjoint hs hs' hss ha) hout
  · intro q hq hqnull
    rw [hheads] at hq
    have hqp : q ≠ p := by
      rintro rfl
      exact hqnull s ((hqueue s q).mpr (Or.inr ⟨rfl, rfl⟩))
    have hqnull' : L.queue.Null q := fun s' hmem => hqnull s' ((hqueue s' q).mpr (Or.inl hmem))
    have hne : Cell.pList q ≠ (Cell.pList p : Cell ι α) := fun hc => hqp (Cell.pList.inj hc)
    have hnot := PcbLists.null_not_mem_ring hq hqnull' hs
    have hqa : Cell.pList q ≠ a := fun hqa => hnot (hqa ▸ ha)
    have hqb : Cell.pList q ≠ b := fun hqb => hnot (hqb ▸ hb)
    rcases h.null q hq hqnull' with ⟨hqn, hqv⟩
    rw [Links.next_join _ hqa, Links.next_join m hne, Links.prev_join _ hne, Links.prev_join m hqb]
    exact ⟨hqn, hqv⟩
  · exact (elsewhere_join (Or.inr ⟨p, rfl⟩) (hcell b hb)).trans
      (elsewhere_join (hcell a ha) (Or.inr ⟨p, rfl⟩))

/-- `list_add_tail` appends a block that is in no queue. -/
theorem represents_addTail (h : Represents m L) (hs : s ∈ L.heads) (hp : .pList p ∉ L.heads)
    (hnull : L.queue.Null p) :
    ∃ m', m.listAddTail (some (.pList p)) (some s) = some m' ∧
      Represents m' (L.append s p hs hp hnull) ∧ Elsewhere L m m' := by
  have hring := h.ring s hs
  have hnodup : (L.ring s).Nodup := PcbLists.nodup_ring hs
  rcases hring.prev with ⟨a, ha, hprev⟩
  have hadd := Links.ring_addTail hring hnodup (PcbLists.null_not_mem_ring hp hnull hs) hprev
  refine ⟨_, Links.listAddTail_some hprev, ?_⟩
  refine represents_link h hp hnull hs ha List.mem_cons_self rfl ?_ ?_ ?_
  · intro s' q
    exact Queues.mem_addTail _ _ _ _ _
  · intro s' hss
    exact Queues.addTail_other _ _ _ _ hss
  · have hself : (L.append s p hs hp hnull).queue s = L.queue s ++ [p] := Queues.addTail_self _ _ _
    rw [hself, List.map_append]
    exact hadd

/-- `list_add` prepends a block that is in no queue. -/
theorem represents_addHead (h : Represents m L) (hs : s ∈ L.heads) (hp : .pList p ∉ L.heads)
    (hnull : L.queue.Null p) :
    ∃ m', m.listAdd (some (.pList p)) (some s) = some m' ∧
      Represents m' (L.prepend s p hs hp hnull) ∧ Elsewhere L m m' := by
  have hring := h.ring s hs
  have hnodup : (L.ring s).Nodup := PcbLists.nodup_ring hs
  rcases hring.next with ⟨b, hb, hnext⟩
  have hadd := Links.ring_addHead hring hnodup (PcbLists.null_not_mem_ring hp hnull hs) hnext
  refine ⟨_, Links.listAdd_some hnext, ?_⟩
  refine represents_link h hp hnull hs List.mem_cons_self hb rfl ?_ ?_ ?_
  · intro s' q
    exact Queues.mem_addHead _ _ _ _ _
  · intro s' hss
    exact Queues.addHead_other _ _ _ _ hss
  · have hself : (L.prepend s p hs hp hnull).queue s = p :: L.queue s := Queues.addHead_self _ _ _
    rw [hself, List.map_cons]
    exact hadd

end Lists

end Pandos
