import Pandos.NucleusHeap
import Pandos.Properties.PcbQueues
import Pandos.Theory.Spawn
import Pandos.Theory.Threads

/-!
# What the Memory of the Nucleus Stands for

The memory keeps the tables of the nucleus when its pointers make the queues of
blocks, the lists of children and the lists of descriptors, and everything else
is the same on both sides. Each function of `pcb.c` on the pointers then does
what the nucleus is told.

The queue of a descriptor has a sentinel only since the descriptor was taken into
use, and the children of a block only since the block was allocated.

## Main definitions

* `InUse`: The queues that have a sentinel for sure.
* `Formed`: The queues of blocks are those of the nucleus.
* `TreeIn`: The lists of children in memory.
* `Globals`, `Agrees`: What is no list.
* `Laid`, `Keeps`: The memory stands for the tables of the nucleus.

## Theorems

* `insertProcQ_keeps`, `outProcQ_keeps`, `removeProcQ_keeps`, `freePcb_keeps`,
  `allocPcb_keeps`: The functions on queues.
* `insertChild_keeps`, `outChild_keeps`, `removeChild_keeps`: The functions on
  trees.
-/

namespace Pandos

/-! ## The relation -/

/-- The queue has a sentinel in memory: it is no queue of a descriptor, or the
    descriptor is in use. -/
def InUse (k : Kernel) (q : ProcQ) : Prop := ∀ d, q = .sProcq d → d ∈ k.slink .semdH

/-- The lists of children, threaded through `p_sib`. -/
def childThreads : Threads (Cell ProcQ PcbId) PcbId PcbId where
  head := .pChild
  field := .pSib
  head_inj _ _ h := Cell.pChild.inj h
  field_inj _ _ h := Cell.pSib.inj h
  apart _ _ h := nomatch h

/-- The lists of descriptors, threaded through `s_link`. -/
def semdThreads : Threads (SemdCell SemdList SemdId) SemdList SemdId where
  head := .head
  field := .sLink
  head_inj _ _ h := SemdCell.head.inj h
  field_inj _ _ h := SemdCell.sLink.inj h
  apart _ _ h := nomatch h

/-- The queues of blocks are those of the nucleus. -/
structure Formed (L : PcbLists ProcQ PcbId) (k : Kernel) : Prop where
  heads : ∀ q, InUse k q → headCell q ∈ L.heads
  only : ∀ s ∈ L.heads, ∃ q, s = headCell q
  queues : ∀ q, L.queue (headCell q) = k.procq q

/-- The pointers make the lists of children, for all blocks that were ever
    allocated. -/
structure TreeIn (l : Links (Cell ProcQ PcbId)) (born : Set PcbId) (k : Kernel) : Prop where
  children : childThreads.Carries l born k.child
  born : ∀ p, p ∉ k.procq .pcbFree → p ∈ born

/-- The variables of the scheduler and the semaphore words. -/
structure Globals where
  processCount : Counter
  softblockCount : Counter
  activeProcess : Option PcbId
  yieldProcess : Option PcbId
  recycleCount : Word
  mem : Word → Word

def NucleusHeap.globals (m : NucleusHeap) : Globals where
  processCount := m.processCount
  softblockCount := m.softblockCount
  activeProcess := m.activeProcess
  yieldProcess := m.yieldProcess
  recycleCount := m.recycleCount
  mem := m.mem

def Kernel.globals (k : Kernel) : Globals where
  processCount := k.processCount
  softblockCount := k.softblockCount
  activeProcess := k.activeProcess
  yieldProcess := k.yieldProcess
  recycleCount := k.recycleCount
  mem := k.mem

/-- The memory and the nucleus agree on everything that is no list. -/
structure Agrees (m : NucleusHeap) (k : Kernel) : Prop where
  fields : ∀ p, m.pcbs.pcb p = fieldsOf (k.pcb p)
  keys : ∀ d, m.sKey d = k.sKey d
  globals : m.globals = k.globals

/-- The memory stands for the tables, with the queues of blocks and the blocks that
    were ever allocated. -/
structure Laid (m : NucleusHeap) (L : PcbLists ProcQ PcbId) (born : Set PcbId) (k : Kernel) :
    Prop where
  pointers : Represents m.pcbs.links L
  shape : Formed L k
  tree : TreeIn m.pcbs.links born k
  semds : semdThreads.Carries m.semds Set.univ k.slink
  agrees : Agrees m k

/-- The memory stands for the tables of the nucleus. -/
def Keeps (m : NucleusHeap) (k : Kernel) : Prop := ∃ L born, Laid m L born k

variable {m : NucleusHeap} {k k' : Kernel} {L L' : PcbLists ProcQ PcbId} {born : Set PcbId}
  {l l' : Links (Cell ProcQ PcbId)} {q : ProcQ} {p : PcbId}

/-! ## Queues and lists -/

theorem inUse_ready (k : Kernel) (h : ∀ d, q ≠ .sProcq d) : InUse k q := fun d hd => absurd hd (h d)

/-- A sentinel is no cell of a block. -/
theorem headCell_ne (q : ProcQ) (p : PcbId) :
    headCell q ≠ .pList p ∧ headCell q ≠ .pChild p ∧ headCell q ≠ .pSib p := by
  cases q <;> simp only [headCell, ne_eq, reduceCtorEq, not_false_eq_true, and_self]

theorem inUse_sProcq {d : SemdId} (h : d ∈ k.slink .semdH) : InUse k (.sProcq d) := by
  intro d' hd
  cases hd
  exact h

theorem Formed.free (h : Formed L k) : .pcbFree ∈ L.heads :=
  h.heads .pcbFree (inUse_ready k (fun _ hc => nomatch hc))

/-- The cell of a block is no sentinel. -/
theorem Formed.blocks (h : Formed L k) (p : PcbId) : .pList p ∉ L.heads := by
  intro hp
  rcases h.only _ hp with ⟨q, hq⟩
  cases q <;> cases hq

theorem Formed.null (h : Formed L k) (hp : k.procq.Null p) : L.queue.Null p := by
  intro s hs
  rcases h.only s (PcbLists.mem_heads hs) with ⟨q, rfl⟩
  rw [h.queues] at hs
  exact hp q hs

/-- A block that is in another queue is not free. -/
theorem Formed.not_free (h : Formed L k) (hq : q ≠ .pcbFree) (hp : p ∈ k.procq q) :
    p ∉ k.procq .pcbFree := by
  intro hf
  rw [← h.queues] at hp hf
  exact hq (headCell_inj (L.wf.unique _ _ p hp hf))

/-- Only the queues and the descriptors in use matter. -/
theorem Formed.congr (h : Formed L k) (hprocq : k'.procq = k.procq)
    (hsemd : ∀ d ∈ k'.slink .semdH, d ∈ k.slink .semdH) : Formed L k' := by
  refine ⟨fun q hq => h.heads q (fun d hd => hsemd d (hq d hd)), h.only, fun q => ?_⟩
  rw [hprocq]
  exact h.queues q

theorem Formed.unlink (h : Formed L k) (p : PcbId) : Formed (L.unlink p) (listSdel k p) := by
  refine ⟨h.heads, h.only, fun q => ?_⟩
  change (L.queue (headCell q)).erase p = (k.procq q).erase p
  rw [h.queues]

theorem Formed.append (h : Formed L k) (hs : headCell q ∈ L.heads) (hnull : L.queue.Null p) :
    Formed (L.append (headCell q) p hs (h.blocks p) hnull)
      { k with procq := k.procq.addTail q p } := by
  refine ⟨h.heads, h.only, fun q' => ?_⟩
  change L.queue.addTail (headCell q) p (headCell q') = k.procq.addTail q p q'
  by_cases hq : q' = q
  · rw [hq, Queues.addTail_self, Queues.addTail_self, h.queues]
  · have hne : headCell q' ≠ headCell q := fun hc => hq (headCell_inj hc)
    rw [Queues.addTail_other _ _ _ _ hne, Queues.addTail_other _ _ _ _ hq, h.queues]

theorem Formed.prepend (h : Formed L k) (hnull : L.queue.Null p) :
    Formed (L.prepend .pcbFree p h.free (h.blocks p) hnull)
      { k with procq := k.procq.addHead .pcbFree p } := by
  refine ⟨h.heads, h.only, fun q' => ?_⟩
  change L.queue.addHead .pcbFree p (headCell q') = k.procq.addHead .pcbFree p q'
  by_cases hq : q' = .pcbFree
  · subst hq
    change L.queue.addHead .pcbFree p .pcbFree = _
    rw [Queues.addHead_self, Queues.addHead_self, ← h.queues]
    rfl
  · have hne : headCell q' ≠ .pcbFree := fun hc => hq (headCell_inj hc)
    rw [Queues.addHead_other _ _ _ _ hne, Queues.addHead_other _ _ _ _ hq, h.queues]

/-- The table of blocks bounds every search in a queue. -/
theorem queue_length (L : PcbLists ProcQ PcbId) (s : Cell ProcQ PcbId) :
    (L.queue s).length < listRounds := rounds_suffice L s

/-- The table bounds every search in a list of descriptors or children. -/
theorem thread_length {ι : Type} {q : Queues ι (Fin MAX_PROC)} (hq : q.Wf) (h : ι) :
    (q h).length < listRounds := by
  have hle := (hq.nodup h).length_le_card
  rw [Fintype.card_fin] at hle
  exact Nat.lt_succ_of_le hle

/-! ## Frames -/

/-- Lists of children do not depend on the cells of queues. -/
theorem TreeIn.elsewhere (h : TreeIn l born k) (he : Elsewhere L l l') (hchild : k'.child = k.child)
    (hborn : ∀ p, p ∉ k'.procq .pcbFree → p ∉ k.procq .pcbFree) : TreeIn l' born k' := by
  have hsame : ∀ c, childThreads.Covers c → l'.next c = l.next c ∧ l'.prev c = l.prev c := by
    rintro c (⟨p, rfl⟩ | ⟨p, rfl⟩)
    · exact he _ (L.child p) (fun q hc => nomatch hc)
    · exact he _ (L.sib p) (fun q hc => nomatch hc)
  refine ⟨?_, fun p hp => h.born p (hborn p hp)⟩
  rw [hchild]
  exact Threads.carries_frame h.children hsame

/-- Queues do not depend on the cells of children. -/
theorem represents_spares (h : Represents l L) (hs : childThreads.Spares l l') :
    Represents l' L := by
  refine represents_frame h (fun c hc => hs c ?_)
  rintro (⟨p, rfl⟩ | ⟨p, rfl⟩)
  · rcases hc with hc | ⟨q, hc⟩
    · exact L.child p hc
    · cases hc
  · rcases hc with hc | ⟨q, hc⟩
    · exact L.sib p hc
    · cases hc

/-- A change of the fields of one block on both sides. -/
theorem fields_modPcb {f : PcbFields PcbId → PcbFields PcbId} {g : Pcb → Pcb}
    (h : ∀ p, m.pcbs.pcb p = fieldsOf (k.pcb p)) (hfg : ∀ t, fieldsOf (g t) = f (fieldsOf t))
    (p q : PcbId) : (m.pcbs.modPcb p f).pcb q = fieldsOf ((k.modPcb p g).pcb q) := by
  unfold PcbHeap.modPcb Kernel.modPcb
  by_cases hq : q = p
  · subst hq
    simp only [Function.update_self, if_true, h q, hfg]
  · simp only [Function.update_of_ne hq, if_neg hq]
    exact h q

theorem Agrees.pParent (h : Agrees m k) (p : PcbId) :
    (m.pcbs.pcb p).pParent = (k.pcb p).pParent := by
  rw [h.fields p]
  rfl

theorem Agrees.pSemAdd (h : Agrees m k) (p : PcbId) :
    (m.pcbs.pcb p).pSemAdd = (k.pcb p).pSemAdd := by
  rw [h.fields p]
  rfl

theorem Agrees.pPrio (h : Agrees m k) (p : PcbId) : (m.pcbs.pcb p).pPrio = (k.pcb p).pPrio := by
  rw [h.fields p]
  rfl

/-- Only the fields of blocks change. -/
theorem Agrees.pcbs {pcbs : PcbHeap ProcQ PcbId} (h : Agrees m k)
    (hfields : ∀ p, pcbs.pcb p = fieldsOf (k'.pcb p))
    (hk : k' = { k with procq := k'.procq, child := k'.child, pcb := k'.pcb }) :
    Agrees { m with pcbs := pcbs } k' := by
  rw [hk] at hfields ⊢
  exact ⟨hfields, h.keys, h.globals⟩

/-- The memory after a change of queues and records. -/
theorem Laid.requeued {pcbs : PcbHeap ProcQ PcbId} (h : Laid m L born k)
    (hleads : Leads L m.pcbs pcbs L') (hshape : Formed L' k')
    (hfields : ∀ p, pcbs.pcb p = fieldsOf (k'.pcb p))
    (hborn : ∀ p, p ∉ k'.procq .pcbFree → p ∉ k.procq .pcbFree)
    (hk : k' = { k with procq := k'.procq, pcb := k'.pcb }) :
    Keeps { m with pcbs := pcbs } k' := by
  have hchild : k'.child = k.child := by rw [hk]
  have hslink : k'.slink = k.slink := by rw [hk]
  refine ⟨L', born, hleads.1, hshape, h.tree.elsewhere hleads.2 hchild hborn, ?_,
    h.agrees.pcbs hfields (by rw [hk])⟩
  rw [hslink]
  exact h.semds

/-- The memory after a change of the globals. -/
theorem Keeps.withGlobals {m' : NucleusHeap} (h : Keeps m k)
    (hm : m'.pcbs = m.pcbs ∧ m'.semds = m.semds ∧ m'.sKey = m.sKey)
    (hk : k'.procq = k.procq ∧ k'.child = k.child ∧ k'.pcb = k.pcb ∧ k'.slink = k.slink ∧
      k'.sKey = k.sKey) (hg : m'.globals = k'.globals) : Keeps m' k' := by
  rcases h with ⟨L, born, h⟩
  rcases hm with ⟨hpcbs, hsemds, hkeys⟩
  rcases hk with ⟨hprocq, hchild, hpcb, hslink, hsKey⟩
  refine ⟨L, born, ?_, h.shape.congr hprocq (fun d hd => hslink ▸ hd), ⟨?_, fun p hp => ?_⟩, ?_,
    fun p => ?_, fun d => ?_, hg⟩
  · rw [hpcbs]
    exact h.pointers
  · rw [hpcbs, hchild]
    exact h.tree.children
  · exact h.tree.born p (hprocq ▸ hp)
  · rw [hsemds, hslink]
    exact h.semds
  · rw [hpcbs, hpcb]
    exact h.agrees.fields p
  · rw [hkeys, hsKey]
    exact h.agrees.keys d

/-- The memory after a change of the fields of one block. -/
theorem Keeps.modPcb {f : PcbFields PcbId → PcbFields PcbId} {g : Pcb → Pcb} (h : Keeps m k)
    (p : PcbId) (hfg : ∀ t, fieldsOf (g t) = f (fieldsOf t)) :
    Keeps (m.modPcb p f) (k.modPcb p g) := by
  rcases h with ⟨L, born, h⟩
  exact ⟨L, born, h.pointers, h.shape.congr rfl (fun _ hd => hd),
    ⟨h.tree.children, h.tree.born⟩, h.semds,
    fields_modPcb h.agrees.fields hfg p, h.agrees.keys, h.agrees.globals⟩

theorem Keeps.globals (h : Keeps m k) : m.globals = k.globals := by
  rcases h with ⟨L, born, h⟩
  exact h.agrees.globals

/-! ## Functions on queues -/

/-- A block that leaves its queue and is not free stays so. -/
theorem not_free_del (hp : p ∉ k.procq .pcbFree) {r : PcbId}
    (hr : r ∉ k.procq.del p .pcbFree) : r ∉ k.procq .pcbFree := by
  unfold Queues.del at hr
  rwa [List.erase_of_not_mem hp] at hr

/-- `insert_proc_q`. -/
theorem insertProcQ_keeps (h : Keeps m k) (hq : InUse k q) (hfree : q ≠ .pcbFree)
    (hp : p ∉ k.procq .pcbFree) :
    ∃ m', m.insertProcQ (headCell q) p = some m' ∧ Keeps m' (insertProcQ k q p) := by
  rcases h with ⟨L, born, h⟩
  have hs := h.shape.heads q hq
  rcases insertProcQ_spec h.pointers hs (h.shape.blocks p) with ⟨pcbs, hrun, hleads, hpcb⟩
  have hshape := (h.shape.unlink p).append hs (PcbLists.null_unlink L p)
  refine ⟨{ m with pcbs := pcbs }, ?_, h.requeued hleads hshape (fun p' => ?_) (fun r hr => ?_)
    rfl⟩
  · simp only [NucleusHeap.insertProcQ, hrun, Option.bind_eq_bind, Option.bind_some,
      Option.pure_def]
  · rw [hpcb]
    exact h.agrees.fields p'
  · change r ∉ (k.procq.del p).addTail q p .pcbFree at hr
    rw [Queues.addTail_other _ _ _ _ hfree.symm] at hr
    exact not_free_del hp hr

/-- `list_sdel` on a block that is not free. -/
theorem Laid.unlinked (h : Laid m L born k) {pcbs : PcbHeap ProcQ PcbId}
    (hleads : Leads L m.pcbs pcbs (L.unlink p)) (hpcb : pcbs.pcb = m.pcbs.pcb)
    (hp : p ∉ k.procq .pcbFree) : Keeps { m with pcbs := pcbs } (listSdel k p) := by
  refine h.requeued hleads (h.shape.unlink p) (fun p' => ?_) (fun r hr => not_free_del hp hr) rfl
  rw [hpcb]
  exact h.agrees.fields p'

/-- `out_proc_q`. -/
theorem outProcQ_keeps (h : Keeps m k) (hq : InUse k q) (hfree : q ≠ .pcbFree) (p : PcbId) :
    ∃ pcbs, m.pcbs.outProcQ listRounds (some (headCell q)) (some p) =
        some ((outProcQ k q p).1, pcbs) ∧ Keeps { m with pcbs := pcbs } (outProcQ k q p).2 := by
  rcases h with ⟨L, born, h⟩
  have hr := queue_length L (headCell q)
  have hs := h.shape.heads q hq
  unfold outProcQ
  by_cases hmem : p ∈ k.procq q
  · have hnf := h.shape.not_free hfree hmem
    rw [if_pos hmem]
    rw [← h.shape.queues] at hmem
    rcases outProcQ_mem h.pointers (h.shape.blocks p) hmem hr with ⟨pcbs, hrun, hleads, hpcb⟩
    exact ⟨pcbs, hrun, h.unlinked hleads hpcb hnf⟩
  · rw [if_neg hmem]
    rw [← h.shape.queues] at hmem
    exact ⟨m.pcbs, outProcQ_not_mem h.pointers hs hmem hr, L, born, h⟩

/-- `remove_proc_q`. -/
theorem removeProcQ_keeps (h : Keeps m k) (hq : InUse k q) (hfree : q ≠ .pcbFree) :
    ∃ m', m.removeProcQ (headCell q) = some ((removeProcQ k q).1, m') ∧
      Keeps m' (removeProcQ k q).2 := by
  have hcopy := h
  rcases h with ⟨L, born, h⟩
  have hs := h.shape.heads q hq
  have hqueue := h.shape.queues q
  unfold removeProcQ headProcQ
  cases hk : k.procq q with
  | nil =>
      refine ⟨m, ?_, hcopy⟩
      simp only [NucleusHeap.removeProcQ,
        removeProcQ_empty h.pointers hs (hqueue.trans hk) listRounds, Option.bind_eq_bind,
        Option.bind_some, Option.pure_def, List.head?_nil]
  | cons p ps =>
      rcases outProcQ_keeps hcopy hq hfree p with ⟨pcbs, hrun, hkeep⟩
      refine ⟨{ m with pcbs := pcbs }, ?_, hkeep⟩
      simp only [NucleusHeap.removeProcQ, removeProcQ_first h.pointers hs (hqueue.trans hk), hrun,
        Option.bind_eq_bind, Option.bind_some, Option.pure_def, List.head?_cons]

/-- `free_pcb`. -/
theorem freePcb_keeps (h : Keeps m k) (p : PcbId) :
    ∃ pcbs, m.pcbs.freePcb listRounds (some p) = some pcbs ∧
      Keeps { m with pcbs := pcbs } (freePcb k p) := by
  have hcopy := h
  rcases h with ⟨L, born, h⟩
  have hr := queue_length L .pcbFree
  have hfree : L.queue .pcbFree = k.procq .pcbFree := h.shape.queues .pcbFree
  unfold freePcb
  by_cases hmem : p ∈ k.procq .pcbFree
  · rw [if_pos hmem]
    rw [← hfree] at hmem
    exact ⟨m.pcbs, freePcb_free h.pointers h.shape.free hmem hr, hcopy⟩
  · rw [if_neg hmem]
    have hmem' : p ∉ L.queue .pcbFree := by rwa [hfree]
    rcases freePcb_used h.pointers h.shape.free (h.shape.blocks p) hmem' hr with
      ⟨pcbs, hrun, hleads, hpcb⟩
    unfold PcbLists.free at hleads
    rw [if_neg hmem'] at hleads
    have hshape := (h.shape.unlink p).prepend (PcbLists.null_unlink L p)
    refine ⟨pcbs, hrun, h.requeued hleads (hshape.congr rfl (fun _ hd => hd)) (fun p' => ?_)
      (fun r hr => ?_) rfl⟩
    · rw [hpcb]
      exact fields_modPcb (f := fun t => { t with pPid := NULL_PID })
        (g := fun t => { t with pPid := NULL_PID }) h.agrees.fields (fun _ => rfl) p p'
    · change r ∉ (k.procq.del p).addHead .pcbFree p .pcbFree at hr
      rw [Queues.mem_addHead, not_or] at hr
      exact not_free_del hmem hr.1

/-- The lists of children after a block without relatives was reset. -/
theorem TreeIn.reset (h : TreeIn l born k) (hchild : k.child p = []) (hsib : k.child.Null p)
    (hself : l'.next (.pChild p) = some (.pChild p) ∧ l'.prev (.pChild p) = some (.pChild p))
    (hnull : l'.next (.pSib p) = none ∧ l'.prev (.pSib p) = none)
    (hrest : ∀ c, childThreads.Covers c → c ≠ .pChild p → c ≠ .pSib p →
      l'.next c = l.next c ∧ l'.prev c = l.prev c) :
    childThreads.Carries l' (insert p born) k.child := by
  have hstart := Threads.carries_null (Threads.carries_start h.children hchild) hsib
  -- The new pointers are those of `INIT_LIST_HEAD` and `LIST_HEAD_NULL`.
  have hsame : ∀ c, childThreads.Covers c →
      l'.next c = ((l.join (.pChild p) (.pChild p)).null (.pSib p)).next c ∧
        l'.prev c = ((l.join (.pChild p) (.pChild p)).null (.pSib p)).prev c := by
    intro c hc
    by_cases hcs : c = .pSib p
    · subst hcs
      simp only [hnull, Links.null, Function.update_self, and_self]
    · rcases Links.null_of_ne (l.join (.pChild p) (.pChild p)) hcs with ⟨hnext, hprev⟩
      rw [hnext, hprev]
      by_cases hcc : c = .pChild p
      · subst hcc
        rcases Links.linked_join l (.pChild p) (.pChild p) with ⟨hn, hv⟩
        exact ⟨hself.1.trans hn.symm, hself.2.trans hv.symm⟩
      · rw [Links.next_join l hcc, Links.prev_join l hcc]
        exact hrest c hc hcc hcs
  exact Threads.carries_frame hstart hsame

/-- `alloc_pcb`. A free block has no relatives. -/
theorem allocPcb_keeps (h : Keeps m k) (hw : Wf k) :
    ∃ pcbs, m.pcbs.allocPcb = some ((allocPcb k).1, pcbs) ∧
      Keeps { m with pcbs := pcbs } (allocPcb k).2 := by
  have hcopy := h
  rcases h with ⟨L, born, h⟩
  have hfree : L.queue .pcbFree = k.procq .pcbFree := h.shape.queues .pcbFree
  cases hk : k.procq .pcbFree with
  | nil =>
      unfold allocPcb
      rw [hk]
      exact ⟨m.pcbs, allocPcb_empty h.pointers h.shape.free (hfree.trans hk), hcopy⟩
  | cons p ps =>
      have hp : p ∈ k.procq .pcbFree := hk ▸ List.mem_cons_self
      rcases no_family_of_free hw.tree hp with ⟨_, hchild, hsib⟩
      rcases allocPcb_first h.pointers h.shape.free (hfree.trans hk) with
        ⟨pcbs, hrun, hrep, hpcb, hself, hnull, hrest⟩
      have hframe : ∀ c, childThreads.Covers c → c ≠ .pChild p → c ≠ .pSib p →
          pcbs.links.next c = m.pcbs.links.next c ∧ pcbs.links.prev c = m.pcbs.links.prev c := by
        rintro c (⟨r, rfl⟩ | ⟨r, rfl⟩) hcc hcs
        · exact hrest _ (L.child r) (fun _ hc => nomatch hc) hcc hcs
        · exact hrest _ (L.sib r) (fun _ hc => nomatch hc) hcc hcs
      have hcarries := h.tree.reset hchild hsib hself hnull hframe
      rw [allocPcb_cons hw hk]
      refine ⟨pcbs, hrun, L.unlink p, insert p born, hrep, (h.shape.unlink p).congr rfl
        (fun _ hd => hd), ⟨hcarries, fun r hr => ?_⟩, h.semds,
        h.agrees.pcbs (fun r => ?_) rfl⟩
      · by_cases hrp : r = p
        · exact Set.mem_insert_iff.mpr (Or.inl hrp)
        · refine Set.mem_insert_of_mem p (h.tree.born r (fun hf => hr ?_))
          exact (List.mem_erase_of_ne hrp).mpr hf
      · rw [hpcb]
        change _ = fieldsOf (if r = p then nullPcbRecord else k.pcb r)
        by_cases hr : r = p
        · subst hr
          rw [Function.update_self, if_pos rfl]
          rfl
        · rw [Function.update_of_ne hr, if_neg hr]
          exact h.agrees.fields r

/-! ## Functions on trees -/

/-- The memory after a change of lists of children and records. -/
theorem Laid.rechild {pcbs : PcbHeap ProcQ PcbId} (h : Laid m L born k)
    (hchildren : childThreads.Carries pcbs.links born k'.child)
    (hspares : childThreads.Spares m.pcbs.links pcbs.links)
    (hfields : ∀ p, pcbs.pcb p = fieldsOf (k'.pcb p))
    (hk : k' = { k with child := k'.child, pcb := k'.pcb }) : Keeps { m with pcbs := pcbs } k' := by
  have hprocq : k'.procq = k.procq := by rw [hk]
  have hslink : k'.slink = k.slink := by rw [hk]
  refine ⟨L, born, represents_spares h.pointers hspares, h.shape.congr hprocq (fun d hd => ?_),
    ⟨hchildren, fun p hp => h.tree.born p (hprocq ▸ hp)⟩, ?_,
    h.agrees.pcbs hfields (by rw [hk])⟩
  · rwa [hslink] at hd
  · rw [hslink]
    exact h.semds

/-- `insert_child`. -/
theorem insertChild_keeps (h : Keeps m k) (hw : TreeWf k) {prnt : PcbId}
    (hprnt : prnt ∉ k.procq .pcbFree) (p : PcbId) :
    ∃ pcbs, m.pcbs.insertChild listRounds (some prnt) (some p) = some pcbs ∧
      Keeps { m with pcbs := pcbs } (insertChild k prnt p) := by
  have hcopy := h
  rcases h with ⟨L, born, h⟩
  have hborn := h.tree.born prnt hprnt
  have hpar := h.agrees.pParent p
  have hcontains := Threads.listContains_carries h.tree.children hborn p
    (thread_length h.tree.children.wf prnt)
  unfold insertChild
  cases hk : (k.pcb p).pParent with
  | some r =>
      have hsome : (m.pcbs.pcb p).pParent.isSome = true := by
        rw [hpar, hk]
        rfl
      rw [if_pos (Or.inl (Option.some_ne_none r))]
      refine ⟨m.pcbs, ?_, hcopy⟩
      simp only [PcbHeap.insertChild, hsome, if_true, Option.pure_def]
  | none =>
      -- A process without a parent is in no list of children.
      have hnull : k.child.Null p := fun r hr => by
        have hc := (hw.mem_iff r p).mp hr
        rw [parentOf, hk] at hc
        cases hc
      have hnone : (m.pcbs.pcb p).pParent.isSome = false := by
        rw [hpar, hk]
        rfl
      have hmem : ¬ ((none : Option PcbId) ≠ none ∨ p ∈ k.child prnt) := by
        rintro (hc | hc)
        · exact hc rfl
        · exact hnull prnt hc
      rw [if_neg hmem]
      rcases Threads.listAddTail_carries h.tree.children hnull hborn with
        ⟨l', hadd, hcarries, hspares⟩
      have hadd' : (m.pcbs.modPcb p (fun t => { t with pParent := some prnt })).links.listAddTail
          (some (.pSib p)) (some (.pChild prnt)) = some l' := hadd
      have hcontains' : m.pcbs.links.listContains listRounds (some (.pSib p))
          (some (.pChild prnt)) = some (decide (p ∈ k.child prnt)) := hcontains
      refine ⟨{ m.pcbs.modPcb p (fun t => { t with pParent := some prnt }) with links := l' }, ?_,
        h.rechild hcarries hspares (fun r => ?_) rfl⟩
      · simp only [PcbHeap.insertChild, hnone, hcontains', hnull prnt, hadd', decide_false,
          Bool.false_eq_true, if_false, Option.bind_eq_bind, Option.bind_some, Option.pure_def]
      · exact fields_modPcb (f := fun t => { t with pParent := some prnt })
          (g := fun t => { t with pParent := some prnt }) h.agrees.fields (fun _ => rfl) p r

/-- `out_child`. -/
theorem outChild_keeps (h : Keeps m k) (hw : TreeWf k) (p : PcbId) :
    ∃ pcbs, m.pcbs.outChild listRounds (some p) = some ((outChild k p).1, pcbs) ∧
      Keeps { m with pcbs := pcbs } (outChild k p).2 := by
  have hcopy := h
  rcases h with ⟨L, born, h⟩
  have hpar := h.agrees.pParent p
  unfold outChild
  cases hk : (k.pcb p).pParent with
  | none =>
      refine ⟨m.pcbs, ?_, hcopy⟩
      simp only [PcbHeap.outChild, hpar, hk]
  | some prnt =>
      have hmem : p ∈ k.child prnt := (hw.mem_iff prnt p).mpr hk
      have hborn := h.tree.children.mem_ready hmem
      have hempty : m.pcbs.links.listEmpty (some (.pChild prnt)) = some (k.child prnt).isEmpty :=
        Threads.listEmpty_carries h.tree.children hborn
      have hcontains : m.pcbs.links.listContains listRounds (some (.pSib p))
          (some (.pChild prnt)) = some (decide (p ∈ k.child prnt)) :=
        Threads.listContains_carries h.tree.children hborn p
          (thread_length h.tree.children.wf prnt)
      have hne : (k.child prnt).isEmpty = false :=
        List.isEmpty_eq_false_iff.mpr (List.ne_nil_of_mem hmem)
      rcases Threads.listSdel_carries h.tree.children hmem with ⟨l', hdel, hcarries, hspares⟩
      have hdel' : m.pcbs.links.listSdel (some (.pSib p)) = some l' := hdel
      simp only [if_pos hmem]
      refine ⟨PcbHeap.modPcb { m.pcbs with links := l' } p (fun t => { t with pParent := none }),
        ?_, h.rechild hcarries hspares (fun r => ?_) rfl⟩
      · simp only [PcbHeap.outChild, hpar, hk, hempty, hne, hcontains, hmem, hdel', decide_true,
          Bool.not_true, Bool.false_eq_true, if_false, Option.bind_eq_bind, Option.bind_some,
          Option.pure_def]
      · exact fields_modPcb (f := fun t => { t with pParent := none })
          (g := fun t => { t with pParent := none }) h.agrees.fields (fun _ => rfl) p r

/-- `remove_child`. -/
theorem removeChild_keeps (h : Keeps m k) (hw : TreeWf k) (hp : p ∉ k.procq .pcbFree) :
    ∃ pcbs, m.pcbs.removeChild listRounds (some p) = some ((removeChild k p).1, pcbs) ∧
      Keeps { m with pcbs := pcbs } (removeChild k p).2 := by
  have hcopy := h
  rcases h with ⟨L, born, h⟩
  have hborn := h.tree.born p hp
  have hempty : m.pcbs.links.listEmpty (some (.pChild p)) = some (k.child p).isEmpty :=
    Threads.listEmpty_carries h.tree.children hborn
  unfold removeChild
  cases hk : k.child p with
  | nil =>
      refine ⟨m.pcbs, ?_, hcopy⟩
      simp only [PcbHeap.removeChild, hempty, hk, List.isEmpty_nil, if_true, List.head?_nil,
        Option.bind_eq_bind, Option.bind_some, Option.pure_def]
  | cons c cs =>
      have hnext : m.pcbs.links.listNext (some (.pChild p)) = some (some (.pSib c)) :=
        Threads.listNext_carries h.tree.children hborn hk
      rcases outChild_keeps hcopy hw c with ⟨pcbs, hrun, hkeep⟩
      refine ⟨pcbs, ?_, hkeep⟩
      simp only [PcbHeap.removeChild, hempty, hk, hnext, PcbHeap.siblingOf, hrun, List.isEmpty_cons,
        Bool.false_eq_true, if_false, List.head?_cons, Option.bind_eq_bind, Option.bind_some]

end Pandos
