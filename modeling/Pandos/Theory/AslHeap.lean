import Pandos.Theory.NucleusHeap

/-!
# The Active Semaphore List in Memory

Each function of `asl.c` on the pointers does what the nucleus is told. A
descriptor moves from one list to the other by `list_del` and `list_add`, and its
queue gets a sentinel when it comes into use.

## Theorems

* `findSemd_keeps`: The search.
* `allocSemd_keeps`, `freeSemd_keeps`: A descriptor moves.
* `insertBlocked_keeps`, `outBlocked_keeps`, `headBlocked_keeps`,
  `removeBlocked_keeps`: The interface of the list.
-/

namespace Pandos

variable {m : NucleusHeap} {k k' : Kernel} {L : PcbLists ProcQ PcbId} {born : Set PcbId}
  {p : PcbId} {sem : SemdId}

/-! ## Descriptors -/

/-- `find_semd`. -/
theorem findSemd_keeps (h : Keeps m k) (list : SemdList) (semAddr : Option Word) :
    m.findSemd (some (.head list)) semAddr = some (findSemd k list semAddr) := by
  rcases h with ⟨L, born, h⟩
  cases semAddr with
  | none => rfl
  | some a =>
      have hmatch : ∀ d, (!(m.keyCmp a (some .dummy) (some (semdThreads.field d)) != some 0)) =
          (keyCmp a (k.sKey d) == 0) := by
        intro d
        have hcmp : m.keyCmp a (some .dummy) (some (semdThreads.field d)) =
            some (keyCmp a (m.sKey d)) := rfl
        rw [hcmp, h.agrees.keys, Bool.eq_iff_iff, Bool.not_eq_true', bne_eq_false_iff_eq,
          Option.some.injEq, beq_iff_eq]
      have hsearch : m.semds.listSearch listRounds (some .dummy) (some (.head list))
          (fun first second => m.keyCmp a first second != some 0) =
            some (((k.slink list).find? (fun d => keyCmp a (k.sKey d) == 0)).map .sLink) := by
        have hs : m.semds.listSearch listRounds (some .dummy) (some (semdThreads.head list))
            (fun first second => m.keyCmp a first second != some 0) =
              some (((k.slink list).find? (fun d =>
                !(m.keyCmp a (some .dummy) (some (semdThreads.field d)) != some 0))).map
                  semdThreads.field) :=
          Threads.listSearch_carries h.semds (Set.mem_univ list) (thread_length h.semds.wf list)
        simp only [hmatch] at hs
        exact hs
      simp only [NucleusHeap.findSemd, findSemd, hsearch, Option.bind_eq_bind, Option.bind_some,
        Option.pure_def]
      cases (k.slink list).find? (fun d => keyCmp a (k.sKey d) == 0) <;> rfl

/-- What `find_semd` finds in `semd_h` is in use. -/
theorem findSemd_mem {semAddr : Option Word} (h : findSemd k .semdH semAddr = some sem) :
    sem ∈ k.slink .semdH := by
  cases semAddr with
  | none => cases h
  | some a => exact List.mem_of_find?_eq_some h

/-- The memory after a change of the lists of descriptors. -/
theorem Laid.relisted {semds : Links (SemdCell SemdList SemdId)} (h : Laid m L born k)
    (hcarries : semdThreads.Carries semds Set.univ k'.slink)
    (hsemd : ∀ d ∈ k'.slink .semdH, d ∈ k.slink .semdH)
    (hk : k' = { k with slink := k'.slink }) : Keeps { m with semds := semds } k' := by
  have ha := h.agrees
  rw [hk] at hcarries hsemd ⊢
  exact ⟨L, born, h.pointers, h.shape.congr rfl hsemd, ⟨h.tree.children,
    h.tree.born⟩, hcarries, ha.fields, ha.keys, ha.globals⟩

/-- `free_semd` on a descriptor in use. -/
theorem freeSemd_keeps (h : Keeps m k) (hi : sem ∈ k.slink .semdH) :
    ∃ m', m.freeSemd (some sem) = some ((freeSemd k sem).1, m') ∧
      Keeps m' (freeSemd k sem).2 := by
  have hcopy := h
  rcases h with ⟨L, born, h⟩
  have hs : headCell (.sProcq sem) ∈ L.heads := h.shape.heads _ (inUse_sProcq hi)
  have hempty : m.pcbs.links.listEmpty (some (.queue (.sProcq sem))) =
      some (k.procq (.sProcq sem)).isEmpty := by
    rw [← h.shape.queues]
    exact empty_list h.pointers hs
  unfold freeSemd
  by_cases hq : k.procq (.sProcq sem) = []
  · rcases Threads.listMove_carries (h := .semdFree) h.semds hi (Set.mem_univ _) with
      ⟨l₁, l₂, hdel, hadd, hcarries, _⟩
    have hdel' : m.semds.listDel (some (.sLink sem)) = some l₁ := hdel
    have hadd' : l₁.listAdd (some (.sLink sem)) (some (.head .semdFree)) = some l₂ := hadd
    rw [if_neg (not_not.mpr hq)]
    refine ⟨{ m with semds := l₂ }, ?_, h.relisted hcarries (fun d hd => ?_) rfl⟩
    · simp only [NucleusHeap.freeSemd, hempty, hq, hdel', hadd', List.isEmpty_nil, Bool.not_true,
        Bool.false_eq_true, if_false, Option.bind_eq_bind, Option.bind_some, Option.pure_def]
    · have hne : SemdList.semdH ≠ .semdFree := by simp only [ne_eq, reduceCtorEq, not_false_eq_true]
      change d ∈ (k.slink.del sem).addHead .semdFree sem .semdH at hd
      rw [Queues.addHead_other _ _ _ _ hne] at hd
      exact List.mem_of_mem_erase hd
  · have hne : (k.procq (.sProcq sem)).isEmpty = false := List.isEmpty_eq_false_iff.mpr hq
    rw [if_pos hq]
    refine ⟨m, ?_, hcopy⟩
    simp only [NucleusHeap.freeSemd, hempty, hne, Bool.not_false, if_true, Option.bind_eq_bind,
      Option.bind_some, Option.pure_def]

/-- The lists once the queue of a descriptor got its sentinel. -/
def withProcq (L : PcbLists ProcQ PcbId) (sem : SemdId) : PcbLists ProcQ PcbId :=
  L.withHead (headCell (.sProcq sem)) (fun p => (headCell_ne _ p).2)
    (fun p hp => absurd hp (headCell_ne _ p).1)

/-- `INIT_LIST_HEAD` on the queue of a descriptor. -/
theorem initProcq_spec {l : Links (Cell ProcQ PcbId)} (h : Represents l L)
    (hqueue : L.queue (headCell (.sProcq sem)) = []) :
    ∃ l', l.initListHead (some (.queue (.sProcq sem))) = some l' ∧
      Represents l' (withProcq L sem) ∧ Elsewhere (withProcq L sem) l l' := by
  have hm : Represents (PcbHeap.mk l (fun p => fieldsOf nullPcbRecord) : PcbHeap ProcQ PcbId).links
      L := h
  rcases mkEmptyProcQ_spec hm (fun p => (headCell_ne (.sProcq sem) p).2)
    (fun p hp => absurd hp (headCell_ne _ p).1) hqueue with ⟨pcbs, hmk, hrep, _⟩
  have hlinks : l.join (headCell (.sProcq sem)) (headCell (.sProcq sem)) = pcbs.links :=
    congrArg PcbHeap.links (Option.some.inj hmk)
  refine ⟨pcbs.links, congrArg some hlinks, hrep, ?_⟩
  rw [← hlinks]
  exact elsewhere_join (Or.inl (Set.mem_insert _ _)) (Or.inl (Set.mem_insert _ _))

/-- The queue of a descriptor that comes into use gets its sentinel. -/
theorem Formed.withProcq (h : Formed L k) (hqueue : L.queue (headCell (.sProcq sem)) = [])
    (hprocq : k'.procq = k.procq.clear (.sProcq sem))
    (hsemd : ∀ d ∈ k'.slink .semdH, d ∈ k.slink .semdH ∨ d = sem) :
    Formed (Pandos.withProcq L sem) k' := by
  refine ⟨fun q hq => ?_, ?_, fun q => ?_⟩
  · by_cases hqs : q = .sProcq sem
    · exact Set.mem_insert_iff.mpr (Or.inl (congrArg headCell hqs))
    · refine Set.mem_insert_of_mem _ (h.heads q (fun d hd => ?_))
      refine (hsemd d (hq d hd)).resolve_right (fun hds => hqs ?_)
      rw [hd, hds]
  · rintro s (rfl | hs)
    · exact ⟨_, rfl⟩
    · exact h.only s hs
  · change L.queue (headCell q) = k'.procq q
    rw [hprocq]
    by_cases hqs : q = .sProcq sem
    · rw [hqs, Queues.clear_self]
      exact hqueue
    · rw [Queues.clear_other _ _ _ hqs]
      exact h.queues q

/-- The memory once a descriptor came into use. -/
theorem Laid.alloted {semds : Links (SemdCell SemdList SemdId)}
    {links : Links (Cell ProcQ PcbId)} {sems : List SemdId} (h : Laid m L born k)
    (hk : k.slink .semdFree = sem :: sems)
    (hqueue : L.queue (headCell (.sProcq sem)) = [])
    (hcarries : semdThreads.Carries semds Set.univ ((k.slink.del sem).addHead .semdH sem))
    (hrep : Represents links (withProcq L sem))
    (helse : Elsewhere (withProcq L sem) m.pcbs.links links) (a : Word) :
    Keeps { m with
        semds := semds
        sKey := Function.update m.sKey sem a
        pcbs := { m.pcbs with links := links } }
      (allocSemd k (some a)).2 := by
  have ha := h.agrees
  have hsemd : ∀ d ∈ (k.slink.del sem).addHead .semdH sem .semdH, d ∈ k.slink .semdH ∨ d = sem := by
    intro d hd
    rw [Queues.addHead_self, List.mem_cons] at hd
    exact hd.symm.imp_left List.mem_of_mem_erase
  have hne : ProcQ.pcbFree ≠ .sProcq sem := by simp only [ne_eq, reduceCtorEq, not_false_eq_true]
  unfold allocSemd
  rw [hk]
  refine ⟨withProcq L sem, born, hrep, h.shape.withProcq hqueue rfl hsemd,
    h.tree.elsewhere helse rfl (fun p hp => ?_), hcarries, ha.fields, fun d => ?_, ha.globals⟩
  · change p ∉ k.procq.clear (.sProcq sem) .pcbFree at hp
    rwa [Queues.clear_other _ _ _ hne] at hp
  · change Function.update m.sKey sem a d = if d = sem then a else k.sKey d
    rw [Function.update_apply, ha.keys]

/-- `alloc_semd`. The queue of a free descriptor is empty, and it gets its
    sentinel. -/
theorem allocSemd_keeps (h : Keeps m k) (hw : AslWf k) (semAddr : Option Word) :
    ∃ m', m.allocSemd semAddr = some ((allocSemd k semAddr).1, m') ∧
      Keeps m' (allocSemd k semAddr).2 := by
  have hcopy := h
  rcases h with ⟨L, born, h⟩
  have hempty : m.semds.listEmpty (some (.head .semdFree)) =
      some (k.slink .semdFree).isEmpty := Threads.listEmpty_carries h.semds (Set.mem_univ _)
  cases semAddr with
  | none => exact ⟨m, rfl, hcopy⟩
  | some a =>
      cases hk : k.slink .semdFree with
      | nil =>
          unfold allocSemd
          rw [hk]
          refine ⟨m, ?_, hcopy⟩
          simp only [NucleusHeap.allocSemd, hempty, hk, List.isEmpty_nil, if_true,
            Option.bind_eq_bind, Option.bind_some, Option.pure_def]
      | cons sem sems =>
          have hmem : sem ∈ k.slink .semdFree := hk ▸ List.mem_cons_self
          have hqueue : L.queue (headCell (.sProcq sem)) = [] :=
            (h.shape.queues _).trans (hw.idle sem hmem)
          have hnext : m.semds.getNext (some (.head .semdFree)) = some (some (.sLink sem)) :=
            Threads.getNext_carries h.semds (Set.mem_univ _) hk
          rcases Threads.listMove_carries (h := .semdH) h.semds hmem (Set.mem_univ _) with
            ⟨l₁, l₂, hdel, hadd, hcarries, _⟩
          have hdel' : m.semds.listDel (some (.sLink sem)) = some l₁ := hdel
          have hadd' : l₁.listAdd (some (.sLink sem)) (some (.head .semdH)) = some l₂ := hadd
          rcases initProcq_spec h.pointers hqueue with ⟨links, hinit, hrep, helse⟩
          have hfst : (allocSemd k (some a)).1 = some sem := by
            unfold allocSemd
            rw [hk]
          refine ⟨_, ?_, h.alloted hk hqueue hcarries hrep helse a⟩
          rw [hfst]
          simp only [NucleusHeap.allocSemd, hempty, hk, hnext, SemdHeap.containerOf, hdel', hadd',
            hinit, List.isEmpty_cons, Bool.false_eq_true, if_false, Option.bind_eq_bind,
            Option.bind_some, Option.pure_def]

/-! ## The interface -/

/-- A change of the key a process waits for. -/
theorem Agrees.setSemAdd (h : Agrees m k) (p : PcbId) (a : Option Word) :
    ∀ r, ((m.modPcb p (fun t => { t with pSemAdd := a })).pcbs.pcb r) =
      fieldsOf ((k.modPcb p (fun t => { t with pSemAdd := a })).pcb r) :=
  fields_modPcb (f := fun t => { t with pSemAdd := a }) (g := fun t => { t with pSemAdd := a })
    h.fields (fun _ => rfl) p

/-- A process in no queue is appended to the queue of a descriptor in use. -/
theorem appendBlocked_keeps (h : Keeps m k) (hi : sem ∈ k.slink .semdH) (hp : k.procq.Null p)
    (a : Word) :
    ∃ l', m.pcbs.links.listAddTail (some (.pList p)) (some (.queue (.sProcq sem))) = some l' ∧
      Keeps (NucleusHeap.modPcb { m with pcbs := { m.pcbs with links := l' } } p
          (fun t => { t with pSemAdd := some a }))
        (Kernel.modPcb { k with procq := k.procq.addTail (.sProcq sem) p } p
          (fun t => { t with pSemAdd := some a })) := by
  rcases h with ⟨L, born, h⟩
  have hs : headCell (.sProcq sem) ∈ L.heads := h.shape.heads _ (inUse_sProcq hi)
  have hnull := h.shape.null hp
  rcases represents_addTail h.pointers hs (h.shape.blocks p) hnull with ⟨l', hadd, hrep, helse⟩
  have hne : ProcQ.pcbFree ≠ .sProcq sem := by simp only [ne_eq, reduceCtorEq, not_false_eq_true]
  refine ⟨l', hadd, h.requeued ⟨hrep, helse⟩ ((h.shape.append hs hnull).congr rfl (fun _ hd => hd))
    (fun r => h.agrees.setSemAdd p (some a) r) (fun r hr => ?_) rfl⟩
  change r ∉ k.procq.addTail (.sProcq sem) p .pcbFree at hr
  rwa [Queues.addTail_other _ _ _ _ hne] at hr

/-- A descriptor that `alloc_semd` returns is in use, and nobody has been
    queued. -/
theorem allocSemd_mem {a : Option Word} (h : allocSemd k a = (some sem, k')) :
    sem ∈ k'.slink .semdH ∧ ∀ p, k.procq.Null p → k'.procq.Null p := by
  cases a with
  | none => cases h
  | some a =>
      unfold allocSemd at h
      cases hk : k.slink .semdFree with
      | nil =>
          rw [hk] at h
          cases h
      | cons sem' sems =>
          rw [hk] at h
          cases h
          refine ⟨?_, fun p hp q hq => ?_⟩
          · change sem ∈ (k.slink.del sem).addHead .semdH sem .semdH
            rw [Queues.addHead_self]
            exact List.mem_cons_self
          · change p ∈ k.procq.clear (.sProcq sem) q at hq
            unfold Queues.clear at hq
            split at hq
            · exact List.not_mem_nil hq
            · exact hp q hq

/-- `insert_blocked`, for a process in no queue. -/
theorem insertBlocked_keeps (h : Keeps m k) (hw : AslWf k) (semAddr : Option Word)
    (p : Option PcbId) (hp : ∀ r, p = some r → k.procq.Null r) :
    ∃ m', m.insertBlocked semAddr p = some ((insertBlocked k semAddr p).1, m') ∧
      Keeps m' (insertBlocked k semAddr p).2 := by
  cases semAddr with
  | none => exact ⟨m, rfl, h⟩
  | some a =>
      cases p with
      | none => exact ⟨m, rfl, h⟩
      | some p =>
          have hnull := hp p rfl
          have hfind := findSemd_keeps h .semdH (some a)
          have hsem : (m.pcbs.pcb p).pSemAdd = (k.pcb p).pSemAdd := by
            rcases h with ⟨L, born, h⟩
            exact h.agrees.pSemAdd p
          cases hadd : (k.pcb p).pSemAdd with
          | some b =>
              have hres : insertBlocked k (some a) (some p) = (3, k) := by
                simp only [insertBlocked, hadd, ne_eq, reduceCtorEq, not_false_eq_true, if_true]
              rw [hres]
              refine ⟨m, ?_, h⟩
              simp only [NucleusHeap.insertBlocked, hsem, hadd, Option.isSome_some, if_true]
          | none =>
              cases hf : findSemd k .semdH (some a) with
              | some sem =>
                  rcases appendBlocked_keeps h (findSemd_mem hf) hnull a with ⟨l', hrun, hkeep⟩
                  have hres : insertBlocked k (some a) (some p) = (0, Kernel.modPcb
                      { k with procq := k.procq.addTail (.sProcq sem) p } p
                      (fun t => { t with pSemAdd := some a })) := by
                    simp only [insertBlocked, hadd, hf, ne_eq, not_true_eq_false, if_false]
                  rw [hres]
                  refine ⟨_, ?_, hkeep⟩
                  simp only [NucleusHeap.insertBlocked, hsem, hadd, hfind, hf, hrun,
                    Option.isSome_none, Option.isSome_some, Bool.false_eq_true, if_false, if_true,
                    Option.bind_eq_bind, Option.bind_some, Option.pure_def]
              | none =>
                  rcases allocSemd_keeps h hw (some a) with ⟨m₁, halloc, h₁⟩
                  rcases hk : allocSemd k (some a) with ⟨found, k₁⟩
                  rw [hk] at halloc h₁
                  cases found with
                  | none =>
                      have hres : insertBlocked k (some a) (some p) = (4, k₁) := by
                        simp only [insertBlocked, hadd, hf, hk, ne_eq, not_true_eq_false, if_false]
                      rw [hres]
                      refine ⟨m₁, ?_, h₁⟩
                      simp only [NucleusHeap.insertBlocked, hsem, hadd, hfind, hf, halloc,
                        Option.isSome_none, Bool.false_eq_true, if_false, Option.bind_eq_bind,
                        Option.bind_some, Option.pure_def]
                  | some sem =>
                      rcases allocSemd_mem hk with ⟨hmem, hnull₁⟩
                      rcases appendBlocked_keeps h₁ hmem (hnull₁ p hnull) a with
                        ⟨l', hrun, hkeep⟩
                      have hres : insertBlocked k (some a) (some p) = (0, Kernel.modPcb
                          { k₁ with procq := k₁.procq.addTail (.sProcq sem) p } p
                          (fun t => { t with pSemAdd := some a })) := by
                        simp only [insertBlocked, hadd, hf, hk, ne_eq, not_true_eq_false, if_false]
                      rw [hres]
                      refine ⟨_, ?_, hkeep⟩
                      simp only [NucleusHeap.insertBlocked, hsem, hadd, hfind, hf, halloc, hrun,
                        Option.isSome_none, Bool.false_eq_true, if_false, Option.bind_eq_bind,
                        Option.bind_some, Option.pure_def]

/-- A process that left its queue and waits for nothing any more. -/
abbrev Kernel.unwaited (k : Kernel) (p : PcbId) : Kernel :=
  (listSdel k p).modPcb p (fun t => { t with pSemAdd := none })

/-- The memory with the pointers after such a process left. -/
abbrev NucleusHeap.unwaited (m : NucleusHeap) (p : PcbId) (l : Links (Cell ProcQ PcbId)) :
    NucleusHeap :=
  NucleusHeap.modPcb { m with pcbs := { m.pcbs with links := l } } p
    (fun t => { t with pSemAdd := none })

/-- A process leaves the queue of a descriptor in use. -/
theorem unwaited_keeps (h : Keeps m k) (hi : sem ∈ k.slink .semdH)
    (hmem : p ∈ k.procq (.sProcq sem)) :
    ∃ l, m.pcbs.links.listSdel (some (.pList p)) = some l ∧ Keeps (m.unwaited p l) (k.unwaited p) ∧
      (m.unwaited p l).pcbs.links.listEmpty (some (.queue (.sProcq sem))) =
        some ((k.unwaited p).procq (.sProcq sem)).isEmpty := by
  rcases h with ⟨L, born, h⟩
  have hs : headCell (.sProcq sem) ∈ L.heads := h.shape.heads _ (inUse_sProcq hi)
  have hq : ProcQ.sProcq sem ≠ .pcbFree := by simp only [ne_eq, reduceCtorEq, not_false_eq_true]
  have hnf := h.shape.not_free hq hmem
  rcases represents_sdel h.pointers (h.shape.blocks p) with ⟨l, hdel, hrep, helse⟩
  refine ⟨l, hdel, h.requeued ⟨hrep, helse⟩ ((h.shape.unlink p).congr rfl (fun _ hd => hd))
    (fun r => h.agrees.setSemAdd p none r) (fun r hr => not_free_del hnf hr) rfl, ?_⟩
  have hqueue : (L.unlink p).queue (headCell (.sProcq sem)) = k.procq.del p (.sProcq sem) :=
    (h.shape.unlink p).queues _
  change l.listEmpty (some (.queue (.sProcq sem))) = some (k.procq.del p (.sProcq sem)).isEmpty
  rw [← hqueue]
  exact empty_list (m := { m.pcbs with links := l }) hrep hs

/-- `out_blocked` on a process behind its descriptor. -/
theorem outBlocked_queued (h : Keeps m k) (hf : findSemd k .semdH (k.pcb p).pSemAdd = some sem)
    (hfind : m.findSemd (some (.head .semdH)) (m.pcbs.pcb p).pSemAdd = some (some sem))
    (hcontains : m.pcbs.links.listContains listRounds (some (.pList p))
      (some (.queue (.sProcq sem))) = some true)
    (hmem : p ∈ k.procq (.sProcq sem)) :
    ∃ m', m.outBlocked (some p) = some ((outBlocked k (some p)).1, m') ∧
      Keeps m' (outBlocked k (some p)).2 := by
  have hi := findSemd_mem hf
  rcases unwaited_keeps h hi hmem with ⟨l, hdel, hkeep, hempty⟩
  by_cases hnil : (k.unwaited p).procq (.sProcq sem) = []
  · -- The last process has left, and the descriptor becomes free.
    rw [hnil, List.isEmpty_nil] at hempty
    rcases freeSemd_keeps hkeep hi with ⟨m', hfree, hkeep'⟩
    rcases hk : freeSemd (k.unwaited p) sem with ⟨failed, k'⟩
    rw [hk] at hfree hkeep'
    have hres : outBlocked k (some p) = (if failed then none else some p, k') := by
      simp only [outBlocked, hf, hmem, hnil, hk, if_true]
      cases failed <;> rfl
    rw [hres]
    refine ⟨m', ?_, hkeep'⟩
    simp only [NucleusHeap.outBlocked, hfind, hcontains, hdel, hempty, hfree, Bool.not_true,
      Bool.false_eq_true, if_false, if_true, Option.bind_eq_bind, Option.bind_some, Option.pure_def]
  · rw [List.isEmpty_eq_false_iff.mpr hnil] at hempty
    have hres : outBlocked k (some p) = (some p, k.unwaited p) := by
      simp only [outBlocked, hf, hmem, hnil, if_true, if_false]
    rw [hres]
    refine ⟨_, ?_, hkeep⟩
    simp only [NucleusHeap.outBlocked, hfind, hcontains, hdel, hempty, Bool.not_true,
      Bool.false_eq_true, if_false, Option.bind_eq_bind, Option.bind_some, Option.pure_def]

/-- `out_blocked`. -/
theorem outBlocked_keeps (h : Keeps m k) (p : Option PcbId) :
    ∃ m', m.outBlocked p = some ((outBlocked k p).1, m') ∧ Keeps m' (outBlocked k p).2 := by
  cases p with
  | none => exact ⟨m, rfl, h⟩
  | some p =>
      have hcopy := h
      rcases h with ⟨L, born, h⟩
      have hfind := findSemd_keeps hcopy .semdH (m.pcbs.pcb p).pSemAdd
      have hsem := h.agrees.pSemAdd p
      cases hf : findSemd k .semdH (k.pcb p).pSemAdd with
      | none =>
          have hres : outBlocked k (some p) = (none, k) := by
            simp only [outBlocked, hf]
          rw [hres]
          rw [hsem, hf, ← hsem] at hfind
          refine ⟨m, ?_, hcopy⟩
          simp only [NucleusHeap.outBlocked, hfind, Option.bind_eq_bind, Option.bind_some,
            Option.pure_def]
      | some sem =>
          have hs : headCell (.sProcq sem) ∈ L.heads :=
            h.shape.heads _ (inUse_sProcq (findSemd_mem hf))
          have hcontains : m.pcbs.links.listContains listRounds (some (.pList p))
              (some (.queue (.sProcq sem))) = some (decide (p ∈ k.procq (.sProcq sem))) := by
            have hc := contains_list h.pointers hs p (queue_length L _)
            rw [h.shape.queues] at hc
            exact hc
          rw [hsem, hf, ← hsem] at hfind
          by_cases hmem : p ∈ k.procq (.sProcq sem)
          · rw [decide_eq_true hmem] at hcontains
            exact outBlocked_queued hcopy hf hfind hcontains hmem
          · rw [decide_eq_false hmem] at hcontains
            have hres : outBlocked k (some p) = (none, k) := by
              simp only [outBlocked, hf, hmem, if_false]
            rw [hres]
            refine ⟨m, ?_, hcopy⟩
            simp only [NucleusHeap.outBlocked, hfind, hcontains, Bool.not_false, if_true,
              Option.bind_eq_bind, Option.bind_some, Option.pure_def]

/-- `head_blocked`. A descriptor in use has somebody in its queue. -/
theorem headBlocked_keeps (h : Keeps m k) (hw : AslWf k) (semAddr : Option Word) :
    m.headBlocked semAddr = some (headBlocked k semAddr) := by
  cases semAddr with
  | none => rfl
  | some a =>
      have hfind := findSemd_keeps h .semdH (some a)
      unfold headBlocked
      cases hf : findSemd k .semdH (some a) with
      | none =>
          simp only [NucleusHeap.headBlocked, hfind, hf, Option.bind_eq_bind, Option.bind_some,
            Option.pure_def]
      | some sem =>
          rcases h with ⟨L, born, h⟩
          have hi := findSemd_mem hf
          have hs : headCell (.sProcq sem) ∈ L.heads := h.shape.heads _ (inUse_sProcq hi)
          rcases List.exists_cons_of_ne_nil (hw.waiting sem hi) with ⟨p, ps, hq⟩
          have hnext : m.pcbs.links.getNext (some (.queue (.sProcq sem)))
              = some (some (.pList p)) :=
            next_list h.pointers hs ((h.shape.queues _).trans hq)
          simp only [NucleusHeap.headBlocked, hfind, hf, hq, hnext, PcbHeap.containerOf,
            List.head?_cons, Option.bind_eq_bind, Option.bind_some, Option.pure_def]

/-- `remove_blocked`. -/
theorem removeBlocked_keeps (h : Keeps m k) (hw : AslWf k) (semAddr : Option Word) :
    ∃ m', m.removeBlocked semAddr = some ((removeBlocked k semAddr).1, m') ∧
      Keeps m' (removeBlocked k semAddr).2 := by
  rcases outBlocked_keeps h (headBlocked k semAddr) with ⟨m', hrun, hkeep⟩
  refine ⟨m', ?_, hkeep⟩
  simp only [NucleusHeap.removeBlocked, headBlocked_keeps h hw, hrun, Option.bind_eq_bind,
    Option.bind_some]
  rfl

end Pandos
