import Mathlib.Data.Fintype.EquivFin
import Pandos.Theory.Places
import Pandos.Theory.Pointers

/-!
# The Active Semaphore List

What the list is for: it maps every key to the queue of the processes blocked
on it. `waiters` reads that map off the descriptors, and each operation of the
list is characterised by what it does to the places of processes.

The invariant `AslWf` ties the descriptors to the map. Its clause `waiting`,
that a descriptor in use has a waiter, is what keeps the list from running
out: a block that is about to be queued is itself no waiter, so at most
`MAX_PROC - 1` descriptors can be in use and one is left to allocate.

## Main definitions

* `AslWf`: The invariant of the descriptors.

## Theorems

* `keyCmp_eq_zero_iff`: The narrowed pointer difference decides equality.
* `findSemd_some_iff`: A search finds the descriptor of its key.
* `semdFree_ne_nil`: A block that is not queued leaves a free descriptor.
* `insertBlocked_spec`: Insertion appends to the queue of its key.
* `outBlocked_spec`: Removal takes a block out of the queue it is in.
* `removeBlocked_nil`, `removeBlocked_cons`: Removal takes the longest waiter.
-/

namespace Pandos

/-- The invariant of the descriptors. -/
structure AslWf (k : Kernel) : Prop where
  procq : k.procq.Wf
  slink : k.slink.Wf
  listed : ∀ i, i ∈ k.slink .semdFree ∨ i ∈ k.slink .semdH
  waiting : ∀ i ∈ k.slink .semdH, k.procq (.sProcq i) ≠ []
  idle : ∀ i ∈ k.slink .semdFree, k.procq (.sProcq i) = []
  aligned : ∀ i ∈ k.slink .semdH, Aligned (k.sKey i)
  key_inj : ∀ i ∈ k.slink .semdH, ∀ j ∈ k.slink .semdH, k.sKey i = k.sKey j → i = j
  queued : ∀ i p, p ∈ k.procq (.sProcq i) → (k.pcb p).pSemAdd = some (k.sKey i)
  blocked : ∀ p a, (k.pcb p).pSemAdd = some a → p ∉ k.procq .pcbFree →
    ∃ i ∈ k.slink .semdH, k.sKey i = a ∧ p ∈ k.procq (.sProcq i)

/-! ## Keys -/

/-- Two word aligned addresses differ by a multiple of four, so the scaled
    difference is zero only for equal ones. -/
theorem keyCmp_eq_zero_iff {a b : Word} (ha : Aligned a) (hb : Aligned b) :
    keyCmp a b = 0 ↔ a = b := by
  have hnarrow := narrow_sub_eq_zero_iff (⟨a, ha⟩ : IntPtr 32) ⟨b, hb⟩
  rw [BitVec.signExtend_eq, alias_iff_eq (by decide)] at hnarrow
  refine hnarrow.trans ⟨fun h => congrArg IntPtr.addr h, fun h => ?_⟩
  exact IntPtr.ext_toNat (congrArg BitVec.toNat h)

/-- A search for a word aligned key finds the descriptor that carries it. -/
theorem findSemd_some_iff {k : Kernel} (hw : AslWf k) {a : Word} (ha : Aligned a) (i : SemdId) :
    findSemd k .semdH (some a) = some i ↔ i ∈ k.slink .semdH ∧ k.sKey i = a := by
  have hkey : ∀ j ∈ k.slink .semdH, (keyCmp a (k.sKey j) == 0) = true ↔ k.sKey j = a := by
    intro j hj
    rw [beq_iff_eq, keyCmp_eq_zero_iff ha (hw.aligned j hj)]
    exact eq_comm
  constructor
  · intro h
    rw [findSemd] at h
    have hmem := List.mem_of_find?_eq_some h
    have hbeq := List.find?_some h
    exact ⟨hmem, (hkey i hmem).mp hbeq⟩
  · rintro ⟨hmem, heq⟩
    have hsome : (findSemd k .semdH (some a)).isSome := by
      rw [findSemd, List.find?_isSome]
      exact ⟨i, hmem, (hkey i hmem).mpr heq⟩
    rcases Option.isSome_iff_exists.mp hsome with ⟨j, hj⟩
    have hj' := hj
    rw [findSemd] at hj'
    have hjmem := List.mem_of_find?_eq_some hj'
    have hbeq := List.find?_some hj'
    have hjkey := (hkey j hjmem).mp hbeq
    rw [hj, hw.key_inj j hjmem i hmem (hjkey.trans heq.symm)]

theorem findSemd_none_iff {k : Kernel} (hw : AslWf k) {a : Word} (ha : Aligned a) :
    findSemd k .semdH (some a) = none ↔ ∀ i ∈ k.slink .semdH, k.sKey i ≠ a := by
  constructor
  · intro h i hi heq
    rw [(findSemd_some_iff hw ha i).mpr ⟨hi, heq⟩] at h
    exact absurd h (by simp only [reduceCtorEq, not_false_eq_true])
  · intro h
    cases hf : findSemd k .semdH (some a) with
    | none => rfl
    | some i =>
        rcases (findSemd_some_iff hw ha i).mp hf with ⟨hi, heq⟩
        exact absurd heq (h i hi)

/-! ## The queues of waiting processes -/

theorem waiters_of_key {k : Kernel} (hinj : ∀ i ∈ k.slink .semdH, ∀ j ∈ k.slink .semdH,
    k.sKey i = k.sKey j → i = j) {i : SemdId} {a : Word} (hi : i ∈ k.slink .semdH)
    (ha : k.sKey i = a) : waiters k a = k.procq (.sProcq i) := by
  have hsome : ((k.slink .semdH).find? (fun i => k.sKey i == a)).isSome := by
    rw [List.find?_isSome]
    exact ⟨i, hi, beq_iff_eq.mpr ha⟩
  rcases Option.isSome_iff_exists.mp hsome with ⟨j, hj⟩
  have hbeq := List.find?_some hj
  have hjkey : k.sKey j = a := beq_iff_eq.mp hbeq
  rw [waiters, hj]
  simp only []
  rw [hinj j (List.mem_of_find?_eq_some hj) i hi (hjkey.trans ha.symm)]

theorem waiters_of_no_key {k : Kernel} {a : Word} (h : ∀ i ∈ k.slink .semdH, k.sKey i ≠ a) :
    waiters k a = [] := by
  have hnone : (k.slink .semdH).find? (fun i => k.sKey i == a) = none := by
    rw [List.find?_eq_none]
    intro i hi hb
    exact h i hi (beq_iff_eq.mp hb)
  rw [waiters, hnone]

/-- A process waits on a key exactly when it stands in the queue of the
    descriptor in use that carries the key. -/
theorem mem_waiters_iff {k : Kernel} (hw : AslWf k) (a : Word) (p : PcbId) :
    p ∈ waiters k a ↔ ∃ i ∈ k.slink .semdH, k.sKey i = a ∧ p ∈ k.procq (.sProcq i) := by
  constructor
  · intro hp
    by_cases h : ∃ i ∈ k.slink .semdH, k.sKey i = a
    · rcases h with ⟨i, hi, ha⟩
      rw [waiters_of_key hw.key_inj hi ha] at hp
      exact ⟨i, hi, ha, hp⟩
    · rw [waiters_of_no_key (fun i hi ha => h ⟨i, hi, ha⟩)] at hp
      exact absurd hp List.not_mem_nil
  · rintro ⟨i, hi, ha, hp⟩
    rw [waiters_of_key hw.key_inj hi ha]
    exact hp

theorem waiters_nodup {k : Kernel} (hw : AslWf k) (a : Word) : (waiters k a).Nodup := by
  by_cases h : ∃ i ∈ k.slink .semdH, k.sKey i = a
  · rcases h with ⟨i, hi, ha⟩
    rw [waiters_of_key hw.key_inj hi ha]
    exact hw.procq.nodup _
  · rw [waiters_of_no_key (fun i hi ha => h ⟨i, hi, ha⟩)]
    exact List.nodup_nil

theorem semAdd_of_mem_waiters {k : Kernel} (hw : AslWf k) {a : Word} {p : PcbId}
    (hp : p ∈ waiters k a) : (k.pcb p).pSemAdd = some a := by
  rcases (mem_waiters_iff hw a p).mp hp with ⟨i, _, ha, hq⟩
  rw [hw.queued i p hq, ha]

theorem not_free_of_mem_waiters {k : Kernel} (hw : AslWf k) {a : Word} {p : PcbId}
    (hp : p ∈ waiters k a) : p ∉ k.procq .pcbFree := by
  rcases (mem_waiters_iff hw a p).mp hp with ⟨i, _, _, hq⟩
  intro hf
  exact absurd (hw.procq.unique _ _ p hf hq) (by simp only [reduceCtorEq, not_false_eq_true])

theorem mem_waiters_of_semAdd {k : Kernel} (hw : AslWf k) {a : Word} {p : PcbId}
    (hp : (k.pcb p).pSemAdd = some a) (hf : p ∉ k.procq .pcbFree) : p ∈ waiters k a :=
  (mem_waiters_iff hw a p).mpr (hw.blocked p a hp hf)

/-- A descriptor whose queue is not empty is in use. -/
theorem semdH_of_mem_procq {k : Kernel} (hw : AslWf k) {i : SemdId} {p : PcbId}
    (hp : p ∈ k.procq (.sProcq i)) : i ∈ k.slink .semdH := by
  rcases hw.listed i with hi | hi
  · rw [hw.idle i hi] at hp
    exact absurd hp List.not_mem_nil
  · exact hi

theorem mem_waiters_of_mem_procq {k : Kernel} (hw : AslWf k) {i : SemdId} {p : PcbId}
    (hp : p ∈ k.procq (.sProcq i)) : p ∈ waiters k (k.sKey i) :=
  (mem_waiters_iff hw _ p).mpr ⟨i, semdH_of_mem_procq hw hp, rfl, hp⟩

theorem semdH_not_free {k : Kernel} (hw : AslWf k) {i : SemdId} (hi : i ∈ k.slink .semdH) :
    i ∉ k.slink .semdFree := by
  intro hf
  exact absurd (hw.slink.unique _ _ i hi hf) (by simp only [reduceCtorEq, not_false_eq_true])

/-! ## Exhaustion -/

/-- If every descriptor were in use, each would have a waiter of its own, and
    there are as many descriptors as blocks: every block would be waiting. A
    block in no queue is therefore enough for a descriptor to be free. -/
theorem semdFree_ne_nil {k : Kernel} (hw : AslWf k) {p : PcbId} (hp : k.procq.Null p) :
    k.slink .semdFree ≠ [] := by
  intro hnil
  have huse : ∀ i, i ∈ k.slink .semdH := by
    intro i
    rcases hw.listed i with hi | hi
    · rw [hnil] at hi
      exact absurd hi List.not_mem_nil
    · exact hi
  have hhead : ∀ i, ∃ q, q ∈ k.procq (.sProcq i) :=
    fun i => List.exists_mem_of_ne_nil _ (hw.waiting i (huse i))
  choose f hf using hhead
  have hinj : Function.Injective f := by
    intro i j hij
    have hj : f i ∈ k.procq (.sProcq j) := by
      rw [hij]
      exact hf j
    exact ProcQ.sProcq.inj (hw.procq.unique _ _ (f i) (hf i) hj)
  rcases Finite.surjective_of_injective hinj p with ⟨i, hi⟩
  exact hp (.sProcq i) (hi ▸ hf i)

/-! ## Insertion -/

/-- The records after one process was given the semaphore it waits on. -/
def setSemAdd (k : Kernel) (p : PcbId) (a : Option Word) : PcbId → Pcb :=
  fun r => if r = p then { k.pcb p with pSemAdd := a } else k.pcb r

/-- The state after a process was appended to the queue of a descriptor that
    carries the key from now on. -/
def queuedOn (k : Kernel) (s : Queues SemdList SemdId) (sem : SemdId) (a : Word) (p : PcbId) :
    Kernel :=
  { k with
    procq := k.procq.addTail (.sProcq sem) p
    slink := s
    sKey := fun i => if i = sem then a else k.sKey i
    pcb := setSemAdd k p (some a) }

section QueuedOn

variable {k : Kernel} {s : Queues SemdList SemdId} {sem : SemdId} {a : Word} {p : PcbId}

/-- Whether the descriptor was in use before or has just been allocated, the
    invariant holds once a process that stood nowhere is queued on it. -/
theorem aslWf_queuedOn (hw : AslWf k) (ha : Aligned a) (hp : k.procq.Null p) (hs : s.Wf)
    (hH : ∀ i, i ∈ s .semdH ↔ i ∈ k.slink .semdH ∨ i = sem)
    (hF : ∀ i, i ∈ s .semdFree ↔ i ∈ k.slink .semdFree ∧ i ≠ sem)
    (hother : ∀ i ∈ k.slink .semdH, i ≠ sem → k.sKey i ≠ a)
    (hself : sem ∈ k.slink .semdH → k.sKey sem = a) : AslWf (queuedOn k s sem a p) := by
  have hmem : ∀ h r, r ∈ (queuedOn k s sem a p).procq h ↔
      r ∈ k.procq h ∨ (h = .sProcq sem ∧ r = p) :=
    fun h r => Queues.mem_addTail k.procq (.sProcq sem) h p r
  constructor
  · exact Queues.wf_addTail hw.procq _ hp
  · exact hs
  · intro i
    change i ∈ s .semdFree ∨ i ∈ s .semdH
    rw [hF, hH]
    by_cases hi : i = sem
    · exact Or.inr (Or.inr hi)
    · rcases hw.listed i with h | h
      · exact Or.inl ⟨h, hi⟩
      · exact Or.inr (Or.inl h)
  · intro i hi hnil
    rcases (hH i).mp hi with h | h
    · rcases List.exists_mem_of_ne_nil _ (hw.waiting i h) with ⟨r, hr⟩
      have hr' := (hmem (.sProcq i) r).mpr (Or.inl hr)
      rw [hnil] at hr'
      exact absurd hr' List.not_mem_nil
    · have hr' := (hmem (.sProcq i) p).mpr (Or.inr ⟨by rw [h], rfl⟩)
      rw [hnil] at hr'
      exact absurd hr' List.not_mem_nil
  · intro i hi
    rcases (hF i).mp hi with ⟨hfree, hne⟩
    change k.procq.addTail (.sProcq sem) p (.sProcq i) = []
    rw [Queues.addTail_other _ _ _ _ (fun hc => hne (ProcQ.sProcq.inj hc))]
    exact hw.idle i hfree
  · intro i hi
    change Aligned (if i = sem then a else k.sKey i)
    by_cases h : i = sem
    · rw [if_pos h]
      exact ha
    · rw [if_neg h]
      exact hw.aligned i (((hH i).mp hi).resolve_right h)
  · intro i hi j hj hkey
    change (if i = sem then a else k.sKey i) = (if j = sem then a else k.sKey j) at hkey
    -- The descriptor has a key no other active one has.
    by_cases hi' : i = sem <;> by_cases hj' : j = sem
    · rw [hi', hj']
    · rw [if_pos hi', if_neg hj'] at hkey
      exact absurd hkey.symm (hother j (((hH j).mp hj).resolve_right hj') hj')
    · rw [if_neg hi', if_pos hj'] at hkey
      exact absurd hkey (hother i (((hH i).mp hi).resolve_right hi') hi')
    · rw [if_neg hi', if_neg hj'] at hkey
      exact hw.key_inj i (((hH i).mp hi).resolve_right hi') j
        (((hH j).mp hj).resolve_right hj') hkey
  · intro i r hr
    change (setSemAdd k p (some a) r).pSemAdd = some (if i = sem then a else k.sKey i)
    unfold setSemAdd
    rcases (hmem (.sProcq i) r).mp hr with h | ⟨h, h'⟩
    · -- Who stood in a queue before is somebody else, and keeps its key.
      have hrp : r ≠ p := by
        intro hc
        exact hp _ (hc ▸ h)
      rw [if_neg hrp, hw.queued i r h]
      by_cases hi : i = sem
      · rw [if_pos hi, hi, hself (hi ▸ semdH_of_mem_procq hw h)]
      · rw [if_neg hi]
    · rw [if_pos h', if_pos (ProcQ.sProcq.inj h)]
  · intro r b hr hfree
    change (setSemAdd k p (some a) r).pSemAdd = some b at hr
    have hfree' : r ∉ k.procq .pcbFree := fun h => hfree ((hmem _ r).mpr (Or.inl h))
    unfold setSemAdd at hr
    by_cases hrp : r = p
    · rw [if_pos hrp] at hr
      refine ⟨sem, (hH sem).mpr (Or.inr rfl), ?_, (hmem _ r).mpr (Or.inr ⟨rfl, hrp⟩)⟩
      change (if sem = sem then a else k.sKey sem) = b
      rw [if_pos rfl]
      exact Option.some.inj hr
    · rw [if_neg hrp] at hr
      rcases hw.blocked r b hr hfree' with ⟨i, hi, hkey, hq⟩
      refine ⟨i, (hH i).mpr (Or.inl hi), ?_, (hmem _ r).mpr (Or.inl hq)⟩
      change (if i = sem then a else k.sKey i) = b
      by_cases hi' : i = sem
      · rw [if_pos hi', ← hkey, hi', hself (hi' ▸ hi)]
      · rw [if_neg hi', hkey]

/-- Queueing a process on a descriptor appends it to the waiters of its key. -/
theorem places_queuedOn (hw : AslWf k) (hw' : AslWf (queuedOn k s sem a p))
    (hH : ∀ i, i ∈ s .semdH ↔ i ∈ k.slink .semdH ∨ i = sem)
    (hfree : sem ∉ k.slink .semdH → k.procq (.sProcq sem) = [])
    (hother : ∀ i ∈ k.slink .semdH, i ≠ sem → k.sKey i ≠ a)
    (hself : sem ∈ k.slink .semdH → k.sKey sem = a) :
    places (queuedOn k s sem a p) = (places k).block a p := by
  have hwait : waiters (queuedOn k s sem a p)
      = fun b => if b = a then waiters k a ++ [p] else waiters k b := by
    funext b
    by_cases hb : b = a
    · rw [if_pos hb, hb, waiters_of_key hw'.key_inj ((hH sem).mpr (Or.inr rfl))
        (show (if sem = sem then a else k.sKey sem) = a by rw [if_pos rfl])]
      change k.procq.addTail (.sProcq sem) p (.sProcq sem) = waiters k a ++ [p]
      rw [Queues.addTail_self]
      by_cases hmem : sem ∈ k.slink .semdH
      · rw [waiters_of_key hw.key_inj hmem (hself hmem)]
      · rw [hfree hmem, waiters_of_no_key]
        intro i hi
        exact hother i hi (fun hc => hmem (hc ▸ hi))
    · rw [if_neg hb]
      by_cases h : ∃ i ∈ k.slink .semdH, k.sKey i = b
      · rcases h with ⟨i, hi, hkey⟩
        have hne : i ≠ sem := by
          intro hc
          exact hb (by rw [← hkey, hc, hself (hc ▸ hi)])
        rw [waiters_of_key hw.key_inj hi hkey, waiters_of_key hw'.key_inj
          ((hH i).mpr (Or.inl hi)) (show (if i = sem then a else k.sKey i) = b by
            rw [if_neg hne, hkey])]
        exact Queues.addTail_other _ _ _ _ (fun hc => hne (ProcQ.sProcq.inj hc))
      · rw [waiters_of_no_key (k := k) (fun i hi hkey => h ⟨i, hi, hkey⟩), waiters_of_no_key]
        intro i hi hkey
        change (if i = sem then a else k.sKey i) = b at hkey
        by_cases hi' : i = sem
        · rw [if_pos hi'] at hkey
          exact hb hkey.symm
        · rw [if_neg hi'] at hkey
          exact h ⟨i, ((hH i).mp hi).resolve_right hi', hkey⟩
  unfold places Places.block
  rw [hwait]
  rfl

end QueuedOn

/-- Blocking a process that stands nowhere and waits for nothing always
    succeeds, and appends it to the queue of its key. -/
theorem insertBlocked_spec {k : Kernel} (hw : AslWf k) {a : Word} (ha : Aligned a) {p : PcbId}
    (hp : k.procq.Null p) (hs : (k.pcb p).pSemAdd = none) :
    ∃ q s y, insertBlocked k (some a) (some p)
        = (0, { k with procq := q, slink := s, sKey := y, pcb := setSemAdd k p (some a) }) ∧
      AslWf { k with procq := q, slink := s, sKey := y, pcb := setSemAdd k p (some a) } ∧
      places { k with procq := q, slink := s, sKey := y, pcb := setSemAdd k p (some a) }
        = (places k).block a p := by
  cases hf : findSemd k .semdH (some a) with
  | some sem =>
      -- The key has a descriptor already: the list of descriptors stays.
      rcases (findSemd_some_iff hw ha sem).mp hf with ⟨hmem, hkey⟩
      have hkeys : k.sKey = fun i => if i = sem then a else k.sKey i := by
        funext i
        by_cases hi : i = sem
        · rw [if_pos hi, hi, hkey]
        · rw [if_neg hi]
      have hH : ∀ i, i ∈ k.slink .semdH ↔ i ∈ k.slink .semdH ∨ i = sem := by
        intro i
        refine ⟨Or.inl, ?_⟩
        rintro (h | rfl)
        · exact h
        · exact hmem
      have hF : ∀ i, i ∈ k.slink .semdFree ↔ i ∈ k.slink .semdFree ∧ i ≠ sem := by
        intro i
        refine ⟨fun h => ⟨h, ?_⟩, And.left⟩
        rintro rfl
        exact semdH_not_free hw hmem h
      have hother : ∀ i ∈ k.slink .semdH, i ≠ sem → k.sKey i ≠ a :=
        fun i hi hne hc => hne (hw.key_inj i hi sem hmem (hc.trans hkey.symm))
      have hwf := aslWf_queuedOn hw ha hp hw.slink hH hF hother (fun _ => hkey)
      refine ⟨_, k.slink, _, ?_, hwf,
        places_queuedOn hw hwf hH (fun h => absurd hmem h) hother (fun _ => hkey)⟩
      simp only [insertBlocked, hs, ne_eq, not_true_eq_false, if_false, hf, ← hkeys]
      rfl
  | none =>
      -- A descriptor is allocated; one is left because the process is nowhere.
      have hnone := (findSemd_none_iff hw ha).mp hf
      cases hfree : k.slink .semdFree with
      | nil => exact absurd hfree (semdFree_ne_nil hw hp)
      | cons sem rest =>
          have hsem : sem ∈ k.slink .semdFree := by
            rw [hfree]
            exact List.mem_cons_self
          have hnotH : sem ∉ k.slink .semdH := fun h => semdH_not_free hw h hsem
          have hnull : (k.slink.del sem).Null sem :=
            (Queues.null_del hw.slink sem sem).mpr (Or.inr rfl)
          have hwf' := Queues.wf_addHead (Queues.wf_del hw.slink sem) .semdH hnull
          have hH : ∀ i, i ∈ (k.slink.del sem).addHead .semdH sem .semdH ↔
              i ∈ k.slink .semdH ∨ i = sem := by
            intro i
            rw [Queues.mem_addHead, Queues.mem_del hw.slink]
            constructor
            · rintro (h | ⟨_, h⟩)
              · exact Or.inl h.1
              · exact Or.inr h
            · rintro (h | h)
              · exact Or.inl ⟨h, fun hc => hnotH (hc ▸ h)⟩
              · exact Or.inr ⟨rfl, h⟩
          have hF : ∀ i, i ∈ (k.slink.del sem).addHead .semdH sem .semdFree ↔
              i ∈ k.slink .semdFree ∧ i ≠ sem := by
            intro i
            rw [Queues.mem_addHead, Queues.mem_del hw.slink]
            simp only [reduceCtorEq, false_and, or_false]
          have hother : ∀ i ∈ k.slink .semdH, i ≠ sem → k.sKey i ≠ a := fun i hi _ => hnone i hi
          have hwf := aslWf_queuedOn hw ha hp hwf' hH hF hother (fun h => absurd h hnotH)
          refine ⟨_, _, _, ?_, hwf,
            places_queuedOn hw hwf hH (fun _ => hw.idle sem hsem) hother (fun h => absurd h hnotH)⟩
          have hclear : k.procq.clear (.sProcq sem) = k.procq := by
            funext h
            by_cases hh : h = .sProcq sem
            · rw [hh, Queues.clear_self, hw.idle sem hsem]
            · rw [Queues.clear_other _ _ _ hh]
          simp only [insertBlocked, hs, ne_eq, not_true_eq_false, if_false, hf, allocSemd, hfree,
            hclear]
          rfl

/-! ## Removal -/

/-- The state after a process was unlinked from the queue it stood in. -/
def unqueued (k : Kernel) (s : Queues SemdList SemdId) (p : PcbId) : Kernel :=
  { k with procq := k.procq.del p, slink := s, pcb := setSemAdd k p none }

section Unqueued

variable {k : Kernel} {s : Queues SemdList SemdId} {p : PcbId}

/-- The invariant survives an unlink when the descriptors whose queue became
    empty, and no others, were moved to the free list. -/
theorem aslWf_unqueued (hw : AslWf k) (hs : s.Wf)
    (hH : ∀ i, i ∈ s .semdH ↔ i ∈ k.slink .semdH ∧ k.procq.del p (.sProcq i) ≠ [])
    (hF : ∀ i, i ∈ s .semdFree ↔ i ∈ k.slink .semdFree ∨
      (i ∈ k.slink .semdH ∧ k.procq.del p (.sProcq i) = [])) : AslWf (unqueued k s p) := by
  have hmem : ∀ h r, r ∈ (unqueued k s p).procq h ↔ r ∈ k.procq h ∧ r ≠ p :=
    fun h r => Queues.mem_del hw.procq h p r
  constructor
  · exact Queues.wf_del hw.procq p
  · exact hs
  · intro i
    change i ∈ s .semdFree ∨ i ∈ s .semdH
    rw [hF, hH]
    by_cases hnil : k.procq.del p (.sProcq i) = []
    · rcases hw.listed i with h | h
      · exact Or.inl (Or.inl h)
      · exact Or.inl (Or.inr ⟨h, hnil⟩)
    · rcases hw.listed i with h | h
      · exact Or.inl (Or.inl h)
      · exact Or.inr ⟨h, hnil⟩
  · intro i hi
    exact ((hH i).mp hi).2
  · intro i hi
    rcases (hF i).mp hi with h | h
    · change (k.procq (.sProcq i)).erase p = []
      rw [hw.idle i h]
      rfl
    · exact h.2
  · intro i hi
    exact hw.aligned i ((hH i).mp hi).1
  · intro i hi j hj hkey
    exact hw.key_inj i ((hH i).mp hi).1 j ((hH j).mp hj).1 hkey
  · intro i r hr
    rcases (hmem _ r).mp hr with ⟨hq, hne⟩
    change (setSemAdd k p none r).pSemAdd = some (k.sKey i)
    rw [setSemAdd, if_neg hne]
    exact hw.queued i r hq
  · intro r b hr hfree
    change (setSemAdd k p none r).pSemAdd = some b at hr
    unfold setSemAdd at hr
    by_cases hrp : r = p
    · rw [if_pos hrp] at hr
      exact absurd hr (by simp only [reduceCtorEq, not_false_eq_true])
    · rw [if_neg hrp] at hr
      rcases hw.blocked r b hr (fun h => hfree ((hmem _ r).mpr ⟨h, hrp⟩)) with ⟨i, hi, hkey, hq⟩
      have hq' : r ∈ k.procq.del p (.sProcq i) := (hmem _ r).mpr ⟨hq, hrp⟩
      exact ⟨i, (hH i).mpr ⟨hi, List.ne_nil_of_mem hq'⟩, hkey, hq'⟩

theorem places_unqueued (hw : AslWf k) (hw' : AslWf (unqueued k s p))
    (hH : ∀ i, i ∈ s .semdH ↔ i ∈ k.slink .semdH ∧ k.procq.del p (.sProcq i) ≠ []) :
    places (unqueued k s p) = (places k).remove p := by
  have hwait : waiters (unqueued k s p) = fun b => (waiters k b).erase p := by
    funext b
    by_cases h : ∃ i ∈ k.slink .semdH, k.sKey i = b
    · rcases h with ⟨i, hi, hkey⟩
      rw [waiters_of_key hw.key_inj hi hkey]
      by_cases hnil : k.procq.del p (.sProcq i) = []
      · -- The descriptor was freed, and nobody is left on its key.
        rw [waiters_of_no_key]
        · exact hnil.symm
        · intro j hj hkey'
          have hj' := (hH j).mp hj
          exact hj'.2 (by rw [hw.key_inj j hj'.1 i hi (hkey'.trans hkey.symm), hnil])
      · rw [waiters_of_key hw'.key_inj ((hH i).mpr ⟨hi, hnil⟩) hkey]
        rfl
    · rw [waiters_of_no_key (k := k) (fun i hi hkey => h ⟨i, hi, hkey⟩), waiters_of_no_key]
      · rfl
      · intro i hi hkey
        exact h ⟨i, ((hH i).mp hi).1, hkey⟩
  unfold places Places.remove
  rw [hwait]
  rfl

end Unqueued

/-- A process that waits on a key is taken out of its queue, and its descriptor
    goes back to the free list if nobody else waits. -/
theorem outBlocked_spec {k : Kernel} (hw : AslWf k) {a : Word} {p : PcbId}
    (hp : p ∈ waiters k a) :
    ∃ s, outBlocked k (some p)
        = (some p, { k with procq := k.procq.del p, slink := s, pcb := setSemAdd k p none }) ∧
      AslWf { k with procq := k.procq.del p, slink := s, pcb := setSemAdd k p none } ∧
      places { k with procq := k.procq.del p, slink := s, pcb := setSemAdd k p none }
        = (places k).remove p := by
  have hsem := semAdd_of_mem_waiters hw hp
  rcases (mem_waiters_iff hw a p).mp hp with ⟨i, hi, hkey, hq⟩
  have ha : Aligned a := hkey ▸ hw.aligned i hi
  have hf := (findSemd_some_iff hw ha i).mpr ⟨hi, hkey⟩
  -- Only the queue of this descriptor lost a process.
  have hne : ∀ j ∈ k.slink .semdH, j ≠ i → k.procq.del p (.sProcq j) ≠ [] := by
    intro j hj hji
    rw [Queues.del_other hw.procq hq (fun hc => hji (ProcQ.sProcq.inj hc))]
    exact hw.waiting j hj
  -- A descriptor whose queue became empty goes to the free list.
  by_cases hnil : k.procq.del p (.sProcq i) = []
  · have hnull : (k.slink.del i).Null i := (Queues.null_del hw.slink i i).mpr (Or.inr rfl)
    have hs := Queues.wf_addHead (Queues.wf_del hw.slink i) .semdFree hnull
    have hH : ∀ j, j ∈ (k.slink.del i).addHead .semdFree i .semdH ↔
        j ∈ k.slink .semdH ∧ k.procq.del p (.sProcq j) ≠ [] := by
      intro j
      rw [Queues.mem_addHead, Queues.mem_del hw.slink]
      simp only [reduceCtorEq, false_and, or_false]
      constructor
      · rintro ⟨h, hji⟩
        exact ⟨h, hne j h hji⟩
      · rintro ⟨h, hj⟩
        exact ⟨h, fun hc => hj (hc ▸ hnil)⟩
    have hF : ∀ j, j ∈ (k.slink.del i).addHead .semdFree i .semdFree ↔ j ∈ k.slink .semdFree ∨
        (j ∈ k.slink .semdH ∧ k.procq.del p (.sProcq j) = []) := by
      intro j
      rw [Queues.mem_addHead, Queues.mem_del hw.slink]
      constructor
      · rintro (h | ⟨_, rfl⟩)
        · exact Or.inl h.1
        · exact Or.inr ⟨hi, hnil⟩
      · rintro (h | ⟨h, hj⟩)
        · exact Or.inl ⟨h, fun hc => semdH_not_free hw hi (hc ▸ h)⟩
        · by_cases hji : j = i
          · exact Or.inr ⟨rfl, hji⟩
          · exact absurd hj (hne j h hji)
    have hwf := aslWf_unqueued hw hs hH hF
    refine ⟨_, ?_, hwf, places_unqueued hw hwf hH⟩
    simp only [outBlocked, hsem, hf, if_pos hq, listSdel, Kernel.modPcb, hnil, freeSemd, ne_eq,
      not_true_eq_false, if_false, if_true]
    rfl
  · have hH : ∀ j, j ∈ k.slink .semdH ↔
        j ∈ k.slink .semdH ∧ k.procq.del p (.sProcq j) ≠ [] := by
      intro j
      refine ⟨fun h => ⟨h, ?_⟩, And.left⟩
      by_cases hji : j = i
      · rw [hji]
        exact hnil
      · exact hne j h hji
    have hF : ∀ j, j ∈ k.slink .semdFree ↔ j ∈ k.slink .semdFree ∨
        (j ∈ k.slink .semdH ∧ k.procq.del p (.sProcq j) = []) := by
      intro j
      refine ⟨Or.inl, ?_⟩
      rintro (h | ⟨h, hj⟩)
      · exact h
      · exact absurd hj ((hH j).mp h).2
    have hwf := aslWf_unqueued hw hw.slink hH hF
    refine ⟨k.slink, ?_, hwf, places_unqueued hw hwf hH⟩
    simp only [outBlocked, hsem, hf, if_pos hq]
    exact if_neg hnil

theorem headBlocked_eq {k : Kernel} (hw : AslWf k) {a : Word} (ha : Aligned a) :
    headBlocked k (some a) = (waiters k a).head? := by
  unfold headBlocked
  cases hf : findSemd k .semdH (some a) with
  | none =>
      rw [waiters_of_no_key ((findSemd_none_iff hw ha).mp hf)]
      rfl
  | some i =>
      rcases (findSemd_some_iff hw ha i).mp hf with ⟨hi, hkey⟩
      rw [waiters_of_key hw.key_inj hi hkey]

theorem removeBlocked_nil {k : Kernel} (hw : AslWf k) {a : Word} (ha : Aligned a)
    (h : waiters k a = []) : removeBlocked k (some a) = (none, k) := by
  rw [removeBlocked, headBlocked_eq hw ha, h]
  rfl

theorem removeBlocked_cons {k : Kernel} (hw : AslWf k) {a : Word} (ha : Aligned a) {p : PcbId}
    {ps : List PcbId} (h : waiters k a = p :: ps) :
    ∃ s, removeBlocked k (some a)
        = (some p, { k with procq := k.procq.del p, slink := s, pcb := setSemAdd k p none }) ∧
      AslWf { k with procq := k.procq.del p, slink := s, pcb := setSemAdd k p none } ∧
      places { k with procq := k.procq.del p, slink := s, pcb := setSemAdd k p none }
        = (places k).remove p := by
  have hp : p ∈ waiters k a := by
    rw [h]
    exact List.mem_cons_self
  rw [removeBlocked, headBlocked_eq hw ha, h]
  exact outBlocked_spec hw hp

end Pandos
