import Pandos.Theory.Replay

/-!
# The Active Semaphore List as a Map of Queues

The list on its own, driven by any sequence of calls from its initialisation.
Its purpose is a map from addresses to queues of blocks: insertion appends,
removal takes the first block or a given one. Every run of the list is, with
the same answers, a run of that map.

## Main definitions

* `AslCall`, `AslAnswer`: The calls of the interface and their answers.
* `AslCall.Allowed`: What a caller promises.
* `semaphoreList`: The runs of the list.
* `Serves`, `waitingLists`: The runs of a map of queues.
* `ListShape`: The shape of the list between two calls.

## Theorems

* `insert_serves`, `out_serves`, `remove_serves`, `head_serves`, `alloc_serves`,
  `ready_serves`, `unready_serves`: Each call does what the map does.
* `semaphore_list_exact`: The list is well formed in every run, refines the map
  and never runs out of descriptors.
-/

namespace Pandos

/-- A call of the list, or of the operations that move blocks between the free
    list, the ready queues and the hands of the caller. -/
inductive AslCall
  | alloc
  | insert (semAddr : Option Word) (p : Option PcbId)
  | out (p : Option PcbId)
  | head (semAddr : Option Word)
  | remove (semAddr : Option Word)
  | ready (p : PcbId)
  | unready (p : PcbId)

/-- What a call returns: a code, or a block. -/
inductive AslAnswer
  | code (n : Nat)
  | block (p : Option PcbId)
  deriving DecidableEq

/-- A code that is not zero, or no block. -/
def AslAnswer.failed : AslAnswer → Bool
  | code n => n != 0
  | block p => p.isNone

def AslAnswer.ofCode (r : Nat × Kernel) : AslAnswer × Kernel := (.code r.1, r.2)

def AslAnswer.ofBlock (r : Option PcbId × Kernel) : AslAnswer × Kernel := (.block r.1, r.2)

/-- The answer to a call, and the state after it. -/
def AslCall.run (k : Kernel) : AslCall → AslAnswer × Kernel
  | alloc => AslAnswer.ofBlock (allocPcb k)
  | insert semAddr p => AslAnswer.ofCode (insertBlocked k semAddr p)
  | out p => AslAnswer.ofBlock (outBlocked k p)
  | head semAddr => (.block (headBlocked k semAddr), k)
  | remove semAddr => AslAnswer.ofBlock (removeBlocked k semAddr)
  | ready p => (.code 0, enqueueProcess k p)
  | unready p => AslAnswer.ofBlock (dequeueProcess k p)

/-- What a caller promises: keys are word aligned, a block that is inserted was
    allocated and stands in no ready queue, and one that becomes ready stands
    in no queue at all. -/
def AslCall.Allowed (k : Kernel) : AslCall → Prop
  | insert semAddr p => (∀ a ∈ semAddr, Aligned a) ∧
      ∀ q ∈ p, q ∉ k.procq .pcbFree ∧ q ∉ k.procq .readyQueueLo ∧ q ∉ k.procq .readyQueueHi
  | head semAddr => ∀ a ∈ semAddr, Aligned a
  | remove semAddr => ∀ a ∈ semAddr, Aligned a
  | ready p => k.procq.Null p
  | _ => True

/-- The runs of the list, with the answers to all calls. -/
def semaphoreList : System Kernel (AslCall × AslAnswer) where
  init k := ∃ k₀ : Kernel, k₀.procq = (fun _ => []) ∧ initAsl (initPcbs k₀) = k
  step k c k' := c.1.Allowed k ∧ c.1.run k = (c.2, k')

/-- What a map of queues does on a call. -/
inductive Serves (w : Word → List PcbId) : AslCall → AslAnswer → (Word → List PcbId) → Prop
  | alloc (r : Option PcbId) : Serves w .alloc (.block r) w
  | noKey (p : Option PcbId) : Serves w (.insert none p) (.code 1) w
  | noBlock (a : Word) : Serves w (.insert (some a) none) (.code 2) w
  | again {a b : Word} {p : PcbId} (h : p ∈ w b) : Serves w (.insert (some a) (some p)) (.code 3) w
  | insert {a : Word} {p : PcbId} (h : ∀ b, p ∉ w b) :
      Serves w (.insert (some a) (some p)) (.code 0) (fun b => if b = a then w a ++ [p] else w b)
  | outNone : Serves w (.out none) (.block none) w
  | outMiss {p : PcbId} (h : ∀ b, p ∉ w b) : Serves w (.out (some p)) (.block none) w
  | out {b : Word} {p : PcbId} (h : p ∈ w b) :
      Serves w (.out (some p)) (.block (some p)) (fun b => (w b).erase p)
  | headNone : Serves w (.head none) (.block none) w
  | head (a : Word) : Serves w (.head (some a)) (.block (w a).head?) w
  | removeNone : Serves w (.remove none) (.block none) w
  | remove (a : Word) : Serves w (.remove (some a)) (.block (w a).head?)
      (fun b => if b = a then (w a).tail else w b)
  | ready (p : PcbId) : Serves w (.ready p) (.code 0) w
  | unready (p : PcbId) (r : Option PcbId) : Serves w (.unready p) (.block r) w

/-- The runs of a map of queues, all of them empty at first. -/
def waitingLists : System (Word → List PcbId) (AslCall × AslAnswer) where
  init w := ∀ a, w a = []
  step w c w' := Serves w c.1 c.2 w'

/-- The shape of the list between two calls. -/
structure ListShape (k : Kernel) : Prop where
  nodup : ∀ s, (k.slink s).Nodup
  partition : ∀ i, i ∈ k.slink .semdFree ↔ i ∉ k.slink .semdH
  keys : ∀ i ∈ k.slink .semdH, ∀ j ∈ k.slink .semdH, k.sKey i = k.sKey j → i = j
  busy : ∀ i ∈ k.slink .semdH, k.procq (.sProcq i) ≠ []
  idle : ∀ i ∈ k.slink .semdFree, k.procq (.sProcq i) = []
  blocked : ∀ p, p ∉ k.procq .pcbFree → ∀ i ∈ k.slink .semdH,
    (p ∈ k.procq (.sProcq i) ↔ (k.pcb p).pSemAdd = some (k.sKey i))
  queue : ∀ i ∈ k.slink .semdH, waiters k (k.sKey i) = k.procq (.sProcq i)

theorem shape_of_aslWf {k : Kernel} (hw : AslWf k) : ListShape k := by
  refine ⟨hw.slink.nodup, fun i => ⟨fun hf hH => semdH_not_free hw hH hf,
    fun hH => (hw.listed i).resolve_right hH⟩, hw.key_inj, hw.waiting, hw.idle, fun p hf i hi => ?_,
    fun i hi => waiters_of_key hw.key_inj hi rfl⟩
  constructor
  · exact hw.queued i p
  · intro hs
    rcases hw.blocked p _ hs hf with ⟨j, hj, hkey, hq⟩
    rwa [hw.key_inj j hj i hi hkey] at hq

/-! ## The calls -/

section Calls

variable {k : Kernel}

/-- The state after a block was allocated. -/
theorem alloc_serves (hw : AslWf k) :
    AslWf (allocPcb k).2 ∧ waiters (allocPcb k).2 = waiters k ∧
      ((allocPcb k).1 = none → (allocPcb k).2 = k) := by
  unfold allocPcb
  cases hf : k.procq .pcbFree with
  | nil => exact ⟨hw, rfl, fun _ => rfl⟩
  | cons p ps =>
      have hp : p ∈ k.procq .pcbFree := hf ▸ List.mem_cons_self
      have hnull : (k.procq.del p).Null p := (Queues.null_del hw.procq p p).mpr (Or.inr rfl)
      have hq : (k.procq.del p).del p = (allocated k 0 p).procq := Queues.del_of_null hnull
      have hs : ∀ q, ((nullPcb { k with procq := k.procq.del p } p).pcb q).pSemAdd
          = ((allocated k 0 p).pcb q).pSemAdd := by
        intro q
        by_cases hqp : q = p
        · simp only [nullPcb, Kernel.modPcb, allocated, if_pos hqp]
        · simp only [nullPcb, Kernel.modPcb, allocated, if_neg hqp]
      have hpl : places (nullPcb { k with procq := k.procq.del p } p) = places (allocated k 0 p) :=
        places_congr hq rfl rfl
      refine ⟨aslWf_congr (aslWf_allocated hw 0 hp) hq rfl rfl hs, ?_, fun h => absurd h (by
        simp only [reduceCtorEq, not_false_eq_true])⟩
      funext a
      rw [← waiters_allocated hw 0 hp a]
      exact congrFun (congrArg Places.wait hpl) a

/-- A block that may be inserted waits for nothing or stands in a queue of the
    list. -/
theorem null_of_allowed (hw : AslWf k) {p : PcbId} (hf : p ∉ k.procq .pcbFree)
    (hlo : p ∉ k.procq .readyQueueLo) (hhi : p ∉ k.procq .readyQueueHi)
    (hs : (k.pcb p).pSemAdd = none) : k.procq.Null p := by
  intro h
  cases h with
  | pcbFree => exact hf
  | readyQueueLo => exact hlo
  | readyQueueHi => exact hhi
  | sProcq i =>
      intro hq
      have hsome := hw.queued i p hq
      rw [hs] at hsome
      exact absurd hsome (by simp only [reduceCtorEq, not_false_eq_true])

/-- Insertion appends the block, and it fails only for a missing argument or a
    block that waits already. -/
theorem insert_serves (hw : AslWf k) {semAddr : Option Word} {p : Option PcbId}
    (ha : (AslCall.insert semAddr p).Allowed k) : ∃ n k', insertBlocked k semAddr p = (n, k') ∧
      AslWf k' ∧ Serves (waiters k) (.insert semAddr p) (.code n) (waiters k') ∧
      (n ≠ 0 → k' = k) ∧ ∀ q, semAddr ≠ none → p = some q → (k.pcb q).pSemAdd = none → n = 0 := by
  cases semAddr with
  | none =>
      exact ⟨1, k, rfl, hw, Serves.noKey p, fun _ => rfl, fun q h => absurd rfl h⟩
  | some a =>
      cases p with
      | none => exact ⟨2, k, rfl, hw, Serves.noBlock a, fun _ => rfl, fun q _ h => absurd h (by
          simp only [reduceCtorEq, not_false_eq_true])⟩
      | some p =>
          rcases ha.2 p rfl with ⟨hf, hlo, hhi⟩
          cases hs : (k.pcb p).pSemAdd with
          | some b =>
              refine ⟨3, k, ?_, hw, Serves.again (mem_waiters_of_semAdd hw hs hf), fun _ => rfl,
                fun q _ hq hn => ?_⟩
              · simp only [insertBlocked, hs, ne_eq, reduceCtorEq, not_false_eq_true, if_true]
              · rw [← Option.some.inj hq, hs] at hn
                exact absurd hn (by simp only [reduceCtorEq, not_false_eq_true])
          | none =>
              have hnull := null_of_allowed hw hf hlo hhi hs
              rcases insertBlocked_spec hw (ha.1 a rfl) hnull hs with ⟨q, s, y, heq, hwf, hpl⟩
              refine ⟨0, _, heq, hwf, ?_, fun h => absurd rfl h, fun _ _ _ _ => rfl⟩
              have hwait := congrArg Places.wait hpl
              change waiters _ = fun b => if b = a then waiters k a ++ [p] else waiters k b at hwait
              rw [hwait]
              exact Serves.insert ((nowhere_iff hw p).mp hnull).2.2.2

/-- A block in no queue of the list is not found. -/
theorem outBlocked_absent {p : PcbId} (h : ∀ i, p ∉ k.procq (.sProcq i)) :
    outBlocked k (some p) = (none, k) := by
  cases hf : findSemd k .semdH (k.pcb p).pSemAdd with
  | none => simp only [outBlocked, hf]
  | some i => simp only [outBlocked, hf, if_neg (h i)]

/-- Taking a block out removes it from its queue, and it fails only for a block
    in no queue. -/
theorem out_serves (hw : AslWf k) (p : Option PcbId) : ∃ r k', outBlocked k p = (r, k') ∧
    AslWf k' ∧ Serves (waiters k) (.out p) (.block r) (waiters k') ∧ (r = none → k' = k) := by
  cases p with
  | none => exact ⟨none, k, rfl, hw, Serves.outNone, fun _ => rfl⟩
  | some p =>
      by_cases h : ∃ i, p ∈ k.procq (.sProcq i)
      · rcases h with ⟨i, hi⟩
        have hmem := mem_waiters_of_mem_procq hw hi
        rcases outBlocked_spec hw hmem with ⟨s, heq, hwf, hpl⟩
        refine ⟨some p, _, heq, hwf, ?_, fun h => absurd h (by
          simp only [reduceCtorEq, not_false_eq_true])⟩
        have hwait := congrArg Places.wait hpl
        change waiters _ = fun b => (waiters k b).erase p at hwait
        rw [hwait]
        exact Serves.out hmem
      · refine ⟨none, k, outBlocked_absent (fun i hi => h ⟨i, hi⟩), hw, Serves.outMiss ?_,
          fun _ => rfl⟩
        intro b hb
        rcases (mem_waiters_iff hw b p).mp hb with ⟨i, _, _, hq⟩
        exact h ⟨i, hq⟩

theorem head_serves (hw : AslWf k) {semAddr : Option Word} (ha : ∀ a ∈ semAddr, Aligned a) :
    Serves (waiters k) (.head semAddr) (.block (headBlocked k semAddr)) (waiters k) := by
  cases semAddr with
  | none => exact Serves.headNone
  | some a =>
      rw [headBlocked_eq hw (ha a rfl)]
      exact Serves.head a

/-- Removal takes the block that was inserted first, and it fails only for an
    empty queue. -/
theorem remove_serves (hw : AslWf k) {semAddr : Option Word} (ha : ∀ a ∈ semAddr, Aligned a) :
    ∃ r k', removeBlocked k semAddr = (r, k') ∧ AslWf k' ∧
      Serves (waiters k) (.remove semAddr) (.block r) (waiters k') ∧ (r = none → k' = k) := by
  cases semAddr with
  | none => exact ⟨none, k, rfl, hw, Serves.removeNone, fun _ => rfl⟩
  | some a =>
      have hserves := Serves.remove (w := waiters k) a
      cases hwait : waiters k a with
      | nil =>
          refine ⟨none, k, removeBlocked_nil hw (ha a rfl) hwait, hw, ?_, fun _ => rfl⟩
          have hw' : (fun b => if b = a then (waiters k a).tail else waiters k b) = waiters k := by
            funext b
            by_cases hb : b = a
            · rw [if_pos hb, hb, hwait, List.tail_nil]
            · rw [if_neg hb]
          rw [hw', hwait] at hserves
          exact hserves
      | cons p ps =>
          rcases removeBlocked_cons hw (ha a rfl) hwait with ⟨s, heq, hwf, hpl⟩
          refine ⟨some p, _, heq, hwf, ?_, fun h => absurd h (by
            simp only [reduceCtorEq, not_false_eq_true])⟩
          have hmem : p ∈ waiters k a := hwait ▸ List.mem_cons_self
          have hw' :
              waiters { k with procq := k.procq.del p, slink := s, pcb := setSemAdd k p none } =
                fun b => if b = a then (waiters k a).tail else waiters k b := by
            rw [show waiters _ = fun b => (waiters k b).erase p from congrArg Places.wait hpl]
            funext b
            by_cases hb : b = a
            · rw [if_pos hb, hb, hwait, List.erase_cons_head, List.tail_cons]
            · rw [if_neg hb]
              refine List.erase_of_not_mem (fun hm => hb ?_)
              exact Option.some.inj
                ((semAdd_of_mem_waiters hw hm).symm.trans (semAdd_of_mem_waiters hw hmem))
          rw [hw']
          rw [hwait, List.head?_cons] at hserves
          rw [hwait]
          exact hserves

theorem ready_serves (hw : AslWf k) {p : PcbId} (hp : k.procq.Null p) :
    AslWf (enqueueProcess k p) ∧ waiters (enqueueProcess k p) = waiters k := by
  refine ⟨aslWf_enqueueProcess hw hp, ?_⟩
  have hpl := places_enqueueProcess k p
  rw [Places.remove_of_nowhere ((nowhere_iff hw p).mp hp), Places.ready] at hpl
  split at hpl <;> exact congrArg Places.wait hpl

theorem unready_serves (hw : AslWf k) (p : PcbId) :
    AslWf (dequeueProcess k p).2 ∧ waiters (dequeueProcess k p).2 = waiters k ∧
      ((dequeueProcess k p).1 = none → (dequeueProcess k p).2 = k) := by
  unfold dequeueProcess outProcQ
  by_cases hp : p ∈ k.procq (processQueue k p)
  · rw [if_pos hp]
    refine ⟨aslWf_listSdel hw hp (processQueue_eq k p), ?_, fun h => absurd h (by
      simp only [reduceCtorEq, not_false_eq_true])⟩
    rw [show waiters (listSdel k p) = fun a => (waiters k a).erase p from
      congrArg Places.wait (places_listSdel k p)]
    funext a
    refine List.erase_of_not_mem (fun hm => ?_)
    rcases (mem_waiters_iff hw a p).mp hm with ⟨i, _, _, hq⟩
    have hsame := hw.procq.unique _ _ p hp hq
    rcases processQueue_eq k p with h | h <;> rw [h] at hsame <;>
      exact absurd hsame (by simp only [reduceCtorEq, not_false_eq_true])
  · rw [if_neg hp]
    exact ⟨hw, rfl, fun _ => rfl⟩

/-- Every call keeps the list well formed and does what the map does. A call
    that fails changes nothing, and the insertion of a block that waits for
    nothing does not fail. -/
theorem call_serves (hw : AslWf k) {c : AslCall} (ha : c.Allowed k) {r : AslAnswer} {k' : Kernel}
    (h : c.run k = (r, k')) : AslWf k' ∧ Serves (waiters k) c r (waiters k') ∧
      (r.failed = true → k' = k) ∧ ∀ a p, c = .insert (some a) (some p) →
        (k.pcb p).pSemAdd = none → r = .code 0 := by
  cases c with
  | alloc =>
      rcases alloc_serves hw with ⟨hwf, hwait, hfail⟩
      rw [AslCall.run, AslAnswer.ofBlock, Prod.mk.injEq] at h
      rcases h with ⟨rfl, rfl⟩
      refine ⟨hwf, ?_, fun h => hfail (Option.isNone_iff_eq_none.mp h), fun _ _ hc => absurd hc (by
        simp only [reduceCtorEq, not_false_eq_true])⟩
      rw [hwait]
      exact Serves.alloc _
  | insert semAddr p =>
      rcases insert_serves hw ha with ⟨n, k₁, heq, hwf, hs, hfail, hzero⟩
      rw [AslCall.run, heq, AslAnswer.ofCode, Prod.mk.injEq] at h
      rcases h with ⟨rfl, rfl⟩
      refine ⟨hwf, hs, fun h => hfail (bne_iff_ne.mp h), fun a q hc hn => ?_⟩
      rw [AslCall.insert.injEq] at hc
      rw [hzero q (by rw [hc.1]; exact Option.some_ne_none a) hc.2 hn]
  | out p =>
      rcases out_serves hw p with ⟨q, k₁, heq, hwf, hs, hfail⟩
      rw [AslCall.run, heq, AslAnswer.ofBlock, Prod.mk.injEq] at h
      rcases h with ⟨rfl, rfl⟩
      exact ⟨hwf, hs, fun h => hfail (Option.isNone_iff_eq_none.mp h), fun _ _ hc => absurd hc (by
        simp only [reduceCtorEq, not_false_eq_true])⟩
  | head semAddr =>
      rw [AslCall.run, Prod.mk.injEq] at h
      rcases h with ⟨rfl, rfl⟩
      exact ⟨hw, head_serves hw ha, fun _ => rfl, fun _ _ hc => absurd hc (by
        simp only [reduceCtorEq, not_false_eq_true])⟩
  | remove semAddr =>
      rcases remove_serves hw ha with ⟨q, k₁, heq, hwf, hs, hfail⟩
      rw [AslCall.run, heq, AslAnswer.ofBlock, Prod.mk.injEq] at h
      rcases h with ⟨rfl, rfl⟩
      exact ⟨hwf, hs, fun h => hfail (Option.isNone_iff_eq_none.mp h), fun _ _ hc => absurd hc (by
        simp only [reduceCtorEq, not_false_eq_true])⟩
  | ready p =>
      rcases ready_serves hw ha with ⟨hwf, hwait⟩
      rw [AslCall.run, Prod.mk.injEq] at h
      rcases h with ⟨rfl, rfl⟩
      refine ⟨hwf, ?_, fun h => absurd h Bool.false_ne_true, fun _ _ hc => absurd hc (by
        simp only [reduceCtorEq, not_false_eq_true])⟩
      rw [hwait]
      exact Serves.ready p
  | unready p =>
      rcases unready_serves hw p with ⟨hwf, hwait, hfail⟩
      rw [AslCall.run, AslAnswer.ofBlock, Prod.mk.injEq] at h
      rcases h with ⟨rfl, rfl⟩
      refine ⟨hwf, ?_, fun h => hfail (Option.isNone_iff_eq_none.mp h), fun _ _ hc => absurd hc (by
        simp only [reduceCtorEq, not_false_eq_true])⟩
      rw [hwait]
      exact Serves.unready p _

end Calls

/-! ## Runs -/

theorem init_aslWf {k : Kernel} (h : semaphoreList.init k) : AslWf k ∧ ∀ a, waiters k a = [] := by
  rcases h with ⟨k₀, hq, rfl⟩
  rw [initPcbs_eq hq, initAsl_eq]
  have hw := aslWf_blank (k := { k₀ with
    procq := fun h => if h = .pcbFree then (List.finRange MAX_PROC).reverse else []
    slink := fun h => if h = .semdFree then (List.finRange MAX_PROC).reverse else []
    pcb := fun q => { k₀.pcb q with pPid := NULL_PID } }) rfl rfl
  refine ⟨hw, fun a => waiters_of_no_key (fun i hi => ?_)⟩
  simp only [reduceCtorEq, if_false, List.not_mem_nil] at hi

/-- For every sequence of calls from the initialisation of the list: the list is
    well formed, with the same answers it is a run of a map of queues, the
    next call changes nothing if it fails, inserting a block that waits for
    nothing succeeds, and neither operation on a semaphore panics for a block
    in no queue. -/
theorem semaphore_list_exact {cs : List (AslCall × AslAnswer)} {k : Kernel}
    (h : semaphoreList.Run cs k) : ListShape k ∧ waitingLists.Run cs (waiters k) ∧
      (∀ c r k', semaphoreList.step k (c, r) k' → (r.failed = true → k' = k) ∧
        ∀ a p, c = .insert (some a) (some p) → (k.pcb p).pSemAdd = none → r = .code 0) ∧
      (∀ a p, Aligned a → k.procq.Null p → ∃ r, P k (some a) (some p) = .ok r) ∧
      ∀ a, Aligned a → (∀ p, k.activeProcess = some p → k.procq.Null p) →
        ∃ r, V k (some a) = .ok r := by
  have hinv : AslWf k ∧ waitingLists.Run cs (waiters k) := by
    induction h with
    | init hi => exact ⟨(init_aslWf hi).1, System.Run.init (init_aslWf hi).2⟩
    | @step cs k k' c _ hs ih =>
        rcases call_serves ih.1 hs.1 hs.2 with ⟨hwf, hserves, _⟩
        exact ⟨hwf, System.Run.step ih.2 hserves⟩
  rcases hinv with ⟨hw, hrun⟩
  refine ⟨shape_of_aslWf hw, hrun, fun c r k' hs => (call_serves hw hs.1 hs.2).2.2,
    fun a p ha hp => ?_, fun a ha hp => ?_⟩
  · rcases P_spec hw ha hp with ⟨ctrl, k', heq, _⟩
    exact ⟨(ctrl, k'), heq⟩
  · rcases V_spec hw ha hp with ⟨r, k', heq, _⟩
    exact ⟨(r, k'), heq⟩

/-- The state after a call. -/
def AslCall.after (c : AslCall) (k : Kernel) : Kernel := (c.run k).2

theorem step_after {c : AslCall} {k : Kernel} (h : c.Allowed k) :
    semaphoreList.step k (c, (c.run k).1) (c.after k) :=
  ⟨h, rfl⟩

/-- What the samples check before they make a call. -/
def AslCall.checked (k : Kernel) : AslCall → Bool
  | alloc => true
  | insert (some a) (some p) => decide (Aligned a ∧ p ∉ k.procq .pcbFree ∧
      p ∉ k.procq .readyQueueLo ∧ p ∉ k.procq .readyQueueHi)
  | out _ => true
  | remove (some a) => decide (Aligned a)
  | _ => false

theorem allowed_of_checked {c : AslCall} {k : Kernel} (h : c.checked k = true) : c.Allowed k := by
  cases c with
  | alloc => trivial
  | out p => trivial
  | insert semAddr p =>
      cases semAddr with
      | none => cases h
      | some a =>
          cases p with
          | none => cases h
          | some q =>
              rcases of_decide_eq_true h with ⟨ha, hq⟩
              exact ⟨fun b hb => Option.some.inj hb ▸ ha, fun r hr => Option.some.inj hr ▸ hq⟩
  | remove semAddr =>
      cases semAddr with
      | none => cases h
      | some a => exact fun b hb => Option.some.inj hb ▸ of_decide_eq_true h
  | _ => cases h

/-- The tables after the two functions that set them up. -/
def freshTables : Kernel := initAsl (initPcbs (sampleBoot.bss sampleLayout))

/-- The state after some calls. -/
def replayCalls (k : Kernel) (cs : List AslCall) : Option Kernel :=
  cs.foldlM (fun k c => if c.checked k then some (c.after k) else none) k

/-- Four blocks wait for two keys, and the higher key comes first. One of its
    blocks goes on, and another one is taken out. -/
theorem semaphore_list_exact_sample : ∃ cs k, semaphoreList.Run cs k ∧
    waiters k 0x20004000 = [16] ∧ waiters k 0x20003000 = [18] ∧ ListShape k := by
  have hinit : semaphoreList.Run [] freshTables :=
    System.Run.init ⟨sampleBoot.bss sampleLayout, rfl, rfl⟩
  have hall : (replayCalls freshTables [.alloc, .alloc, .alloc, .alloc,
      .insert (some 0x20004000) (some 19), .insert (some 0x20003000) (some 18),
      .insert (some 0x20004000) (some 17), .insert (some 0x20004000) (some 16),
      .remove (some 0x20004000), .out (some 17)]).any (fun k =>
        decide (waiters k 0x20004000 = [16] ∧ waiters k 0x20003000 = [18])) = true := by
    decide +kernel
  rw [Option.any_eq_true] at hall
  rcases hall with ⟨k, hk, hdec⟩
  have hsteps : ∀ c k k', (if AslCall.checked k c then some (c.after k) else none) = some k' →
      ∃ e, semaphoreList.step k e k' := fun c k k' h => by
    split at h
    · next hc => exact ⟨_, Option.some.inj h ▸ step_after (allowed_of_checked hc)⟩
    · cases h
  rcases System.run_of_foldlM _ (fun c _ => hsteps c) hinit hk with ⟨cs, hrun⟩
  rcases of_decide_eq_true hdec with ⟨hhigh, hlow⟩
  exact ⟨cs, k, hrun, hhigh, hlow, (semaphore_list_exact hrun).1⟩

end Pandos
