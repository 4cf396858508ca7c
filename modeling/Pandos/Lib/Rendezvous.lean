import Mathlib.Data.Fintype.Card
import Pandos.Lib.Mutex

/-!
# A Rendezvous over a Binary Semaphore

Every member of a finite family performs `V` once, and a collector performs `P`
once for each of them. The semaphore starts at zero and holds at most one, so a
second member that comes before the collector waits in its `V`, and a later `P`
lets it go on.

The value together with the number of finished `P`s is the number of finished
`V`s. So no `V` gets lost, and a collector that has finished as many `P`s as
there are members knows that all of them are through.

## Main definitions

* `Posted`: How far a member is with its `V`.
* `Rendezvous`: The invariant of the semaphore.

## Theorems

* `rendezvous_init`: The start.
* `rendezvous_post`, `rendezvous_take`: The two operations keep the invariant.
* `rendezvous_all`: All members are through when the collector is.
* `rendezvous_blocked`: A collector that waits, waits for somebody who has not
  come yet.
-/

namespace Pandos

/-- How far a member is with its `V`. -/
inductive Posted
  | before
  | posting
  | done
  deriving DecidableEq

/-- The members that are through. -/
def through {ι : Type*} [Fintype ι] (post : ι → Posted) : Finset ι :=
  Finset.univ.filter (fun i => post i = .done)

/-- The semaphore of a rendezvous whose collector has finished `got` of its
    `P`s. In its queue a member is `some` and the collector is `none`. -/
structure Rendezvous {ι : Type*} [Fintype ι] (m : Sem (Option ι)) (post : ι → Posted) (got : Nat)
    (waiting : Bool) : Prop where
  members : ∀ i, some i ∈ m.queue ↔ post i = .posting
  collector : none ∈ m.queue ↔ waiting = true
  nodup : m.queue.Nodup
  kind : (m.value = 0 ∧ ∀ i, post i ≠ .posting) ∨ (m.value = 1 ∧ waiting = false)
  count : m.value + got = (through post).card

section Rendezvous

variable {ι : Type*} [Fintype ι] {m : Sem (Option ι)} {post : ι → Posted} {got : Nat}
  {waiting : Bool}

theorem rendezvous_init :
    Rendezvous { value := 0, queue := [] } (fun _ : ι => Posted.before) 0 false := by
  refine ⟨fun i => ?_, ?_, List.nodup_nil, Or.inl ⟨rfl, fun i hi => ?_⟩, ?_⟩
  · simp only [List.not_mem_nil, reduceCtorEq]
  · simp only [List.not_mem_nil, Bool.false_eq_true]
  · cases hi
  · have hnone : through (fun _ : ι => Posted.before) = ∅ :=
      Finset.filter_eq_empty_iff.mpr (fun _ _ => by simp only [reduceCtorEq, not_false_eq_true])
    rw [hnone]
    rfl

/-- The collector has as many `P`s behind it as there are members. -/
theorem rendezvous_all (h : Rendezvous m post got waiting) (hg : got = Fintype.card ι) :
    ∀ i, post i = .done := by
  have hle : (through post).card ≤ Fintype.card ι := Finset.card_le_univ _
  have hc := h.count
  have hv : 0 ≤ m.value := by
    rcases h.kind with ⟨hv, _⟩ | ⟨hv, _⟩
    · omega
    · omega
  have hall : through post = Finset.univ := Finset.card_eq_iff_eq_univ _ |>.mp (by omega)
  intro i
  have hi : i ∈ through post := hall ▸ Finset.mem_univ i
  exact (Finset.mem_filter.mp hi).2

/-- A collector that waits for one of its `P`s waits for a member that has not
    started its `V`. -/
theorem rendezvous_blocked (h : Rendezvous m post got true) (hg : got < Fintype.card ι) :
    ∃ i, post i = .before := by
  rcases h.kind with ⟨hv, hnone⟩ | ⟨_, hc⟩
  · have hc := h.count
    by_contra hall
    -- Everybody has come and nobody waits, so everybody is through.
    have huniv : through post = Finset.univ := by
      refine Finset.filter_true_of_mem (fun i _ => ?_)
      cases hi : post i with
      | before => exact absurd ⟨i, hi⟩ hall
      | posting => exact absurd hi (hnone i)
      | done => rfl
    rw [huniv, Finset.card_univ] at hc
    omega
  · cases hc

variable [DecidableEq ι]

/-- One more member is through. -/
theorem card_through_update {i : ι} (hi : post i ≠ .done) :
    (through (Function.update post i .done)).card = (through post).card + 1 := by
  have hins : through (Function.update post i .done) = insert i (through post) := by
    ext j
    rw [Finset.mem_insert, through, through, Finset.mem_filter, Finset.mem_filter]
    by_cases hj : j = i
    · rw [hj, Function.update_self]
      exact iff_of_true ⟨Finset.mem_univ i, rfl⟩ (Or.inl rfl)
    · rw [Function.update_of_ne hj]
      exact (or_iff_right hj).symm
  rw [hins, Finset.card_insert_of_notMem]
  rw [through, Finset.mem_filter, not_and]
  exact fun _ => hi

/-- As many members are through as before. -/
theorem through_update {i : ι} {a : Posted} (hi : post i ≠ .done) (ha : a ≠ .done) :
    through (Function.update post i a) = through post := by
  refine Finset.filter_congr (fun j _ => ?_)
  by_cases hj : j = i
  · rw [hj, Function.update_self]
    exact iff_of_false ha hi
  · rw [Function.update_of_ne hj]

/-- A member performs its `V`. It waits if the value is one. Otherwise only the
    collector can be in the queue, and it goes on. -/
theorem rendezvous_post (h : Rendezvous m post got waiting) {i : ι} (hi : post i = .before) :
    (∀ w, (m.op .V (some i)).woken = some w → w = none ∧ waiting = true) ∧
      Rendezvous (m.op .V (some i)).sem
        (Function.update post i (if (m.op .V (some i)).waits then .posting else .done))
        (if (m.op .V (some i)).woken = some none then got + 1 else got)
        (if (m.op .V (some i)).woken = some none then false else waiting) := by
  have hnd : post i ≠ .done := by
    rw [hi]
    simp only [ne_eq, reduceCtorEq, not_false_eq_true]
  have hiq : some i ∉ m.queue := fun hc => by
    rw [h.members, hi] at hc
    cases hc
  rcases h.kind with ⟨hv, hnone⟩ | ⟨hv, hwait⟩
  · have hne : m.value ≠ SemOp.V.stop := by
      rw [hv]
      decide
    have hsome : ∀ j, some j ∉ m.queue := fun j hc => hnone j ((h.members j).mp hc)
    -- Nobody but `i` changes, and `i` does not start to wait.
    have hpost : ∀ j, Function.update post i .done j ≠ .posting := fun j => by
      by_cases hj : j = i
      · rw [hj, Function.update_self]
        simp only [ne_eq, reduceCtorEq, not_false_eq_true]
      · rw [Function.update_of_ne hj]
        exact hnone j
    have hcount := h.count
    cases hq : m.queue with
    | nil =>
        rw [Sem.op_nil hne hq, hq]
        have hwf : waiting = false := by
          have hc := h.collector
          rw [hq] at hc
          exact Bool.eq_false_iff.mpr (fun ht => List.not_mem_nil (hc.mpr ht))
        refine ⟨fun w hw => absurd hw (Option.some_ne_none w).symm,
          fun j => ?_, ?_, List.nodup_nil, Or.inr ⟨?_, ?_⟩, ?_⟩
        · rw [if_neg Bool.false_ne_true]
          exact iff_of_false List.not_mem_nil (hpost j)
        · rw [if_neg (Option.some_ne_none _).symm, hwf]
          simp only [List.not_mem_nil, Bool.false_eq_true]
        · rw [hv]
          rfl
        · rw [if_neg (Option.some_ne_none _).symm]
          exact hwf
        · rw [if_neg Bool.false_ne_true, if_neg (Option.some_ne_none _).symm,
            card_through_update hnd]
          simp only [SemOp.delta]
          omega
    | cons t ts =>
        -- The head of the queue is the collector, and nobody else is there.
        have ht : t = none := by
          cases t with
          | none => rfl
          | some j => exact absurd (hq ▸ List.mem_cons_self) (hsome j)
        have hdup := h.nodup
        rw [hq, ht, List.nodup_cons] at hdup
        have hwt : waiting = true := h.collector.mp (hq ▸ ht ▸ List.mem_cons_self)
        rw [Sem.op_cons hne hq, ht]
        refine ⟨fun w hw => ⟨(Option.some.inj hw).symm, hwt⟩, fun j => ?_, ?_, hdup.2,
          Or.inl ⟨hv, fun j => ?_⟩, ?_⟩
        · rw [if_neg Bool.false_ne_true]
          exact iff_of_false (fun hc => hsome j (hq ▸ List.mem_cons_of_mem t hc)) (hpost j)
        · rw [if_pos rfl]
          exact iff_of_false hdup.1 Bool.false_ne_true
        · rw [if_neg Bool.false_ne_true]
          exact hpost j
        · rw [if_neg Bool.false_ne_true, if_pos rfl, card_through_update hnd]
          change m.value + _ = _
          omega
  · -- The value is one: the member waits.
    rw [Sem.op_stop (o := .V) hv]
    refine ⟨fun w hw => absurd hw (Option.some_ne_none w).symm,
      fun j => ?_, ?_, ?_, Or.inr ⟨hv, ?_⟩, ?_⟩
    · rw [if_pos rfl, List.mem_append, List.mem_singleton]
      by_cases hj : j = i
      · rw [hj, Function.update_self]
        exact iff_of_true (Or.inr rfl) rfl
      · rw [Function.update_of_ne hj, ← h.members]
        exact or_iff_left (fun hc => hj (Option.some.inj hc))
    · rw [if_neg (Option.some_ne_none _).symm, List.mem_append, List.mem_singleton, ← h.collector]
      exact or_iff_left (Option.some_ne_none i).symm
    · exact List.nodup_append.mpr ⟨h.nodup, List.pairwise_singleton _ _, fun a ha b hb hab =>
        hiq (List.mem_singleton.mp hb ▸ hab ▸ ha)⟩
    · rw [if_neg (Option.some_ne_none _).symm]
      exact hwait
    · rw [if_pos rfl, if_neg (Option.some_ne_none _).symm, through_update hnd
        (by simp only [ne_eq, reduceCtorEq, not_false_eq_true])]
      exact h.count

/-- The collector performs one of its `P`s. It waits if the value is zero.
    Otherwise the longest waiting member is through with its `V`. -/
theorem rendezvous_take (h : Rendezvous m post got false) :
    (∀ w, (m.op .P none).woken = some w → ∃ j, w = some j ∧ post j = .posting) ∧
      Rendezvous (m.op .P none).sem
        (fun j => if (m.op .P none).woken = some (some j) then .done else post j)
        (if (m.op .P none).waits then got else got + 1) (m.op .P none).waits := by
  have hcq : none ∉ m.queue := fun hc => Bool.false_ne_true (h.collector.mp hc)
  have hcount := h.count
  rcases h.kind with ⟨hv, hnone⟩ | ⟨hv, _⟩
  · -- The value is zero: the collector waits.
    rw [Sem.op_stop (o := .P) hv]
    have hsame : (fun j => if (none : Option (Option ι)) = some (some j) then Posted.done
        else post j) = post :=
      funext (fun j => if_neg (Option.some_ne_none _).symm)
    refine ⟨fun w hw => absurd hw (Option.some_ne_none w).symm,
      fun j => ?_, ?_, ?_, Or.inl ⟨hv, fun j => ?_⟩, ?_⟩
    · rw [if_neg (Option.some_ne_none _).symm, List.mem_append, List.mem_singleton, ← h.members]
      exact or_iff_left (Option.some_ne_none j)
    · exact iff_of_true (List.mem_append_right _ (List.mem_singleton_self _)) rfl
    · exact List.nodup_append.mpr ⟨h.nodup, List.pairwise_singleton _ _, fun a ha b hb hab =>
        hcq (List.mem_singleton.mp hb ▸ hab ▸ ha)⟩
    · rw [if_neg (Option.some_ne_none _).symm]
      exact hnone j
    · rw [hsame, if_pos rfl]
      exact hcount
  · have hne : m.value ≠ SemOp.P.stop := by
      rw [hv]
      decide
    cases hq : m.queue with
    | nil =>
        rw [Sem.op_nil hne hq, hq]
        have hsame : (fun j => if (none : Option (Option ι)) = some (some j) then Posted.done
            else post j) = post :=
          funext (fun j => if_neg (Option.some_ne_none _).symm)
        have hnone : ∀ j, post j ≠ .posting := fun j hj => by
          have hjq := (h.members j).mpr hj
          rw [hq] at hjq
          exact List.not_mem_nil hjq
        refine ⟨fun w hw => absurd hw (Option.some_ne_none w).symm,
          fun j => ?_, ?_, List.nodup_nil, Or.inl ⟨?_, fun j => ?_⟩,
          ?_⟩
        · rw [if_neg (Option.some_ne_none _).symm]
          exact iff_of_false List.not_mem_nil (hnone j)
        · exact iff_of_false List.not_mem_nil Bool.false_ne_true
        · rw [hv]
          rfl
        · rw [if_neg (Option.some_ne_none _).symm]
          exact hnone j
        · rw [hsame, if_neg Bool.false_ne_true]
          simp only [SemOp.delta]
          omega
    | cons t ts =>
        -- The head of the queue is a member that waits in its `V`.
        cases t with
        | none => exact absurd (hq ▸ List.mem_cons_self) hcq
        | some j =>
            have hj : post j = .posting := (h.members j).mp (hq ▸ List.mem_cons_self)
            have hdup := h.nodup
            rw [hq, List.nodup_cons] at hdup
            have hupd : (fun i => if some (some j) = some (some i) then Posted.done else post i)
                = Function.update post j .done := by
              funext i
              by_cases hij : i = j
              · rw [hij, if_pos rfl, Function.update_self]
              · rw [Function.update_of_ne hij, if_neg]
                exact fun hc => hij (Option.some.inj (Option.some.inj hc)).symm
            rw [Sem.op_cons hne hq]
            refine ⟨fun w hw => ⟨j, (Option.some.inj hw).symm, hj⟩, fun i => ?_, ?_, hdup.2,
              Or.inr ⟨hv, rfl⟩, ?_⟩
            · by_cases hij : j = i
              · rw [if_pos (by rw [hij]), ← hij]
                exact iff_of_false hdup.1 (fun hc => by cases hc)
              · rw [if_neg (fun hc => hij (Option.some.inj (Option.some.inj hc))), ← h.members, hq,
                  List.mem_cons]
                exact (or_iff_right (fun hc => hij (Option.some.inj hc).symm)).symm
            · refine iff_of_false (fun hc => hcq ?_) Bool.false_ne_true
              exact hq ▸ List.mem_cons_of_mem _ hc
            · have hnd : post j ≠ .done := by
                rw [hj]
                simp only [ne_eq, reduceCtorEq, not_false_eq_true]
              rw [hupd, if_neg Bool.false_ne_true, card_through_update hnd]
              change m.value + _ = _
              omega

end Rendezvous

end Pandos
