import Mathlib.Logic.Function.Basic
import Pandos.Lib.BinarySemaphore

/-!
# Mutual Exclusion by a Binary Semaphore

The two operations of a binary semaphore as functions of its value and its
queue, and the oldest use of them: everybody performs `P` before a section and
`V` behind it.

Since only somebody inside the section performs `V`, the value is zero whenever
it does. So `V` never waits here, although a binary semaphore would let it, and
the longest waiting process enters the section in the same step.

## Main definitions

* `Sem`, `Sem.op`: A semaphore and what an operation does to it.
* `Sem.map`: The semaphore under other names.
* `Phase`: Where somebody stands with respect to the section.
* `Mutex`: The semaphore guards the section.

## Theorems

* `mutex_init`: A semaphore with the value one guards an empty section.
* `mutex_enter`: `P` keeps the section guarded and releases nobody.
* `mutex_leave`: `V` keeps the section guarded and does not wait.
* `mutex_inherit`: Some disappear, and an heir stands in for the one inside.
-/

namespace Pandos

/-- A semaphore: its value and who waits, the longest waiting one first. -/
structure Sem (α : Type*) where
  value : Int
  queue : List α

/-- What an operation does: the semaphore it leaves, whether its caller waits,
    and whom it released. -/
structure Sem.Outcome (α : Type*) where
  sem : Sem α
  waits : Bool
  woken : Option α

section Op

variable {α : Type*}

/-- An operation of `x`. -/
def Sem.op (m : Sem α) (o : SemOp) (x : α) : Sem.Outcome α :=
  if m.value = o.stop then
    { sem := { m with queue := m.queue ++ [x] }, waits := true, woken := none }
  else
    match m.queue with
    | [] => { sem := { m with value := m.value + o.delta }, waits := false, woken := none }
    | t :: ts => { sem := { m with queue := ts }, waits := false, woken := some t }

variable {m : Sem α} {o : SemOp} {x : α}

theorem Sem.op_stop (h : m.value = o.stop) :
    m.op o x = { sem := { m with queue := m.queue ++ [x] }, waits := true, woken := none } := by
  rw [Sem.op, if_pos h]

theorem Sem.op_nil (h : m.value ≠ o.stop) (hq : m.queue = []) :
    m.op o x = { sem := { m with value := m.value + o.delta }, waits := false, woken := none } := by
  rw [Sem.op, if_neg h, hq]

theorem Sem.op_cons (h : m.value ≠ o.stop) {t : α} {ts : List α} (hq : m.queue = t :: ts) :
    m.op o x = { sem := { m with queue := ts }, waits := false, woken := some t } := by
  rw [Sem.op, if_neg h, hq]

/-- Whoever waits is in the queue. -/
theorem Sem.waits_iff (h : x ∉ m.queue) : (m.op o x).waits = true ↔ x ∈ (m.op o x).sem.queue := by
  by_cases hv : m.value = o.stop
  · rw [Sem.op_stop hv]
    exact iff_of_true rfl (List.mem_append_right _ (List.mem_singleton_self x))
  · cases hq : m.queue with
    | nil =>
        rw [Sem.op_nil hv hq]
        exact iff_of_false Bool.false_ne_true h
    | cons t ts =>
        rw [Sem.op_cons hv hq]
        rw [hq] at h
        exact iff_of_false Bool.false_ne_true (fun hx => h (List.mem_cons_of_mem t hx))

/-- Whoever is released is the only one who leaves the queue. -/
theorem Sem.woken_iff (hnd : m.queue.Nodup) {y : α} :
    (m.op o x).woken = some y ↔ y ∈ m.queue ∧ y ∉ (m.op o x).sem.queue := by
  by_cases hv : m.value = o.stop
  · rw [Sem.op_stop hv]
    exact iff_of_false (fun hc => by cases hc) (fun hc => hc.2 (List.mem_append_left _ hc.1))
  · cases hq : m.queue with
    | nil =>
        rw [Sem.op_nil hv hq]
        exact iff_of_false (fun hc => by cases hc) (fun hc => List.not_mem_nil hc.1)
    | cons t ts =>
        rw [Sem.op_cons hv hq]
        rw [hq, List.nodup_cons] at hnd
        rw [Option.some.injEq, List.mem_cons]
        constructor
        · rintro rfl
          exact ⟨Or.inl rfl, hnd.1⟩
        · rintro ⟨rfl | hy, hout⟩
          · rfl
          · exact absurd hy hout

/-- A semaphore under other names. -/
def Sem.map {β : Type*} (f : α → β) (m : Sem α) : Sem β :=
  { value := m.value, queue := m.queue.map f }

/-- An operation does not look at names. -/
theorem Sem.op_map {β : Type*} (f : α → β) :
    ((m.map f).op o (f x)).sem = (m.op o x).sem.map f ∧
      ((m.map f).op o (f x)).waits = (m.op o x).waits ∧
      ((m.map f).op o (f x)).woken = (m.op o x).woken.map f := by
  by_cases h : m.value = o.stop
  · rw [Sem.op_stop h, Sem.op_stop (m := m.map f) h]
    refine ⟨?_, rfl, rfl⟩
    simp only [Sem.map, List.map_append, List.map_cons, List.map_nil]
  · cases hq : m.queue with
    | nil =>
        have hq' : (m.map f).queue = [] := by rw [Sem.map, hq, List.map_nil]
        rw [Sem.op_nil h hq, Sem.op_nil (m := m.map f) h hq']
        refine ⟨?_, rfl, rfl⟩
        simp only [Sem.map, hq]
    | cons t ts =>
        have hq' : (m.map f).queue = f t :: ts.map f := by rw [Sem.map, hq, List.map_cons]
        rw [Sem.op_cons h hq, Sem.op_cons (m := m.map f) h hq']
        exact ⟨rfl, rfl, rfl⟩

end Op

/-- Where somebody stands with respect to the section. -/
inductive Phase
  | out
  | waiting
  | inside
  deriving DecidableEq

/-- The semaphore guards the section: those who wait to enter are in its queue,
    at most one is inside, and the value tells whether anybody is. -/
structure Mutex {α : Type*} (m : Sem α) (phase : α → Phase) : Prop where
  queue : ∀ x, x ∈ m.queue ↔ phase x = .waiting
  nodup : m.queue.Nodup
  one : ∀ x y, phase x = .inside → phase y = .inside → x = y
  value : (m.value = 0 ∧ ∃ x, phase x = .inside) ∨ (m.value = 1 ∧ ∀ x, phase x = .out)

section Mutex

variable {α : Type*} {m : Sem α} {phase : α → Phase} {x : α}

theorem mutex_init : Mutex { value := 1, queue := [] } (fun _ : α => Phase.out) := by
  refine ⟨fun x => ?_, List.nodup_nil, fun x y hx => ?_, Or.inr ⟨rfl, fun _ => rfl⟩⟩
  · simp only [List.not_mem_nil, reduceCtorEq]
  · cases hx

variable [DecidableEq α]

/-- Somebody outside performs `P`. If the section is empty nobody can be in the
    queue, so the operation just lowers the value. -/
theorem mutex_enter (h : Mutex m phase) (hx : phase x = .out) :
    (m.op .P x).woken = none ∧
      Mutex (m.op .P x).sem
        (Function.update phase x (if (m.op .P x).waits then .waiting else .inside)) := by
  rcases h.value with ⟨hv, y, hy⟩ | ⟨hv, hout⟩
  · -- Somebody is inside: the caller waits.
    rw [Sem.op_stop hv]
    have hxq : x ∉ m.queue := fun hq => by
      rw [h.queue, hx] at hq
      cases hq
    have hyx : y ≠ x := fun hc => by
      rw [hc, hx] at hy
      cases hy
    refine ⟨rfl, fun z => ?_, ?_, fun z w hz hw => ?_, Or.inl ⟨hv, y, ?_⟩⟩
    · rw [List.mem_append, List.mem_singleton, if_pos rfl]
      by_cases hz : z = x
      · rw [hz, Function.update_self]
        exact iff_of_true (Or.inr rfl) rfl
      · rw [Function.update_of_ne hz, ← h.queue]
        exact or_iff_left hz
    · exact List.nodup_append.mpr ⟨h.nodup, List.pairwise_singleton _ x, fun a ha b hb hab =>
        hxq (List.mem_singleton.mp hb ▸ hab ▸ ha)⟩
    · rw [if_pos rfl] at hz hw
      by_cases hzx : z = x
      · rw [hzx, Function.update_self] at hz
        cases hz
      · by_cases hwx : w = x
        · rw [hwx, Function.update_self] at hw
          cases hw
        · rw [Function.update_of_ne hzx] at hz
          rw [Function.update_of_ne hwx] at hw
          exact h.one z w hz hw
    · rw [Function.update_of_ne hyx]
      exact hy
  · -- Nobody is inside, so nobody waits either.
    have hne : m.value ≠ SemOp.P.stop := by
      rw [hv]
      decide
    have hq : m.queue = [] := by
      rw [List.eq_nil_iff_forall_not_mem]
      intro z hz
      rw [h.queue, hout z] at hz
      cases hz
    rw [Sem.op_nil hne hq, hq]
    refine ⟨rfl, fun z => ?_, List.nodup_nil, fun z w hz hw => ?_, Or.inl ⟨?_, x, ?_⟩⟩
    · rw [if_neg Bool.false_ne_true]
      refine iff_of_false List.not_mem_nil (fun hz => ?_)
      by_cases hzx : z = x
      · rw [hzx, Function.update_self] at hz
        cases hz
      · rw [Function.update_of_ne hzx, hout z] at hz
        cases hz
    · rw [if_neg Bool.false_ne_true] at hz hw
      have honly : ∀ u, Function.update phase x Phase.inside u = .inside → u = x := fun u hu => by
        by_contra hux
        rw [Function.update_of_ne hux, hout u] at hu
        cases hu
      exact (honly z hz).trans (honly w hw).symm
    · rw [hv]
      rfl
    · rw [if_neg Bool.false_ne_true, Function.update_self]

/-- Whoever is inside performs `V`. The value is zero, so it does not wait, and
    whoever waited longest is inside now. -/
theorem mutex_leave (h : Mutex m phase) (hx : phase x = .inside) :
    (m.op .V x).waits = false ∧ (∀ t, (m.op .V x).woken = some t → phase t = .waiting) ∧
      Mutex (m.op .V x).sem (fun y =>
        if y = x then .out else if (m.op .V x).woken = some y then .inside else phase y) := by
  have hv : m.value = 0 := by
    rcases h.value with ⟨hv, _⟩ | ⟨_, hout⟩
    · exact hv
    · rw [hout x] at hx
      cases hx
  have hne : m.value ≠ SemOp.V.stop := by
    rw [hv]
    decide
  cases hq : m.queue with
  | nil =>
      -- Nobody waits: the section is empty from now on.
      have hout : ∀ y, y ≠ x → phase y = .out := fun y hyx => by
        cases hy : phase y with
        | out => rfl
        | waiting =>
            have hyq := (h.queue y).mpr hy
            rw [hq] at hyq
            exact absurd hyq List.not_mem_nil
        | inside => exact absurd (h.one y x hy hx) hyx
      rw [Sem.op_nil hne hq, hq]
      have hall : ∀ y, (if y = x then Phase.out else
          if (none : Option α) = some y then Phase.inside else phase y) = .out := fun y => by
        by_cases hyx : y = x
        · rw [if_pos hyx]
        · rw [if_neg hyx, if_neg (Option.some_ne_none y).symm]
          exact hout y hyx
      refine ⟨rfl, fun t ht => ?_, fun y => ?_, List.nodup_nil, fun y z hy => ?_, Or.inr ⟨?_, hall⟩⟩
      · cases ht
      · rw [hall y]
        exact iff_of_false List.not_mem_nil (fun hc => by cases hc)
      · rw [hall y] at hy
        cases hy
      · rw [hv]
        rfl
  | cons t ts =>
      -- The section passes to the longest waiting one.
      have ht : phase t = .waiting := (h.queue t).mp (hq ▸ List.mem_cons_self)
      have htx : t ≠ x := fun hc => by
        rw [hc, hx] at ht
        cases ht
      have hnd := h.nodup
      rw [hq, List.nodup_cons] at hnd
      rw [Sem.op_cons hne hq]
      refine ⟨rfl, fun u hu => ?_, fun y => ?_, hnd.2, fun y z hy hz => ?_, Or.inl ⟨hv, t, ?_⟩⟩
      · rw [← Option.some.inj hu]
        exact ht
      · by_cases hyx : y = x
        · rw [if_pos hyx, hyx]
          refine iff_of_false (fun hc => ?_) (fun hc => by cases hc)
          have hxq := (h.queue x).mp (hq ▸ List.mem_cons_of_mem t hc)
          rw [hx] at hxq
          cases hxq
        · by_cases hyt : t = y
          · rw [if_neg hyx, if_pos (congrArg some hyt)]
            exact iff_of_false (hyt ▸ hnd.1) (fun hc => by cases hc)
          · rw [if_neg hyx, if_neg (fun hc => hyt (Option.some.inj hc)), ← h.queue, hq,
              List.mem_cons]
            exact (or_iff_right (fun hc => hyt hc.symm)).symm
      · have honly : ∀ u, (if u = x then Phase.out else
            if some t = some u then Phase.inside else phase u) = .inside → u = t := fun u hu => by
          by_cases hux : u = x
          · rw [if_pos hux] at hu
            cases hu
          · by_contra hut
            rw [if_neg hux, if_neg (fun hc => hut (Option.some.inj hc).symm)] at hu
            exact hux (h.one u x hu hx)
        exact (honly y hy).trans (honly z hz).symm
      · rw [if_neg htx, if_pos rfl]

/-- Some disappear. If one of them was inside, an heir who has nothing to do with
    the section stands in for it from then on. -/
theorem mutex_inherit (h : Mutex m phase) {gone : α → Prop} [DecidablePred gone] {y : α}
    [Decidable (∃ z, phase z = .inside ∧ gone z)] (hgone : ¬ gone y) (hy : phase y ≠ .waiting) :
    Mutex { m with queue := m.queue.filter (fun x => !decide (gone x)) } (fun x =>
      if gone x then .out
      else if x = y ∧ ∃ z, phase z = .inside ∧ gone z then .inside else phase x) := by
  have hstay : ∀ x, ¬ gone x → x ≠ y → (if gone x then Phase.out
      else if x = y ∧ ∃ z, phase z = .inside ∧ gone z then .inside else phase x) = phase x := by
    intro x hx hxy
    rw [if_neg hx, if_neg (fun hc => hxy hc.1)]
  refine ⟨fun x => ?_, h.nodup.filter _, fun x z hx hz => ?_, ?_⟩
  · rw [List.mem_filter, Bool.not_eq_true', decide_eq_false_iff_not, h.queue]
    by_cases hx : gone x
    · rw [if_pos hx]
      exact iff_of_false (fun hc => hc.2 hx) (fun hc => by cases hc)
    · by_cases hxy : x = y
      · subst hxy
        rw [if_neg hx]
        refine iff_of_false (fun hc => hy hc.1) (fun hc => ?_)
        split at hc
        · cases hc
        · exact hy hc
      · rw [hstay x hx hxy]
        exact and_iff_left hx
  · -- Whoever is inside now was inside before, or inherited from somebody who was.
    have hwas : ∀ u, (if gone u then Phase.out
        else if u = y ∧ ∃ z, phase z = .inside ∧ gone z then .inside else phase u) = .inside →
        ¬ gone u ∧ (phase u = .inside ∨ u = y ∧ ∃ z, phase z = .inside ∧ gone z) := by
      intro u hu
      by_cases hug : gone u
      · rw [if_pos hug] at hu
        cases hu
      · rw [if_neg hug] at hu
        by_cases hc : u = y ∧ ∃ z, phase z = .inside ∧ gone z
        · exact ⟨hug, Or.inr hc⟩
        · rw [if_neg hc] at hu
          exact ⟨hug, Or.inl hu⟩
    rcases hwas x hx with ⟨hxg, hx | ⟨rfl, w, hw, hwg⟩⟩
    · rcases hwas z hz with ⟨_, hz | ⟨_, w, hw, hwg⟩⟩
      · exact h.one x z hx hz
      · exact absurd (h.one x w hx hw ▸ hwg) hxg
    · rcases hwas z hz with ⟨hzg, hz | ⟨rfl, _⟩⟩
      · exact absurd (h.one z w hz hw ▸ hwg) hzg
      · rfl
  · rcases h.value with ⟨hv, x, hx⟩ | ⟨hv, hout⟩
    · refine Or.inl ⟨hv, ?_⟩
      by_cases hxg : gone x
      · refine ⟨y, ?_⟩
        rw [if_neg hgone, if_pos ⟨rfl, x, hx, hxg⟩]
      · refine ⟨x, ?_⟩
        rw [if_neg hxg]
        split
        · rfl
        · exact hx
    · refine Or.inr ⟨hv, fun x => ?_⟩
      have hnone : ¬ ∃ z, phase z = .inside ∧ gone z := by
        rintro ⟨z, hz, _⟩
        rw [hout z] at hz
        cases hz
      by_cases hxg : gone x
      · rw [if_pos hxg]
      · rw [if_neg hxg, if_neg (fun hc => hnone hc.2)]
        exact hout x

end Mutex

end Pandos
