import Mathlib.Data.List.Rotate
import Mathlib.Logic.Function.Iterate

/-!
# Round Robin and First In First Out

Places in a circle are served in turn, and each place remembers when it was
served last. Round robin looks like first in first out, and it is as long as
the circle starts in order: when the places, read in the order of their turns,
were served at increasing times. Otherwise it shows within one round that it is
not.

The circle of `N` places seen from one of them is the rotated list of the
numbers below `N`.

## Main definitions

* `RoundRobin`: The places in the order of their turns, with their times.
* `RoundRobin.serve`: The first place is served and goes to the back.
* `RoundRobin.InOrder`: Those whose turn comes first were served first.
* `RoundRobin.Oldest`: The one whose turn it is was served first of all.
* `turns`: The circle, seen from one place.

## Theorems

* `inOrder_renew`: A place behind all others can be served now.
* `inOrder_iff_oldest`: Round robin always serves the oldest place if and only
  if the circle is in order.
* `turns_succ`: The circle, seen from the next place.
-/

namespace Pandos

/-! ## Turns -/

/-- Places in the order of their turns, the times when they were served, and
    the present time. -/
structure RoundRobin (α : Type*) where
  queue : List α
  time : α → ℕ
  now : ℕ

namespace RoundRobin

variable {α : Type*} {s : RoundRobin α}

/-- Those whose turn comes first were served first. -/
def InOrder (time : α → ℕ) (l : List α) : Prop := l.Pairwise (fun a b => time a < time b)

/-- The place whose turn it is was served before all others. -/
def Oldest (s : RoundRobin α) : Prop :=
  ∀ a l, s.queue = a :: l → ∀ b ∈ l, s.time a < s.time b

/-- No place has two turns, and none was served in the future. -/
structure Sound (s : RoundRobin α) : Prop where
  nodup : s.queue.Nodup
  past : ∀ a ∈ s.queue, s.time a < s.now

theorem InOrder.oldest (h : InOrder s.time s.queue) : s.Oldest := by
  intro a l hq b hb
  rw [hq] at h
  exact (List.pairwise_cons.mp h).1 b hb

variable [DecidableEq α]

/-- The order of places that are not served stays the same. -/
theorem inOrder_update {time : α → ℕ} {l : List α} {a : α} {now : ℕ} (ha : a ∉ l) :
    InOrder (Function.update time a now) l ↔ InOrder time l := by
  have hkeep : ∀ b ∈ l, Function.update time a now b = time b := by
    intro b hb
    have hne : b ≠ a := fun hba => ha (hba ▸ hb)
    exact Function.update_of_ne hne _ _
  constructor
  · intro h
    refine h.imp_of_mem ?_
    intro b c hb hc hlt
    rwa [hkeep b hb, hkeep c hc] at hlt
  · intro h
    refine h.imp_of_mem ?_
    intro b c hb hc hlt
    rwa [hkeep b hb, hkeep c hc]

/-- A place behind all others can be served now. -/
theorem inOrder_renew {time : α → ℕ} {l : List α} {a : α} {now : ℕ} (h : InOrder time l)
    (ha : a ∉ l) (hnow : ∀ b ∈ l, time b < now) :
    InOrder (Function.update time a now) (l ++ [a]) := by
  refine List.pairwise_append.mpr ⟨(inOrder_update ha).mpr h, List.pairwise_singleton _ a, ?_⟩
  intro b hb c hc
  have hne : b ≠ a := fun hba => ha (hba ▸ hb)
  rw [List.mem_singleton.mp hc, Function.update_self, Function.update_of_ne hne]
  exact hnow b hb

/-- Serving a place keeps the order only if it is behind all others. -/
theorem inOrder_renew_iff {time : α → ℕ} {l : List α} {a : α} {now : ℕ} (hl : l.Nodup)
    (ha : a ∈ l) (hnow : ∀ b ∈ l, b ≠ a → time b < now) :
    InOrder (Function.update time a now) l ↔ ∃ others, l = others ++ [a] ∧ InOrder time others := by
  constructor
  · intro h
    rcases List.eq_nil_or_concat l with rfl | ⟨others, c, rfl⟩
    · exact absurd ha List.not_mem_nil
    · rw [List.concat_eq_append] at *
      by_cases hca : c = a
      · subst hca
        have hc : c ∉ others := fun hc => List.disjoint_of_nodup_append hl hc
          (List.mem_singleton_self c)
        exact ⟨others, rfl, (inOrder_update hc).mp (List.pairwise_append.mp h).1⟩
      · -- Some place behind `a` would have been served in the future.
        have hao : a ∈ others := by
          rcases List.mem_append.mp ha with h | h
          · exact h
          · exact absurd (List.mem_singleton.mp h).symm hca
        have hcl : c ∈ others ++ [c] := List.mem_append_right others (List.mem_singleton_self c)
        have hlt := (List.pairwise_append.mp h).2.2 a hao c (List.mem_singleton_self c)
        rw [Function.update_self, Function.update_of_ne hca] at hlt
        have hpast := hnow c hcl hca
        omega
  · rintro ⟨others, rfl, h⟩
    have hao : a ∉ others := fun hao => List.disjoint_of_nodup_append hl hao
      (List.mem_singleton_self a)
    refine inOrder_renew h hao ?_
    intro b hb
    exact hnow b (List.mem_append_left [a] hb) (fun hba => hao (hba ▸ hb))

/-- The place whose turn it is is served and goes to the back. -/
def serve (s : RoundRobin α) : RoundRobin α :=
  match s.queue with
  | [] => s
  | a :: l => { queue := l ++ [a], time := Function.update s.time a s.now, now := s.now + 1 }

theorem serve_cons {a : α} {l : List α} (h : s.queue = a :: l) :
    s.serve =
      { queue := l ++ [a], time := Function.update s.time a s.now, now := s.now + 1 } := by
  unfold serve
  rw [h]

theorem serve_nil (h : s.queue = []) : s.serve = s := by
  unfold serve
  rw [h]

theorem Sound.serve (h : s.Sound) : s.serve.Sound := by
  cases hq : s.queue with
  | nil => rwa [serve_nil hq]
  | cons a l =>
      have hnodup := h.nodup
      rw [hq] at hnodup
      rw [serve_cons hq]
      constructor
      · exact (List.perm_append_singleton a l).nodup_iff.mpr hnodup
      · intro b hb
        by_cases hba : b = a
        · subst hba
          simp only [Function.update_self]
          omega
        · have hmem : b ∈ s.queue := by
            rw [hq]
            exact (List.perm_append_singleton a l).mem_iff.mp hb
          have hpast := h.past b hmem
          simp only [Function.update_of_ne hba]
          omega

theorem InOrder.serve (h : s.Sound) (ho : InOrder s.time s.queue) :
    InOrder s.serve.time s.serve.queue := by
  cases hq : s.queue with
  | nil => rwa [serve_nil hq]
  | cons a l =>
      have hnodup := h.nodup
      have hpast := h.past
      rw [hq] at ho hnodup hpast
      rw [serve_cons hq]
      exact inOrder_renew (List.pairwise_cons.mp ho).2 (List.nodup_cons.mp hnodup).1
        (fun b hb => hpast b (List.mem_cons_of_mem a hb))

/-- The places that were not served yet are in order if each of them is the
    oldest when its turn comes. -/
theorem inOrder_of_oldest {v u : List α} (hs : s.Sound) (hq : s.queue = v ++ u)
    (h : ∀ k, (RoundRobin.serve^[k] s).Oldest) : InOrder s.time v := by
  induction v generalizing s u with
  | nil => exact List.Pairwise.nil
  | cons a v ih =>
      have hnodup := hs.nodup
      rw [hq] at hnodup
      have ha : a ∉ v := fun hav =>
        (List.nodup_cons.mp hnodup).1 (List.mem_append_left u hav)
      -- It is the turn of `a` now, and after it the others follow.
      have hfirst := h 0 a (v ++ u) hq
      have hrest : InOrder s.serve.time v := by
        refine ih (u := u ++ [a]) hs.serve ?_ ?_
        · rw [serve_cons hq]
          exact List.append_assoc v u [a]
        · intro k
          rw [← Function.iterate_succ_apply]
          exact h (k + 1)
      rw [serve_cons hq] at hrest
      refine List.pairwise_cons.mpr ⟨?_, (inOrder_update ha).mp hrest⟩
      intro b hb
      exact hfirst b (List.mem_append_left u hb)

theorem sound_iterate (hs : s.Sound) (k : ℕ) : (RoundRobin.serve^[k] s).Sound := by
  induction k with
  | zero => exact hs
  | succ k ih =>
      rw [Function.iterate_succ_apply']
      exact ih.serve

/-- Round robin always serves the oldest place if and only if the circle is in
    order. -/
theorem inOrder_iff_oldest (hs : s.Sound) :
    (∀ k, (RoundRobin.serve^[k] s).Oldest) ↔ InOrder s.time s.queue := by
  constructor
  · intro h
    exact inOrder_of_oldest hs (List.append_nil s.queue).symm h
  · intro h k
    have hk : InOrder (RoundRobin.serve^[k] s).time (RoundRobin.serve^[k] s).queue := by
      induction k with
      | zero => exact h
      | succ k ih =>
          rw [Function.iterate_succ_apply']
          exact ih.serve (sound_iterate hs k)
    exact hk.oldest

end RoundRobin

/-! ## The circle -/

section Circle

variable {N i : ℕ}

/-- The numbers below `N` in a circle, from `i` on. -/
def turns (N i : ℕ) : List ℕ := (List.range N).rotate i

theorem mem_turns {a : ℕ} : a ∈ turns N i ↔ a < N := by
  unfold turns
  rw [List.mem_rotate, List.mem_range]

theorem nodup_turns (N i : ℕ) : (turns N i).Nodup := by
  unfold turns
  exact List.nodup_rotate.mpr List.nodup_range

theorem turns_mod (N i : ℕ) : turns N (i % N) = turns N i := by
  unfold turns
  have h := List.rotate_mod (List.range N) i
  rwa [List.length_range] at h

theorem turns_head (hN : 0 < N) (i : ℕ) : ∃ l, turns N i = (i % N) :: l := by
  have hlt : i % N < N := Nat.mod_lt i hN
  rw [← turns_mod]
  have hhead : (turns N (i % N)).head? = some (i % N) := by
    unfold turns
    rw [List.head?_rotate (by rwa [List.length_range]), List.getElem?_range hlt]
  exact List.head?_eq_some_iff.mp hhead

/-- Seen from the next place, the first one is the last. -/
theorem turns_succ {a : ℕ} {l : List ℕ} (h : turns N i = a :: l) : turns N (i + 1) = l ++ [a] := by
  unfold turns at h ⊢
  rw [← List.rotate_rotate, h, List.rotate_cons_succ, List.rotate_zero]

end Circle

end Pandos
