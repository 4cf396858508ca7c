import Mathlib.Data.ENat.Basic

/-!
# Buffers of Limited Capacity

A buffer receives text piece by piece and takes what fits. Its capacity is a
number or infinite. How much it takes of a piece depends only on how much text
came before, so pieces can be joined: taking two pieces one after the other
takes as much as taking them at once.

The memory behind a buffer is a function on machine addresses. `stored` is
that memory after a list was written at consecutive addresses.

## Main definitions

* `fit`: How much of a piece fits after a given amount of text.
* `stored`: Memory after a list of values was stored.

## Theorems

* `fit_add`: Pieces can be joined.
* `fit_eq_zero_iff`: Nothing is taken of an empty piece or when the buffer is
  full.
* `stored_cons`: Storing the first value first.
* `stored_snoc`: Storing the last value last.
-/

namespace Pandos

namespace Buffers

/-! ## Capacity -/

section Capacity

variable {K : ℕ∞} {a m n : ℕ}

/-- How much of a piece of `n` fits when `a` came before. -/
def fit : ℕ∞ → ℕ → ℕ → ℕ
  | ⊤, _, n => n
  | (k : ℕ), a, n => min (k - a) n

@[simp]
theorem fit_top (a n : ℕ) : fit ⊤ a n = n := rfl

@[simp]
theorem fit_coe (k a n : ℕ) : fit (k : ℕ∞) a n = min (k - a) n := rfl

theorem fit_le (K : ℕ∞) (a n : ℕ) : fit K a n ≤ n := by
  cases K with
  | top => rw [fit_top]
  | coe k =>
      rw [fit_coe]
      exact Nat.min_le_right _ _

@[simp]
theorem fit_zero (K : ℕ∞) (a : ℕ) : fit K a 0 = 0 := Nat.le_zero.mp (fit_le K a 0)

/-- Two pieces are taken like one. -/
theorem fit_add (K : ℕ∞) (a m n : ℕ) : fit K a (m + n) = fit K a m + fit K (a + m) n := by
  cases K with
  | top => simp only [fit_top]
  | coe k =>
      simp only [fit_coe]
      omega

/-- A buffer of infinite capacity is never full. -/
theorem not_full_top (a : ℕ) : ¬ (⊤ : ℕ∞) ≤ a := by
  rw [top_le_iff]
  exact ENat.natCast_ne_top a

/-- Nothing fits into a full buffer. -/
theorem fit_of_full (h : K ≤ a) : fit K a n = 0 := by
  cases K with
  | top => exact absurd h (not_full_top a)
  | coe k =>
      rw [Nat.cast_le] at h
      rw [fit_coe]
      omega

theorem fit_eq_zero_iff : fit K a n = 0 ↔ n = 0 ∨ K ≤ a := by
  cases K with
  | top => simp only [fit_top, not_full_top, or_false]
  | coe k =>
      rw [fit_coe, Nat.cast_le]
      omega

theorem fit_of_le (h : ((a + n : ℕ) : ℕ∞) ≤ K) : fit K a n = n := by
  cases K with
  | top => rw [fit_top]
  | coe k =>
      rw [Nat.cast_le] at h
      rw [fit_coe]
      omega

end Capacity

/-! ## Memory -/

section Memory

variable {α : Type*} {w : ℕ} {mem : BitVec w → α} {xs ys : List α} {p : ℕ}

/-- Memory after the values of a list were stored from an address on. -/
def stored (mem : BitVec w → α) (p : ℕ) (xs : List α) : BitVec w → α := fun o =>
  if p ≤ o.toNat then (xs[o.toNat - p]?).getD (mem o) else mem o

theorem stored_nil (mem : BitVec w → α) (p : ℕ) : stored mem p [] = mem := by
  funext o
  unfold stored
  rw [List.getElem?_nil, Option.getD_none, ite_self]

/-- The first value is stored first. -/
theorem stored_cons (mem : BitVec w → α) (o : BitVec w) (x : α) (xs : List α) :
    stored (Function.update mem o x) (o.toNat + 1) xs = stored mem o.toNat (x :: xs) := by
  funext q
  unfold stored
  by_cases hq : q = o
  · rw [hq, if_neg (Nat.not_succ_le_self _), if_pos (Nat.le_refl _), Nat.sub_self,
      Function.update_self, List.getElem?_cons_zero, Option.getD_some]
  · have hne : q.toNat ≠ o.toNat := fun hc => hq (BitVec.eq_of_toNat_eq hc)
    rw [Function.update_of_ne hq]
    by_cases hle : o.toNat + 1 ≤ q.toNat
    · rw [if_pos hle, if_pos (by omega)]
      have hsub : q.toNat - o.toNat = (q.toNat - (o.toNat + 1)) + 1 := by omega
      rw [hsub, List.getElem?_cons_succ]
    · rw [if_neg hle, if_neg (by omega)]

theorem stored_single (mem : BitVec w → α) (o : BitVec w) (x : α) :
    stored mem o.toNat [x] = Function.update mem o x := by
  rw [← stored_cons, stored_nil]

/-- The last value is stored last. -/
theorem stored_snoc {o : BitVec w} (ho : o.toNat = p + xs.length) (x : α) :
    Function.update (stored mem p xs) o x = stored mem p (xs ++ [x]) := by
  funext q
  by_cases hq : q = o
  · rw [hq, Function.update_self]
    unfold stored
    rw [if_pos (by omega), List.getElem?_append_right (by omega)]
    have hlast : o.toNat - p - xs.length = 0 := by omega
    rw [hlast, List.getElem?_cons_zero, Option.getD_some]
  · have hne : q.toNat ≠ o.toNat := fun hc => hq (BitVec.eq_of_toNat_eq hc)
    rw [Function.update_of_ne hq]
    unfold stored
    by_cases hle : p ≤ q.toNat
    · rw [if_pos hle, if_pos hle]
      by_cases hlt : q.toNat - p < xs.length
      · rw [List.getElem?_append_left hlt]
      · rw [List.getElem?_eq_none (by omega), List.getElem?_eq_none]
        rw [List.length_append, List.length_singleton]
        omega
    · rw [if_neg hle, if_neg hle]

/-- Addresses before and behind the list keep their values. -/
theorem stored_outside {o : BitVec w} (h : o.toNat < p ∨ p + xs.length ≤ o.toNat) :
    stored mem p xs o = mem o := by
  unfold stored
  by_cases hle : p ≤ o.toNat
  · rw [if_pos hle, List.getElem?_eq_none (by omega), Option.getD_none]
  · rw [if_neg hle]

theorem stored_inside {o : BitVec w} {i : ℕ} (ho : o.toNat = p + i) (hi : i < xs.length) :
    stored mem p xs o = xs[i] := by
  unfold stored
  have hsub : o.toNat - p = i := by omega
  rw [if_pos (by omega), hsub, List.getElem?_eq_getElem hi, Option.getD_some]

end Memory

end Buffers

end Pandos
