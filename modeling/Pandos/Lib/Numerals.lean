import Mathlib.Data.Nat.Digits.Lemmas

/-!
# Numerals

Numbers written in a base with the most significant digit first, as people
write them. `Nat.digits` has the digits in the other order, and none for zero.

A loop that prints a number has no list of digits to reverse. It divides by a
power of the base, writes the quotient and goes on with the remainder, in as
many places as it was told. `places` is that loop, and `places_eq_numeral` says
when it writes the numeral: exactly when the number of places is right.

## Main definitions

* `numeral`: The digits of a number without leading zeros.
* `value`: The number a list of digits stands for.
* `places`: The digits found by dividing by powers of the base.

## Theorems

* `value_numeral`: A numeral stands for its number.
* `places_eq_numeral`: In the right number of places the loop finds the
  numeral.
* `length_numeral_le`: A numeral of a number below a power is short.
-/

namespace Pandos

namespace Numerals

variable {b k n : ℕ}

/-- The digits of a number, the most significant first. -/
def numeral (b n : ℕ) : List ℕ := if n = 0 then [0] else (Nat.digits b n).reverse

/-- The number a list of digits stands for, the most significant first. -/
def value (b : ℕ) (ds : List ℕ) : ℕ := ds.foldl (fun v d => b * v + d) 0

/-- The quotients by falling powers of the base, starting from `k` places. -/
def places (b : ℕ) : ℕ → ℕ → List ℕ
  | 0, _ => []
  | k + 1, n => n / b ^ k :: places b k (n % b ^ k)

theorem value_reverse (b : ℕ) (ds : List ℕ) : value b ds.reverse = Nat.ofDigits b ds := by
  induction ds with
  | nil => rfl
  | cons d ds ih =>
      unfold value at ih ⊢
      rw [List.reverse_cons, List.foldl_append, ih, Nat.ofDigits_cons]
      exact Nat.add_comm _ _

theorem value_numeral (b n : ℕ) : value b (numeral b n) = n := by
  unfold numeral
  by_cases hn : n = 0
  · rw [if_pos hn, hn]
    rfl
  · rw [if_neg hn, value_reverse, Nat.ofDigits_digits]

theorem lt_of_mem_numeral (hb : 1 < b) {d : ℕ} (hd : d ∈ numeral b n) : d < b := by
  unfold numeral at hd
  by_cases hn : n = 0
  · rw [if_pos hn, List.mem_singleton] at hd
    omega
  · rw [if_neg hn, List.mem_reverse] at hd
    exact Nat.digits_lt_base hb hd

theorem numeral_length (hn : n ≠ 0) : (numeral b n).length = (Nat.digits b n).length := by
  unfold numeral
  rw [if_neg hn, List.length_reverse]

theorem length_numeral_pos (b n : ℕ) : 0 < (numeral b n).length := by
  by_cases hn : n = 0
  · unfold numeral
    rw [if_pos hn]
    exact Nat.one_pos
  · rw [numeral_length hn]
    exact List.length_pos_iff.mpr (Nat.digits_ne_nil_iff_ne_zero.mpr hn)

theorem length_numeral_le (hb : 1 < b) (hk : 0 < k) (h : n < b ^ k) :
    (numeral b n).length ≤ k := by
  by_cases hn : n = 0
  · unfold numeral
    rw [if_pos hn]
    exact hk
  · rw [numeral_length hn]
    exact (Nat.digits_length_le_iff hb n).mpr h

theorem length_places (b k n : ℕ) : (places b k n).length = k := by
  induction k generalizing n with
  | zero => rfl
  | succ k ih =>
      unfold places
      rw [List.length_cons, ih]

theorem lt_of_mem_places (hb : 0 < b) (h : n < b ^ k) {d : ℕ} (hd : d ∈ places b k n) : d < b := by
  induction k generalizing n with
  | zero => cases hd
  | succ k ih =>
      have hpow : 0 < b ^ k := Nat.pow_pos hb
      rcases List.mem_cons.mp hd with hd | hd
      · -- The first quotient is a digit because the number fits.
        rw [hd, Nat.div_lt_iff_lt_mul hpow, Nat.mul_comm, ← Nat.pow_succ]
        exact h
      · exact ih (Nat.mod_lt n hpow) hd

theorem value_places (b k n : ℕ) (h : n < b ^ k) :
    Nat.ofDigits b (places b k n).reverse = n := by
  induction k generalizing n with
  | zero =>
      have hn : n = 0 := by
        rw [Nat.pow_zero] at h
        omega
      rw [hn]
      rfl
  | succ k ih =>
      unfold places
      by_cases hb : b = 0
      · rw [hb, Nat.zero_pow (Nat.succ_pos k)] at h
        omega
      have hpow : 0 < b ^ k := Nat.pow_pos (Nat.pos_of_ne_zero hb)
      rw [List.reverse_cons, Nat.ofDigits_append, Nat.ofDigits_singleton, List.length_reverse,
        length_places, ih _ (Nat.mod_lt n hpow)]
      exact Nat.mod_add_div n (b ^ k)

/-- Dividing by falling powers finds the numeral in as many places as it has. -/
theorem places_eq_numeral (hb : 1 < b) (hn : n ≠ 0) :
    places b (Nat.digits b n).length n = numeral b n := by
  have hlt : n < b ^ (Nat.digits b n).length := Nat.lt_base_pow_length_digits hb
  unfold numeral
  rw [if_neg hn]
  refine List.reverse_eq_iff.mp (Nat.ofDigits_inj_of_len_eq hb ?_ ?_ ?_ ?_)
  · rw [List.length_reverse, length_places]
  · intro d hd
    exact lt_of_mem_places (by omega) hlt (List.mem_reverse.mp hd)
  · intro d hd
    exact Nat.digits_lt_base hb hd
  · rw [value_places b _ n hlt, Nat.ofDigits_digits]

end Numerals

end Pandos
