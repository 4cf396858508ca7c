import Mathlib.Data.Nat.Prime.Basic
import Mathlib.Tactic.IntervalCases
import Pandos.Lib.Numerals
import Pandos.Printf
import Pandos.Theory.Writers

/-!
# Rendering Numbers

What `__itoa` gives a writer. Its loop over the digits divides by a power of
the base, so `Numerals.places` describes it as long as the power and the
quotients stay in range.

Two divisions have to agree. The digits are counted by dividing the number as a
signed one, and found by dividing it as an unsigned one. The two numbers have
the same digits when the sign is clear, and for base ten, where a negative
number is negated first. Otherwise the unsigned number can be longer than the
magnitude whose digits were counted.

## Main definitions

* `rawDigits`, `itoaText`: The characters `__itoa` produces.
* `digitGlyph`, `canonical`: The canonical numeral of a word.
* `readNumeral`: The word a numeral stands for.
* `SameLength`, `Faithful`: When the two divisions agree.

## Theorems

* `itoa_fills`: `__itoa` at a writer that takes what fits.
* `itoaText_eq_canonical`, `itoaText_short`: When the text is the canonical
  numeral.
* `readNumeral_canonical`: A canonical numeral is read back.
-/

namespace Pandos

open Buffers Numerals

/-! ## The text -/

section Text

variable {σ : Type} {w : Writer σ} {K : ℕ∞} {R : σ → List Byte → Prop} {s : σ} {out : List Byte}

/-- The characters the loop over the digits computes. -/
def rawDigits (base : Word) : Nat → Word → Word → List Byte
  | 0, _, _ => []
  | digits + 1, unsignedI, exp =>
    digitChar (unsignedI / exp) :: rawDigits base digits (unsignedI % exp) (exp.sdiv base)

/-- The text of `__itoa`. The loop over the digits ends at a NUL. -/
def itoaText (i base : Word) : List Byte :=
  let negative := base = SIGNED_BASE ∧ i.toInt < 0
  let m := if negative then -i else i
  (if negative then [chr '-'] else []) ++
    if m = 0 then [chr '0']
    else (rawDigits base (digitCount base m) m
      (pandosPow base (digitCount base m - 1))).takeWhile (· ≠ 0)

theorem ofArray_single (c : Byte) (h : [c].length < 2 ^ 32) :
    (CString.ofArray [c] h).chars = if c = 0 then [] else [c] := by
  unfold CString.ofArray
  by_cases hc : c = 0
  · rw [if_pos hc, hc]
    rfl
  · rw [if_neg hc]
    refine List.takeWhile_eq_self_iff.mpr (fun d hd => decide_eq_true ?_)
    rw [List.mem_singleton.mp hd]
    exact hc

/-- One character at a writer that takes what fits. Nothing is taken of a
    NUL. -/
theorem write_char (hw : w.Fills K R) (h : R s out) (c : Byte) (hlen : [c].length < 2 ^ 32) :
    R (w s (CString.ofArray [c] hlen) 1).1 (out ++ if c = 0 then [] else [c]) ∧
      (w s (CString.ofArray [c] hlen) 1).2 =
        BitVec.ofNat 32 (fit K out.length (if c = 0 then [] else [c]).length) := by
  have huncut : (1 : Word) = 0 ∨ (CString.ofArray [c] hlen).chars.length ≤ (1 : Word).toNat := by
    rw [ofArray_single]
    split
    · exact Or.inr (Nat.zero_le _)
    · exact Or.inr (Nat.le_refl 1)
  have htext := hw.text s out _ 1 huncut h
  have hcount := hw.count s out _ 1 huncut h
  rw [ofArray_single] at htext hcount
  exact ⟨htext, hcount⟩

/-- An array without a NUL at a writer that takes what fits. -/
theorem write_array (hw : w.Fills K R) (h : R s out) {a : List Byte} (hlen : a.length < 2 ^ 32)
    (hn : ∀ c ∈ a, c ≠ 0) {n : Word} (hle : a.length ≤ n.toNat) :
    R (w s (CString.ofArray a hlen) n).1 (out ++ a) ∧
      (w s (CString.ofArray a hlen) n).2 = BitVec.ofNat 32 (fit K out.length a.length) := by
  have hchars := ofArray_chars hlen hn
  have htext := hw.text s out (CString.ofArray a hlen) n (Or.inr (by rw [hchars]; exact hle)) h
  have hcount := hw.count s out (CString.ofArray a hlen) n (Or.inr (by rw [hchars]; exact hle)) h
  rw [hchars] at htext hcount
  exact ⟨htext, hcount⟩

/-- The terminator at a writer that takes what fits. -/
theorem write_end (hw : w.Fills K R) (h : R s out) :
    R (w s cEnd 1).1 out ∧ (w s cEnd 1).2 = 0 := by
  have hnil : cEnd.chars = [] := rfl
  have htext := hw.text s out cEnd 1 (Or.inr (Nat.zero_le _)) h
  have hcount := hw.count s out cEnd 1 (Or.inr (Nat.zero_le _)) h
  rw [hnil, List.append_nil] at htext
  rw [hnil, List.length_nil, fit_zero] at hcount
  exact ⟨htext, hcount⟩

theorem ofNat_eq_zero_iff {n : Nat} (hn : n < 2 ^ 32) : BitVec.ofNat 32 n = 0 ↔ n = 0 := by
  refine ⟨fun h => ?_, fun h => by rw [h]; rfl⟩
  have hnat := congrArg BitVec.toNat h
  rw [BitVec.toNat_ofNat, Nat.mod_eq_of_lt hn] at hnat
  exact hnat

theorem itoaDigits_stop (base : Word) (digits : Nat) (u exp wrote : Word) :
    itoaDigits w base digits u exp 0 s wrote = (s, wrote) := by
  cases digits with
  | zero => rfl
  | succ n =>
      unfold itoaDigits
      rw [if_pos rfl]

/-- The loop over the digits at a writer that takes what fits. -/
theorem itoaDigits_fills (hw : w.Fills K R) (base : Word) (digits : Nat) (u exp wr wrote : Word)
    (hwr : wr ≠ 0) (h : R s out) :
    R (itoaDigits w base digits u exp wr s wrote).1
        (out ++ (rawDigits base digits u exp).takeWhile (· ≠ 0)) ∧
      (itoaDigits w base digits u exp wr s wrote).2 = wrote + BitVec.ofNat 32
        (fit K out.length ((rawDigits base digits u exp).takeWhile (· ≠ 0)).length) := by
  induction digits generalizing s out u exp wr wrote with
  | zero =>
      simp only [itoaDigits, rawDigits, List.takeWhile_nil, List.length_nil, fit_zero,
        List.append_nil]
      exact ⟨h, (BitVec.add_zero wrote).symm⟩
  | succ digits ih =>
      unfold itoaDigits rawDigits
      rw [if_neg hwr]
      simp only
      generalize digitChar (u / exp) = c
      rcases write_char hw h c (by simp) with ⟨htext, hcount⟩
      generalize w s (CString.ofArray [c] (by simp)) 1 = r at *
      by_cases hc : c = 0
      · -- Nothing is taken of a NUL, which ends the loop.
        have hnil :
            (c :: rawDigits base digits (u % exp) (exp.sdiv base)).takeWhile (· ≠ 0) = [] := by
          rw [hc]
          rfl
        rw [if_pos hc, List.append_nil] at htext
        rw [if_pos hc, List.length_nil, fit_zero] at hcount
        rw [hnil, hcount, List.append_nil, List.length_nil, fit_zero]
        have hzero : BitVec.ofNat 32 0 = 0 := rfl
        rw [hzero, itoaDigits_stop]
        exact ⟨htext, rfl⟩
      · have hcons : (c :: rawDigits base digits (u % exp) (exp.sdiv base)).takeWhile (· ≠ 0) =
            c :: (rawDigits base digits (u % exp) (exp.sdiv base)).takeWhile (· ≠ 0) :=
          List.takeWhile_cons_of_pos (decide_eq_true hc)
        rw [if_neg hc] at htext hcount
        rw [hcons]
        by_cases hr : r.2 = 0
        · -- The target is full, so the rest of the text changes nothing.
          have hone : fit K out.length [c].length = 0 := by
            have hle := fit_le K out.length [c].length
            rw [hcount, ofNat_eq_zero_iff (lt_of_le_of_lt hle (by simp))] at hr
            exact hr
          have hfull := (fit_eq_zero_iff.mp hone).resolve_left (by simp)
          rw [hr, itoaDigits_stop, fit_of_full hfull]
          refine ⟨?_, rfl⟩
          rw [← List.singleton_append, ← List.append_assoc]
          refine hw.full _ _ _ htext (hfull.trans ?_)
          rw [List.length_append]
          exact Nat.cast_le.mpr (Nat.le_add_right _ _)
        · rcases ih (u % exp) (exp.sdiv base) r.2 (wrote + r.2) hr htext with ⟨htext', hcount'⟩
          rw [List.append_assoc, List.singleton_append] at htext'
          refine ⟨htext', ?_⟩
          rw [hcount', hcount, BitVec.add_assoc, ← BitVec.ofNat_add, List.length_append, ← fit_add,
            ← List.length_append, List.singleton_append]

/-- `__itoa` at a writer that takes what fits. The last thing it writes is the
    terminator. -/
theorem itoa_end (hw : w.Fills K R) (i base : Word) (h : R s out) :
    (∃ q, R q (out ++ itoaText i base) ∧ (itoa w s i base).1 = (w q cEnd 1).1) ∧
      (itoa w s i base).2 = BitVec.ofNat 32 (fit K out.length (itoaText i base).length) := by
  unfold itoa itoaText
  simp only
  -- The sign.
  generalize hneg : (if base = SIGNED_BASE ∧ i.toInt < 0 then [chr '-'] else []) = sign
  have hsign : R (if base = SIGNED_BASE ∧ i.toInt < 0 then w s cNeg 1 else (s, 0)).1 (out ++ sign) ∧
      (if base = SIGNED_BASE ∧ i.toInt < 0 then w s cNeg 1 else (s, 0)).2 =
        BitVec.ofNat 32 (fit K out.length sign.length) := by
    by_cases hn : base = SIGNED_BASE ∧ i.toInt < 0
    · rw [if_pos hn] at hneg
      rw [if_pos hn, ← hneg]
      exact write_array hw h (by decide) (by decide) (by decide)
    · rw [if_neg hn] at hneg
      rw [if_neg hn, ← hneg, List.append_nil, List.length_nil, fit_zero]
      exact ⟨h, rfl⟩
  generalize (if base = SIGNED_BASE ∧ i.toInt < 0 then w s cNeg 1 else (s, 0)) = r at hsign ⊢
  generalize (if base = SIGNED_BASE ∧ i.toInt < 0 then -i else i) = m
  rcases hsign with ⟨hr, hrcount⟩
  -- The digits.
  generalize hdigits : (if m = 0 then [chr '0'] else (rawDigits base (digitCount base m) m
    (pandosPow base (digitCount base m - 1))).takeWhile (· ≠ 0)) = digits
  have hd : ∀ n, (m ≠ 0 → n = digitCount base m) →
      R (if m ≠ 0 then itoaDigits w base n m (pandosPow base (n - 1)) 1 r.1 r.2
        else ((w r.1 (CString.ofArray [chr '0'] (by decide)) 1).1,
          r.2 + (w r.1 (CString.ofArray [chr '0'] (by decide)) 1).2)).1 (out ++ sign ++ digits) ∧
      (if m ≠ 0 then itoaDigits w base n m (pandosPow base (n - 1)) 1 r.1 r.2
        else ((w r.1 (CString.ofArray [chr '0'] (by decide)) 1).1,
          r.2 + (w r.1 (CString.ofArray [chr '0'] (by decide)) 1).2)).2 =
        r.2 + BitVec.ofNat 32 (fit K (out ++ sign).length digits.length) := by
    intro n hn
    by_cases hm : m = 0
    · rw [if_pos hm] at hdigits
      rw [if_neg (not_not.mpr hm), ← hdigits]
      rcases write_array hw hr (a := [chr '0']) (n := 1) (by decide) (by decide) (by decide) with
        ⟨htext, hcount⟩
      exact ⟨htext, congrArg (r.2 + ·) hcount⟩
    · rw [if_neg hm] at hdigits
      rw [if_pos hm, hn hm, ← hdigits]
      exact itoaDigits_fills hw base _ m _ 1 r.2 (by decide) hr
  have hd' := hd (if m = 0 then digitCount base m + 1 else digitCount base m)
    (fun hm => if_neg hm)
  generalize (if m ≠ 0 then _ else _ : σ × Word) = q at hd' ⊢
  rcases hd' with ⟨hq, hqcount⟩
  -- The terminator counts for nothing.
  rw [(write_end hw hq).2, hqcount, hrcount, List.length_append, List.length_append, fit_add,
    BitVec.ofNat_add]
  rw [List.append_assoc] at hq
  exact ⟨⟨q.1, hq, rfl⟩, BitVec.add_zero _⟩

theorem itoa_fills (hw : w.Fills K R) (i base : Word) (h : R s out) :
    R (itoa w s i base).1 (out ++ itoaText i base) ∧
      (itoa w s i base).2 = BitVec.ofNat 32 (fit K out.length (itoaText i base).length) := by
  rcases itoa_end hw i base h with ⟨⟨q, hq, hend⟩, hcount⟩
  rw [hend]
  exact ⟨(write_end hw hq).1, hcount⟩

theorem itoa_listWriter (out : List Byte) (i base : Word) :
    itoa listWriter out i base =
      (out ++ itoaText i base, BitVec.ofNat 32 (itoaText i base).length) := by
  rcases itoa_fills (s := out) listWriter_fills i base rfl with ⟨htext, hcount⟩
  rw [fit_top] at hcount
  exact Prod.ext htext hcount

end Text

/-! ## The numeral -/

section Numeral

variable {base i : Word}

/-- The character of a digit. -/
def digitGlyph (d : Nat) : Byte := chr (("0123456789abcdef".toList[d]?).getD ' ')

/-- The numeral of a number in characters. -/
def numeralText (base n : Nat) : List Byte := (numeral base n).map digitGlyph

/-- The canonical numeral of a word: of the signed number in base ten, of the
    unsigned number in all other bases. -/
def canonical (i base : Word) : List Byte :=
  if base = SIGNED_BASE ∧ i.toInt < 0 then chr '-' :: numeralText base.toNat i.toInt.natAbs
  else numeralText base.toNat i.toNat

/-- The digit a character stands for. -/
def glyphDigit (c : Byte) : Nat := ("0123456789abcdef".toList.map chr).idxOf c

/-- The word a numeral stands for. -/
def readNumeral (base : Word) (text : List Byte) : Word :=
  if text.head? = some (chr '-') then
    -BitVec.ofNat 32 (value base.toNat (text.tail.map glyphDigit))
  else BitVec.ofNat 32 (value base.toNat (text.map glyphDigit))

/-- The magnitude of the signed number has as many digits as the unsigned
    number. -/
def SameLength (i base : Word) : Prop :=
  (Nat.digits base.toNat i.toInt.natAbs).length = (Nat.digits base.toNat i.toNat).length

instance (i base : Word) : Decidable (SameLength i base) :=
  inferInstanceAs (Decidable (_ = _))

theorem toInt_base (hbase : base.toNat ≤ 16) : base.toInt = base.toNat := by
  rw [BitVec.toInt_eq_toNat_cond, if_pos (by omega)]

theorem digitCount_eq (hlow : 2 ≤ base.toNat) (hhigh : base.toNat ≤ 16) (cpy : Word) :
    digitCount base cpy = (Nat.digits base.toNat cpy.toInt.natAbs).length := by
  have hint := toInt_base hhigh
  induction cpy using digitCount.induct base with
  | case1 cpy h ih =>
      have hpos : 0 < cpy.toInt.natAbs :=
        Int.natAbs_pos.mpr (fun hc => h.1 (BitVec.eq_of_toInt_eq hc))
      rw [digitCount, dif_pos h, ih, natAbs_sdiv h.2, hint, Int.natAbs_natCast,
        Nat.digits_def' (by omega) hpos, List.length_cons]
  | case2 cpy h =>
      have hzero : cpy = 0 := by
        by_contra hc
        exact h ⟨hc, by omega⟩
      have hnone : (0 : Word).toInt.natAbs = 0 := rfl
      rw [digitCount, dif_neg h, hzero, hnone, Nat.digits_zero]
      rfl

theorem pandosPow_eq (base : Word) (exp : Nat) :
    (pandosPow base exp).toNat = base.toNat ^ exp % 2 ^ 32 := by
  induction exp using Nat.strong_induction_on with
  | _ exp ih =>
      unfold pandosPow
      by_cases h : exp = 0
      · rw [if_pos h, h, Nat.pow_zero]
        rfl
      · rw [if_neg h]
        simp only [BitVec.toNat_mul, ih (exp / 2) (by omega), Nat.mul_mod_mod, Nat.mod_mul_mod]
        have hhalf : exp = exp % 2 + exp / 2 + exp / 2 := by omega
        have hone : (1 : Word).toNat = base.toNat ^ 0 := rfl
        by_cases heven : exp % 2 = 0
        · rw [if_pos heven, hone, ← Nat.pow_add, ← Nat.pow_add, ← heven, ← hhalf]
        · have hodd : exp % 2 = 1 := by omega
          have hbase : base.toNat = base.toNat ^ 1 := (Nat.pow_one _).symm
          rw [if_neg heven]
          nth_rewrite 1 [hbase]
          rw [← Nat.pow_add, ← Nat.pow_add, ← hodd, ← hhalf]

/-- Signed division of numbers without a sign. -/
theorem toNat_sdiv {a b : Word} (ha : a.toNat < 2 ^ 31) (hb : b.toNat < 2 ^ 31) :
    (a.sdiv b).toNat = a.toNat / b.toNat := by
  have hamsb : a.msb = false := BitVec.msb_eq_false_iff_two_mul_lt.mpr (by omega)
  have hbmsb : b.msb = false := BitVec.msb_eq_false_iff_two_mul_lt.mpr (by omega)
  rw [BitVec.sdiv_eq, hamsb, hbmsb]
  exact BitVec.toNat_udiv

theorem digitChar_eq {d : Nat} (hd : d < 16) : digitChar (BitVec.ofNat 32 d) = digitGlyph d := by
  have h : ∀ d : Fin 16, digitChar (BitVec.ofNat 32 d.val) = digitGlyph d.val := by decide +kernel
  exact h ⟨d, hd⟩

/-- Dividing by falling powers of the base finds the digits of the places. -/
theorem rawDigits_eq (hlow : 2 ≤ base.toNat) (hhigh : base.toNat ≤ 16) (k : Nat) (u exp : Word)
    (hexp : exp.toNat = base.toNat ^ k) (hsmall : exp.toNat < 2 ^ 31)
    (hu : u.toNat < base.toNat ^ (k + 1)) :
    rawDigits base (k + 1) u exp = (Numerals.places base.toNat (k + 1) u.toNat).map digitGlyph := by
  have hb : 0 < base.toNat := by omega
  have hdigit : ∀ k (u exp : Word), exp.toNat = base.toNat ^ k → u.toNat < base.toNat ^ (k + 1) →
      digitChar (u / exp) = digitGlyph (u.toNat / base.toNat ^ k) := by
    intro k u exp hexp hu
    have hlt : u.toNat / base.toNat ^ k < base.toNat := by
      rw [Nat.div_lt_iff_lt_mul (Nat.pow_pos hb), Nat.mul_comm, ← Nat.pow_succ]
      exact hu
    have heq : u / exp = BitVec.ofNat 32 (u.toNat / base.toNat ^ k) := by
      refine BitVec.eq_of_toNat_eq ?_
      rw [BitVec.toNat_ofNat, Nat.mod_eq_of_lt (by omega), ← hexp]
      exact BitVec.toNat_udiv
    rw [heq, digitChar_eq (by omega)]
  induction k generalizing u exp with
  | zero =>
      simp only [rawDigits, Numerals.places, List.map_cons, List.map_nil]
      rw [hdigit 0 u exp hexp hu]
  | succ k ih =>
      unfold rawDigits Numerals.places
      rw [List.map_cons, hdigit (k + 1) u exp hexp hu]
      have hmod : (u % exp).toNat = u.toNat % base.toNat ^ (k + 1) := by
        rw [← hexp]
        exact BitVec.toNat_umod
      have hdiv : (exp.sdiv base).toNat = base.toNat ^ k := by
        rw [toNat_sdiv hsmall (by omega), hexp, Nat.pow_succ, Nat.mul_div_cancel _ hb]
      have hle : base.toNat ^ k ≤ base.toNat ^ (k + 1) := Nat.pow_le_pow_right hb (Nat.le_succ k)
      rw [ih (u % exp) (exp.sdiv base) hdiv (by omega)
        (by rw [hmod]; exact Nat.mod_lt _ (Nat.pow_pos hb)), hmod]

theorem digitGlyph_ne_zero {d : Nat} (hd : d < 16) : digitGlyph d ≠ 0 := by
  have h : ∀ d : Fin 16, digitGlyph d.val ≠ 0 := by decide
  exact h ⟨d, hd⟩

/-- The text of the digits is the numeral of the unsigned number, when the
    digits were counted right and their power of the base is an `int`. -/
theorem digits_text (hlow : 2 ≤ base.toNat) (hhigh : base.toNat ≤ 16) {m : Word} (hm : m ≠ 0)
    {n : Nat} (hn : (Nat.digits base.toNat m.toNat).length = n)
    (hpow : base.toNat ^ (n - 1) < 2 ^ 31) :
    (rawDigits base n m (pandosPow base (n - 1))).takeWhile (· ≠ 0) =
      numeralText base.toNat m.toNat := by
  have hne : m.toNat ≠ 0 := fun hc => hm (BitVec.eq_of_toNat_eq hc)
  have hpos : 0 < n := by
    rw [← hn]
    exact List.length_pos_iff.mpr (Nat.digits_ne_nil_iff_ne_zero.mpr hne)
  have hexp : (pandosPow base (n - 1)).toNat = base.toNat ^ (n - 1) := by
    rw [pandosPow_eq, Nat.mod_eq_of_lt (by omega)]
  have hlt : m.toNat < base.toNat ^ (n - 1 + 1) := by
    rw [Nat.sub_add_cancel hpos, ← hn]
    exact Nat.lt_base_pow_length_digits (by omega)
  have hraw := rawDigits_eq hlow hhigh (n - 1) m _ hexp (by omega) hlt
  rw [Nat.sub_add_cancel hpos] at hraw
  have hplaces : Numerals.places base.toNat n m.toNat = numeral base.toNat m.toNat := by
    rw [← hn]
    exact places_eq_numeral (by omega) hne
  rw [hraw, hplaces]
  refine List.takeWhile_eq_self_iff.mpr (fun c hc => decide_eq_true ?_)
  rcases List.mem_map.mp hc with ⟨d, hd, rfl⟩
  exact digitGlyph_ne_zero (lt_of_lt_of_le (lt_of_mem_numeral (by omega) hd) hhigh)

/-- A power of a small base that fits into the magnitude of an `int` is an
    `int`, with one exception. -/
theorem pow_fits {b k : Nat} (hhigh : b ≤ 16) (h : b ^ k ≤ 2 ^ 31) :
    b ^ k < 2 ^ 31 ∨ (b = 2 ∧ k = 31) := by
  rcases Nat.lt_or_eq_of_le h with hlt | heq
  · exact Or.inl hlt
  · have hk : k ≠ 0 := fun hc => by
      rw [hc, Nat.pow_zero] at heq
      exact absurd heq (by decide)
    rcases (Nat.dvd_prime_pow Nat.prime_two).mp (heq ▸ dvd_pow_self b hk) with ⟨j, -, rfl⟩
    rw [← Nat.pow_mul] at heq
    have hjk : j * k = 31 := Nat.pow_right_injective (Nat.le_refl 2) heq
    have hj : j ≤ 4 := (Nat.pow_le_pow_iff_right (by decide : 1 < 2)).mp (hhigh : 2 ^ j ≤ 2 ^ 4)
    right
    interval_cases j
    · omega
    · exact ⟨rfl, by omega⟩
    · omega
    · omega
    · omega

/-- The number of digits of a word. -/
theorem digits_length_bounds (hlow : 2 ≤ base.toNat) {n : Nat} (hn : n ≠ 0) :
    base.toNat ^ ((Nat.digits base.toNat n).length - 1) ≤ n := by
  have hpos : 0 < (Nat.digits base.toNat n).length :=
    List.length_pos_iff.mpr (Nat.digits_ne_nil_iff_ne_zero.mpr hn)
  by_contra hc
  have hle := (Nat.digits_length_le_iff (show 1 < base.toNat by omega) n).mpr (Nat.lt_of_not_le hc)
  omega

theorem itoaText_unsigned (hlow : 2 ≤ base.toNat) (hhigh : base.toNat ≤ 16) {m : Word} (hm : m ≠ 0)
    (hsame : SameLength m base) :
    (rawDigits base (digitCount base m) m (pandosPow base (digitCount base m - 1))).takeWhile
      (· ≠ 0) = numeralText base.toNat m.toNat := by
  have habs : m.toInt.natAbs ≤ 2 ^ 31 := by
    have h₁ := BitVec.toInt_lt (x := m)
    have h₂ := BitVec.le_toInt (x := m)
    omega
  have hne : m.toInt.natAbs ≠ 0 :=
    fun hc => hm (BitVec.eq_of_toInt_eq (Int.natAbs_eq_zero.mp hc))
  have hle := digits_length_bounds hlow hne
  rw [← digitCount_eq hlow hhigh] at hle
  rcases pow_fits hhigh (hle.trans habs) with hpow | ⟨hb, hk⟩
  · refine digits_text hlow hhigh hm ?_ hpow
    rw [digitCount_eq hlow hhigh]
    exact hsame.symm
  · -- Only the least number has a magnitude of 32 binary digits.
    have hm' : m = BitVec.intMin 32 := by
      refine BitVec.eq_of_toInt_eq ?_
      rw [hk, hb] at hle
      have hmin : (BitVec.intMin 32).toInt = -2 ^ 31 := by decide
      have hlt := BitVec.toInt_lt (x := m)
      rw [hmin]
      omega
    have hbase : base = 2 := BitVec.eq_of_toNat_eq hb
    rw [hm', hbase]
    decide +kernel

theorem numeralText_length (base n : Nat) :
    (numeralText base n).length = (numeral base n).length := List.length_map _

/-- A text of `__itoa` has at most one character for each digit counted. -/
theorem takeWhile_rawDigits_length (base : Word) (n : Nat) (u exp : Word) :
    ((rawDigits base n u exp).takeWhile (· ≠ 0)).length ≤ n := by
  have hlen : (rawDigits base n u exp).length = n := by
    induction n generalizing u exp with
    | zero => rfl
    | succ n ih =>
        unfold rawDigits
        rw [List.length_cons, ih]
  exact (List.takeWhile_prefix _).length_le.trans (Nat.le_of_eq hlen)

theorem negate {i : Word} (h : i.toInt < 0) : (-i).toNat = i.toInt.natAbs ∧
    (-i).toInt.natAbs = i.toInt.natAbs ∧ -i ≠ 0 := by
  have hint := BitVec.toInt_eq_toNat_cond i
  have hint' := BitVec.toInt_eq_toNat_cond (-i)
  have hneg : (-i).toNat = (2 ^ 32 - i.toNat) % 2 ^ 32 := BitVec.toNat_neg i
  have hlt := i.isLt
  have hnat : (-i).toNat = i.toInt.natAbs := by omega
  refine ⟨hnat, by omega, fun hc => ?_⟩
  rw [hc] at hnat
  have hzero : (0 : Word).toNat = 0 := rfl
  omega

/-- A number without a sign is its own magnitude. -/
theorem sameLength_of_nonneg {i : Word} (h : 0 ≤ i.toInt) (base : Word) : SameLength i base := by
  have hint := BitVec.toInt_eq_toNat_cond i
  have habs : i.toInt.natAbs = i.toNat := by omega
  unfold SameLength
  rw [habs]

/-- The base is ten, or the sign is clear, or the magnitude has as many digits
    as the unsigned number. -/
def Faithful (i base : Word) : Prop := base = SIGNED_BASE ∨ 0 ≤ i.toInt ∨ SameLength i base

/-- The text of `__itoa` is the canonical numeral if the digits that are counted
    are those of the number it prints. -/
theorem itoaText_eq_canonical (hlow : 2 ≤ base.toNat) (hhigh : base.toNat ≤ 16)
    (h : Faithful i base) : itoaText i base = canonical i base := by
  unfold itoaText canonical
  by_cases hneg : base = SIGNED_BASE ∧ i.toInt < 0
  · -- The number is negated, and its magnitude printed.
    rcases negate hneg.2 with ⟨hnat, habs, hne⟩
    have hsame : SameLength (-i) base := by
      unfold SameLength
      rw [habs, hnat]
    simp only [if_pos hneg, if_neg hne]
    rw [itoaText_unsigned hlow hhigh hne hsame, hnat]
    rfl
  · simp only [if_neg hneg, List.nil_append]
    by_cases hzero : i = 0
    · rw [if_pos hzero, hzero]
      rfl
    · rw [if_neg hzero]
      refine itoaText_unsigned hlow hhigh hzero ?_
      rcases h with hbase | hpos | hsame
      · exact sameLength_of_nonneg (Int.not_lt.mp (fun h => hneg ⟨hbase, h⟩)) base
      · exact sameLength_of_nonneg hpos base
      · exact hsame

/-- A longer number cannot be printed in the digits that were counted. -/
theorem itoaText_short (hlow : 2 ≤ base.toNat) (hhigh : base.toNat ≤ 16)
    (h : ¬ Faithful i base) : (itoaText i base).length < (canonical i base).length := by
  unfold Faithful at h
  rw [not_or, not_or] at h
  rcases h with ⟨hbase, hneg, hsame⟩
  have hzero : i ≠ 0 := fun hc => by
    rw [hc] at hneg
    exact hneg (Int.le_refl 0)
  have hnat : i.toNat ≠ 0 := fun hc => hzero (BitVec.eq_of_toNat_eq hc)
  have habs : i.toInt.natAbs ≤ i.toNat := by
    have hint := BitVec.toInt_eq_toNat_cond i
    omega
  have hle := Nat.le_length_digits_le base.toNat _ _ habs
  have hlen := takeWhile_rawDigits_length base (digitCount base i) i
    (pandosPow base (digitCount base i - 1))
  rw [digitCount_eq hlow hhigh] at hlen
  unfold itoaText canonical
  simp only [if_neg (fun hc : base = SIGNED_BASE ∧ _ => hbase hc.1), if_neg hzero,
    List.nil_append]
  rw [numeralText_length, numeral_length hnat, digitCount_eq hlow hhigh]
  unfold SameLength at hsame
  omega

theorem glyphDigit_digitGlyph {d : Nat} (hd : d < 16) : glyphDigit (digitGlyph d) = d := by
  have h : ∀ d : Fin 16, glyphDigit (digitGlyph d.val) = d.val := by decide
  exact h ⟨d, hd⟩

theorem digitGlyph_ne_minus {d : Nat} (hd : d < 16) : digitGlyph d ≠ chr '-' := by
  have h : ∀ d : Fin 16, digitGlyph d.val ≠ chr '-' := by decide
  exact h ⟨d, hd⟩

theorem map_glyphDigit (hlow : 2 ≤ base.toNat) (hhigh : base.toNat ≤ 16) (n : Nat) :
    (numeralText base.toNat n).map glyphDigit = numeral base.toNat n := by
  unfold numeralText
  rw [List.map_map]
  refine (List.map_congr_left (fun d hd => ?_)).trans (List.map_id _)
  exact glyphDigit_digitGlyph (lt_of_lt_of_le (lt_of_mem_numeral (by omega) hd) hhigh)

/-- A canonical numeral is read back as the word it was made of. -/
theorem readNumeral_canonical (hlow : 2 ≤ base.toNat) (hhigh : base.toNat ≤ 16) (i : Word) :
    readNumeral base (canonical i base) = i := by
  unfold canonical
  by_cases hneg : base = SIGNED_BASE ∧ i.toInt < 0
  · rw [if_pos hneg]
    unfold readNumeral
    rw [List.head?_cons, if_pos rfl, List.tail_cons, map_glyphDigit hlow hhigh, value_numeral,
      ← (negate hneg.2).1, BitVec.ofNat_toNat, BitVec.setWidth_eq, BitVec.neg_neg]
  · rw [if_neg hneg]
    unfold readNumeral
    have hhead : (numeralText base.toNat i.toNat).head? ≠ some (chr '-') := by
      intro hc
      rcases List.mem_map.mp (List.mem_of_head? hc) with ⟨d, hd, heq⟩
      exact digitGlyph_ne_minus (lt_of_lt_of_le (lt_of_mem_numeral (by omega) hd) hhigh) heq
    rw [if_neg hhead, map_glyphDigit hlow hhigh, value_numeral, BitVec.ofNat_toNat,
      BitVec.setWidth_eq]

/-- A word has at most 32 digits. -/
theorem digitCount_le (hlow : 2 ≤ base.toNat) (hhigh : base.toNat ≤ 16) (i : Word) :
    digitCount base i ≤ 32 := by
  have h₁ := BitVec.toInt_lt (x := i)
  have h₂ := BitVec.le_toInt (x := i)
  have hpow : 2 ^ 32 ≤ base.toNat ^ 32 := Nat.pow_le_pow_left hlow 32
  rw [digitCount_eq hlow hhigh]
  exact (Nat.digits_length_le_iff (by omega) _).mpr (by omega)

/-- The text of a number is short. -/
theorem itoaText_length_le (hlow : 2 ≤ base.toNat) (hhigh : base.toNat ≤ 16) (i : Word) :
    (itoaText i base).length ≤ 33 := by
  have hdigits : ∀ m : Word, (if m = 0 then [chr '0'] else (rawDigits base (digitCount base m) m
      (pandosPow base (digitCount base m - 1))).takeWhile (· ≠ 0)).length ≤ 32 := by
    intro m
    split
    · exact Nat.le_of_ble_eq_true rfl
    · exact (takeWhile_rawDigits_length base _ m _).trans (digitCount_le hlow hhigh m)
  have hsign : (if base = SIGNED_BASE ∧ i.toInt < 0 then [chr '-'] else []).length ≤ 1 := by
    split <;> simp
  unfold itoaText
  rw [List.length_append]
  have h := hdigits (if base = SIGNED_BASE ∧ i.toInt < 0 then -i else i)
  omega

theorem canonical_ne_nil (i base : Word) : canonical i base ≠ [] := by
  unfold canonical
  split
  · exact List.cons_ne_nil _ _
  · refine List.ne_nil_of_length_pos ?_
    rw [numeralText_length]
    exact length_numeral_pos _ _

theorem canonical_length_lt (hlow : 2 ≤ base.toNat) (i : Word) :
    (canonical i base).length < 2 ^ 32 := by
  have hpow : 2 ^ 32 ≤ base.toNat ^ 32 := Nat.pow_le_pow_left hlow 32
  have hint := BitVec.toInt_eq_toNat_cond i
  have hlt := i.isLt
  have hle := length_numeral_le (b := base.toNat) (k := 32) (n := i.toNat) (by omega) (by decide)
    (by omega)
  have hle' := length_numeral_le (b := base.toNat) (k := 32) (n := i.toInt.natAbs) (by omega)
    (by decide) (by omega)
  unfold canonical
  split
  · rw [List.length_cons, numeralText_length]
    omega
  · rw [numeralText_length]
    omega

end Numeral

end Pandos
