import Pandos.Theory.Numbers

/-!
# Integer Rendering

`nitoa` renders an integer as its canonical numeral unless the sign is set, the
base is not ten, and the magnitude has fewer digits than the unsigned number.
The digits are counted on the magnitude then, and the leading one comes out as
a character that is no digit.

## Main definitions

* `Renders`: The buffer holds the canonical numeral.

## Theorems

* `nitoa_faithful_iff`: When `__itoa` renders a number faithfully.
* `nitoa_wrong_digit`: The address `0xFFFFFFFF` in base 16.
-/

namespace Pandos

open Buffers

section Numerals

variable {i base len : Word} {dest : Word → Byte}

/-- The first bytes of a buffer. -/
def bufferText (buf : Word → Byte) (n : Nat) : List Byte :=
  (List.range n).map (fun j => buf (BitVec.ofNat 32 j))

/-- A buffer and a count hold the canonical numeral of a word. -/
structure Renders (i base : Word) (buf : Word → Byte) (count : Word) : Prop where
  length : count = BitVec.ofNat 32 (canonical i base).length
  text : bufferText buf count.toNat = canonical i base
  nul : buf count = 0
  value : readNumeral base (bufferText buf count.toNat) = i

theorem bufferText_eq {buf : Word → Byte} {out : List Byte} (hlen : out.length < 2 ^ 32)
    (h : ∀ (o : Word) (ho : o.toNat < out.length), buf o = out[o.toNat]) :
    bufferText buf out.length = out := by
  refine List.ext_getElem (by simp only [bufferText, List.length_map, List.length_range])
    (fun j hj hj' => ?_)
  have hnat : (BitVec.ofNat 32 j).toNat = j := by
    rw [BitVec.toNat_ofNat]
    omega
  simp only [bufferText, List.getElem_map, List.getElem_range]
  rw [h (BitVec.ofNat 32 j) (by omega)]
  simp only [hnat]

/-- A fresh string buffer. -/
theorem fresh_holds (mem : Word → Byte) (size : Word) :
    StrTarget.Holds mem { str := mem, size := size, wrote := 0 } [] :=
  ⟨(Nat.min_zero _).symm, fun _ ho => absurd ho (Nat.not_lt_zero _), fun h => absurd rfl h,
    fun _ _ => rfl⟩

/-- `__itoa` renders a number faithfully exactly when the base is ten, or the
    sign is clear, or the magnitude has as many digits as the unsigned number. The
    first part is about `nitoa`, the second about the text `%d` and `%p` get. -/
theorem nitoa_faithful_iff (hlow : 2 ≤ base.toNat) (hhigh : base.toNat ≤ 16)
    (hroom : (canonical i base).length < len.toNat) :
    (Renders i base (nitoa i base dest len).1 (nitoa i base dest len).2 ↔ Faithful i base) ∧
      ((itoa listWriter [] i base).1 = canonical i base ↔ Faithful i base) := by
  have hcanonical := canonical_length_lt hlow i
  have hshort := itoaText_short (i := i) hlow hhigh
  have htext : itoaText i base = canonical i base ↔ Faithful i base :=
    ⟨fun heq => by_contra (fun hc => absurd (hshort hc) (by rw [heq]; exact Nat.lt_irrefl _)),
      itoaText_eq_canonical hlow hhigh⟩
  refine ⟨?_, by rw [itoa_listWriter]; exact htext⟩
  have hcap : (len - 1).toNat = len.toNat - 1 := by bv_omega
  rcases itoa_end (strWriter_fills len dest) i base ⟨rfl, fresh_holds dest len⟩ with
    ⟨⟨q, ⟨hsize, hq⟩, hend⟩, hcount⟩
  have hqcap : q.capacity = len.toNat - 1 := by rw [capacity_of_size hsize, hcap]
  rw [List.nil_append] at hq
  rw [hcap, fit_coe, List.length_nil, Nat.sub_zero] at hcount
  change (nitoa i base dest len).2 = _ at hcount
  have hstr : (nitoa i base dest len).1 = (strWriter q cEnd 1).1.str := congrArg StrTarget.str hend
  refine ⟨fun h => ?_, fun h => ?_⟩
  · -- A text that is too short gives a count that is too small.
    by_contra hc
    have hlt := hshort hc
    have heq := congrArg BitVec.toNat (hcount.symm.trans h.length)
    rw [BitVec.toNat_ofNat, BitVec.toNat_ofNat] at heq
    omega
  · have heq := itoaText_eq_canonical hlow hhigh h
    rw [heq] at hq hcount
    have hmin : min (len.toNat - 1) (canonical i base).length = (canonical i base).length := by
      omega
    have hwrote := hq.wrote
    rw [hqcap, hmin] at hwrote
    rw [hmin] at hcount
    have hnat : (nitoa i base dest len).2.toNat = (canonical i base).length := by
      rw [hcount, BitVec.toNat_ofNat, Nat.mod_eq_of_lt hcanonical]
    have hlast : (nitoa i base dest len).2 = (strWriter q cEnd 1).1.wrote := by
      rw [strWriter_nil rfl]
      exact BitVec.eq_of_toNat_eq (hnat.trans hwrote.symm)
    have hheld := (write_end (strWriter_fills len dest) ⟨hsize, hq⟩).1.2
    have hbuf : bufferText (nitoa i base dest len).1 (nitoa i base dest len).2.toNat =
        canonical i base := by
      rw [hnat, hstr]
      refine bufferText_eq hcanonical (fun o ho => hheld.text o ho ?_)
      rw [← hlast, hnat]
      exact ho
    refine ⟨hcount, hbuf, ?_, ?_⟩
    · rw [hstr, hlast]
      exact strWriter_end hq (Or.inl (canonical_ne_nil i base)) rfl 1
    · rw [hbuf]
      exact readNumeral_canonical hlow hhigh i

end Numerals

/-- The address `0xFFFFFFFF` comes out as one character that is no digit. -/
theorem nitoa_wrong_digit : ¬ Renders 0xFFFFFFFF 16 (nitoa 0xFFFFFFFF 16 (fun _ => 0) 20).1
    (nitoa 0xFFFFFFFF 16 (fun _ => 0) 20).2 := by
  intro h
  have hlen := h.length
  revert hlen
  decide +kernel

/-- The least integer in base ten, which has no positive counterpart. -/
theorem nitoa_faithful_sample :
    (canonical (BitVec.intMin 32) 10 = "-2147483648".toList.map chr) ∧
    Renders (BitVec.intMin 32) 10 (nitoa (BitVec.intMin 32) 10 (fun _ => 0) 12).1
      (nitoa (BitVec.intMin 32) 10 (fun _ => 0) 12).2 :=
  ⟨by decide +kernel,
    (nitoa_faithful_iff (by decide) (by decide) (by decide +kernel)).1.mpr (Or.inl rfl)⟩

end Pandos
