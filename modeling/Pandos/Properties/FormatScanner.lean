import Pandos.Theory.Conversions
import Pandos.Theory.Replay

/-!
# The Format Scanner

A percent sign at the end of a format makes a directive of the terminator. The
cursor moves on behind it and the next character is read there, unless the
writer took nothing of the directive, or of an earlier one.

Every round of the loop moves the cursor, so a call that never leaves the
format ends.

## Main definitions

* `stalls`: The writer takes nothing of some conversion.

## Theorems

* `scanner_in_bounds_iff`: When the scanner stays inside the format.
* `scanner_overruns`: The format `100%`.
-/

namespace Pandos

section FormatScanner

variable {σ : Type} {w : Writer σ}

/-- The writer takes nothing of one of the conversions. -/
def stalls (w : Writer σ) : List Conversion → σ → Bool
  | [], _ => false
  | c :: cs, s => (emit w s c).2 == 0 || stalls w cs (emit w s c).1

theorem emitAll_stalls (cs : List Conversion) (s : σ) (wr : Word) :
    (emitAll w cs s wr).2.2 = stalls w cs s := by
  induction cs generalizing s wr with
  | nil => rfl
  | cons c cs ih =>
      unfold emitAll stalls
      by_cases hstop : (emit w s c).2 = 0
      · rw [if_pos hstop, beq_iff_eq.mpr hstop]
        rfl
      · rw [if_neg hstop, ih, beq_eq_false_iff_ne.mpr hstop, Bool.false_or]

/-- `__pandos_printf` ends without reading behind the terminator exactly when
    the format does not end in a percent sign or the writer stops the loop. -/
theorem scanner_in_bounds_iff (L : Layout) (w : Writer σ) (s : σ) (fmt : CString) (varg : VaList) :
    (pandosPrintf L w s fmt varg).isSome ↔
      dangling fmt.chars = false ∨ stalls w (conversions L fmt.chars varg) s := by
  have hloop := printfLoop_eq L fmt.chars fmt.nonzero varg s (w := w) 0
  simp only [emitAll_stalls] at hloop
  unfold pandosPrintf
  by_cases hstop : stalls w (conversions L fmt.chars varg) s = true
  · rw [if_pos hstop] at hloop
    rcases hloop with ⟨rest, hrest, -⟩
    rw [hrest]
    simp only [hstop, or_true, iff_true]
    split <;> rfl
  · rw [if_neg hstop] at hloop
    rw [hloop]
    by_cases hd : dangling fmt.chars = true
    · rw [if_pos hd]
      simp only [Option.isSome_none, Bool.false_eq_true, hd, Bool.true_eq_false, hstop, or_self]
    · have hfalse : dangling fmt.chars = false := Bool.eq_false_iff.mpr hd
      simp only [hfalse, Bool.false_eq_true, if_false, true_or, iff_true]
      rfl

end FormatScanner

/-- The character behind the terminator of the format `100%` is read. -/
theorem scanner_overruns : (pandosPrintf sampleLayout strWriter
    { str := fun _ => 0, size := 20, wrote := 0 } (cstring "100%") (sameArgs 0 "")).isSome =
      false := by
  decide +kernel

end Pandos
