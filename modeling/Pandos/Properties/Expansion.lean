import Pandos.Properties.Numerals
import Pandos.Theory.Conversions
import Pandos.Theory.Replay

/-!
# Format Expansion

`__pandos_printf` stops at the first conversion for which its writer takes
nothing. A writer takes nothing of an empty string, so everything behind an
empty argument of `%s` or a NUL for `%c` is lost.

The count is a machine word, so it is the length of the output only up to the
size of the address space.

## Main definitions

* `Outputs`: A call prints a text and returns its length.

## Theorems

* `printf_expands_iff`: When the whole expansion is printed.
* `printf_drops`: A format whose first argument is empty.
-/

namespace Pandos

open Buffers

section Expansion

variable {σ : Type}

/-- A call of `__pandos_printf` ends, its target holds a text in the sense of
    `R`, and the count is the length of the text. -/
def Outputs (r : Option (σ × Word)) (R : σ → List Byte → Prop) (text : List Byte) : Prop :=
  ∃ s n, r = some (s, n) ∧ R s text ∧ n.toNat = text.length

/-- The text in a string buffer that started out empty. -/
def StrTarget.Prints (d : StrTarget) (text : List Byte) : Prop :=
  d.wrote.toNat = text.length ∧ bufferText d.str text.length = text

/-- Nothing is dropped, and the length of the expansion is a size. -/
def Expands (cs : List Conversion) : Prop := Complete cs ∧ (expansion cs).length < 2 ^ 32

theorem emitted_eq_expansion {cs : List Conversion} (h : Complete cs) :
    emitted cs = expansion cs := by
  induction cs with
  | nil => rfl
  | cons c cs ih =>
      have hexp : expansion (c :: cs) = c.text ++ expansion cs := List.flatMap_cons
      unfold emitted
      rw [hexp]
      by_cases hc : c.text = []
      · rw [if_pos hc, hc, expansion_eq_nil.mpr (h [] c cs rfl hc)]
        rfl
      · rw [if_neg hc, ih h.tail]

/-- At a writer with room for everything the whole expansion is printed exactly
    when nothing follows an empty text. -/
theorem outputs_iff {w : Writer σ} {K : ℕ∞} {R P : σ → List Byte → Prop} (hw : w.Fills K R)
    {s : σ} (h : R s []) (L : Layout) (fmt : CString) (varg : VaList)
    (hd : dangling fmt.chars = false)
    (hroom : ((expansion (conversions L fmt.chars varg)).length : ℕ∞) ≤ K)
    (hP : ∀ s text, (text.length : ℕ∞) ≤ K → text.length < 2 ^ 32 → R s text → P s text) :
    Outputs (pandosPrintf L w s fmt varg) P (expansion (conversions L fmt.chars varg)) ↔
      Expands (conversions L fmt.chars varg) := by
  have hle := emitted_length_le (conversions L fmt.chars varg)
  rcases pandosPrintf_fills hw h L fmt varg hd
    (le_trans (Nat.cast_le.mpr (by rw [List.length_nil, Nat.zero_add]; exact hle)) hroom) with
    ⟨s', hr, htext⟩
  rw [List.nil_append] at htext
  refine ⟨fun hout => ?_, fun hcond => ?_⟩
  · -- The count tells how much was printed.
    rcases hout with ⟨s₁, n, hr₁, -, hn⟩
    have heq := Option.some.inj (hr.symm.trans hr₁)
    have hcount : n = BitVec.ofNat 32 (emitted (conversions L fmt.chars varg)).length :=
      (congrArg Prod.snd heq).symm
    have hlt := n.isLt
    rw [hcount, BitVec.toNat_ofNat] at hn
    have hsmall : (expansion (conversions L fmt.chars varg)).length < 2 ^ 32 := by omega
    refine ⟨(emitted_length_iff _).mp ?_, hsmall⟩
    omega
  · rw [emitted_eq_expansion hcond.1] at hr htext
    refine ⟨s', _, hr, hP s' _ hroom hcond.2 htext, ?_⟩
    rw [BitVec.toNat_ofNat, Nat.mod_eq_of_lt hcond.2]

/-- `__pandos_printf` prints the whole expansion of a format exactly when no
    conversion with an empty text is followed by one with a text. -/
theorem printf_expands_iff (L : Layout) (fmt : CString) (varg : VaList)
    (hd : dangling fmt.chars = false) :
    (∀ size mem, (expansion (conversions L fmt.chars varg)).length < size.toNat →
      (Outputs (pandosPrintf L strWriter { str := mem, size := size, wrote := 0 } fmt varg)
        StrTarget.Prints (expansion (conversions L fmt.chars varg)) ↔
      Expands (conversions L fmt.chars varg))) ∧
    (∀ t : Terminal, t.Ready →
      (Outputs (pandosPrintf L serialWriter t fmt varg)
        (fun t' text => t'.printed = t.printed ++ text)
        (expansion (conversions L fmt.chars varg)) ↔
      Expands (conversions L fmt.chars varg))) ∧
    (∀ (mem : MemoryTarget) (start : Nat × Nat), start.2 < MEM_WRITER_LINE_LENGTH →
      mem.Shows start [] →
      (Outputs (pandosPrintf L memoryWriter mem fmt varg)
        (fun mem' text => mem'.Shows start text)
        (expansion (conversions L fmt.chars varg)) ↔
      Expands (conversions L fmt.chars varg))) := by
  refine ⟨fun size mem hsize => ?_, fun t ht => ?_, fun mem start _ hmem => ?_⟩
  · have hcap : (size - 1).toNat = size.toNat - 1 := by bv_omega
    refine outputs_iff (strWriter_fills size mem) ⟨rfl, fresh_holds mem size⟩ L fmt varg hd
      (Nat.cast_le.mpr (by omega)) (fun d text hle hlt => ?_)
    rintro ⟨hsz, hheld⟩
    have hdcap := capacity_of_size hsz
    rw [Nat.cast_le] at hle
    have hwrote := hheld.wrote
    refine ⟨by omega, bufferText_eq hlt (fun o ho => hheld.text o ho (by omega))⟩
  · exact outputs_iff (serialWriter_fills t.printed) ⟨ht, (List.append_nil _).symm⟩ L fmt varg hd
      le_top (fun t' text _ _ h => h.2)
  · exact outputs_iff (memoryWriter_fills start) hmem L fmt varg hd le_top
      (fun mem' text _ _ h => h)

end Expansion

/-- The text behind an empty argument is not printed. -/
theorem printf_drops : dangling (cstring "<%s>").chars = false ∧
    ¬ Outputs (pandosPrintf sampleLayout strWriter { str := fun _ => 0, size := 20, wrote := 0 }
        (cstring "<%s>") (sameArgs 0 ""))
      StrTarget.Prints
      (expansion (conversions sampleLayout (cstring "<%s>").chars (sameArgs 0 ""))) := by
  have hcount : (pandosPrintf sampleLayout strWriter { str := fun _ => 0, size := 20, wrote := 0 }
      (cstring "<%s>") (sameArgs 0 "")).map (fun r => r.2.toNat) = some 1 := by decide +kernel
  refine ⟨by decide, ?_⟩
  rintro ⟨d, n, hr, -, hn⟩
  rw [hr] at hcount
  have hlen : (expansion (conversions sampleLayout (cstring "<%s>").chars (sameArgs 0 ""))).length
      = 2 := by decide
  exact absurd (hn.symm.trans (Option.some.inj hcount)) (by rw [hlen]; decide)

/-- A format with a string and a number, for each of the three writers. The log
    comes to the end of a line. -/
theorem printf_expands_sample :
    Outputs (pandosPrintf sampleLayout strWriter { str := fun _ => 0, size := 20, wrote := 0 }
        (cstring "<%s>%d") (sameArgs 7 "on"))
      StrTarget.Prints
      (expansion (conversions sampleLayout (cstring "<%s>%d").chars (sameArgs 7 "on"))) ∧
    Outputs (pandosPrintf sampleLayout serialWriter sampleTerminal (cstring "<%s>%d")
        (sameArgs 7 "on"))
      (fun t text => t.printed = chr '>' :: text)
      (expansion (conversions sampleLayout (cstring "<%s>%d").chars (sameArgs 7 "on"))) ∧
    Outputs (pandosPrintf sampleLayout memoryWriter sampleLog (cstring "<%s>%d")
        (sameArgs 7 "on"))
      (fun mem text => mem.Shows (2, 38) text)
      (expansion (conversions sampleLayout (cstring "<%s>%d").chars (sameArgs 7 "on"))) := by
  -- No text is empty.
  have hfull : ∀ c ∈ conversions sampleLayout (cstring "<%s>%d").chars (sameArgs 7 "on"),
      c.text.length ≠ 0 := by decide +kernel
  have hexp : Expands (conversions sampleLayout (cstring "<%s>%d").chars (sameArgs 7 "on")) := by
    refine ⟨fun before c after hcs hc => ?_, by decide +kernel⟩
    refine absurd (List.length_eq_zero_iff.mpr hc) (hfull c ?_)
    rw [hcs]
    exact List.mem_append_right _ List.mem_cons_self
  rcases printf_expands_iff sampleLayout (cstring "<%s>%d") (sameArgs 7 "on") (by decide) with
    ⟨hstr, hserial, hmemory⟩
  exact ⟨(hstr 20 (fun _ => 0) (by decide +kernel)).mpr hexp,
    (hserial sampleTerminal ready_sampleTerminal).mpr hexp,
    (hmemory sampleLog (2, 38) (by decide) shows_sampleLog).mpr hexp⟩

end Pandos
