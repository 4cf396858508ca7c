import Pandos.Theory.Writers

/-!
# The Contract of the Writers

A writer delivers the first characters of a string, up to a limit, and returns
how many it delivered. `serial_writer` and `memory_writer` do so for every
string and every limit. `str_writer` delivers them too, but leaves a string
without a terminator when the limit cuts the string, since it stores one
character more than it counts, and when the text reaches the last byte of the
buffer but one.

## Main definitions

* `StrTarget.IsString`: The buffer holds a terminated string.
* `StrTarget.Terminates`: A call that leaves a terminated string.
* `writeAll`, `StrTarget.TerminatesAll`: Sequences of calls.

## Theorems

* `writers_contract_iff`: What the three writers do.
* `str_writer_overshoots`: The first character of a string of two.
-/

namespace Pandos

open Buffers

section WriterContract

variable {d : StrTarget} {data : CString} {len : Word} {out : List Byte}

/-- The buffer holds a string of `wrote` characters and its terminator. -/
structure StrTarget.IsString (d : StrTarget) (out : List Byte) : Prop where
  wrote : d.wrote.toNat = out.length
  text : ∀ (o : Word) (h : o.toNat < out.length), d.str o = out[o.toNat]
  nonzero : ∀ c ∈ out, c ≠ 0
  nul : d.str d.wrote = 0

/-- There is room for the characters and the terminator. -/
def StrTarget.Fits (d : StrTarget) (out : List Byte) (data : CString) (len : Word) : Prop :=
  out.length + (data.clip len).length < d.size.toNat

/-- The string is empty, or the limit does not cut it and a byte is left behind
    its terminator, or its terminator is the last byte and was there before. -/
def StrTarget.Terminates (d : StrTarget) (out : List Byte) (data : CString) (len : Word) : Prop :=
  data.chars = [] ∨
    (out.length + (data.clip len).length + 1 < d.size.toNat ∧
      (len = 0 ∨ data.chars.length ≤ len.toNat)) ∨
    (out.length + (data.clip len).length + 1 = d.size.toNat ∧ d.str (d.size - 1) = 0)

/-- A limit that cuts a string leaves a character behind the ones taken. -/
theorem clip_length_lt (h : ¬ (len = 0 ∨ data.chars.length ≤ len.toNat)) :
    (data.clip len).length = len.toNat ∧ len.toNat < data.chars.length := by
  rw [not_or] at h
  unfold CString.clip
  rw [if_neg h.1, List.length_take]
  omega

theorem fits_capacity (hfits : d.Fits out data len) : d.capacity + 1 = d.size.toNat := by
  unfold StrTarget.Fits at hfits
  unfold StrTarget.capacity
  bv_omega

theorem str_writer_count (h : d.IsString out) (hfits : d.Fits out data len) :
    (strWriter d data len).2 = BitVec.ofNat 32 (data.clip len).length := by
  have hcap := fits_capacity hfits
  have hw := h.wrote
  unfold StrTarget.Fits at hfits
  have hmin : min (d.capacity - d.wrote.toNat) (data.clip len).length =
      (data.clip len).length := by omega
  rw [strWriter_count (by omega) data len, hmin]

/-- Everything but the terminator is as it should be. -/
theorem str_writer_isString_of_nul (h : d.IsString out) (hfits : d.Fits out data len)
    (hnul : (strWriter d data len).1.str (strWriter d data len).1.wrote = 0) :
    (strWriter d data len).1.IsString (out ++ data.clip len) := by
  have hcap := fits_capacity hfits
  have hout := h.wrote
  unfold StrTarget.Fits at hfits
  have hw : d.wrote.toNat ≤ d.capacity := by omega
  refine ⟨?_, fun o ho => ?_, fun c hc => ?_, hnul⟩
  · rw [strWriter_wrote hw data len, List.length_append]
    omega
  · rw [List.length_append] at ho
    by_cases hlt : o.toNat < d.wrote.toNat
    · rw [strWriter_before hw hlt, List.getElem_append_left (by omega), h.text o (by omega)]
    · rw [strWriter_taken (i := o.toNat - out.length) hw (by omega) (by omega) (by omega),
        List.getElem_append_right (by omega)]
  · rcases List.mem_append.mp hc with hc | hc
    · exact h.nonzero c hc
    · rw [clip_eq_take] at hc
      exact data.nonzero c (List.mem_of_mem_take hc)

/-- The byte behind the text decides whether it is a string. -/
theorem str_writer_nul_iff (h : d.IsString out) (hfits : d.Fits out data len)
    (hne : data.chars ≠ []) :
    (strWriter d data len).1.str (strWriter d data len).1.wrote = 0 ↔
      d.Terminates out data len := by
  have hcap := fits_capacity hfits
  have hout := h.wrote
  unfold StrTarget.Fits at hfits
  have hw : d.wrote.toNat ≤ d.capacity := by omega
  have hwrote := strWriter_wrote hw data len
  have hlast : (strWriter d data len).1.wrote.toNat =
      d.wrote.toNat + (data.clip len).length := by omega
  unfold StrTarget.Terminates
  by_cases hroom : out.length + (data.clip len).length + 1 < d.size.toNat
  · have hlt : (strWriter d data len).1.wrote.toNat < d.capacity := by omega
    by_cases hcut : len = 0 ∨ data.chars.length ≤ len.toNat
    · -- The terminator of the string itself.
      have hterm : (data.chars ++ [0])[(data.clip len).length]? = some 0 := by
        rw [clip_of_le hcut]
        exact List.getElem?_concat_length
      exact iff_of_true (strWriter_behind hne hlast hlt hterm) (Or.inr (Or.inl ⟨hroom, hcut⟩))
    · -- The limit cuts the string in front of a character.
      rcases clip_length_lt hcut with ⟨hlimit, hshort⟩
      have hi : (data.clip len).length < data.chars.length := by omega
      have hnext : (data.chars ++ [0])[(data.clip len).length]? =
          some data.chars[(data.clip len).length] := by
        rw [List.getElem?_append_left hi, List.getElem?_eq_getElem hi]
      rw [strWriter_behind hne hlast hlt hnext]
      refine iff_of_false (data.nonzero _ (List.getElem_mem hi)) ?_
      rintro (hc | hc | hc)
      · exact hne hc
      · exact hcut hc.2
      · omega
  · -- The text ends at the last byte, which keeps its value.
    have hat : (strWriter d data len).1.wrote = d.size - 1 := by
      refine BitVec.eq_of_toNat_eq ?_
      have hk : (d.size - 1).toNat = d.capacity := rfl
      omega
    rw [hat, strWriter_limit hw hne]
    refine ⟨fun hc => Or.inr (Or.inr ⟨by omega, hc⟩), ?_⟩
    rintro (hc | hc | hc)
    · exact absurd hc hne
    · omega
    · exact hc.2

theorem str_writer_isString_iff (h : d.IsString out) (hfits : d.Fits out data len) :
    ((strWriter d data len).2 = BitVec.ofNat 32 (data.clip len).length ∧
      (strWriter d data len).1.IsString (out ++ data.clip len)) ↔ d.Terminates out data len := by
  have hnul : (strWriter d data len).1.str (strWriter d data len).1.wrote = 0 ↔
      d.Terminates out data len := by
    by_cases hne : data.chars = []
    · -- The NUL that is there is written again, or another one behind it.
      refine iff_of_true ?_ (Or.inl hne)
      rw [strWriter_nil hne]
      change stored d.str _ _ d.wrote = 0
      split
      · rw [stored_single, Function.update_self]
      · rw [stored_outside (Or.inl (Nat.lt_succ_self _))]
        exact h.nul
    · exact str_writer_nul_iff h hfits hne
  rw [← hnul]
  exact ⟨fun hc => hc.2.nul,
    fun hc => ⟨str_writer_count h hfits, str_writer_isString_of_nul h hfits hc⟩⟩

/-! ## Sequences of calls -/

/-- Some calls of a writer, one after the other. -/
def writeAll {σ : Type} (w : Writer σ) (s : σ) (calls : List (CString × Word)) : σ :=
  calls.foldl (fun s c => (w s c.1 c.2).1) s

/-- Every call of a sequence leaves a terminated string. -/
def StrTarget.TerminatesAll (d : StrTarget) (out : List Byte) : List (CString × Word) → Prop
  | [] => True
  | c :: calls => d.Terminates out c.1 c.2 ∧
      (strWriter d c.1 c.2).1.TerminatesAll (out ++ c.1.clip c.2) calls

/-- What a sequence of calls asks for. -/
def requested (calls : List (CString × Word)) : List Byte := calls.flatMap (fun c => c.1.clip c.2)

theorem requested_cons (c : CString × Word) (calls : List (CString × Word)) :
    requested (c :: calls) = c.1.clip c.2 ++ requested calls :=
  List.flatMap_cons

/-- What every call of a writer does to a text, a sequence of calls does. -/
theorem writeAll_of_step {σ : Type} {w : Writer σ} {R : σ → List Byte → Prop}
    (hstep : ∀ s out data len, R s out → R (w s data len).1 (out ++ data.clip len))
    (calls : List (CString × Word)) {s : σ} (h : R s out) :
    R (writeAll w s calls) (out ++ requested calls) := by
  induction calls generalizing s out with
  | nil =>
      unfold requested
      rw [List.flatMap_nil, List.append_nil]
      exact h
  | cons c calls ih =>
      have hrest := ih (hstep s out c.1 c.2 h)
      rw [List.append_assoc] at hrest
      exact hrest

/-- Every call of a sequence that fits leaves a string if and only if every
    call terminates it. -/
theorem writeAll_isString_iff (calls : List (CString × Word)) (h : d.IsString out)
    (hfits : out.length + (requested calls).length < d.size.toNat) :
    (∀ k, (writeAll strWriter d (calls.take k)).IsString (out ++ requested (calls.take k))) ↔
      d.TerminatesAll out calls := by
  induction calls generalizing d out with
  | nil =>
      refine iff_of_true (fun k => ?_) trivial
      unfold requested
      rw [List.take_nil, List.flatMap_nil, List.append_nil]
      exact h
  | cons c calls ih =>
      rw [requested_cons, List.length_append] at hfits
      have hfirst : d.Fits out c.1 c.2 := by
        unfold StrTarget.Fits
        omega
      have hcount := str_writer_count h hfirst
      have hiff := str_writer_isString_iff h hfirst
      -- The calls behind the first see what it leaves.
      have hrest : ∀ k, (writeAll strWriter d ((c :: calls).take (k + 1))).IsString
          (out ++ requested ((c :: calls).take (k + 1))) ↔
          (writeAll strWriter (strWriter d c.1 c.2).1 (calls.take k)).IsString
            (out ++ c.1.clip c.2 ++ requested (calls.take k)) := by
        intro k
        rw [List.take_succ_cons, requested_cons, List.append_assoc]
        rfl
      have hsize : (out ++ c.1.clip c.2).length + (requested calls).length <
          (strWriter d c.1 c.2).1.size.toNat := by
        rw [List.length_append, strWriter_size]
        omega
      constructor
      · intro hall
        have hnext : (strWriter d c.1 c.2).1.IsString (out ++ c.1.clip c.2) := by
          have h1 := (hrest 0).mp (hall 1)
          rw [List.take_zero] at h1
          unfold requested at h1
          rw [List.flatMap_nil, List.append_nil] at h1
          exact h1
        exact ⟨hiff.mp ⟨hcount, hnext⟩,
          (ih hnext hsize).mp (fun k => (hrest k).mp (hall (k + 1)))⟩
      · rintro ⟨hterm, hall⟩ k
        have hnext := (hiff.mpr hterm).2
        cases k with
        | zero =>
            unfold requested
            rw [List.take_zero, List.flatMap_nil, List.append_nil]
            exact h
        | succ k => exact (hrest k).mpr ((ih hnext hsize).mpr hall k)

/-- `serial_writer` and `memory_writer` deliver what they are requested for and
    return its length. `str_writer` does so, and leaves a terminated string,
    exactly if the call terminates it. Calls one after the other build the
    concatenation. -/
theorem writers_contract_iff (data : CString) (len : Word) (calls : List (CString × Word)) :
    (∀ t : Terminal, t.Ready →
      (serialWriter t data len).2 = BitVec.ofNat 32 (data.clip len).length ∧
      (serialWriter t data len).1.printed = t.printed ++ data.clip len ∧
      (writeAll serialWriter t calls).printed = t.printed ++ requested calls) ∧
    (∀ (mem : MemoryTarget) (start : Nat × Nat) (out : List Byte),
      start.2 < MEM_WRITER_LINE_LENGTH → mem.Shows start out →
      (memoryWriter mem data len).2 = BitVec.ofNat 32 (data.clip len).length ∧
      (memoryWriter mem data len).1.Shows start (out ++ data.clip len) ∧
      (writeAll memoryWriter mem calls).Shows start (out ++ requested calls)) ∧
    (∀ (d : StrTarget) (out : List Byte), d.IsString out →
      (d.Fits out data len →
        ((strWriter d data len).2 = BitVec.ofNat 32 (data.clip len).length ∧
          (strWriter d data len).1.IsString (out ++ data.clip len) ↔
        d.Terminates out data len)) ∧
      (out.length + (requested calls).length < d.size.toNat →
        ((∀ k, (writeAll strWriter d (calls.take k)).IsString (out ++ requested (calls.take k))) ↔
          d.TerminatesAll out calls))) := by
  refine ⟨fun t ht => ?_, fun mem start out _ hmem => ?_, fun d out hd => ?_⟩
  · rcases serialWriter_ready ht data len with ⟨hcount, -, hprinted⟩
    refine ⟨hcount, hprinted, ?_⟩
    -- What a terminal was given before it is ready again is printed.
    have hstep : ∀ (s : Terminal) (out : List Byte) (data : CString) (len : Word),
        (s.Ready ∧ s.printed = t.printed ++ out) →
        (serialWriter s data len).1.Ready ∧
          (serialWriter s data len).1.printed = t.printed ++ (out ++ data.clip len) := by
      rintro s out data len ⟨hs, hout⟩
      rcases serialWriter_ready hs data len with ⟨-, hready, hprinted⟩
      rw [hout, List.append_assoc] at hprinted
      exact ⟨hready, hprinted⟩
    have hall := writeAll_of_step
      (R := fun (s : Terminal) (out : List Byte) => s.Ready ∧ s.printed = t.printed ++ out)
      hstep calls (s := t) ⟨ht, (List.append_nil _).symm⟩
    exact hall.2
  · rcases memoryWriter_shows hmem data len with ⟨hcount, hshows⟩
    have hall := writeAll_of_step
      (R := fun (mem : MemoryTarget) (out : List Byte) => mem.Shows start out)
      (fun s out data len hs => (memoryWriter_shows hs data len).2) calls hmem
    exact ⟨hcount, hshows, hall⟩
  · exact ⟨str_writer_isString_iff hd, writeAll_isString_iff calls hd⟩

end WriterContract

/-! ## Samples -/

/-- The string `ab`. -/
def twoChars : CString := CString.ofArray [chr 'a', chr 'b'] (by decide)

/-- One character of the string is requested for, and both are stored. -/
theorem str_writer_overshoots :
    StrTarget.IsString { str := fun _ => 0, size := 10, wrote := 0 } [] ∧
    StrTarget.Fits { str := fun _ => 0, size := 10, wrote := 0 } [] twoChars 1 ∧
    ¬ (strWriter { str := fun _ => 0, size := 10, wrote := 0 } twoChars 1).1.IsString
      [chr 'a'] := by
  refine ⟨⟨rfl, fun o ho => absurd ho (Nat.not_lt_zero _), fun c hc => absurd hc List.not_mem_nil,
    rfl⟩, by unfold StrTarget.Fits; decide, fun h => ?_⟩
  have hnul := h.nul
  revert hnul
  decide +kernel

/-- A buffer that holds a string of one character. -/
def sampleBuffer : StrTarget :=
  { str := fun o => if o = 0 then chr 'x' else 0
    size := 10
    wrote := 1 }

theorem isString_sampleBuffer : sampleBuffer.IsString [chr 'x'] := by
  refine ⟨rfl, fun o ho => ?_, fun c hc => ?_, rfl⟩
  · have ho' : o = 0 := BitVec.eq_of_toNat_eq (Nat.lt_one_iff.mp ho)
    subst ho'
    rfl
  · rw [List.mem_singleton.mp hc]
    decide

/-- The string `ab` without a limit, and then with a limit that does not cut it,
    for each of the three writers. -/
theorem writers_contract_iff_sample :
    ((serialWriter sampleTerminal twoChars 0).2 = 2 ∧
      (writeAll serialWriter sampleTerminal [(twoChars, 0), (twoChars, 2)]).printed =
        [chr '>', chr 'a', chr 'b', chr 'a', chr 'b']) ∧
    ((memoryWriter sampleLog twoChars 0).2 = 2 ∧
      (writeAll memoryWriter sampleLog [(twoChars, 0), (twoChars, 2)]).Shows (2, 38)
        [chr 'a', chr 'b', chr 'a', chr 'b']) ∧
    ((strWriter sampleBuffer twoChars 0).2 = 2 ∧
      (strWriter sampleBuffer twoChars 0).1.IsString [chr 'x', chr 'a', chr 'b'] ∧
      (writeAll strWriter sampleBuffer [(twoChars, 0), (twoChars, 2)]).IsString
        [chr 'x', chr 'a', chr 'b', chr 'a', chr 'b']) := by
  rcases writers_contract_iff twoChars 0 [(twoChars, 0), (twoChars, 2)] with
    ⟨hserial, hmemory, hstr⟩
  rcases hserial sampleTerminal ready_sampleTerminal with ⟨hcount, -, hall⟩
  rcases hmemory sampleLog (2, 38) [] (by decide) shows_sampleLog with ⟨hcount', -, hall'⟩
  rcases hstr sampleBuffer [chr 'x'] isString_sampleBuffer with ⟨hone, hseq⟩
  have hterminates : sampleBuffer.Terminates [chr 'x'] twoChars 0 := by
    unfold StrTarget.Terminates
    decide +kernel
  have hagain : (strWriter sampleBuffer twoChars 0).1.Terminates [chr 'x', chr 'a', chr 'b']
      twoChars 2 := by
    unfold StrTarget.Terminates
    decide +kernel
  have hfirst := (hone (by unfold StrTarget.Fits; decide)).mpr hterminates
  have hboth := (hseq (by decide)).mpr ⟨hterminates, hagain, trivial⟩ 2
  exact ⟨⟨hcount, hall⟩, ⟨hcount', hall'⟩, hfirst.1, hfirst.2, hboth⟩

end Pandos
