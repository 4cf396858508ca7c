import Mathlib.Data.List.Induction
import Pandos.Lib.Buffers
import Pandos.Writers

/-!
# What the Writers Do

One lemma for each writer that says what a call leaves behind.

`listWriter` is the writer the others are compared with: it has room for
everything and keeps the text as a list. `Writer.Fills` says that a writer does
what `listWriter` does until its target is full, for the calls the interpreter
of formats makes. There the length limit never cuts a string; `str_writer`
stores one character too many when it does.

## Main definitions

* `listWriter`: The writer that never runs out of space.
* `Writer.Fills`: A writer takes what fits.
* `Terminal.Ready`: A terminal that never fails.
* `place`, `MemoryTarget.Shows`: The text the log shows.
* `StrTarget.Holds`: The text a string buffer holds.

## Theorems

* `strWriter_eq`, `strWriter_nil`: A call of `str_writer`.
* `strWriter_fills`: `str_writer` fills its buffer up to the last byte but one.
* `serialWriter_ready`: A call of `serial_writer`.
* `memoryWriter_shows`: A call of `memory_writer`.
-/

namespace Pandos

open Buffers

/-- A writer that keeps the text as a list. -/
def listWriter : Writer (List Byte) := fun out data len =>
  (out ++ data.clip len, BitVec.ofNat 32 (data.clip len).length)

/-- A writer takes what fits into a capacity of `K`. `R` relates a target to
    all the text it was given. -/
structure Writer.Fills {σ : Type} (w : Writer σ) (K : ℕ∞) (R : σ → List Byte → Prop) : Prop where
  text : ∀ s out data len, len = 0 ∨ data.chars.length ≤ len.toNat → R s out →
    R (w s data len).1 (out ++ data.chars)
  count : ∀ s out data len, len = 0 ∨ data.chars.length ≤ len.toNat → R s out →
    (w s data len).2 = BitVec.ofNat 32 (fit K out.length data.chars.length)
  full : ∀ s out more, R s out → K ≤ out.length → R s (out ++ more)

section CString

variable {data : CString} {len : Word}

theorem clip_of_le (h : len = 0 ∨ data.chars.length ≤ len.toNat) : data.clip len = data.chars := by
  unfold CString.clip
  by_cases hl : len = 0
  · rw [if_pos hl]
  · rw [if_neg hl]
    exact List.take_of_length_le (h.resolve_left hl)

theorem clip_length_le (data : CString) (len : Word) :
    (data.clip len).length ≤ data.chars.length := by
  unfold CString.clip
  split
  · exact Nat.le_refl _
  · rw [List.length_take]
    exact Nat.min_le_right _ _

theorem clip_eq_take (data : CString) (len : Word) :
    data.clip len = data.chars.take (data.clip len).length := by
  unfold CString.clip
  split
  · rw [List.take_length]
  · rw [List.length_take]
    exact (List.take_eq_take_iff.mpr (by omega))

theorem clip_nil (h : data.chars = []) (len : Word) : data.clip len = [] := by
  have hle := clip_length_le data len
  rw [h] at hle
  exact List.eq_nil_of_length_eq_zero (Nat.le_zero.mp hle)

theorem ofArray_chars {a : List Byte} (h : a.length < 2 ^ 32) (hn : ∀ c ∈ a, c ≠ 0) :
    (CString.ofArray a h).chars = a := by
  refine List.takeWhile_eq_self_iff.mpr (fun c hc => ?_)
  exact decide_eq_true (hn c hc)

end CString

theorem listWriter_fills : Writer.Fills listWriter ⊤ Eq where
  text s out data len hlen hs := by
    unfold listWriter
    rw [clip_of_le hlen, hs]
  count s out data len hlen _ := by
    unfold listWriter
    rw [clip_of_le hlen, fit_top]
  full s out more _ hfull := absurd hfull (not_full_top _)

/-! ## Loops over a string

The writers look at the limit after every character, if there is one. -/

/-- What a loop takes of a string is what the writer is asked for. -/
theorem limit_clip (data : CString) (len : Word) :
    (if decide (len ≠ 0) then data.chars.take len.toNat else data.chars) = data.clip len := by
  unfold CString.clip
  by_cases hlen : len = 0
  · rw [if_pos hlen, hlen]
    rfl
  · rw [if_neg hlen, if_pos (decide_eq_true hlen)]

/-- A loop that does not stop takes the next character. -/
theorem limit_cons {checkLen : Bool} {len : Word} (hgo : ¬ (checkLen = true ∧ len = 0))
    (c : Byte) (cs : List Byte) :
    (if checkLen then (c :: cs).take len.toNat else c :: cs) =
      c :: (if checkLen then cs.take (len - 1).toNat else cs) := by
  cases checkLen with
  | false => rfl
  | true =>
      have hlen : len ≠ 0 := fun hc => hgo ⟨rfl, hc⟩
      have hsub : len.toNat = (len - 1).toNat + 1 := by bv_omega
      rw [if_pos rfl, if_pos rfl, hsub, List.take_succ_cons]

/-- The counter of a loop. -/
theorem count_succ (n : Word) (l : Nat) :
    n + 1 + BitVec.ofNat 32 l = n + BitVec.ofNat 32 (l + 1) := by
  rw [BitVec.ofNat_add, BitVec.add_assoc]
  exact congrArg (n + ·) (BitVec.add_comm _ _)

/-! ## String buffers -/

section Strings

variable {d : StrTarget} {data : CString} {len : Word} {mem : Word → Byte}

/-- The offsets `str_writer` stores characters at are the first ones. -/
def StrTarget.capacity (d : StrTarget) : Nat := (d.size - 1).toNat

theorem capacity_of_size {size : Word} (h : d.size = size) : d.capacity = (size - 1).toNat := by
  rw [← h]
  rfl

/-- The text a string buffer holds: what fits of the text it was given. Some
    text is followed by a NUL unless it fills the buffer; nothing is stored
    behind the buffer. -/
structure StrTarget.Holds (mem : Word → Byte) (d : StrTarget) (out : List Byte) : Prop where
  wrote : d.wrote.toNat = min d.capacity out.length
  text : ∀ (o : Word) (h : o.toNat < out.length), o.toNat < d.wrote.toNat → d.str o = out[o.toNat]
  nul : out ≠ [] → d.wrote.toNat < d.capacity → d.str d.wrote = 0
  frame : ∀ o : Word, d.capacity < o.toNat → d.str o = mem o

/-- The loop of `str_writer` stores one character more than it counts, unless
    the buffer ends there. -/
theorem strCopy_eq (checkLen : Bool) (cs : List Byte) (hcs : ∀ c ∈ cs, c ≠ 0) (i : Word)
    (len : Word) (str : Word → Byte) (hi : d.wrote.toNat + i.toNat ≤ d.capacity) :
    let limit := if checkLen then min len.toNat cs.length else cs.length
    let room := d.capacity - (d.wrote.toNat + i.toNat)
    strCopy d checkLen (cs ++ [0]) i len str =
      (stored str (d.wrote.toNat + i.toNat) ((cs ++ [0]).take (min room (limit + 1))),
        i + BitVec.ofNat 32 (min room limit)) := by
  have hk : (d.size - 1).toNat = d.capacity := rfl
  have hcap : d.capacity < 2 ^ 32 := (d.size - 1).isLt
  have hadd : (d.wrote + i).toNat = d.wrote.toNat + i.toNat := by
    rw [BitVec.toNat_add]
    omega
  induction cs generalizing i len str with
  | nil =>
      simp only [List.nil_append, strCopy, List.length_nil, Nat.min_zero, ite_self, Nat.zero_add]
      by_cases hroom : d.wrote + i < d.size - 1
      · rw [if_pos hroom, if_neg (fun h => h.1 rfl)]
        rw [BitVec.lt_def, hadd, hk] at hroom
        have hone : min (d.capacity - (d.wrote.toNat + i.toNat)) 1 = 1 := by omega
        rw [hone, List.take_succ_cons, List.take_nil, ← hadd, stored_single]
        simp only [BitVec.add_zero]
      · rw [if_neg hroom]
        rw [BitVec.lt_def, hadd, hk] at hroom
        have hzero : min (d.capacity - (d.wrote.toNat + i.toNat)) 1 = 0 := by omega
        rw [hzero, List.take_zero, stored_nil]
        simp only [BitVec.add_zero]
  | cons c cs ih =>
      have hc : c ≠ 0 := hcs c List.mem_cons_self
      simp only [List.cons_append, strCopy, List.length_cons]
      by_cases hroom : d.wrote + i < d.size - 1
      · rw [if_pos hroom]
        rw [BitVec.lt_def, hadd, hk] at hroom
        by_cases hgo : checkLen = false ∨ len ≠ 0
        · -- The character counts, and the loop goes on behind it.
          have hi' : (i + 1).toNat = i.toNat + 1 := by
            have hone : (1 : Word).toNat = 1 := rfl
            rw [BitVec.toNat_add, hone]
            omega
          have hlimit : (if checkLen then min len.toNat (cs.length + 1) else cs.length + 1) =
              (if checkLen then min (len - 1).toNat cs.length else cs.length) + 1 := by
            cases checkLen with
            | false => rfl
            | true =>
                have hlen : len ≠ 0 := hgo.resolve_left (by decide)
                have hsub : (len - 1).toNat + 1 = len.toNat := by bv_omega
                simp only [if_true]
                omega
          have hadd' : (d.wrote + (i + 1)).toNat = d.wrote.toNat + (i + 1).toNat := by
            rw [BitVec.toNat_add, hi']
            omega
          rw [if_pos ⟨hc, by simpa using hgo⟩,
            ih (fun x hx => hcs x (List.mem_cons_of_mem c hx)) (i + 1) (len - 1) _ (by omega) hadd']
          generalize (if checkLen then min (len - 1).toNat cs.length else cs.length) = l at *
          rw [hlimit, hi']
          have hone : min (d.capacity - (d.wrote.toNat + i.toNat)) (l + 1 + 1) =
              min (d.capacity - (d.wrote.toNat + (i.toNat + 1))) (l + 1) + 1 := by omega
          have hcount : min (d.capacity - (d.wrote.toNat + i.toNat)) (l + 1) =
              min (d.capacity - (d.wrote.toNat + (i.toNat + 1))) l + 1 := by omega
          rw [hone, hcount, List.take_succ_cons, ← Nat.add_assoc, ← hadd, stored_cons, hadd,
            Nat.add_assoc, count_succ]
        · -- The limit is reached, after the character was stored.
          have hlimit :
              (if checkLen then min len.toNat (cs.length + 1) else cs.length + 1) = 0 := by
            rw [not_or, not_not, Bool.not_eq_false] at hgo
            rw [hgo.1, hgo.2, if_pos rfl]
            exact Nat.zero_min _
          rw [if_neg (fun h => hgo (by simpa using h.2)), hlimit]
          have hone : min (d.capacity - (d.wrote.toNat + i.toNat)) (0 + 1) = 1 := by omega
          rw [hone, List.take_succ_cons, List.take_zero, ← hadd, stored_single, Nat.min_zero]
          simp only [BitVec.add_zero]
      · rw [if_neg hroom]
        rw [BitVec.lt_def, hadd, hk] at hroom
        have hzero : d.capacity - (d.wrote.toNat + i.toNat) = 0 := by omega
        rw [hzero, Nat.zero_min, Nat.zero_min, List.take_zero, stored_nil]
        simp only [BitVec.add_zero]

/-- A call of `str_writer` with some text. -/
theorem strWriter_eq (hne : data.chars ≠ []) (len : Word) (hw : d.wrote.toNat ≤ d.capacity) :
    strWriter d data len =
      ({ d with
          str := stored d.str d.wrote.toNat
            ((data.chars ++ [0]).take
              (min (d.capacity - d.wrote.toNat) ((data.clip len).length + 1)))
          wrote := d.wrote +
            BitVec.ofNat 32 (min (d.capacity - d.wrote.toNat) (data.clip len).length) },
        BitVec.ofNat 32 (min (d.capacity - d.wrote.toNat) (data.clip len).length)) := by
  have hzero : (0 : Word).toNat = 0 := rfl
  have hadd : ∀ x : Word, 0 + x = x := BitVec.zero_add
  have hlimit : (if (decide (len ≠ 0)) then min len.toNat data.chars.length
      else data.chars.length) = (data.clip len).length := by
    rw [← limit_clip, apply_ite List.length, List.length_take]
  have hcopy := strCopy_eq (d := d) (decide (len ≠ 0)) data.chars data.nonzero 0 len d.str
    (by rw [hzero]; exact hw)
  simp only [hlimit, hzero, Nat.add_zero, hadd] at hcopy
  unfold strWriter
  rw [if_neg hne]
  simp only [hcopy]

/-- A call of `str_writer` without text stores a NUL, one byte too far unless
    the buffer is full. -/
theorem strWriter_nil (h : data.chars = []) (len : Word) :
    strWriter d data len =
      ({ d with
          str := stored d.str
            (if d.capacity ≤ d.wrote.toNat then d.wrote.toNat else d.wrote.toNat + 1) [0] },
        0) := by
  have hcap : d.capacity < 2 ^ 32 := (d.size - 1).isLt
  unfold strWriter
  rw [if_pos h]
  by_cases hfull : d.size - 1 ≤ d.wrote
  · rw [if_pos hfull, if_pos (show d.capacity ≤ d.wrote.toNat from hfull), stored_single]
  · have hlt : ¬ d.capacity ≤ d.wrote.toNat := hfull
    have hone : (1 : Word).toNat = 1 := rfl
    have hnext : (d.wrote + 1).toNat = d.wrote.toNat + 1 := by
      rw [BitVec.toNat_add, hone]
      omega
    rw [if_neg hfull, if_neg hlt, ← hnext, stored_single]

theorem StrTarget.Holds.wrote_le {out : List Byte} (h : d.Holds mem out) :
    d.wrote.toNat ≤ d.capacity := by
  rw [h.wrote]
  exact Nat.min_le_left _ _

/-- The size of a buffer never changes. -/
theorem strWriter_size (d : StrTarget) (data : CString) (len : Word) :
    (strWriter d data len).1.size = d.size := by
  unfold strWriter
  split <;> rfl

/-! What a call counts, and what it leaves at each offset. -/

theorem strWriter_str (hne : data.chars ≠ []) (len : Word) (hw : d.wrote.toNat ≤ d.capacity) :
    (strWriter d data len).1.str = stored d.str d.wrote.toNat
      ((data.chars ++ [0]).take (min (d.capacity - d.wrote.toNat) ((data.clip len).length + 1))) :=
  congrArg (fun r => r.1.str) (strWriter_eq hne len hw)

theorem stored_length (data : CString) (len : Word) (room : Nat) :
    ((data.chars ++ [0]).take (min room ((data.clip len).length + 1))).length =
      min room ((data.clip len).length + 1) := by
  have hle := clip_length_le data len
  rw [List.length_take, List.length_append, List.length_singleton]
  omega

theorem strWriter_count (hw : d.wrote.toNat ≤ d.capacity) (data : CString) (len : Word) :
    (strWriter d data len).2 =
      BitVec.ofNat 32 (min (d.capacity - d.wrote.toNat) (data.clip len).length) := by
  by_cases hne : data.chars = []
  · rw [strWriter_nil hne, clip_nil hne, List.length_nil, Nat.min_zero]
    rfl
  · rw [strWriter_eq hne len hw]

theorem strWriter_wrote (hw : d.wrote.toNat ≤ d.capacity) (data : CString) (len : Word) :
    (strWriter d data len).1.wrote.toNat =
      d.wrote.toNat + min (d.capacity - d.wrote.toNat) (data.clip len).length := by
  have hcap : d.capacity < 2 ^ 32 := (d.size - 1).isLt
  by_cases hne : data.chars = []
  · rw [strWriter_nil hne, clip_nil hne, List.length_nil, Nat.min_zero]
    rfl
  · rw [strWriter_eq hne len hw]
    change (d.wrote + _).toNat = _
    rw [BitVec.toNat_add, BitVec.toNat_ofNat]
    omega

/-- The text before keeps its characters. -/
theorem strWriter_before (hw : d.wrote.toNat ≤ d.capacity) {o : Word}
    (ho : o.toNat < d.wrote.toNat) : (strWriter d data len).1.str o = d.str o := by
  by_cases hne : data.chars = []
  · rw [strWriter_nil hne]
    refine stored_outside (Or.inl ?_)
    split <;> omega
  · rw [strWriter_eq hne len hw]
    exact stored_outside (Or.inl ho)

/-- Nothing is stored behind the buffer. -/
theorem strWriter_outside (hw : d.wrote.toNat ≤ d.capacity) {o : Word}
    (ho : d.capacity < o.toNat) : (strWriter d data len).1.str o = d.str o := by
  by_cases hne : data.chars = []
  · rw [strWriter_nil hne]
    refine stored_outside (Or.inr ?_)
    rw [List.length_singleton]
    split <;> omega
  · rw [strWriter_eq hne len hw]
    refine stored_outside (Or.inr ?_)
    rw [List.length_take]
    omega

/-- The characters that are taken are stored behind the text before. -/
theorem strWriter_taken (hw : d.wrote.toNat ≤ d.capacity) {o : Word} {i : Nat}
    (hi : i < (data.clip len).length) (ho : o.toNat = d.wrote.toNat + i)
    (hroom : o.toNat < d.capacity) : (strWriter d data len).1.str o = (data.clip len)[i] := by
  have hle := clip_length_le data len
  have hlen := stored_length data len (d.capacity - d.wrote.toNat)
  rw [strWriter_str (List.ne_nil_of_length_pos (by omega)) len hw, stored_inside ho (by omega),
    List.getElem_take, List.getElem_append_left (by omega),
    List.getElem_of_eq (clip_eq_take data len) hi, List.getElem_take]

/-- The character behind the ones that are taken, or the terminator, is stored if
    there is room for it. -/
theorem strWriter_behind (hne : data.chars ≠ []) {o : Word} {c : Byte}
    (ho : o.toNat = d.wrote.toNat + (data.clip len).length) (hroom : o.toNat < d.capacity)
    (hc : (data.chars ++ [0])[(data.clip len).length]? = some c) :
    (strWriter d data len).1.str o = c := by
  have hlen := stored_length data len (d.capacity - d.wrote.toNat)
  rw [strWriter_str hne len (by omega), stored_inside ho (by omega), List.getElem_take]
  exact (List.getElem?_eq_some_iff.mp hc).2

/-- Some text does not reach the last byte of the buffer. -/
theorem strWriter_limit (hw : d.wrote.toNat ≤ d.capacity) (hne : data.chars ≠ []) (len : Word) :
    (strWriter d data len).1.str (d.size - 1) = d.str (d.size - 1) := by
  have hk : (d.size - 1).toNat = d.capacity := rfl
  rw [strWriter_str hne len hw]
  refine stored_outside (Or.inr ?_)
  rw [stored_length]
  omega

/-- `str_writer` takes what fits before the last byte of its buffer. -/
theorem strWriter_fills (size : Word) (mem : Word → Byte) :
    Writer.Fills strWriter ((size - 1).toNat : ℕ∞)
      (fun d out => d.size = size ∧ d.Holds mem out) where
  text d out data len hlen := by
    rintro ⟨hsize, hd⟩
    have hw := hd.wrote_le
    have hout := hd.wrote
    have hclip := clip_of_le hlen
    have hcap : (strWriter d data len).1.capacity = d.capacity :=
      capacity_of_size (strWriter_size d data len)
    have hwrote := strWriter_wrote hw data len
    rw [hclip] at hwrote
    refine ⟨(strWriter_size d data len).trans hsize, ?_, fun o ho ho' => ?_, fun hne hroom => ?_,
      fun o ho => ?_⟩
    · rw [hwrote, hcap, List.length_append]
      omega
    · rw [List.length_append] at ho
      by_cases hlt : o.toNat < d.wrote.toNat
      · -- Characters that were there already.
        rw [strWriter_before hw hlt, hd.text o (by omega) hlt, List.getElem_append_left]
      · -- Nothing is stored into a full buffer, so the old text is complete.
        have hi : o.toNat - out.length < (data.clip len).length := by
          rw [hclip]
          omega
        rw [strWriter_taken (i := o.toNat - out.length) hw hi (by omega) (by omega),
          List.getElem_append_right (by omega)]
        simp only [hclip]
    · rw [hcap] at hroom
      by_cases hnil : data.chars = []
      · -- The NUL of an empty string is stored behind the one that is there.
        have hold : d.wrote.toNat < d.capacity := by omega
        rw [hnil, List.append_nil] at hne
        rw [strWriter_nil hnil, ← hd.nul hne hold]
        refine stored_outside (Or.inl ?_)
        rw [if_neg (by omega)]
        exact Nat.lt_succ_self _
      · -- The terminator of the string is stored if there is room for it.
        have hlast : (strWriter d data len).1.wrote.toNat =
            d.wrote.toNat + (data.clip len).length := by
          rw [hwrote, hclip]
          omega
        refine strWriter_behind hnil hlast hroom ?_
        rw [hclip]
        exact List.getElem?_concat_length
    · rw [hcap] at ho
      rw [strWriter_outside hw ho, hd.frame o ho]
  count d out data len hlen := by
    rintro ⟨hsize, hd⟩
    have hcap := capacity_of_size hsize
    have hout := hd.wrote
    have hroom : min (d.capacity - d.wrote.toNat) data.chars.length =
        min ((size - 1).toNat - out.length) data.chars.length := by omega
    rw [strWriter_count hd.wrote_le data len, clip_of_le hlen, hroom, fit_coe]
  full d out more := by
    rintro ⟨hsize, hd⟩ hfull
    rw [Nat.cast_le] at hfull
    have hcap := capacity_of_size hsize
    have hout := hd.wrote
    refine ⟨hsize, ⟨?_, fun o ho ho' => ?_, fun _ hroom => ?_, hd.frame⟩⟩
    · rw [List.length_append]
      omega
    · rw [List.getElem_append_left (by omega)]
      exact hd.text o (by omega) ho'
    · omega

/-- The empty string puts a NUL behind some text, or at the end of a full
    buffer. -/
theorem strWriter_end {out : List Byte} (hd : d.Holds mem out)
    (h : out ≠ [] ∨ d.capacity ≤ out.length) (hne : data.chars = []) (len : Word) :
    (strWriter d data len).1.str (strWriter d data len).1.wrote = 0 := by
  have hw := hd.wrote
  rw [strWriter_nil hne]
  change stored d.str _ _ d.wrote = 0
  by_cases hfull : d.capacity ≤ d.wrote.toNat
  · rw [if_pos hfull, stored_single, Function.update_self]
  · rw [if_neg hfull, stored_outside (Or.inl (Nat.lt_succ_self _))]
    exact hd.nul (h.resolve_right (by omega)) (by omega)

end Strings

/-! ## Terminals -/

section Terminals

variable {t : Terminal} {data : CString} {len : Word}

/-- A terminal that takes a character and never fails. -/
structure Terminal.Ready (t : Terminal) : Prop where
  idle : t.busy = 0
  status : t.status = ST_READY ∨ t.status = ST_TRANSMITTED
  reliable : ∀ n, t.fails n = false

/-- The wait for a transmission ends with the status the device leaves. -/
theorem awaitTransmission_eq (n : Nat) (hbusy : t.busy = n) (hs : t.status = ST_TRANSMITTED) :
    awaitTransmission n t = (ST_TRANSMITTED, { t with busy := 0 }) := by
  induction n generalizing t with
  | zero =>
      have hidle : { t with busy := 0 } = t := by rw [← hbusy]
      unfold awaitTransmission termStatus
      rw [if_pos hbusy]
      refine Prod.ext ?_ hidle.symm
      rw [hs]
      rfl
  | succ n ih =>
      have hne : t.busy ≠ 0 := by omega
      have hpred : ({ t with busy := t.busy - 1 } : Terminal).busy = n := by
        simp only [hbusy, Nat.add_sub_cancel]
      have hdone := ih hpred hs
      unfold awaitTransmission
      simp only [termStatus, if_neg hne, if_true]
      exact hdone

/-- The command of `term_putchar` carries its character. -/
theorem transmit_command (c : Byte) :
    ((c.setWidth 32 <<< CHAR_OFFSET) ||| CMD_TRANSMIT) &&& TERM_STATUS_MASK = CMD_TRANSMIT ∧
      (((c.setWidth 32 <<< CHAR_OFFSET) ||| CMD_TRANSMIT) >>> CHAR_OFFSET).setWidth 8 = c := by
  revert c
  decide +kernel

/-- A terminal with a character under way. -/
def Terminal.sending (t : Terminal) (c : Byte) : Terminal :=
  { t with
    busy := t.delay t.sent
    status := ST_TRANSMITTED
    printed := t.printed ++ [c]
    sent := t.sent + 1 }

theorem termPutchar_ready (h : t.Ready) (c : Byte) :
    (termPutchar t c).1 = 0 ∧ (termPutchar t c).2.Ready ∧
      (termPutchar t c).2.printed = t.printed ++ [c] := by
  have hstatus : termStatus t = (t.status, t) := by
    unfold termStatus
    rw [if_pos h.idle]
    rcases h.status with hs | hs <;> rw [hs] <;> rfl
  have hgo : ¬ (t.status ≠ ST_READY ∧ t.status ≠ ST_TRANSMITTED) := by
    rcases h.status with hs | hs
    · exact fun hc => hc.1 hs
    · exact fun hc => hc.2 hs
  have hack : ¬ (CMD_ACK &&& TERM_STATUS_MASK = CMD_TRANSMIT) := by decide
  have hsend : storeTransmCommand t ((c.setWidth 32 <<< CHAR_OFFSET) ||| CMD_TRANSMIT) =
      t.sending c := by
    unfold storeTransmCommand
    rw [if_pos (transmit_command c).1, (transmit_command c).2, h.reliable t.sent]
    rfl
  have hwait := awaitTransmission_eq (t := t.sending c) (t.sending c).busy rfl rfl
  unfold termPutchar
  simp only [hstatus, if_neg hgo, hsend, hwait, if_true, true_and]
  unfold storeTransmCommand
  rw [if_neg hack]
  exact ⟨⟨rfl, Or.inl rfl, h.reliable⟩, rfl⟩

theorem serialLoop_ready (checkLen : Bool) (cs : List Byte) (len n : Word) (h : t.Ready) :
    let taken := if checkLen then cs.take len.toNat else cs
    (serialLoop checkLen cs len n t).2 = n + BitVec.ofNat 32 taken.length ∧
      (serialLoop checkLen cs len n t).1.Ready ∧
      (serialLoop checkLen cs len n t).1.printed = t.printed ++ taken := by
  induction cs generalizing len n t with
  | nil =>
      simp only [serialLoop, List.take_nil, ite_self, List.length_nil, List.append_nil]
      exact ⟨(BitVec.add_zero n).symm, h, trivial⟩
  | cons c cs ih =>
      unfold serialLoop
      by_cases hstop : checkLen = true ∧ len = 0
      · rw [if_pos hstop, hstop.1, hstop.2]
        simp only [if_true]
        exact ⟨(BitVec.add_zero n).symm, h, (List.append_nil _).symm⟩
      · rcases termPutchar_ready h c with ⟨hok, hready, hprinted⟩
        have htaken := limit_cons hstop c cs
        rcases ih (len - 1) (n + 1) hready with ⟨hcount, hready', hprinted'⟩
        rw [if_neg hstop, if_neg (not_not.mpr hok)]
        refine ⟨?_, hready', ?_⟩
        · rw [hcount, htaken, List.length_cons, count_succ]
        · rw [hprinted', hprinted, htaken, List.append_assoc, List.singleton_append]

/-- A call of `serial_writer` prints the characters it is asked for. -/
theorem serialWriter_ready (h : t.Ready) (data : CString) (len : Word) :
    (serialWriter t data len).2 = BitVec.ofNat 32 (data.clip len).length ∧
      (serialWriter t data len).1.Ready ∧
      (serialWriter t data len).1.printed = t.printed ++ data.clip len := by
  have hadd : ∀ x : Word, 0 + x = x := BitVec.zero_add
  have hloop := serialLoop_ready (decide (len ≠ 0)) data.chars len 0 h
  simp only [hadd, limit_clip] at hloop
  exact hloop

theorem serialWriter_fills (before : List Byte) : Writer.Fills serialWriter ⊤
    (fun t out => t.Ready ∧ t.printed = before ++ out) where
  text t out data len hlen := by
    rintro ⟨hready, hprinted⟩
    rcases serialWriter_ready hready data len with ⟨-, hready', hprinted'⟩
    rw [clip_of_le hlen, hprinted, List.append_assoc] at hprinted'
    exact ⟨hready', hprinted'⟩
  count t out data len hlen := by
    rintro ⟨hready, -⟩
    rw [(serialWriter_ready hready data len).1, clip_of_le hlen, fit_top]
  full t out more _ hfull := absurd hfull (not_full_top _)

end Terminals

/-! ## The log -/

section Log

variable {mem : MemoryTarget} {data : CString} {len : Word} {start : Nat × Nat}

/-- The place behind a character. Lines are counted on and on here. -/
def advance (p : Nat × Nat) (c : Byte) : Nat × Nat :=
  if c = chr '\n' ∨ MEM_WRITER_LINE_LENGTH ≤ p.2 + 1 then (p.1 + 1, 0) else (p.1, p.2 + 1)

/-- The place behind a text. -/
def place (start : Nat × Nat) (out : List Byte) : Nat × Nat := out.foldl advance start

/-- With the current line at a given number, the buffer has every character of
    the last lines where it belongs. Older lines are overwritten, and the line
    behind the current one is a separator. -/
def MemoryTarget.Keeps (mem : MemoryTarget) (start : Nat × Nat) (out : List Byte)
    (line : Nat) : Prop :=
  ∀ u c v, out = u ++ c :: v → c ≠ chr '\n' →
    line + 2 ≤ (place start u).1 + MEM_WRITER_LINES →
    mem.buffer ((place start u).1 % MEM_WRITER_LINES) (place start u).2 = c

/-- The log shows a text that starts at a given place. -/
structure MemoryTarget.Shows (mem : MemoryTarget) (start : Nat × Nat) (out : List Byte) : Prop where
  line : mem.line = (place start out).1 % MEM_WRITER_LINES
  ch : mem.ch = (place start out).2
  text : mem.Keeps start out (place start out).1

theorem place_append (start : Nat × Nat) (out : List Byte) (c : Byte) :
    place start (out ++ [c]) = advance (place start out) c := List.foldl_append

/-- Every character stands before the ones that follow it. -/
theorem place_lt (start : Nat × Nat) (u v : List Byte) (c : Byte) :
    (place start u).1 < (place start (u ++ c :: v)).1 ∨
      (place start u).1 = (place start (u ++ c :: v)).1 ∧
        (place start u).2 < (place start (u ++ c :: v)).2 := by
  induction v using List.reverseRecOn with
  | nil =>
      rw [place_append]
      unfold advance
      split <;> simp
  | append_singleton v d ih =>
      rw [← List.cons_append, ← List.append_assoc, place_append]
      unfold advance
      split
      · exact Or.inl (by omega)
      · rcases ih with h | h
        · exact Or.inl h
        · exact Or.inr ⟨h.1, Nat.lt_succ_of_lt h.2⟩

/-- A character of a text with one more at its end is the last or one of the
    text. -/
theorem split_concat {out u v : List Byte} {c d : Byte} (h : out ++ [c] = u ++ d :: v) :
    (u = out ∧ d = c) ∨ ∃ w, out = u ++ d :: w := by
  rcases List.eq_nil_or_concat' v with rfl | ⟨w, x, rfl⟩
  · rcases List.append_inj' h rfl with ⟨hu, hd⟩
    exact Or.inl ⟨hu.symm, (List.singleton_inj.mp hd).symm⟩
  · rw [← List.cons_append, ← List.append_assoc] at h
    exact Or.inr ⟨w, (List.append_inj' h rfl).1⟩

/-- The line after the current one is cleared, and the one behind that. -/
theorem nextLine_keeps {out : List Byte} {line : Nat} (hline : mem.line = line % MEM_WRITER_LINES)
    (hle : ∀ u c v, out = u ++ c :: v → (place start u).1 ≤ line)
    (h : mem.Keeps start out line) : (nextLine mem).Keeps start out (line + 1) := by
  intro u c v hout hc hlast
  have hu := hle u c v hout
  have hlines : MEM_WRITER_LINES = 102 := rfl
  rw [hlines] at hlast
  have hne : (place start u).1 % MEM_WRITER_LINES ≠ (mem.line + 1) % MEM_WRITER_LINES := by
    rw [hline, hlines]
    omega
  have hne' : (place start u).1 % MEM_WRITER_LINES ≠
      ((mem.line + 1) % MEM_WRITER_LINES + 1) % MEM_WRITER_LINES := by
    rw [hline, hlines]
    omega
  unfold nextLine cleanLine
  exact (if_neg (fun hx => hne' hx.1)).trans
    ((if_neg (fun hx => hne hx.1)).trans (h u c v hout hc (by omega)))

/-- The log goes on in the next line. -/
theorem nextLine_shows {out : List Byte} {line : Nat} (hline : mem.line = line % MEM_WRITER_LINES)
    (hle : ∀ u c v, out = u ++ c :: v → (place start u).1 ≤ line)
    (hplace : place start out = (line + 1, 0)) (h : mem.Keeps start out line) :
    (nextLine mem).Shows start out := by
  refine ⟨?_, ?_, ?_⟩
  · rw [hplace]
    change (mem.line + 1) % MEM_WRITER_LINES = _
    rw [hline]
    exact Nat.mod_add_mod _ _ _
  · rw [hplace]
    rfl
  · rw [hplace]
    exact nextLine_keeps hline hle h

/-- `kputchar` shows one more character. -/
theorem kputchar_shows {out : List Byte} (h : mem.Shows start out) (c : Byte) :
    (kputchar mem c).Shows start (out ++ [c]) := by
  have hplace := place_append start out c
  have hbefore : ∀ u d v, out ++ [c] = u ++ d :: v →
      (place start u).1 ≤ (place start out).1 := by
    intro u d v hout
    rcases split_concat hout with ⟨rfl, -⟩ | ⟨w, rfl⟩
    · exact Nat.le_refl _
    · rcases place_lt start u w d with hlt | heq
      · exact Nat.le_of_lt hlt
      · exact Nat.le_of_eq heq.1
  unfold kputchar
  by_cases hc : c = chr '\n'
  · rw [if_pos hc]
    refine nextLine_shows h.line hbefore ?_ ?_
    · rw [hplace]
      exact if_pos (Or.inl hc)
    · -- The newline itself is not stored.
      intro u d v hout hd hlast
      rcases split_concat hout with ⟨-, hlast'⟩ | ⟨w, hw⟩
      · exact absurd (hlast'.trans hc) hd
      · exact h.text u d w hw hd hlast
  · rw [if_neg hc]
    -- The character is stored at the current place, which is behind all others.
    have hkeeps : MemoryTarget.Keeps { mem with
        buffer := fun l i => if l = mem.line ∧ i = mem.ch then c else mem.buffer l i
        ch := mem.ch + 1 } start (out ++ [c]) (place start out).1 := by
      intro u d v hout hd hlast
      rcases split_concat hout with ⟨rfl, rfl⟩ | ⟨w, rfl⟩
      · exact if_pos ⟨h.line.symm, h.ch.symm⟩
      · refine (if_neg ?_).trans (h.text u d w rfl hd hlast)
        rintro ⟨hl, hi⟩
        rw [h.line] at hl
        rw [h.ch] at hi
        unfold MEM_WRITER_LINES at hl hlast
        rcases place_lt start u w d with hlt | heq
        · omega
        · omega
    by_cases hwrap : MEM_WRITER_LINE_LENGTH ≤ mem.ch + 1
    · simp only [if_pos hwrap]
      refine nextLine_shows h.line hbefore ?_ hkeeps
      rw [hplace]
      exact if_pos (Or.inr (h.ch ▸ hwrap))
    · have hnext : place start (out ++ [c]) = ((place start out).1, (place start out).2 + 1) := by
        rw [hplace]
        exact if_neg (fun hx => hx.elim hc (fun hx => hwrap (h.ch ▸ hx)))
      simp only [if_neg hwrap]
      refine ⟨?_, ?_, ?_⟩
      · rw [hnext]
        exact h.line
      · rw [hnext, h.ch]
      · rw [hnext]
        exact hkeeps

theorem memoryLoop_shows (checkLen : Bool) (cs : List Byte) (len n : Word) {out : List Byte}
    (h : mem.Shows start out) :
    let taken := if checkLen then cs.take len.toNat else cs
    (memoryLoop checkLen cs len n mem).2 = n + BitVec.ofNat 32 taken.length ∧
      (memoryLoop checkLen cs len n mem).1.Shows start (out ++ taken) := by
  induction cs generalizing len n mem out with
  | nil =>
      simp only [memoryLoop, List.take_nil, ite_self, List.length_nil, List.append_nil]
      exact ⟨(BitVec.add_zero n).symm, h⟩
  | cons c cs ih =>
      unfold memoryLoop
      by_cases hstop : checkLen = true ∧ len = 0
      · rw [if_pos hstop, hstop.1, hstop.2]
        have hnone : (c :: cs).take (0 : Word).toNat = [] := rfl
        simp only [if_true, hnone, List.append_nil]
        exact ⟨(BitVec.add_zero n).symm, h⟩
      · have htaken := limit_cons hstop c cs
        rcases ih (len - 1) (n + 1) (kputchar_shows h c) with ⟨hcount, hshows⟩
        rw [if_neg hstop]
        refine ⟨?_, ?_⟩
        · rw [hcount, htaken, List.length_cons, count_succ]
        · rw [htaken, ← List.singleton_append, ← List.append_assoc]
          exact hshows

/-- What `memory_writer` clears at the start of the buffer shows nothing. -/
theorem clean_shows {out : List Byte} (h : mem.Shows start out) (hl : mem.line = 0)
    (hi : mem.ch = 0) :
    (cleanLine (cleanLine mem mem.line (chr ' ')) (mem.line + 1) (chr ' ')).Shows start out := by
  refine ⟨h.line, h.ch, fun u c v hout hc hlast => ?_⟩
  have hkeep := h.text u c v hout hc hlast
  have hline := h.line
  have hch := h.ch
  have hlt := place_lt start u v c
  rw [← hout] at hlt
  have hlines : MEM_WRITER_LINES = 102 := rfl
  rw [hlines] at hline hlast
  have hne : (place start u).1 % MEM_WRITER_LINES ≠ mem.line := by
    rw [hlines]
    omega
  have hne' : (place start u).1 % MEM_WRITER_LINES ≠ mem.line + 1 := by
    rw [hlines]
    omega
  unfold cleanLine
  exact (if_neg (fun hx => hne' hx.1)).trans ((if_neg (fun hx => hne hx.1)).trans hkeep)

/-- A call of `memory_writer` shows the characters it is asked for. -/
theorem memoryWriter_shows {out : List Byte} (h : mem.Shows start out) (data : CString)
    (len : Word) :
    (memoryWriter mem data len).2 = BitVec.ofNat 32 (data.clip len).length ∧
      (memoryWriter mem data len).1.Shows start (out ++ data.clip len) := by
  have hadd : ∀ x : Word, 0 + x = x := BitVec.zero_add
  have hclean : (if mem.line = 0 ∧ mem.ch = 0 then
      cleanLine (cleanLine mem mem.line (chr ' ')) (mem.line + 1) (chr ' ') else mem).Shows
        start out := by
    split
    · rename_i hzero
      exact clean_shows h hzero.1 hzero.2
    · exact h
  have hloop := memoryLoop_shows (decide (len ≠ 0)) data.chars len 0 hclean
  simp only [hadd, limit_clip] at hloop
  exact hloop

theorem memoryWriter_fills (start : Nat × Nat) :
    Writer.Fills memoryWriter ⊤ (fun mem out => mem.Shows start out) where
  text mem out data len hlen h := by
    have hshows := (memoryWriter_shows h data len).2
    rw [clip_of_le hlen] at hshows
    exact hshows
  count mem out data len hlen h := by
    rw [(memoryWriter_shows h data len).1, clip_of_le hlen, fit_top]
  full mem out more _ hfull := absurd hfull (not_full_top _)

end Log

/-! ## Targets of the samples -/

/-- A terminal that printed a character and takes longer for each one. -/
def sampleTerminal : Terminal :=
  { status := ST_READY
    busy := 0
    sent := 0
    printed := [chr '>']
    delay := fun k => k
    fails := fun _ => false }

theorem ready_sampleTerminal : sampleTerminal.Ready := ⟨rfl, Or.inl rfl, fun _ => rfl⟩

/-- A log whose next characters go to the end of a line. -/
def sampleLog : MemoryTarget :=
  { buffer := fun _ _ => 0
    line := 2
    ch := 38 }

theorem shows_sampleLog : sampleLog.Shows (2, 38) [] := by
  refine ⟨rfl, rfl, fun u c v h => ?_⟩
  exact absurd h.symm (List.append_ne_nil_of_right_ne_nil u (List.cons_ne_nil c v))

end Pandos
