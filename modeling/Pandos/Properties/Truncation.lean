import Pandos.Properties.Numerals
import Pandos.Theory.Conversions
import Pandos.Theory.Replay

/-!
# Truncation

`pandos_snprintf` stores no character behind its buffer and keeps a prefix of
the output. Whether a NUL follows it, and whether the count is right, is
another matter.

A string that fits is terminated by its last piece. A string that does not fit
is terminated only if the interpreter gives up at a directive, or if a number
ends close enough to the limit for the empty string behind its digits to be
stored at the limit. Characters of `%b` are counted whether they fit or not. A
length of zero is taken for the largest one.

## Main definitions

* `unlimited`: What a call emits to a writer that never runs out of space.
* `Truncates`: The contract of a call.
* `endsInNul`, `countedOver`: What happens at the limit.

## Theorems

* `emitAll_limit`: The byte at the limit after a run of conversions.
* `snprintf_truncates_iff`: When a call keeps the contract.
* `snprintf_fills_up`: A string that fits exactly is not terminated.
-/

namespace Pandos

open Buffers

/-! ## The contract -/

/-- What a call emits to a writer that never runs out of space. -/
def unlimited (L : Layout) (fmt : CString) (varg : VaList) : List Byte :=
  ((pandosPrintf L listWriter [] fmt varg).map Prod.fst).getD []

/-- Whatever the memory held, nothing is stored outside the buffer, and it holds
    a terminated prefix of what the call emits, as long as there is room for,
    whose length is returned. -/
def Truncates (L : Layout) (fmt : CString) (varg : VaList) (len : Word) : Prop :=
  ∀ mem, ∃ mem' n, pandosSnprintf L mem len fmt varg = some (mem', n) ∧
    (∀ o, len ≤ o → mem' o = mem o) ∧
    (len ≠ 0 → n.toNat = min (len.toNat - 1) (unlimited L fmt varg).length ∧ mem' n = 0 ∧
      ∀ (o : Word) (h : o.toNat < (unlimited L fmt varg).length), o.toNat < n.toNat →
        mem' o = (unlimited L fmt varg)[o.toNat])

/-- A conversion that is rendered by `__itoa`. -/
def Conversion.isNumber : Conversion → Bool
  | .decimal _ => true
  | .pointer _ => true
  | _ => false

/-- A directive other than `%b` has no text or starts where the buffer is full,
    or a number ends where there is room for one more character at most. -/
def endsInNul (K : Nat) : Nat → List Conversion → Bool
  | _, [] => false
  | a, c :: cs =>
    if c.isBinary then endsInNul K (a + c.text.length) cs
    else if c.text = [] ∨ K ≤ a then true
    else (c.isNumber && decide (K ≤ a + c.text.length + 1)) || endsInNul K (a + c.text.length) cs

/-- The characters of `%b` that do not fit, up to the first other directive that
    has no text or starts where the buffer is full. -/
def countedOver (K : Nat) : Nat → List Conversion → Nat
  | _, [] => 0
  | a, c :: cs =>
    if c.isBinary then
      (LEN - fit (K : ℕ∞) a c.text.length) + countedOver K (a + c.text.length) cs
    else if c.text = [] ∨ K ≤ a then 0
    else countedOver K (a + c.text.length) cs

section Truncation

variable {d : StrTarget} {data : CString} {len : Word} {mem : Word → Byte} {out : List Byte}

theorem unlimited_eq (L : Layout) (fmt : CString) (varg : VaList)
    (hd : dangling fmt.chars = false) :
    unlimited L fmt varg = emitted (conversions L fmt.chars varg) := by
  rcases pandosPrintf_fills listWriter_fills (rfl : ([] : List Byte) = []) L fmt varg hd le_top with
    ⟨out, hr, hout⟩
  unfold unlimited
  rw [hr, ← List.nil_append (emitted (conversions L fmt.chars varg)), hout]
  rfl

/-! ## The byte at the limit -/

/-- `str_writer` fills its buffer, and a byte behind the text that is not right
    behind it keeps its value. -/
theorem strWriter_fills_behind (size : Word) (mem : Word → Byte) (p : Word)
    (hp : p.toNat ≤ (size - 1).toNat) (v : Byte) :
    Writer.Fills strWriter ((size - 1).toNat : ℕ∞) (fun d out =>
      (d.size = size ∧ d.Holds mem out) ∧ (out.length + 1 < p.toNat → d.str p = v)) where
  text d out data len hlen := by
    rintro ⟨hd, hv⟩
    have hcap := capacity_of_size hd.1
    have hwrote := hd.2.wrote
    refine ⟨(strWriter_fills size mem).text d out data len hlen hd, fun hlt => ?_⟩
    rw [List.length_append] at hlt
    rw [← hv (by omega)]
    by_cases hne : data.chars = []
    · rw [strWriter_nil hne]
      refine stored_outside (Or.inr ?_)
      rw [if_neg (by omega), List.length_singleton]
      omega
    · rw [strWriter_eq hne len hd.2.wrote_le, clip_of_le hlen]
      refine stored_outside (Or.inr ?_)
      rw [List.length_take, List.length_append, List.length_singleton]
      omega
  count d out data len hlen h := (strWriter_fills size mem).count d out data len hlen h.1
  full d out more h hfull := by
    refine ⟨(strWriter_fills size mem).full d out more h.1 hfull, fun hlt => ?_⟩
    rw [Nat.cast_le] at hfull
    rw [List.length_append] at hlt
    omega

/-- `str_writer` fills its buffer, and the first byte keeps its value until there
    is some text. -/
theorem strWriter_fills_first (size : Word) (mem : Word → Byte) (hcap : 0 < (size - 1).toNat)
    (v : Byte) :
    Writer.Fills strWriter ((size - 1).toNat : ℕ∞) (fun d out =>
      (d.size = size ∧ d.Holds mem out) ∧ (out = [] → d.str 0 = v)) where
  text d out data len hlen := by
    rintro ⟨hd, hv⟩
    refine ⟨(strWriter_fills size mem).text d out data len hlen hd, fun hnil => ?_⟩
    rcases List.append_eq_nil_iff.mp hnil with ⟨hout, hdata⟩
    have hwrote := hd.2.wrote
    rw [hout, List.length_nil, Nat.min_zero] at hwrote
    have hroom : ¬ d.capacity ≤ 0 := by
      rw [capacity_of_size hd.1]
      omega
    rw [← hv hout, strWriter_nil hdata, hwrote]
    refine stored_outside (Or.inl ?_)
    rw [if_neg hroom]
    exact Nat.zero_lt_one
  count d out data len hlen h := (strWriter_fills size mem).count d out data len hlen h.1
  full d out more h hfull := by
    refine ⟨(strWriter_fills size mem).full d out more h.1 hfull, fun hnil => ?_⟩
    exact h.2 (List.append_eq_nil_iff.mp hnil).1

/-- The empty string puts a NUL at the limit if there is room for one more
    character at most. -/
theorem strWriter_end_limit (hd : d.Holds mem out) (hnear : d.capacity ≤ out.length + 1)
    (hne : data.chars = []) (len : Word) :
    (strWriter d data len).1.str (d.size - 1) = 0 := by
  have hk : (d.size - 1).toNat = d.capacity := rfl
  have hw := hd.wrote
  rw [strWriter_nil hne]
  have hat : (if d.capacity ≤ d.wrote.toNat then d.wrote.toNat else d.wrote.toNat + 1) =
      (d.size - 1).toNat := by
    split <;> omega
  change stored d.str _ _ (d.size - 1) = 0
  rw [hat, stored_single, Function.update_self]

/-- A conversion that is no number is one piece. -/
theorem emit_piece {σ : Type} (w : Writer σ) (s : σ) {c : Conversion} (h : c.isNumber = false) :
    ∃ data len, (emit w s c).1 = (w s data len).1 ∧ data.chars = c.text := by
  cases c with
  | literal c => exact ⟨_, _, rfl, ofArray_single c (by simp)⟩
  | string t => exact ⟨_, _, rfl, rfl⟩
  | char c => exact ⟨_, _, rfl, ofArray_single c (by simp)⟩
  | decimal i => cases h
  | pointer p => cases h
  | nil => exact ⟨_, _, rfl, by decide⟩
  | binary i =>
      refine ⟨_, _, rfl, ofArray_chars _ (fun c hc => ?_)⟩
      rcases List.mem_map.mp hc with ⟨p, -, rfl⟩
      exact binDigit_ne_zero i p
  | percent => exact ⟨_, _, rfl, by decide⟩
  | unknown c =>
      refine ⟨_, _, rfl, ?_⟩
      by_cases hc : c = 0
      · rw [hc]
        decide
      · refine (ofArray_chars _ (fun d hd => ?_)).trans (if_neg hc).symm
        rcases List.mem_cons.mp hd with rfl | hd
        · decide
        · rw [List.mem_singleton.mp hd]
          exact hc

/-- The last piece of a number is empty. -/
theorem emit_number {σ : Type} {w : Writer σ} {K : ℕ∞} {R : σ → List Byte → Prop}
    (hw : w.Fills K R) {s : σ} (hs : R s out) {c : Conversion} (h : c.isNumber = true) :
    ∃ q, R q (out ++ c.text) ∧ (emit w s c).1 = (w q cEnd 1).1 := by
  cases c with
  | decimal i => exact (itoa_end hw i 10 hs).1
  | pointer p =>
      have hx := (write_array hw hs (a := [chr '0', chr 'x']) (n := 2) (by decide) (by decide)
        (by decide)).1
      rcases (itoa_end hw p 16 hx).1 with ⟨q, hq, heq⟩
      rw [List.append_assoc] at hq
      exact ⟨q, hq, heq⟩
  | _ => cases h

/-- The byte at the limit after a conversion with a text that starts in the
    buffer. -/
theorem emit_limit (hd : d.Holds mem out) {c : Conversion} (hne : c.text ≠ []) :
    (emit strWriter d c).1.str (d.size - 1) =
      if c.isNumber ∧ d.capacity ≤ out.length + c.text.length + 1 then 0
      else d.str (d.size - 1) := by
  have hk : (d.size - 1).toNat = d.capacity := rfl
  by_cases hnum : c.isNumber = true
  · have hfills := strWriter_fills_behind d.size mem (d.size - 1) (Nat.le_refl _)
      (d.str (d.size - 1))
    by_cases hnear : d.capacity ≤ out.length + c.text.length + 1
    · rcases emit_number (strWriter_fills d.size mem) ⟨rfl, hd⟩ hnum with ⟨q, ⟨hsize, hq⟩, heq⟩
      have hcap : q.capacity = d.capacity := capacity_of_size hsize
      rw [if_pos ⟨hnum, hnear⟩, heq, ← hsize]
      refine strWriter_end_limit hq ?_ rfl 1
      rw [List.length_append]
      omega
    · -- What is stored behind the digits stays in front of the limit.
      rw [if_neg (fun hc => hnear hc.2)]
      refine (emit_fills hfills ⟨⟨rfl, hd⟩, fun _ => rfl⟩ c).1.2 ?_
      rw [List.length_append]
      omega
  · rw [if_neg (fun hc => hnum hc.1)]
    rcases emit_piece strWriter d (Bool.not_eq_true _ ▸ hnum) with ⟨data, len, heq, hchars⟩
    rw [heq]
    exact strWriter_limit hd.wrote_le (by rw [hchars]; exact hne) len

/-- The target at the end of `__pandos_printf`: a loop that gave up is followed
    by the empty string. -/
def finish (r : StrTarget × Word × Bool) : StrTarget :=
  if r.2.2 then (strWriter r.1 cEnd 1).1 else r.1

/-- The byte at the limit after conversions that fill the buffer. -/
theorem emitAll_limit (cs : List Conversion) (wr : Word) (hd : d.Holds mem out)
    (hfull : d.capacity ≤ out.length + (emitted cs).length) :
    (finish (emitAll strWriter cs d wr)).str (d.size - 1) =
      if endsInNul d.capacity out.length cs then 0 else d.str (d.size - 1) := by
  induction cs generalizing d out wr with
  | nil => rfl
  | cons c cs ih =>
      rcases (emit_fills (strWriter_fills d.size mem) ⟨rfl, hd⟩ c).1 with ⟨hsize, hheld⟩
      have hcap : (emit strWriter d c).1.capacity = d.capacity := capacity_of_size hsize
      unfold endsInNul
      by_cases hbin : c.isBinary = true
      · -- The loop goes on, whether there was room or not.
        have hne := binary_text_ne_nil hbin
        have hnum : ¬ (c.isNumber = true ∧ d.capacity ≤ out.length + c.text.length + 1) := by
          intro hc
          cases c with
          | binary i => cases hc.1
          | _ => cases hbin
        have hlimit := emit_limit hd hne
        rw [if_neg hnum] at hlimit
        unfold emitted at hfull
        rw [if_neg hne, List.length_append] at hfull
        unfold emitAll
        rw [if_neg (emit_binary_ne_zero hbin strWriter d), if_pos hbin]
        have hrest := ih (wr + (emit strWriter d c).2) hheld
          (by rw [hcap, List.length_append]; omega)
        rw [hsize, hcap, hlimit, List.length_append] at hrest
        exact hrest
      · rw [if_neg hbin]
        have hzero : (emit strWriter d c).2 = 0 ↔ c.text = [] ∨ d.capacity ≤ out.length := by
          rw [emit_stops_iff (strWriter_fills d.size mem) ⟨rfl, hd⟩ hbin, Nat.cast_le]
          rfl
        unfold emitAll
        by_cases hstop : c.text = [] ∨ d.capacity ≤ out.length
        · -- The loop gives up in a full buffer, and the terminator is stored.
          have hlen : d.capacity ≤ out.length := by
            rcases hstop with hnil | hlen
            · unfold emitted at hfull
              rw [if_pos hnil] at hfull
              exact hfull
            · exact hlen
          rw [if_pos (hzero.mpr hstop), if_pos hstop, if_pos rfl, ← hsize]
          refine strWriter_end_limit hheld ?_ rfl 1
          rw [hcap, List.length_append]
          omega
        · have hne : c.text ≠ [] := fun hc => hstop (Or.inl hc)
          have hlimit := emit_limit hd hne
          unfold emitted at hfull
          rw [if_neg hne, List.length_append] at hfull
          have hrest := ih (wr + (emit strWriter d c).2) hheld
            (by rw [hcap, List.length_append]; omega)
          rw [hsize, hcap, hlimit, List.length_append] at hrest
          rw [if_neg (fun hc => hstop (hzero.mp hc)), if_neg hstop, hrest]
          by_cases hnear : c.isNumber = true ∧ d.capacity ≤ out.length + c.text.length + 1
          · rw [if_pos hnear, hnear.1, decide_eq_true hnear.2, ite_self]
            rfl
          · have hoff : (c.isNumber && decide (d.capacity ≤ out.length + c.text.length + 1)) =
                false := by
              rw [Bool.and_eq_false_iff, decide_eq_false_iff_not]
              by_cases hnum : c.isNumber = true
              · exact Or.inr (fun hc => hnear ⟨hnum, hc⟩)
              · exact Or.inl (Bool.not_eq_true _ ▸ hnum)
            rw [if_neg hnear, hoff, Bool.false_or]

/-- The count after a run of conversions. -/
theorem emitAll_counted {σ : Type} {w : Writer σ} {K : Nat} {R : σ → List Byte → Prop}
    (hw : w.Fills (K : ℕ∞) R) {s : σ} (hs : R s out) (cs : List Conversion) (wr : Word) :
    (emitAll w cs s wr).2.1 = wr + BitVec.ofNat 32
      (fit (K : ℕ∞) out.length (emitted cs).length + countedOver K out.length cs) := by
  induction cs generalizing s out wr with
  | nil =>
      unfold emitAll emitted countedOver
      rw [List.length_nil, fit_zero]
      exact (BitVec.add_zero wr).symm
  | cons c cs ih =>
      rcases emit_fills hw hs c with ⟨htext, hcount⟩
      have hle := fit_le (K : ℕ∞) out.length c.text.length
      unfold emitAll emitted countedOver
      by_cases hbin : c.isBinary = true
      · have hlen : c.text.length = LEN := by
          cases c with
          | binary i => exact binary_text_length i
          | _ => cases hbin
        have hfive : c.count (K : ℕ∞) out.length = LEN := by
          unfold Conversion.count
          rw [if_pos hbin]
        rw [if_neg (emit_binary_ne_zero hbin w s), if_pos hbin,
          if_neg (binary_text_ne_nil hbin), ih htext, hcount, hfive,
          List.length_append, List.length_append, fit_add, BitVec.add_assoc, ← BitVec.ofNat_add]
        congr 2
        omega
      · unfold Conversion.count at hcount
        rw [if_neg hbin] at hcount
        rw [if_neg hbin]
        have hzero : (emit w s c).2 = 0 ↔ c.text = [] ∨ K ≤ out.length := by
          rw [emit_stops_iff hw hs hbin, Nat.cast_le]
        by_cases hstop : c.text = [] ∨ K ≤ out.length
        · have hnone : fit (K : ℕ∞) out.length
              (if c.text = [] then [] else c.text ++ emitted cs).length = 0 := by
            rcases hstop with hnil | hfull
            · rw [if_pos hnil, List.length_nil, fit_zero]
            · exact fit_of_full (Nat.cast_le.mpr hfull)
          rw [if_pos (hzero.mpr hstop), if_pos hstop, hnone]
          exact (BitVec.add_zero wr).symm
        · rw [if_neg (fun hc => hstop (hzero.mp hc)), if_neg hstop,
            if_neg (fun hc => hstop (Or.inl hc)), ih htext, hcount, List.length_append,
            List.length_append, fit_add, BitVec.add_assoc, ← BitVec.ofNat_add, Nat.add_assoc]

/-! ## Runs of `pandos_snprintf` -/

/-- A relation between targets and texts holds at the end of
    `__pandos_printf`. -/
theorem finish_fills {K : ℕ∞} {R : StrTarget → List Byte → Prop} (hw : Writer.Fills strWriter K R)
    (hs : R d out) (cs : List Conversion) (wr : Word) :
    R (finish (emitAll strWriter cs d wr)) (out ++ emitted cs) := by
  have htext := emitAll_text hw hs cs wr
  unfold finish
  split
  · exact (write_end hw htext).1
  · exact htext

/-- The buffer at the end of `__pandos_printf`. -/
theorem finish_buffer (len : Word) (cs : List Conversion) (mem : Word → Byte) :
    let r := finish (emitAll strWriter cs { str := mem, size := len, wrote := 0 } 0)
    r.capacity = (len - 1).toNat ∧ r.Holds mem (emitted cs) := by
  have hfin := finish_fills (strWriter_fills len mem) ⟨rfl, fresh_holds mem len⟩ cs 0
  rw [List.nil_append] at hfin
  exact ⟨capacity_of_size hfin.1, hfin.2⟩

/-- Nothing is stored outside the buffer. -/
theorem finish_frame (hne : len ≠ 0) (cs : List Conversion) (mem : Word → Byte) {o : Word}
    (ho : len ≤ o) :
    (finish (emitAll strWriter cs { str := mem, size := len, wrote := 0 } 0)).str o = mem o := by
  rcases finish_buffer len cs mem with ⟨hcap, hheld⟩
  refine hheld.frame o ?_
  rw [hcap]
  bv_omega

theorem snprintf_eq (L : Layout) (mem : Word → Byte) (len : Word) (fmt : CString) (varg : VaList)
    (hd : dangling fmt.chars = false) :
    pandosSnprintf L mem len fmt varg =
      let r := emitAll strWriter (conversions L fmt.chars varg)
        { str := mem, size := len, wrote := 0 } 0
      some ((finish r).str, r.2.1) := by
  unfold pandosSnprintf finish
  rw [pandosPrintf_eq L strWriter _ fmt varg hd]
  simp only
  split
  · rw [strWriter_nil rfl]
    exact congrArg some (Prod.ext rfl (BitVec.add_zero _))
  · rfl

/-- When a call of `pandos_snprintf` keeps its contract. For a length of zero the
    format is empty. Otherwise some text is emitted and leaves a byte behind its
    terminator, or the text fills the buffer, a terminator is stored behind it,
    and the characters of `%b` that are left out do not change the count. -/
def SafelyCut (L : Layout) (fmt : CString) (varg : VaList) (len : Word) : Prop :=
  if len = 0 then fmt.chars = []
  else (unlimited L fmt varg ≠ [] ∧ (unlimited L fmt varg).length + 1 < len.toNat) ∨
    (len.toNat ≤ (unlimited L fmt varg).length + 1 ∧
      endsInNul (len.toNat - 1) 0 (conversions L fmt.chars varg) = true ∧
      2 ^ 32 ∣ countedOver (len.toNat - 1) 0 (conversions L fmt.chars varg))

theorem truncates_iff (L : Layout) (fmt : CString) (varg : VaList) (len : Word)
    (hd : dangling fmt.chars = false) :
    Truncates L fmt varg len ↔ ∀ mem,
      let r := emitAll strWriter (conversions L fmt.chars varg)
        { str := mem, size := len, wrote := 0 } 0
      (∀ o, len ≤ o → (finish r).str o = mem o) ∧
      (len ≠ 0 → r.2.1.toNat = min (len.toNat - 1) (unlimited L fmt varg).length ∧
        (finish r).str r.2.1 = 0 ∧
        ∀ (o : Word) (h : o.toNat < (unlimited L fmt varg).length), o.toNat < r.2.1.toNat →
          (finish r).str o = (unlimited L fmt varg)[o.toNat]) := by
  refine forall_congr' (fun mem => ?_)
  rw [snprintf_eq L mem len fmt varg hd]
  simp only [Option.some.injEq]
  refine ⟨?_, fun h => ⟨_, _, rfl, h⟩⟩
  rintro ⟨mem', n, hr, h⟩
  rw [Prod.mk.injEq] at hr
  rw [hr.1, hr.2]
  exact h

theorem conversions_eq_nil {L : Layout} {fmt : List Byte} {varg : VaList} :
    conversions L fmt varg = [] ↔ fmt = [] := by
  cases fmt with
  | nil => exact iff_of_true rfl rfl
  | cons c fmt =>
      refine iff_of_false (fun h => ?_) (List.cons_ne_nil _ _)
      by_cases hc : c = chr '%'
      · cases fmt with
        | nil =>
            rw [hc] at h
            cases h
        | cons d fmt =>
            rw [hc] at h
            cases h
      · rw [conversions_literal L hc] at h
        cases h

/-- Every other byte. -/
theorem exists_byte_ne (v : Byte) : ∃ b : Byte, b ≠ v := ⟨v + 1, by bv_omega⟩

/-- A loop that gives up before anything is emitted leaves a NUL behind the first
    byte. -/
theorem finish_nothing (cs : List Conversion) (hne : cs ≠ []) (hempty : emitted cs = [])
    (mem : Word → Byte) (hcap : 0 < (len - 1).toNat) :
    (finish (emitAll strWriter cs { str := mem, size := len, wrote := 0 } 0)).str 1 = 0 := by
  rcases List.exists_cons_of_ne_nil hne with ⟨c, cs, rfl⟩
  have hc : c.text = [] := by
    by_contra hc
    unfold emitted at hempty
    rw [if_neg hc] at hempty
    exact hc (List.append_eq_nil_iff.mp hempty).1
  have hfresh := fresh_holds mem len
  have hstop : (emit strWriter { str := mem, size := len, wrote := 0 } c).2 = 0 :=
    (emit_stops_iff (strWriter_fills len mem) ⟨rfl, hfresh⟩
      (fun hb => binary_text_ne_nil hb hc)).mpr (Or.inl hc)
  rcases (emit_fills (strWriter_fills len mem) ⟨rfl, hfresh⟩ c).1 with ⟨hsize, hheld⟩
  have hwrote := hheld.wrote
  rw [hc, List.append_nil, List.length_nil, Nat.min_zero] at hwrote
  unfold emitAll finish
  rw [if_pos hstop, if_pos rfl, strWriter_nil rfl, hwrote]
  change stored _ _ [(0 : Byte)] 1 = 0
  rw [capacity_of_size hsize, if_neg (by omega)]
  have hlen : 0 < [(0 : Byte)].length := Nat.zero_lt_one
  exact stored_inside (o := (1 : Word)) (p := 0 + 1) (i := 0) rfl hlen

/-- With a length of zero everything but the empty format is stored outside. -/
theorem snprintf_zero_iff (L : Layout) (fmt : CString) (varg : VaList)
    (hd : dangling fmt.chars = false) : Truncates L fmt varg 0 ↔ fmt.chars = [] := by
  have hcap : (0 - 1 : Word).toNat = 2 ^ 32 - 1 := by decide
  rw [truncates_iff L fmt varg 0 hd]
  refine ⟨fun h => ?_, fun h mem => ?_⟩
  · by_contra hne
    have hcs : conversions L fmt.chars varg ≠ [] := fun hc => hne (conversions_eq_nil.mp hc)
    have hall := fun mem o => (h mem).1 o (Nat.zero_le o.toNat)
    by_cases hempty : emitted (conversions L fmt.chars varg) = []
    · have hroom : 0 < (0 - 1 : Word).toNat := by rw [hcap]; decide
      have hnul := finish_nothing _ hcs hempty (fun _ => 1) hroom
      rw [hall (fun _ => 1) 1] at hnul
      exact absurd hnul (by decide)
    · -- The first character is stored.
      have hpos := List.length_pos_iff.mpr hempty
      rcases exists_byte_ne ((emitted (conversions L fmt.chars varg))[0]) with ⟨b, hb⟩
      rcases finish_buffer 0 (conversions L fmt.chars varg) (fun _ => b) with ⟨hfcap, hheld⟩
      have hwrote := hheld.wrote
      rw [hfcap, hcap] at hwrote
      have hfirst := hheld.text 0 hpos (by rw [hwrote]; exact lt_min (by decide) hpos)
      rw [hall (fun _ => b) 0] at hfirst
      exact hb hfirst
  · rw [conversions_eq_nil.mpr h]
    exact ⟨fun _ _ => rfl, fun hne => absurd rfl hne⟩

/-- A buffer that is larger than the text holds it with its terminator, if there
    is some text. -/
theorem snprintf_roomy_iff (L : Layout) (fmt : CString) (varg : VaList)
    (hd : dangling fmt.chars = false) (hroom : (unlimited L fmt varg).length + 1 < len.toNat) :
    Truncates L fmt varg len ↔ unlimited L fmt varg ≠ [] := by
  rw [truncates_iff L fmt varg len hd]
  rw [unlimited_eq L fmt varg hd] at hroom ⊢
  generalize conversions L fmt.chars varg = cs at *
  have hcap : (len - 1).toNat = len.toNat - 1 := by bv_omega
  have hne : len ≠ 0 := fun hc => by
    rw [hc] at hroom
    exact absurd hroom (Nat.not_lt_zero _)
  have hcount : ∀ mem, (emitAll strWriter cs { str := mem, size := len, wrote := 0 } 0).2.1 =
      BitVec.ofNat 32 (emitted cs).length := by
    intro mem
    have hzero : ∀ x : Word, 0 + x = x := BitVec.zero_add
    rw [← hzero (BitVec.ofNat 32 _)]
    refine emitAll_count (strWriter_fills len mem) ⟨rfl, fresh_holds mem len⟩ cs 0 ?_
    rw [hcap, List.length_nil, Nat.cast_le]
    omega
  have hnat : (BitVec.ofNat 32 (emitted cs).length).toNat = (emitted cs).length := by
    rw [BitVec.toNat_ofNat]
    exact Nat.mod_eq_of_lt (by omega)
  refine ⟨fun h hempty => ?_, fun htext mem => ?_⟩
  · -- The first byte keeps what it held.
    rcases exists_byte_ne 0 with ⟨b, hb⟩
    have hfin := finish_fills (strWriter_fills_first len (fun _ => b) (by omega) b)
      ⟨⟨rfl, fresh_holds (fun _ => b) len⟩, fun _ => rfl⟩ cs 0
    have hnul := ((h (fun _ => b)).2 hne).2.1
    rw [hcount, hempty] at hnul
    exact hb ((hfin.2 (by rw [hempty, List.append_nil])).symm.trans hnul)
  · rcases finish_buffer len cs mem with ⟨hfcap, hheld⟩
    have hwrote := hheld.wrote
    rw [hfcap, hcap] at hwrote
    simp only [hcount, hnat]
    refine ⟨fun o ho => finish_frame hne cs mem ho, fun _ => ⟨by omega, ?_, fun o ho ho' => ?_⟩⟩
    · have hnul := hheld.nul htext (by omega)
      have hat : (finish (emitAll strWriter cs { str := mem, size := len, wrote := 0 } 0)).wrote =
          BitVec.ofNat 32 (emitted cs).length := BitVec.eq_of_toNat_eq (by omega)
      rw [hat] at hnul
      exact hnul
    · exact hheld.text o ho (by omega)

/-- A buffer the text fills holds a terminated prefix if a NUL is stored at the
    limit and the count is right. -/
theorem snprintf_full_iff (L : Layout) (fmt : CString) (varg : VaList)
    (hd : dangling fmt.chars = false) (hne : len ≠ 0)
    (hfull : len.toNat ≤ (unlimited L fmt varg).length + 1) :
    Truncates L fmt varg len ↔
      endsInNul (len.toNat - 1) 0 (conversions L fmt.chars varg) = true ∧
        2 ^ 32 ∣ countedOver (len.toNat - 1) 0 (conversions L fmt.chars varg) := by
  rw [truncates_iff L fmt varg len hd]
  rw [unlimited_eq L fmt varg hd] at hfull ⊢
  generalize conversions L fmt.chars varg = cs at *
  have hpos : 0 < len.toNat := by
    refine Nat.pos_of_ne_zero (fun hc => hne (BitVec.eq_of_toNat_eq hc))
  have hcap : (len - 1).toNat = len.toNat - 1 := by bv_omega
  have hlt := len.isLt
  -- The count is the room there is and what is counted besides.
  have hcount : ∀ mem, (emitAll strWriter cs { str := mem, size := len, wrote := 0 } 0).2.1.toNat =
      len.toNat - 1 ↔ 2 ^ 32 ∣ countedOver (len.toNat - 1) 0 cs := by
    intro mem
    have hzero : ∀ x : Word, 0 + x = x := BitVec.zero_add
    have h := emitAll_counted (strWriter_fills len mem) ⟨rfl, fresh_holds mem len⟩ cs 0
    rw [hzero, hcap, List.length_nil, fit_coe, Nat.min_eq_left (by omega), Nat.sub_zero] at h
    rw [h, BitVec.toNat_ofNat]
    omega
  -- The byte behind the prefix.
  have hlimit : ∀ mem, (finish (emitAll strWriter cs { str := mem, size := len, wrote := 0 } 0)).str
      (len - 1) = if endsInNul (len.toNat - 1) 0 cs then 0 else mem (len - 1) := by
    intro mem
    have h := emitAll_limit (d := { str := mem, size := len, wrote := 0 }) cs 0
      (fresh_holds mem len) (by
        rw [capacity_of_size rfl, hcap, List.length_nil]
        omega)
    rw [capacity_of_size rfl, hcap] at h
    exact h
  have hat : ∀ n : Word, n.toNat = len.toNat - 1 → n = len - 1 :=
    fun n hn => BitVec.eq_of_toNat_eq (hn.trans hcap.symm)
  have hmin : min (len.toNat - 1) (emitted cs).length = len.toNat - 1 :=
    Nat.min_eq_left (by omega)
  rw [hmin]
  constructor
  · intro h
    refine ⟨?_, (hcount (fun _ => 0)).mp ((h (fun _ => 0)).2 hne).1⟩
    rcases exists_byte_ne 0 with ⟨b, hb⟩
    have hnul := ((h (fun _ => b)).2 hne).2.1
    rw [hat _ ((h (fun _ => b)).2 hne).1, hlimit] at hnul
    by_contra hoff
    rw [if_neg hoff] at hnul
    exact hb hnul
  · rintro ⟨hends, hover⟩ mem
    rcases finish_buffer len cs mem with ⟨hfcap, hheld⟩
    have hwrote := hheld.wrote
    rw [hfcap, hcap, hmin] at hwrote
    have hn := (hcount mem).mpr hover
    refine ⟨fun o ho => finish_frame hne cs mem ho, fun _ => ⟨hn, ?_, fun o ho ho' => ?_⟩⟩
    · rw [hat _ hn, hlimit, if_pos hends]
    · exact hheld.text o ho (by omega)

/-- `pandos_snprintf` keeps its contract exactly if it cuts safely. -/
theorem snprintf_truncates_iff (L : Layout) (fmt : CString) (varg : VaList) (len : Word)
    (hd : dangling fmt.chars = false) :
    Truncates L fmt varg len ↔ SafelyCut L fmt varg len := by
  unfold SafelyCut
  by_cases hne : len = 0
  · rw [if_pos hne, hne]
    exact snprintf_zero_iff L fmt varg hd
  · rw [if_neg hne]
    by_cases hroom : (unlimited L fmt varg).length + 1 < len.toNat
    · rw [snprintf_roomy_iff L fmt varg hd hroom]
      refine ⟨fun h => Or.inl ⟨h, hroom⟩, fun h => ?_⟩
      rcases h with h | h
      · exact h.1
      · exact absurd h.1 (Nat.not_le_of_lt hroom)
    · rw [snprintf_full_iff L fmt varg hd hne (Nat.le_of_not_lt hroom)]
      refine ⟨fun h => Or.inr ⟨Nat.le_of_not_lt hroom, h⟩, fun h => ?_⟩
      rcases h with h | h
      · exact absurd h.2 hroom
      · exact h.2

end Truncation

/-- A string that fills its buffer is not terminated. -/
theorem snprintf_fills_up : dangling (cstring "1").chars = false ∧
    ¬ Truncates sampleLayout (cstring "1") (sameArgs 0 "") 2 := by
  refine ⟨by decide, fun h => ?_⟩
  rcases h (fun _ => 7) with ⟨mem', n, hr, -, h⟩
  have hbyte : (pandosSnprintf sampleLayout (fun _ => 7) 2 (cstring "1") (sameArgs 0 "")).map
      (fun r => (r.1 r.2, r.2)) = some (7, 1) := by decide +kernel
  rw [hr] at hbyte
  have hseven : mem' n = 7 := (Prod.mk.inj (Option.some.inj hbyte)).1
  exact absurd (hseven.symm.trans (h (by decide)).2.1) (by decide)

theorem snprintf_truncates_sample : Truncates sampleLayout (cstring "1%d%s") (sameArgs 34 "ab") 4 :=
  (snprintf_truncates_iff sampleLayout (cstring "1%d%s") (sameArgs 34 "ab") 4 (by decide)).mpr (by
    unfold SafelyCut
    decide +kernel)

end Pandos
