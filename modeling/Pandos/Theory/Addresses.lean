import Mathlib.Data.Nat.Bitwise
import Mathlib.Tactic.Ring
import Pandos.Support

/-!
# Addresses and Page Table Entries

The arithmetic of the pager. A U-proc has 31 pages from the start of `kuseg` and
one page below the top of its stack; `pageOf` says which of them an address lies
in. The two range checks of the pager let exactly these pages pass, for the
EntryHi registers of exceptions as well as for the ones in page tables.

The field of an EntryHi register that holds the ASID has six bits, so there have
to be fewer than 64 U-procs.

## Main definitions

* `pageOf`: The page of a U-proc an address lies in.
* `tableHi`: The first word of a page table entry.
* `resident`: The second word of the entry of a page that is in a frame.

## Theorems

* `entryhiToIndex_entryHiOf`: The pager translates addresses by `pageOf`.
* `entryhiToIndex_tableHi`: It translates its own entries to their index.
* `resident_bits`: The bits of the entry of a page that is in a frame.
* `answers_iff`: An entry of the TLB answers for the accesses to its page.
-/

namespace Pandos

section Addresses

variable {n : Nat}

open SupportLevel

/-- The page of a U-proc an address lies in. -/
def pageOf (addr : Word) : Option Nat :=
  if addr.toNat / 4096 = 0xBFFFF then some 31
  else if 0x80000 ≤ addr.toNat / 4096 ∧ addr.toNat / 4096 < 0x80000 + 31 then
    some (addr.toNat / 4096 - 0x80000)
  else none

/-- The first word of a page table entry, as `init_page_table` writes it. -/
def tableHi (i : Fin n) (index : Nat) : Word :=
  if index < MAXPAGES - 1 then
    KUSEG + (BitVec.ofNat 32 index <<< VPNSHIFT) + (asidWord i <<< ASIDSHIFT)
  else KUSEG + GETPAGENO + (asidWord i <<< ASIDSHIFT)

/-- The second word of the entry of a page that is in a frame, as
    `update_page_table` writes it. -/
def resident (frameAddr : Word) : Word := frameAddr ||| VALIDON ||| DIRTYON

theorem initPageTable_hi (i : Fin n) (data : Page) (index : Nat) :
    (initPageTable i data index).pteEntryHi = tableHi i index := by
  rw [initPageTable, tableHi]
  split
  · rfl
  · rfl

/-! ## Numbers -/

theorem asidWord_toNat (hn : n < 64) (i : Fin n) : (asidWord i).toNat = i.val + 1 := by
  have hi := i.isLt
  rw [asidWord, BitVec.toNat_ofNat]
  omega

theorem asidShift_toNat (hn : n < 64) (i : Fin n) :
    (asidWord i <<< ASIDSHIFT).toNat = (i.val + 1) * 64 := by
  have hi := i.isLt
  rw [BitVec.toNat_shiftLeft, asidWord_toNat hn, ASIDSHIFT, Nat.shiftLeft_eq]
  omega

/-- The page number of the pages of a U-proc. -/
def vpnOf (index : Nat) : Nat := if index < 31 then 0x80000 + index else 0xBFFFF

theorem tableHi_toNat (hn : n < 64) (i : Fin n) (index : Nat) :
    (tableHi i index).toNat = vpnOf index * 4096 + (i.val + 1) * 64 := by
  have hi := i.isLt
  have hm : MAXPAGES - 1 = 31 := rfl
  unfold tableHi vpnOf
  rw [hm]
  by_cases hx : index < 31
  · have hs : (BitVec.ofNat 32 index <<< VPNSHIFT).toNat = index * 4096 := by
      rw [BitVec.toNat_shiftLeft, BitVec.toNat_ofNat, VPNSHIFT, Nat.shiftLeft_eq]
      omega
    rw [if_pos hx, if_pos hx, BitVec.toNat_add, BitVec.toNat_add, hs, asidShift_toNat hn,
      show KUSEG.toNat = 0x80000000 from rfl]
    omega
  · rw [if_neg hx, if_neg hx, BitVec.toNat_add, asidShift_toNat hn,
      show (KUSEG + GETPAGENO).toNat = 0xBFFFF000 from rfl]
    omega

theorem entryHiOf_toNat (hn : n < 64) (i : Fin n) (addr : Word) :
    (entryHiOf i addr).toNat = addr.toNat / 4096 * 4096 + (i.val + 1) * 64 := by
  have hi := i.isLt
  have ha := addr.isLt
  have hpage : ((addr >>> VPNSHIFT) <<< VPNSHIFT).toNat = 2 ^ 12 * (addr.toNat / 4096) := by
    rw [BitVec.toNat_shiftLeft, BitVec.toNat_ushiftRight, VPNSHIFT, Nat.shiftLeft_eq,
      Nat.shiftRight_eq_div_pow]
    omega
  rw [entryHiOf, BitVec.toNat_or, hpage, asidShift_toNat hn,
    ← Nat.two_pow_add_eq_or_of_lt (by omega)]
  omega

theorem vpn_toNat (hi : Word) : (hi >>> VPNSHIFT).toNat = hi.toNat / 4096 := by
  rw [BitVec.toNat_ushiftRight, VPNSHIFT, Nat.shiftRight_eq_div_pow]

theorem entryhiAsid_toNat (hi : Word) : (ENTRYHI_ASID hi).toNat = hi.toNat / 64 % 64 := by
  rw [ENTRYHI_ASID, BitVec.toNat_and, BitVec.toNat_ushiftRight, ASIDSHIFT,
    Nat.shiftRight_eq_div_pow]
  exact Nat.and_two_pow_sub_one_eq_mod _ 6

/-! ## The range checks -/

/-- The two checks of the pager on a page number. -/
theorem entryhiToVpn_eq (hi : Word) : entryhiToVpn hi =
    if hi.toNat / 4096 < 0x80000 then .error "pager: entryhi_to_vpn: entryhi = %p < %p = KUSEG\n"
    else if 0x8001F ≤ hi.toNat / 4096 ∧ hi.toNat / 4096 ≠ 0xBFFFF then
      .error "pager: entryhi_to_vpn: %p?\n"
    else .ok (hi >>> VPNSHIFT) := by
  have hlt : hi < KUSEG ↔ hi.toNat / 4096 < 0x80000 := by
    rw [BitVec.lt_def, show KUSEG.toNat = 0x80000000 from rfl]
    omega
  have hge : hi ≥ KUSEG + BitVec.ofNat 32 (MAXPAGES - 1) * PAGESIZE ↔
      0x8001F ≤ hi.toNat / 4096 := by
    rw [ge_iff_le, BitVec.le_def,
      show (KUSEG + BitVec.ofNat 32 (MAXPAGES - 1) * PAGESIZE).toNat = 0x8001F000 from rfl]
    omega
  have hne : hi >>> VPNSHIFT ≠ (KUSEG + GETPAGENO) >>> VPNSHIFT ↔ hi.toNat / 4096 ≠ 0xBFFFF := by
    rw [ne_eq, ne_eq, ← BitVec.toNat_inj, vpn_toNat,
      show ((KUSEG + GETPAGENO) >>> VPNSHIFT).toNat = 0xBFFFF from rfl]
  unfold entryhiToVpn
  simp only [hlt, hge, hne]

theorem vpnToIndex_eq (vpn : Word) : vpnToIndex vpn =
    if vpn.toNat < 0x80000 then
      .error "pager: vpn_to_index: vpn = %p < %p = KUSEG >> VPNSHIFT\n"
    else if vpn.toNat = 0xBFFFF then .ok 31
    else if 0x80020 ≤ vpn.toNat then .error "pager: vpn_to_index: invalid vpn %p\n"
    else .ok (vpn.toNat - 0x80000) := by
  have hlt : vpn < KUSEG >>> VPNSHIFT ↔ vpn.toNat < 0x80000 := by
    rw [BitVec.lt_def, show (KUSEG >>> VPNSHIFT).toNat = 0x80000 from rfl]
  have heq : vpn = (KUSEG + GETPAGENO) >>> VPNSHIFT ↔ vpn.toNat = 0xBFFFF := by
    rw [← BitVec.toNat_inj, show ((KUSEG + GETPAGENO) >>> VPNSHIFT).toNat = 0xBFFFF from rfl]
  have hge : vpn ≥ (KUSEG >>> VPNSHIFT) + BitVec.ofNat 32 MAXPAGES ↔ 0x80020 ≤ vpn.toNat := by
    rw [ge_iff_le, BitVec.le_def,
      show ((KUSEG >>> VPNSHIFT) + BitVec.ofNat 32 MAXPAGES).toNat = 0x80020 from rfl]
  unfold vpnToIndex
  simp only [hlt, heq, hge]
  by_cases h : vpn.toNat < 0x80000
  · rw [if_pos h, if_pos h]
  · rw [if_neg h, if_neg h]
    have hsub : (vpn - KUSEG >>> VPNSHIFT).toNat = vpn.toNat - 0x80000 := by
      rw [BitVec.toNat_sub, show (KUSEG >>> VPNSHIFT).toNat = 0x80000 from rfl]
      have hv := vpn.isLt
      omega
    rw [hsub]
    rfl

/-- The pager translates an EntryHi register to the page its page number stands
    for, and stops the machine for any other page number. -/
theorem entryhiToIndex_eq (hi : Word) :
    (entryhiToIndex hi).toOption = pageOf hi := by
  unfold entryhiToIndex pageOf
  rw [entryhiToVpn_eq]
  by_cases h₁ : hi.toNat / 4096 < 0x80000
  · rw [if_pos h₁, if_neg (by omega), if_neg (by omega)]
    rfl
  · rw [if_neg h₁]
    by_cases h₂ : hi.toNat / 4096 = 0xBFFFF
    · rw [if_neg (by omega), if_pos h₂]
      simp only [Except.bind, vpnToIndex_eq, vpn_toNat]
      rw [if_neg h₁, if_pos h₂]
      rfl
    · by_cases h₃ : 0x8001F ≤ hi.toNat / 4096
      · rw [if_pos ⟨h₃, h₂⟩, if_neg h₂, if_neg (by omega)]
        rfl
      · rw [if_neg (by omega), if_neg h₂, if_pos (by omega)]
        simp only [Except.bind, vpnToIndex_eq, vpn_toNat]
        rw [if_neg h₁, if_neg h₂, if_neg (by omega)]
        rfl

/-- Only the page number counts. -/
theorem pageOf_congr {a b : Word} (h : a.toNat / 4096 = b.toNat / 4096) : pageOf a = pageOf b := by
  unfold pageOf
  rw [h]

theorem entryhiToIndex_entryHiOf (hn : n < 64) (i : Fin n) (addr : Word) :
    (entryhiToIndex (entryHiOf i addr)).toOption = pageOf addr := by
  rw [entryhiToIndex_eq]
  refine pageOf_congr ?_
  have hi := i.isLt
  rw [entryHiOf_toNat hn]
  omega

theorem pageOf_tableHi (hn : n < 64) (i : Fin n) {index : Nat} (hx : index ≤ 31) :
    pageOf (tableHi i index) = some index := by
  have hi := i.isLt
  have hvpn : (tableHi i index).toNat / 4096 = vpnOf index := by
    rw [tableHi_toNat hn]
    omega
  unfold pageOf
  rw [hvpn, vpnOf]
  by_cases h : index < 31
  · rw [if_pos h, if_neg (by omega), if_pos (by omega), Nat.add_sub_cancel_left]
  · rw [if_neg h, if_pos rfl, show index = 31 by omega]

theorem toOption_eq_some {α : Type} {x : Except String α} {a : α} :
    x.toOption = some a ↔ x = .ok a := by
  cases x with
  | error msg => simp only [Except.toOption, reduceCtorEq]
  | ok b => simp only [Except.toOption, Option.some.injEq, Except.ok.injEq]

theorem entryhiToIndex_tableHi (hn : n < 64) (i : Fin n) {index : Nat} (hx : index ≤ 31) :
    entryhiToIndex (tableHi i index) = .ok index := by
  rw [← toOption_eq_some, entryhiToIndex_eq, pageOf_tableHi hn i hx]

theorem pageOf_le {addr : Word} {index : Nat} (h : pageOf addr = some index) : index ≤ 31 := by
  unfold pageOf at h
  split at h
  · rw [Option.some.injEq] at h
    omega
  · split at h
    · rw [Option.some.injEq] at h
      omega
    · cases h

theorem vpn_of_pageOf {addr : Word} {index : Nat} (h : pageOf addr = some index) :
    addr.toNat / 4096 = vpnOf index := by
  unfold pageOf at h
  unfold vpnOf
  split at h
  · rw [Option.some.injEq] at h
    rw [if_neg (by omega)]
    assumption
  · split at h
    · rw [Option.some.injEq] at h
      rw [if_pos (by omega)]
      omega
    · cases h

theorem vpnOf_inj {a b : Nat} (ha : a ≤ 31) (hb : b ≤ 31) (h : vpnOf a = vpnOf b) : a = b := by
  unfold vpnOf at h
  split at h <;> split at h <;> omega

/-- Different pages, or pages of different U-procs, have different entries. -/
theorem tableHi_inj (hn : n < 64) {i j : Fin n} {a b : Nat} (ha : a ≤ 31) (hb : b ≤ 31)
    (h : tableHi i a = tableHi j b) : i = j ∧ a = b := by
  have hi := i.isLt
  have hj := j.isLt
  have ht := congrArg BitVec.toNat h
  rw [tableHi_toNat hn, tableHi_toNat hn] at ht
  have hv : vpnOf a = vpnOf b := by omega
  exact ⟨Fin.ext (by omega), vpnOf_inj ha hb hv⟩

/-! ## The second word of an entry -/

/-- One bit of a word. -/
theorem and_bit_eq_zero (w : Word) (k : Nat) (hk : k < 32) :
    w &&& BitVec.ofNat 32 (2 ^ k) = 0 ↔ w.toNat / 2 ^ k % 2 = 0 := by
  have hlt : (2 : Nat) ^ k < 2 ^ 32 := Nat.pow_lt_pow_right (by omega) hk
  have hpos : (0 : Nat) < 2 ^ k := Nat.pow_pos (by omega)
  rw [← BitVec.toNat_inj, BitVec.toNat_and, BitVec.toNat_ofNat, Nat.mod_eq_of_lt hlt,
    Nat.and_two_pow, Nat.testBit_eq_decide_div_mod_eq]
  by_cases h : w.toNat / 2 ^ k % 2 = 1
  · rw [decide_eq_true h]
    refine iff_of_false (fun hc => ?_) (by omega)
    simp only [Bool.toNat_true, Nat.one_mul] at hc
    exact absurd hc (Nat.pos_iff_ne_zero.mp hpos)
  · rw [decide_eq_false h]
    refine iff_of_true ?_ (by omega)
    simp only [Bool.toNat_false, Nat.zero_mul]
    rfl

theorem and_valid (w : Word) : w &&& VALIDON = 0 ↔ w.toNat / 512 % 2 = 0 :=
  and_bit_eq_zero w 9 (by omega)

theorem and_dirty (w : Word) : w &&& DIRTYON = 0 ↔ w.toNat / 1024 % 2 = 0 :=
  and_bit_eq_zero w 10 (by omega)

theorem and_global (w : Word) : w &&& GLOBALON = 0 ↔ w.toNat / 256 % 2 = 0 :=
  and_bit_eq_zero w 8 (by omega)

theorem resident_toNat {a : Word} (ha : a.toNat % 4096 = 0) :
    (resident a).toNat = a.toNat + 0x600 := by
  have hq : a.toNat = 2 ^ 12 * (a.toNat / 4096) := by omega
  have hor : VALIDON ||| DIRTYON = (0x600 : Word) := rfl
  rw [resident, BitVec.or_assoc, hor, BitVec.toNat_or, hq,
    show (0x600 : Word).toNat = 0x600 from rfl, ← Nat.two_pow_add_eq_or_of_lt (by omega)]

/-- A resident page can be read and written, by one U-proc only. -/
theorem resident_bits {a : Word} (ha : a.toNat % 4096 = 0) :
    resident a &&& VALIDON ≠ 0 ∧ resident a &&& DIRTYON ≠ 0 ∧ resident a &&& GLOBALON = 0 := by
  have ht := resident_toNat ha
  rw [ne_eq, and_valid, ne_eq, and_dirty, and_global, ht]
  omega

/-- A resident page is in the frame its entry was written for. -/
theorem frame_resident {a : Word} (ha : a.toNat % 4096 = 0) (hi : Word) :
    PteEntry.frame { pteEntryHi := hi, pteEntryLo := resident a } = a := by
  have hlt := a.isLt
  rw [PteEntry.frame, ← BitVec.toNat_inj, BitVec.toNat_shiftLeft, BitVec.toNat_ushiftRight,
    resident_toNat ha, VPNSHIFT, Nat.shiftLeft_eq, Nat.shiftRight_eq_div_pow]
  omega

theorem resident_inj {a b : Word} (ha : a.toNat % 4096 = 0) (hb : b.toNat % 4096 = 0)
    (h : resident a = resident b) : a = b := by
  have ht := congrArg BitVec.toNat h
  rw [resident_toNat ha, resident_toNat hb] at ht
  exact BitVec.eq_of_toNat_eq (by omega)

/-! ## The TLB -/

/-- An entry that is not global answers for the accesses of its U-proc to its
    page, and for no others. -/
theorem answers_iff (hn : n < 64) {e : PteEntry} {i j : Fin n} {index : Nat} {addr : Word}
    (hhi : e.pteEntryHi = tableHi i index) (hlo : e.pteEntryLo &&& GLOBALON = 0) :
    e.answers (entryHiOf j addr) = true ↔ i = j ∧ addr.toNat / 4096 = vpnOf index := by
  have hi := i.isLt
  have hj := j.isLt
  have hvpn : e.pteEntryHi >>> VPNSHIFT = entryHiOf j addr >>> VPNSHIFT ↔
      addr.toNat / 4096 = vpnOf index := by
    rw [← BitVec.toNat_inj, vpn_toNat, vpn_toNat, hhi, tableHi_toNat hn, entryHiOf_toNat hn]
    omega
  have hasid : ENTRYHI_ASID e.pteEntryHi = ENTRYHI_ASID (entryHiOf j addr) ↔ i = j := by
    rw [← BitVec.toNat_inj, entryhiAsid_toNat, entryhiAsid_toNat, hhi, tableHi_toNat hn,
      entryHiOf_toNat hn, ← Fin.val_inj]
    omega
  rw [PteEntry.answers, Bool.and_eq_true, Bool.or_eq_true, beq_iff_eq, beq_iff_eq, bne_iff_ne,
    hvpn, hasid, hlo]
  exact ⟨fun h => ⟨h.2.resolve_left (fun hc => hc rfl), h.1⟩, fun h => ⟨h.2, Or.inr h.1⟩⟩

/-- The same for the registers of another entry. -/
theorem answers_tableHi (hn : n < 64) {e : PteEntry} {i j : Fin n} {a b : Nat} (ha : a ≤ 31)
    (hb : b ≤ 31) (hhi : e.pteEntryHi = tableHi i a) (hlo : e.pteEntryLo &&& GLOBALON = 0) :
    e.answers (tableHi j b) = true ↔ i = j ∧ a = b := by
  have hi := i.isLt
  have hj := j.isLt
  have hvpn : e.pteEntryHi >>> VPNSHIFT = tableHi j b >>> VPNSHIFT ↔ a = b := by
    rw [← BitVec.toNat_inj, vpn_toNat, vpn_toNat, hhi, tableHi_toNat hn, tableHi_toNat hn]
    constructor
    · exact fun h => vpnOf_inj ha hb (by omega)
    · rintro rfl
      omega
  have hasid : ENTRYHI_ASID e.pteEntryHi = ENTRYHI_ASID (tableHi j b) ↔ i = j := by
    rw [← BitVec.toNat_inj, entryhiAsid_toNat, entryhiAsid_toNat, hhi, tableHi_toNat hn,
      tableHi_toNat hn, ← Fin.val_inj]
    omega
  rw [PteEntry.answers, Bool.and_eq_true, Bool.or_eq_true, beq_iff_eq, beq_iff_eq, bne_iff_ne,
    hvpn, hasid, hlo]
  exact ⟨fun h => ⟨h.2.resolve_left (fun hc => hc rfl), h.1⟩, fun h => ⟨h.2, Or.inr h.1⟩⟩

/-- Every entry that answers has the page number of the access. -/
theorem vpn_of_answers (hn : n < 64) {e : PteEntry} {i : Fin n} {addr : Word}
    (h : e.answers (entryHiOf i addr) = true) :
    e.pteEntryHi.toNat / 4096 = addr.toNat / 4096 := by
  have hi := i.isLt
  rw [PteEntry.answers, Bool.and_eq_true, beq_iff_eq, ← BitVec.toNat_inj, vpn_toNat, vpn_toNat,
    entryHiOf_toNat hn] at h
  omega

end Addresses

end Pandos
