import Pandos.Theory.PageTables

/-!
# The TLB as a Cache of Page Tables

Which entries of the TLB answer for which pages, given what the pager writes
into page tables: nothing, the bit `DIRTYON`, or the address of a frame with the
bits of a resident page. No such entry is global, so an entry answers for one
page of one U-proc, and as long as no page has two entries the instructions that
write the TLB change the entry of one page.

## Main definitions

* `pageWord`: The second words the pager writes.

## Theorems

* `pageAddr_inj`: Frames have different addresses.
* `answers_iff_hi`: An entry answers for its own page.
* `updateTlb_eq`: What `update_tlb` does if no page has two entries.
* `lookup_none`: A page that misses in the TLB has no entry.
-/

namespace Pandos

section TlbEntries

variable {n : Nat}

open SupportLevel

/-- The frames of the swap pool start where pages start. -/
def Platform.Aligned (S : Platform n) : Prop := S.swapPoolAddr.toNat % 4096 = 0

instance (S : Platform n) : Decidable S.Aligned := inferInstanceAs (Decidable (_ = _))

/-- The second words of page table entries the pager writes. -/
def pageWord (S : Platform n) (_ : Fin n) (_ : Nat) (lo : Word) : Prop :=
  lo = 0 ∨ lo = DIRTYON ∨ ∃ f, f < POOLSIZE n ∧ lo = resident (pageAddr S.swapPoolAddr f)

variable {S : Platform n} {s : SupportLevel n} {i : Fin n}

/-! ## Frames -/

theorem pageAddr_toNat (a : Word) {f : Nat} (hf : f < 2 ^ 20) :
    (pageAddr a f).toNat = (a.toNat + f * 4096) % 2 ^ 32 := by
  -- There are few frames, so their offsets do not wrap around.
  have hmul : (BitVec.ofNat 32 f * PAGESIZE).toNat = f * 4096 := by
    rw [BitVec.toNat_mul, BitVec.toNat_ofNat, show PAGESIZE.toNat = 4096 from rfl]
    omega
  rw [pageAddr, BitVec.toNat_add, hmul]

theorem frame_lt (hn : n < 64) {f : Nat} (hf : f < POOLSIZE n) : f < 2 ^ 20 := by
  rw [POOLSIZE] at hf
  omega

theorem pageAddr_aligned (hn : n < 64) (ha : S.Aligned) {f : Nat} (hf : f < POOLSIZE n) :
    (pageAddr S.swapPoolAddr f).toNat % 4096 = 0 := by
  rw [pageAddr_toNat _ (frame_lt hn hf)]
  rw [Platform.Aligned] at ha
  omega

/-- Different frames have different addresses. -/
theorem pageAddr_inj (hn : n < 64) {f g : Nat} (hf : f < POOLSIZE n) (hg : g < POOLSIZE n)
    (h : pageAddr S.swapPoolAddr f = pageAddr S.swapPoolAddr g) : f = g := by
  have ht := congrArg BitVec.toNat h
  rw [pageAddr_toNat _ (frame_lt hn hf), pageAddr_toNat _ (frame_lt hn hg)] at ht
  have hlf := frame_lt hn hf
  have hlg := frame_lt hn hg
  omega

theorem resident_pageAddr_inj (hn : n < 64) (ha : S.Aligned) {f g : Nat} (hf : f < POOLSIZE n)
    (hg : g < POOLSIZE n)
    (h : resident (pageAddr S.swapPoolAddr f) = resident (pageAddr S.swapPoolAddr g)) : f = g :=
  pageAddr_inj hn hf hg
    (resident_inj (pageAddr_aligned hn ha hf) (pageAddr_aligned hn ha hg) h)

/-- The entry of a resident page leads to its frame. -/
theorem frame_of_resident (hn : n < 64) (hal : S.Aligned) {e : PteEntry} {f : Nat}
    (hf : f < POOLSIZE n) (h : e.pteEntryLo = resident (pageAddr S.swapPoolAddr f)) :
    PteEntry.frame e = pageAddr S.swapPoolAddr f := by
  have he : e =
      { pteEntryHi := e.pteEntryHi, pteEntryLo := resident (pageAddr S.swapPoolAddr f) } :=
    h ▸ rfl
  rw [he]
  exact frame_resident (pageAddr_aligned hn hal hf) _

/-! ## The words the pager writes -/

theorem pageWord_global (hn : n < 64) (ha : S.Aligned) {j : Nat} {lo : Word}
    (h : pageWord S i j lo) : lo &&& GLOBALON = 0 := by
  rcases h with rfl | rfl | ⟨f, hf, rfl⟩
  · exact BitVec.zero_and
  · rfl
  · exact (resident_bits (pageAddr_aligned hn ha hf)).2.2

/-- A valid entry holds the address of a frame, and can be written. -/
theorem pageWord_valid (hn : n < 64) (ha : S.Aligned) {j : Nat} {lo : Word}
    (h : pageWord S i j lo) (hv : lo &&& VALIDON ≠ 0) :
    lo &&& DIRTYON ≠ 0 ∧ ∃ f, f < POOLSIZE n ∧ lo = resident (pageAddr S.swapPoolAddr f) := by
  -- Only the word of a loaded page has the bit.
  rcases h with rfl | rfl | ⟨f, hf, rfl⟩
  · exact absurd BitVec.zero_and hv
  · exact absurd rfl hv
  · exact ⟨(resident_bits (pageAddr_aligned hn ha hf)).2.1, f, hf, rfl⟩

theorem initPageTable_invalid (data : Page) (j : Nat) :
    (initPageTable i data j).pteEntryLo = 0 ∨ (initPageTable i data j).pteEntryLo = DIRTYON := by
  simp only [initPageTable]
  split
  · split
    · exact Or.inl rfl
    · exact Or.inr rfl
  · exact Or.inr rfl

theorem admits_pageWord : Admits S (pageWord S) := by
  refine ⟨fun i j _ => ?_, fun i j => Or.inl rfl⟩
  rcases initPageTable_invalid (i := i) (S.blocks i 0) j with h | h
  · exact Or.inl h
  · exact Or.inr (Or.inl h)

/-! ## Which entries answer -/

theorem tableHi_ne_zero (hn : n < 64) (i : Fin n) (j : Nat) : tableHi i j ≠ 0 := by
  intro hc
  have ht := congrArg BitVec.toNat hc
  rw [tableHi_toNat hn] at ht
  have hzero : (0 : Word).toNat = 0 := rfl
  omega

theorem vpnOf_pos (j : Nat) : 0 < vpnOf j := by
  unfold vpnOf
  split
  · omega
  · omega

theorem cached_of_hi (hn : n < 64) {e : PteEntry} (h : Cached (pageWord S) e) {j : Nat}
    (hj : j ≤ 31) (hhi : e.pteEntryHi = tableHi i j) : pageWord S i j e.pteEntryLo := by
  rcases h with rfl | ⟨a, b, hb, hab, hlo⟩
  · exact absurd hhi.symm (tableHi_ne_zero hn i j)
  · rcases tableHi_inj hn hb hj (hab.symm.trans hhi) with ⟨rfl, rfl⟩
    exact hlo

/-- An entry answers for the registers of a page if it is the one of this page. -/
theorem answers_iff_hi (hn : n < 64) (ha : S.Aligned) {e : PteEntry} (h : Cached (pageWord S) e)
    {j : Nat} (hj : j ≤ 31) : e.answers (tableHi i j) = true ↔ e.pteEntryHi = tableHi i j := by
  rcases h with rfl | ⟨a, b, hb, hab, hlo⟩
  · -- An entry that was never written has the page number zero.
    refine iff_of_false (fun hc => ?_) (fun hc => tableHi_ne_zero hn i j hc.symm)
    rw [PteEntry.answers, Bool.and_eq_true, beq_iff_eq] at hc
    have ht := congrArg BitVec.toNat hc.1
    rw [vpn_toNat, vpn_toNat, tableHi_toNat hn, show (0 : Word).toNat = 0 from rfl] at ht
    have hpos := vpnOf_pos j
    omega
  · rw [answers_tableHi hn hb hj hab (pageWord_global hn ha hlo), hab]
    exact ⟨fun hc => by rw [hc.1, hc.2], fun hc => tableHi_inj hn hb hj hc⟩

/-- An entry answers for an access if it is the one of the page. -/
theorem answers_iff_page (hn : n < 64) (ha : S.Aligned) {e : PteEntry} (h : Cached (pageWord S) e)
    {addr : Word} {j : Nat} (hj : pageOf addr = some j) :
    e.answers (entryHiOf i addr) = true ↔ e.pteEntryHi = tableHi i j := by
  have hvpn := vpn_of_pageOf hj
  rcases h with rfl | ⟨a, b, hb, hab, hlo⟩
  · -- An entry that was never written has the page number zero.
    refine iff_of_false (fun hc => ?_) (fun hc => tableHi_ne_zero hn i j hc.symm)
    have ht := vpn_of_answers hn hc
    rw [show (0 : Word).toNat = 0 from rfl, hvpn] at ht
    have hpos := vpnOf_pos j
    omega
  · rw [answers_iff hn hab (pageWord_global hn ha hlo), hvpn, hab]
    constructor
    · intro hc
      rw [hc.1, vpnOf_inj hb (pageOf_le hj) hc.2.symm]
    · intro hc
      rcases tableHi_inj hn hb (pageOf_le hj) hc with ⟨rfl, rfl⟩
      exact ⟨rfl, rfl⟩

/-! ## The instructions -/

/-- No page has two entries. -/
def Once (S : Platform n) (tlb : Tlb) : Prop :=
  ∀ slot slot' (i : Fin n) j, slot < S.tlbSize → slot' < S.tlbSize → j ≤ 31 →
    (tlb slot).pteEntryHi = tableHi i j → (tlb slot').pteEntryHi = tableHi i j → slot = slot'

/-- `update_tlb` replaces the entry of a page, if there is one. -/
theorem updateTlb_eq (hn : n < 64) (ha : S.Aligned) {tlb : Tlb}
    (hcached : ∀ slot, Cached (pageWord S) (tlb slot)) (honce : Once S tlb) {pte : PteEntry}
    {j : Nat} (hj : j ≤ 31) (hhi : pte.pteEntryHi = tableHi i j) {slot : Nat}
    (hs : slot < S.tlbSize) :
    updateTlb S.tlbSize tlb pte slot =
      if (tlb slot).pteEntryHi = tableHi i j then pte else tlb slot := by
  unfold updateTlb checkInTlb tlbp
  rw [hhi]
  cases hfind : (List.range S.tlbSize).find? (fun k => (tlb k).answers (tableHi i j)) with
  | none =>
      rw [List.find?_eq_none] at hfind
      -- No slot answers, so no slot has the page.
      have hno := hfind slot (List.mem_range.mpr hs)
      rw [answers_iff_hi hn ha (hcached slot) hj] at hno
      rw [if_neg hno]
  | some index =>
      have hlt := List.mem_range.mp (List.mem_of_find?_eq_some hfind)
      have hans := List.find?_some hfind
      rw [answers_iff_hi hn ha (hcached index) hj] at hans
      by_cases hsi : slot = index
      · simp only [hsi, Function.update_self, if_pos hans]
      · -- The slot found is the only one with the page.
        rw [if_neg (fun hc => hsi (honce slot index i j hs hlt hj hc hans))]
        exact Function.update_of_ne hsi _ _

/-- Writing an entry changes the page of no slot. -/
theorem updateTlb_hi (hn : n < 64) (ha : S.Aligned) {tlb : Tlb}
    (hcached : ∀ slot, Cached (pageWord S) (tlb slot)) (honce : Once S tlb) {pte : PteEntry}
    {j : Nat} (hj : j ≤ 31) (hhi : pte.pteEntryHi = tableHi i j) {slot : Nat}
    (hs : slot < S.tlbSize) :
    (updateTlb S.tlbSize tlb pte slot).pteEntryHi = (tlb slot).pteEntryHi := by
  rw [updateTlb_eq hn ha hcached honce hj hhi hs]
  split
  · rename_i h
    rw [hhi, h]
  · rfl

/-- A page that misses in the TLB has no entry there. -/
theorem lookup_none (hn : n < 64) (ha : S.Aligned)
    (hcached : ∀ slot, Cached (pageWord S) (s.tlb slot)) {addr : Word} {j : Nat}
    (hj : pageOf addr = some j) (hl : s.lookup S i addr = none) {slot : Nat}
    (hs : slot < S.tlbSize) : (s.tlb slot).pteEntryHi ≠ tableHi i j := by
  unfold lookup tlbp at hl
  rw [Option.map_eq_none_iff, List.find?_eq_none] at hl
  have hno := hl slot (List.mem_range.mpr hs)
  rw [answers_iff_page hn ha (hcached slot) hj] at hno
  exact hno

/-- An entry the TLB finds is the one of the page. -/
theorem lookup_some (hn : n < 64) (ha : S.Aligned)
    (hcached : ∀ slot, Cached (pageWord S) (s.tlb slot)) {addr : Word} {j : Nat} {e : PteEntry}
    (hj : pageOf addr = some j) (hl : s.lookup S i addr = some e) :
    ∃ slot, slot < S.tlbSize ∧ s.tlb slot = e ∧ e.pteEntryHi = tableHi i j := by
  rcases found_slot hl with ⟨slot, hs, rfl, hans⟩
  rw [answers_iff_page hn ha (hcached slot) hj] at hans
  exact ⟨slot, hs, rfl, hans⟩

end TlbEntries

end Pandos
