import Pandos.Theory.PageTables

/-!
# The Layout of Page Tables

`init_page_table` lays a page table out, and `entryhi_to_vpn` and `vpn_to_index`
find entries in it, each with bounds of its own. `vpn_to_index` lets the page
behind the program pass, and takes it for the stack; `entryhi_to_vpn` stops that
page before. Together they find the entry of each page and of no other one.

The first word of an entry never changes, so an entry is found by its own first
word in every run. `support_tlb` finds the entry of its victim that way.

## Main definitions

* `LaidOut`: The translation of addresses agrees with a page table.

## Theorems

* `laidOut_of_tableHi`: It does so if the first words are right.
* `page_table_layout`: Every page table is laid out, in every run.
-/

namespace Pandos

section PageLayout

variable {n : Nat} {i : Fin n}

open SupportLevel

/-- An address is translated if and only if its page has an entry, and then to
    the index of that entry. -/
structure LaidOut (pageTable : PageTable) : Prop where
  /-- The entry that is found has the page number of the address. -/
  found : ∀ (x : Word) (index : Nat), entryhiToIndex x = .ok index →
    index < MAXPAGES ∧ (pageTable index).pteEntryHi >>> VPNSHIFT = x >>> VPNSHIFT
  /-- Different page numbers lead to different entries. -/
  distinct : ∀ (x y : Word) (index : Nat), entryhiToIndex x = .ok index →
    entryhiToIndex y = .ok index → x >>> VPNSHIFT = y >>> VPNSHIFT
  /-- The page number of an entry is accepted. -/
  accepted : ∀ (x : Word) (index : Nat), index < MAXPAGES →
    x >>> VPNSHIFT = (pageTable index).pteEntryHi >>> VPNSHIFT → entryhiToIndex x = .ok index
  /-- An entry is found by its own first word. -/
  own : ∀ index : Nat, index < MAXPAGES → entryhiToIndex (pageTable index).pteEntryHi = .ok index

theorem vpn_eq_iff {x y : Word} : x >>> VPNSHIFT = y >>> VPNSHIFT ↔
    x.toNat / 4096 = y.toNat / 4096 := by
  rw [← BitVec.toNat_inj, vpn_toNat, vpn_toNat]

/-- The translation of an address by the page it lies in. -/
theorem entryhiToIndex_ok_iff {x : Word} {index : Nat} :
    entryhiToIndex x = .ok index ↔ pageOf x = some index := by
  rw [← toOption_eq_some, entryhiToIndex_eq]

theorem laidOut_of_tableHi (hn : n < 64) {pageTable : PageTable}
    (h : ∀ j, j ≤ 31 → (pageTable j).pteEntryHi = tableHi i j) : LaidOut pageTable := by
  have hi := i.isLt
  have hpages : MAXPAGES = 32 := rfl
  have hvpn : ∀ j, j ≤ 31 → (pageTable j).pteEntryHi.toNat / 4096 = vpnOf j := by
    intro j hj
    rw [h j hj, tableHi_toNat hn]
    omega
  have hown : ∀ j, j ≤ 31 → entryhiToIndex (pageTable j).pteEntryHi = .ok j := by
    intro j hj
    rw [h j hj]
    exact entryhiToIndex_tableHi hn i hj
  refine ⟨fun x index hx => ?_, fun x y index hx hy => ?_, fun x index hlt hx => ?_,
    fun index hlt => hown index (by omega)⟩
  · rw [entryhiToIndex_ok_iff] at hx
    have hle := pageOf_le hx
    refine ⟨by omega, ?_⟩
    rw [vpn_eq_iff, hvpn index hle, vpn_of_pageOf hx]
  · rw [entryhiToIndex_ok_iff] at hx hy
    rw [vpn_eq_iff, vpn_of_pageOf hx, vpn_of_pageOf hy]
  · -- Only the page number decides, and the entry has the same one.
    have hindex := hown index (by omega)
    rw [entryhiToIndex_ok_iff] at hindex ⊢
    rw [← hindex]
    exact pageOf_congr (vpn_eq_iff.mp hx)

/-- The translation of addresses agrees with every page table that
    `init_page_table` builds, and with the page table of every U-proc in every
    run. In particular `support_tlb` finds the entry of its victim. -/
theorem page_table_layout (hn : n < 64) :
    (∀ (asid : Fin n) (data : Page), LaidOut (initPageTable asid data)) ∧
    ∀ (S : Platform n) (es : List (UEvent n)) (s : SupportLevel n), (supportLevel S).Run es s →
      (∀ i, (s.pc i).life = .holding → LaidOut (s.current i).supPrivatePageTable) ∧
      ∀ i f v swap t k, s.pc i = .evict f v swap → swap.swPte = some (t, k) →
        entryhiToIndex ((s.supportTable t).supPrivatePageTable k).pteEntryHi = .ok k := by
  refine ⟨fun asid data => ?_, fun S es s hrun => ?_⟩
  · exact laidOut_of_tableHi hn (fun j _ => initPageTable_hi asid data j)
  · have hm := mapped_any hn hrun
    refine ⟨fun i hi => ?_, fun i f v swap t k hpc hp => ?_⟩
    · exact laidOut_of_tableHi hn (fun j hj => (hm.tables i hi j hj).1)
    · rcases hm.copies i f v swap t k hpc hp with ⟨hk, a, ha⟩
      rw [(ha k hk).1]
      exact entryhiToIndex_tableHi hn a hk

/-- The stack page of the last of eight U-procs, and the last page of its
    program. -/
theorem page_table_layout_sample : entryhiToIndex 0xBFFFF200 = .ok 31 ∧
    (initPageTable (7 : Fin 8) (fun _ => 0) 31).pteEntryHi >>> VPNSHIFT = 0xBFFFF ∧
    entryhiToIndex 0x8001E004 = .ok 30 := by
  have h := (page_table_layout (n := 8) (by decide)).1 7 (fun _ => 0)
  have hown := h.own 31 (by decide)
  have hfound := (h.found 0xBFFFF200 31 hown).2
  exact ⟨hown, hfound, h.accepted 0x8001E004 30 (by decide) (by decide)⟩

/-- `vpn_to_index` alone takes the page behind the program for the stack. -/
example : vpnToIndex 0x8001F = vpnToIndex 0xBFFFF ∧
    (entryhiToIndex 0x8001F000).toOption = none := ⟨rfl, rfl⟩

end PageLayout

end Pandos
