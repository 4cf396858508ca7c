import Mathlib.Logic.Function.Basic
import Pandos.Arch

/-!
# The Pager

The data of `phase3/src/pager.c` and the functions that work on one piece of it
at a time: page tables, the swap pool table, the translation of addresses to
indices of a page table, and the TLB with the instructions that read and write
it.

A function that can call `PANIC` returns the text it prints. ASIDs are numbered
from one in the source; here they are the numbers of the U-procs from zero on,
and `asidWord` is the number the registers hold. No other ASID exists, so
`is_valid_asid` fails only for a support structure nobody has filled in.

The number `n` of U-procs is `UPROCMAX` in the source.

## Main definitions

* `PteEntry`, `PageTable`: Page tables.
* `Swap`: An entry of the swap pool table.
* `Tlb`, `tlbp`: The TLB, and the instruction that searches it.
* `entryhiToVpn`, `vpnToIndex`: The translation of an address.
* `tlbRefillEntry`: The entry the TLB-Refill handler looks up.
* `checkInTlb`, `updateTlb`, `addRandomInTlb`: Accesses to the TLB.
* `markPageNotValid`, `updatePageTable`: The writers of a page table entry.
-/

namespace Pandos

/-! ## Constants -/

def PAGESIZE : Word := 4096
def KUSEG : Word := 0x80000000
def GETPAGENO : Word := 0x3FFFF000
def VPNSHIFT : Nat := 12
def ASIDSHIFT : Nat := 6
def MAXPAGES : Nat := 32

def DIRTYON : Word := 0x400
def VALIDON : Word := 0x200
def GLOBALON : Word := 0x100

def CAUSE_TLB_MOD : Word := 1
def TLBINVLDL : Word := 2
def TLBINVLDS : Word := 3

/-- The number of frames of the swap pool. -/
def POOLSIZE (n : Nat) : Nat := n * 2

/-! ## Data -/

/-- A page table entry (`pte_entry_t`). -/
structure PteEntry where
  pteEntryHi : Word
  pteEntryLo : Word
  deriving DecidableEq

/-- A page table (`page_table_t`). -/
abbrev PageTable := Nat → PteEntry

/-- The contents of a page, word by word. -/
abbrev Page := Nat → Word

/-- An entry of the swap pool table (`swap_t`). Nobody owns a frame whose
    `sw_asid` is -1, and `sw_pte` points into the page table of a support
    structure. -/
structure Swap (n : Nat) where
  swAsid : Option (Fin n)
  swPageNo : Word
  swPte : Option (Fin n × Nat)
  deriving DecidableEq

/-- The TLB, slot by slot. -/
abbrev Tlb := Nat → PteEntry

section Pager

variable {n : Nat}

/-- The ASID of a U-proc as registers hold it. -/
def asidWord (i : Fin n) : Word := BitVec.ofNat 32 (i.val + 1)

/-! ## Page tables -/

/-- The contents `init_page_table` gives to a page table, for the header it
    read. Its text pages are the ones that cannot be written. -/
def initPageTable (asid : Fin n) (data : Page) : PageTable := fun i =>
  let lastPageIndex := MAXPAGES - 1
  let textFileSize := (data 5 / PAGESIZE).toNat
  if i < lastPageIndex then
    { pteEntryHi := KUSEG + (BitVec.ofNat 32 i <<< VPNSHIFT) + (asidWord asid <<< ASIDSHIFT)
      pteEntryLo := if i < textFileSize then 0 else DIRTYON }
  else
    { pteEntryHi := KUSEG + GETPAGENO + (asidWord asid <<< ASIDSHIFT)
      pteEntryLo := DIRTYON }

/-- `vpn_to_index`. -/
def vpnToIndex (vpn : Word) : Except String Nat :=
  if vpn < KUSEG >>> VPNSHIFT then
    .error "pager: vpn_to_index: vpn = %p < %p = KUSEG >> VPNSHIFT\n"
  else if vpn = (KUSEG + GETPAGENO) >>> VPNSHIFT then .ok (MAXPAGES - 1)
  else if vpn ≥ (KUSEG >>> VPNSHIFT) + BitVec.ofNat 32 MAXPAGES then
    .error "pager: vpn_to_index: invalid vpn %p\n"
  else .ok (vpn - (KUSEG >>> VPNSHIFT)).toNat

/-- `entryhi_to_vpn`. -/
def entryhiToVpn (entryhi : Word) : Except String Word :=
  if entryhi < KUSEG then .error "pager: entryhi_to_vpn: entryhi = %p < %p = KUSEG\n"
  else if entryhi ≥ KUSEG + BitVec.ofNat 32 (MAXPAGES - 1) * PAGESIZE ∧
      entryhi >>> VPNSHIFT ≠ (KUSEG + GETPAGENO) >>> VPNSHIFT then
    .error "pager: entryhi_to_vpn: %p?\n"
  else .ok (entryhi >>> VPNSHIFT)

/-- `entryhi_to_index`. -/
def entryhiToIndex (entryhi : Word) : Except String Nat :=
  (entryhiToVpn entryhi).bind vpnToIndex

/-- `mark_page_not_valid`. The mask is a logical negation, so it is zero. -/
def markPageNotValid (pageTable : PageTable) (index : Nat) : PageTable :=
  Function.update pageTable index
    { pageTable index with
      pteEntryLo := (pageTable index).pteEntryLo &&& (if VALIDON = 0 then 1 else 0) }

/-- `update_page_table`. -/
def updatePageTable (pageTable : PageTable) (index : Nat) (frameAddr : Word) : PageTable :=
  Function.update pageTable index
    { pageTable index with pteEntryLo := frameAddr ||| VALIDON ||| DIRTYON }

/-! ## The swap pool table -/

/-- `init_swap_pool_table`. -/
def initSwapPoolTable : Nat → Swap n := fun _ =>
  { swAsid := none, swPageNo := 0, swPte := none }

/-- `check_frame_occupied`. -/
def checkFrameOccupied (frame : Swap n) : Bool := frame.swAsid.isSome

/-- `mark_frames_as_unoccupied`, the loop as a whole. -/
def markFramesAsUnoccupied (swapPoolTable : Nat → Swap n) (asid : Fin n) : Nat → Swap n := fun i =>
  if (swapPoolTable i).swAsid = some asid then { swapPoolTable i with swAsid := none }
  else swapPoolTable i

/-- `add_entry_swap_pool_table`, for the page table of the support structure `s`. -/
def addEntrySwapPoolTable (swapPoolTable : Nat → Swap n) (frameNo : Nat) (asid : Fin n)
    (vpn : Word) (s : Fin n) : Except String (Nat → Swap n) :=
  (vpnToIndex vpn).map (fun index => Function.update swapPoolTable frameNo
    { swAsid := some asid, swPageNo := vpn, swPte := some (s, index) })

/-- `page_addr`, for the indices in range. -/
def pageAddr (swapPoolAddr : Word) (i : Nat) : Word := swapPoolAddr + BitVec.ofNat 32 i * PAGESIZE

/-! ## The TLB -/

/-- The ASID field of an EntryHi register. -/
def ENTRYHI_ASID (entryhi : Word) : Word := (entryhi >>> ASIDSHIFT) &&& 0x3F

/-- An entry of the TLB answers for an EntryHi register if it has its page
    number, and its ASID unless the entry is global. -/
def PteEntry.answers (e : PteEntry) (entryhi : Word) : Bool :=
  e.pteEntryHi >>> VPNSHIFT == entryhi >>> VPNSHIFT &&
    (e.pteEntryLo &&& GLOBALON != 0 || ENTRYHI_ASID e.pteEntryHi == ENTRYHI_ASID entryhi)

/-- The page of memory an entry leads to. -/
def PteEntry.frame (e : PteEntry) : Word := (e.pteEntryLo >>> VPNSHIFT) <<< VPNSHIFT

/-- The slot `TLBP` finds, if any. -/
def tlbp (tlbSize : Nat) (tlb : Tlb) (entryhi : Word) : Option Nat :=
  (List.range tlbSize).find? (fun slot => (tlb slot).answers entryhi)

/-- `check_in_tlb`, with the slot it leaves in CP0-Index. -/
def checkInTlb (tlbSize : Nat) (tlb : Tlb) (pte : PteEntry) : Option Nat :=
  tlbp tlbSize tlb pte.pteEntryHi

/-- `update_tlb`. -/
def updateTlb (tlbSize : Nat) (tlb : Tlb) (pte : PteEntry) : Tlb :=
  match checkInTlb tlbSize tlb pte with
  | some index => Function.update tlb index pte
  | none => tlb

/-- `add_random_in_tlb`, for the slot the machine picks. -/
def addRandomInTlb (tlb : Tlb) (slot : Nat) (pte : PteEntry) : Tlb := Function.update tlb slot pte

/-- The entry `tlb_refill_handler` looks up in the page table of the active
    process. -/
def tlbRefillEntry (pageTable : PageTable) (entryhi : Word) : Except String PteEntry :=
  (entryhiToIndex entryhi).map pageTable

end Pager

end Pandos
