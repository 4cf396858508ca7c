import Pandos.Theory.Addresses
import Pandos.Theory.FlashData

/-!
# Page Tables

What page tables, the pointers into them and the TLB hold in every run. An
invariant about the second words of page table entries is a condition on them,
for each U-proc and page; it carries over from the page tables to the TLB.

The addresses of page faults were checked by the time anybody looks at them: an
entry of the TLB refused the access, and every entry belongs to a page.

## Main definitions

* `Shaped`: The page table of a U-proc.
* `Cached`: An entry of the TLB.
* `Victim.Serves`, `Pc.Sane`: What a U-proc remembers while it handles a fault.
* `Admits`: Conditions that hold at the start and of invalid entries.
* `Mapped`: The invariant.

## Theorems

* `mapped_step`, `mapped_run`: The invariant holds in every run whose loads of
  pages meet the condition.
* `mapped_any`: The first words of page tables are right in every run.
-/

namespace Pandos

section PageTables

variable {n : Nat}

open SupportLevel

/-! ## Entries -/

/-- The page table of U-proc `i`, whose entries meet a condition. -/
def Shaped (ok : Fin n → Nat → Word → Prop) (i : Fin n) (pageTable : PageTable) : Prop :=
  ∀ j, j ≤ 31 → (pageTable j).pteEntryHi = tableHi i j ∧ ok i j (pageTable j).pteEntryLo

/-- An entry of the TLB has never been written, or comes from a page table. -/
def Cached (ok : Fin n → Nat → Word → Prop) (e : PteEntry) : Prop :=
  e = { pteEntryHi := 0, pteEntryLo := 0 } ∨
    ∃ i j, j ≤ 31 ∧ e.pteEntryHi = tableHi i j ∧ ok i j e.pteEntryLo

/-- The page table of a support structure belongs to some U-proc. -/
def Filled (ok : Fin n → Nat → Word → Prop) (s : SupportLevel n) (t : Fin n) : Prop :=
  ∃ i, Shaped ok i (s.supportTable t).supPrivatePageTable

variable {ok : Fin n → Nat → Word → Prop} {S : Platform n} {s s' : SupportLevel n} {i : Fin n}

theorem Shaped.cached {pageTable : PageTable} (h : Shaped ok i pageTable) {j : Nat} (hj : j ≤ 31) :
    Cached ok (pageTable j) :=
  Or.inr ⟨i, j, hj, (h j hj).1, (h j hj).2⟩

/-- The index the pager computes from an EntryHi register. -/
theorem index_le {hi : Word} {j : Nat} (h : entryhiToIndex hi = .ok j) : j ≤ 31 := by
  rw [← toOption_eq_some, entryhiToIndex_eq] at h
  exact pageOf_le h

theorem shaped_initPageTable {data : Page}
    (h : ∀ j, j ≤ 31 → ok i j (initPageTable i data j).pteEntryLo) :
    Shaped ok i (initPageTable i data) :=
  fun j hj => ⟨initPageTable_hi i data j, h j hj⟩

/-- Only the second word of one entry is written. -/
theorem shaped_update {pageTable : PageTable} (h : Shaped ok i pageTable) {k : Nat} {lo : Word}
    (hlo : k ≤ 31 → ok i k lo) :
    Shaped ok i (Function.update pageTable k { pageTable k with pteEntryLo := lo }) := by
  intro j hj
  by_cases hk : j = k
  · rw [hk, Function.update_self]
    exact ⟨(h k (hk ▸ hj)).1, hlo (hk ▸ hj)⟩
  · rw [Function.update_of_ne hk]
    exact h j hj

theorem markPageNotValid_eq (pageTable : PageTable) (k : Nat) :
    markPageNotValid pageTable k =
      Function.update pageTable k { pageTable k with pteEntryLo := 0 } := by
  -- The mask is a logical negation, which is zero for a bit that is set.
  have hmask : (pageTable k).pteEntryLo &&& (if VALIDON = 0 then 1 else 0) = 0 := BitVec.and_zero
  rw [markPageNotValid, hmask]

theorem updateTlb_or (tlbSize : Nat) (tlb : Tlb) (pte : PteEntry) (slot : Nat) :
    updateTlb tlbSize tlb pte slot = pte ∨ updateTlb tlbSize tlb pte slot = tlb slot := by
  unfold updateTlb
  cases checkInTlb tlbSize tlb pte with
  | none => exact Or.inr rfl
  | some index =>
      by_cases hs : slot = index
      · rw [hs]
        exact Or.inl (Function.update_self _ _ _)
      · exact Or.inr (Function.update_of_ne hs _ _)

/-- An update of the TLB writes the entry of a page table or nothing. -/
theorem cached_updateTlb {tlb : Tlb} {pte : PteEntry} (hpte : Cached ok pte)
    (htlb : ∀ slot, Cached ok (tlb slot)) (tlbSize slot : Nat) :
    Cached ok (updateTlb tlbSize tlb pte slot) := by
  rcases updateTlb_or tlbSize tlb pte slot with hs | hs
  · rw [hs]
    exact hpte
  · rw [hs]
    exact htlb slot

/-! ## Faults -/

/-- The pager finds the page of a fault. -/
def Fault.Located (f : Fault) : Prop := ∃ j, entryhiToIndex f.entryHi = .ok j

/-- The frame and the page of a victim were computed for a fault. -/
structure Victim.Serves (n : Nat) (v : Victim) (f : Fault) : Prop where
  vpn : entryhiToVpn f.entryHi = .ok v.pVpn
  index : vpnToIndex v.pVpn = .ok v.pIndex
  frame : v.frame < POOLSIZE n

theorem Victim.Serves.located {v : Victim} {f : Fault} (h : v.Serves n f) :
    entryhiToIndex f.entryHi = .ok v.pIndex := by
  rw [entryhiToIndex, h.vpn]
  exact h.index

/-- What U-proc `i` remembers is sane. -/
def Pc.Sane (i : Fin n) : Pc n → Prop
  | .cause f => f.Located
  | .pass f => f.Located
  | .passing f => f.Located
  | .take f => f.Located
  | .pick f _ => f.Located
  | .copy f frame => f.Located ∧ frame < POOLSIZE n
  | .evict f v _ => v.Serves n f
  | .write f v _ k => v.Serves n f ∧ k ≤ 31
  | .writing f v _ k => v.Serves n f ∧ k ≤ 31
  | .read f v => v.Serves n f
  | .reading f v => v.Serves n f
  | .commit f v => v.Serves n f
  | .clean asid => asid = i
  | .cleaning asid => asid = i
  | .mark asid _ => asid = i
  | .unmark asid _ => asid = i
  | _ => True

theorem Pc.Sane.resumed {pc : Pc n} (h : pc.Sane i) : pc.resumed.Sane i := by
  cases pc with
  | releasing => exact trivial
  | posting => exact trivial
  | _ => exact h

theorem Pc.Sane.finished {pc : Pc n} (h : pc.Sane i) (ok : Bool) : (pc.finished ok).Sane i := by
  cases pc with
  | writing =>
      cases ok with
      | true => exact h.1
      | false => exact trivial
  | reading =>
      cases ok with
      | true => exact h
      | false => exact trivial
  | _ => exact h

/-! ## The invariant -/

/-- A condition that holds of the page tables at the start, and of an entry that
    was cleared. -/
structure Admits (S : Platform n) (ok : Fin n → Nat → Word → Prop) : Prop where
  start : ∀ i j, j ≤ 31 → ok i j (initPageTable i (S.blocks i 0) j).pteEntryLo
  clear : ∀ i j, ok i j 0

/-- Every U-proc has its own page table, and the entries of the TLB and the
    pointers of the swap pool table lead to page tables. -/
structure Mapped (ok : Fin n → Nat → Word → Prop) (s : SupportLevel n) : Prop where
  tables : ∀ i, (s.pc i).life = .holding → Shaped ok i (s.current i).supPrivatePageTable
  ready : ∀ i t, s.test = .create i t → Shaped ok i (s.supportTable t).supPrivatePageTable
  ptes : ∀ f t k, (s.swapPoolTable f).swPte = some (t, k) → k ≤ 31 ∧ Filled ok s t
  copies : ∀ i f v swap t k, s.pc i = .evict f v swap → swap.swPte = some (t, k) →
    k ≤ 31 ∧ Filled ok s t
  tlb : ∀ slot, Cached ok (s.tlb slot)
  places : ∀ i, (s.pc i).Sane i

theorem mapped_start (h : (supportLevel S).init s) : Mapped ok s := by
  rcases h with ⟨free, _, rfl⟩
  -- Nobody exists, and no entry of the TLB or of the swap pool table was written.
  exact ⟨fun i hi => (by cases hi), fun i t ht => (by cases ht), fun f t k hk => (by cases hk),
    fun i f v swap t k hpc => (by cases hpc), fun slot => Or.inl rfl, fun i => trivial⟩

theorem Mapped.place (h : Mapped ok s) {pc : Pc n} (hpc : s.pc i = pc) : pc.Sane i :=
  hpc ▸ h.places i

/-- U-proc `i` may go on to `pc`. -/
structure Allowed (s : SupportLevel n) (i : Fin n) (pc : Pc n) : Prop where
  sane : pc.Sane i
  life : pc.life = .holding → (s.pc i).life = .holding
  copy : ∀ f v swap, pc = .evict f v swap →
    s.pc i = .evict f v swap ∨ ∃ frame, swap = s.swapPoolTable frame

theorem Allowed.refl (h : Mapped ok s) (i : Fin n) : Allowed s i (s.pc i) :=
  ⟨h.places i, id, fun _ _ _ hpc => Or.inl hpc⟩

/-- A U-proc has a copy of an entry of the swap pool table. -/
def Pc.copied : Pc n → Bool
  | .evict _ _ _ => true
  | _ => false

theorem Allowed.plain {pc : Pc n} (hsane : pc.Sane i) (hlife : (s.pc i).life = .holding)
    (hcopied : pc.copied = false) : Allowed s i pc :=
  ⟨hsane, fun _ => hlife, fun f v swap hc => by rw [hc] at hcopied; cases hcopied⟩

theorem Allowed.resumed (h : Mapped ok s) (i : Fin n) : Allowed s i (s.pc i).resumed := by
  refine ⟨(h.places i).resumed, fun hl => (Pc.resumed_life (s.pc i)) ▸ hl, fun f v swap hpc => ?_⟩
  cases hi : s.pc i with
  | evict => rw [hi] at hpc; exact Or.inl hpc
  | _ => rw [hi] at hpc; cases hpc

/-- U-procs move on, and `test` does. -/
theorem Mapped.congr (h : Mapped ok s) (hpc : ∀ j, Allowed s j (s'.pc j))
    (hsupport : s'.support = s.support)
    (htable : ∀ t, (s'.supportTable t).supPrivatePageTable =
      (s.supportTable t).supPrivatePageTable)
    (hswap : s'.swapPoolTable = s.swapPoolTable) (htlb : s'.tlb = s.tlb)
    (htest : ∀ i t, s'.test = .create i t → s.test = .create i t) : Mapped ok s' := by
  have hfilled : ∀ t, Filled ok s t → Filled ok s' t := fun t ht => by
    rw [Filled, htable]
    exact ht
  refine ⟨fun j hj => ?_, fun j t ht => ?_, fun f t k hk => ?_, fun j f v swap t k hj hk => ?_,
    fun slot => htlb ▸ h.tlb slot, fun j => (hpc j).sane⟩
  · rw [current, hsupport, htable]
    exact h.tables j ((hpc j).life hj)
  · rw [htable]
    exact h.ready j t (htest j t ht)
  · rw [hswap] at hk
    exact ⟨(h.ptes f t k hk).1, hfilled t (h.ptes f t k hk).2⟩
  · -- A copy was there before, or is taken from the table now.
    rcases (hpc j).copy f v swap hj with hold | ⟨frame, rfl⟩
    · have hc := h.copies j f v swap t k hold hk
      exact ⟨hc.1, hfilled t hc.2⟩
    · exact ⟨(h.ptes frame t k hk).1, hfilled t (h.ptes frame t k hk).2⟩

/-- One U-proc moves on. -/
theorem mapped_move (h : Mapped ok s) {pc : Pc n} (hi : Allowed s i pc)
    (hpc : s'.pc = Function.update s.pc i pc) (hsupport : s'.support = s.support)
    (htable : s'.supportTable = s.supportTable) (hswap : s'.swapPoolTable = s.swapPoolTable)
    (htlb : s'.tlb = s.tlb) (htest : s'.test = s.test) : Mapped ok s' := by
  refine h.congr (fun j => ?_) hsupport (fun t => by rw [htable]) hswap htlb
    (fun j t ht => htest ▸ ht)
  rw [hpc]
  exact moves_update (R := Allowed s) hi (Allowed.refl h) j

/-- One U-proc moves on to a place at which it has copied nothing. -/
theorem mapped_goes (h : Mapped ok s) {pc : Pc n} (hpc : s'.pc = Function.update s.pc i pc)
    (hlife : (s.pc i).life = .holding) (hsane : pc.Sane i) (hcopied : pc.copied = false)
    (hsupport : s'.support = s.support) (htable : s'.supportTable = s.supportTable)
    (hswap : s'.swapPoolTable = s.swapPoolTable) (htlb : s'.tlb = s.tlb)
    (htest : s'.test = s.test) : Mapped ok s' :=
  mapped_move h (Allowed.plain hsane hlife hcopied) hpc hsupport htable hswap htlb htest

/-- Nobody moves. -/
theorem mapped_same (h : Mapped ok s) (hpc : s'.pc = s.pc) (hsupport : s'.support = s.support)
    (htable : ∀ t, (s'.supportTable t).supPrivatePageTable =
      (s.supportTable t).supPrivatePageTable)
    (hswap : s'.swapPoolTable = s.swapPoolTable) (htlb : s'.tlb = s.tlb)
    (htest : ∀ i t, s'.test = .create i t → s.test = .create i t) : Mapped ok s' := by
  refine h.congr (fun j => ?_) hsupport htable hswap htlb htest
  rw [hpc]
  exact Allowed.refl h j

/-! ## The writers -/

/-- The TLB is written. -/
theorem Mapped.setTlb (h : Mapped ok s) (tlb : Tlb) (htlb : ∀ slot, Cached ok (tlb slot)) :
    Mapped ok { s with tlb := tlb } :=
  ⟨h.tables, h.ready, h.ptes, h.copies, htlb, h.places⟩

/-- The swap pool table is written. -/
theorem Mapped.setSwap (h : Mapped ok s) (swapPoolTable : Nat → Swap n)
    (hptes : ∀ f t k, (swapPoolTable f).swPte = some (t, k) → k ≤ 31 ∧ Filled ok s t) :
    Mapped ok { s with swapPoolTable := swapPoolTable } :=
  ⟨h.tables, h.ready, hptes, h.copies, h.tlb, h.places⟩

/-- The page table of a support structure is written. -/
theorem Mapped.setTable (h : Mapped ok s) {t : Fin n} {table : PageTable} (hi : Shaped ok i table)
    (hheld : ∀ j, (s.pc j).life = .holding → s.support j = t → j = i)
    (htest : ∀ j, s.test ≠ .create j t) : Mapped ok (s.setTable t table) := by
  have hself : ((s.setTable t table).supportTable t).supPrivatePageTable = table := by
    simp only [SupportLevel.setTable, Function.update_self]
  have hne : ∀ u, u ≠ t → (s.setTable t table).supportTable u = s.supportTable u := fun u hu => by
    simp only [SupportLevel.setTable, Function.update_of_ne hu]
  have hfilled : ∀ u, Filled ok s u → Filled ok (s.setTable t table) u := fun u hu => by
    by_cases hut : u = t
    · rw [Filled, hut, hself]
      exact ⟨i, hi⟩
    · rw [Filled, hne u hut]
      exact hu
  refine ⟨fun j hj => ?_, fun j u hu => ?_,
    fun f u k hk => ⟨(h.ptes f u k hk).1, hfilled u (h.ptes f u k hk).2⟩,
    fun j f v swap u k hj hk => ⟨(h.copies j f v swap u k hj hk).1,
      hfilled u (h.copies j f v swap u k hj hk).2⟩, h.tlb, h.places⟩
  · -- Whoever holds the structure is the U-proc the table belongs to.
    by_cases hjt : s.support j = t
    · rw [hheld j hj hjt, current,
        show (s.setTable t table).support i = t from hheld j hj hjt ▸ hjt, hself]
      exact hi
    · rw [current, show (s.setTable t table).support j = s.support j from rfl, hne _ hjt]
      exact h.tables j hj
  · rw [hne u (fun hc => htest j (hc ▸ hu))]
    exact h.ready j u hu

/-- A U-proc writes its own page table. -/
theorem mapped_own (ho : Allotted s) (h : Mapped ok s) (hi : (s.pc i).life = .holding)
    {table : PageTable} (ht : Shaped ok i table) : Mapped ok (s.setTable (s.support i) table) := by
  -- Nobody else holds the structure, and `test` has another one at hand.
  refine h.setTable ht (fun j hj hji => ho.inj j i hj hi hji) (fun j hc => ?_)
  exact (ho.spare j (s.support i) (by rw [hc]; rfl)).2.1 i hi rfl

theorem filled_own (h : Mapped ok s) (hi : (s.pc i).life = .holding) :
    Filled ok s (s.support i) :=
  ⟨i, h.tables i hi⟩

/-! ## Steps -/

/-- The entry `tlb_refill_handler` finds. -/
theorem refill_entry {pageTable : PageTable} {hi : Word} {pte : PteEntry}
    (h : tlbRefillEntry pageTable hi = .ok pte) :
    ∃ j, entryhiToIndex hi = .ok j ∧ pte = pageTable j := by
  unfold tlbRefillEntry at h
  cases hx : entryhiToIndex hi with
  | error msg =>
      rw [hx] at h
      cases h
  | ok j =>
      rw [hx] at h
      cases h
      exact ⟨j, rfl, rfl⟩

theorem found_slot {addr : Word} {e : PteEntry} (h : s.lookup S i addr = some e) :
    ∃ slot, slot < S.tlbSize ∧ s.tlb slot = e ∧ e.answers (entryHiOf i addr) = true := by
  unfold lookup tlbp at h
  rw [Option.map_eq_some_iff] at h
  rcases h with ⟨slot, hfind, rfl⟩
  have hmem := List.mem_of_find?_eq_some hfind
  rw [List.mem_range] at hmem
  have hans := List.find?_some hfind
  exact ⟨slot, hmem, rfl, hans⟩

/-- Every access to an address in `kuseg` that finds an entry is one to a page
    of the pager. -/
theorem located_of_lookup (hn : n < 64) (h : Mapped ok s) {addr : Word} {e : PteEntry}
    (ha : ¬ addr < KUSEG) (hl : s.lookup S i addr = some e) :
    ∃ j, pageOf addr = some j := by
  rcases found_slot hl with ⟨slot, _, hslot, hans⟩
  have hvpn := vpn_of_answers hn hans
  -- Entries of page tables have page numbers the pager knows.
  rcases hslot ▸ h.tlb slot with hzero | ⟨k, j, hj, hhi, _⟩
  · -- An entry that was never written has the page number zero.
    rw [hzero, show (0 : Word).toNat = 0 from rfl] at hvpn
    rw [BitVec.lt_def, show KUSEG.toNat = 0x80000000 from rfl] at ha
    omega
  · rw [hhi] at hvpn
    exact ⟨j, (pageOf_congr hvpn).symm.trans (pageOf_tableHi hn k hj)⟩

/-- The branches that only move a U-proc on. -/
theorem Goes.allowed (ho : Allotted s) (h : Mapped ok s) {pc : Pc n} (hg : Goes s i pc) :
    Allowed s i pc := by
  have hp := h.places i
  have hlife : pc.life = .holding → (s.pc i).life = .holding := fun hl => hg.life ▸ hl
  cases hg with
  | modification hpc => exact ⟨trivial, hlife, fun _ _ _ hc => (by cases hc)⟩
  | missing hpc =>
      rw [hpc] at hp
      exact ⟨hp, hlife, fun _ _ _ hc => (by cases hc)⟩
  | occupied hpc =>
      rw [hpc] at hp
      exact ⟨hp, hlife, fun _ _ _ hc => (by cases hc)⟩
  | unoccupied hpc hx =>
      rw [hpc] at hp
      exact ⟨⟨hp, hx⟩, hlife, fun _ _ _ hc => (by cases hc)⟩
  | @evict f frame pVpn pIndex hpc hv hx =>
      rw [hpc] at hp
      refine ⟨⟨hv, hx, hp.2⟩, hlife, fun _ _ _ hc => ?_⟩
      cases hc
      exact Or.inr ⟨frame, rfl⟩
  | read hpc hv hx =>
      rw [hpc] at hp
      exact ⟨⟨hv, hx, hp.2⟩, hlife, fun _ _ _ hc => (by cases hc)⟩
  | nobody => exact ⟨trivial, hlife, fun _ _ _ hc => (by cases hc)⟩
  | nameless => exact ⟨trivial, hlife, fun _ _ _ hc => (by cases hc)⟩
  | clean hpc ha =>
      exact ⟨ho.own (by rw [hpc]; rfl) ha, hlife, fun _ _ _ hc => (by cases hc)⟩
  | mark hpc ha =>
      exact ⟨ho.own (by rw [hpc]; rfl) ha, hlife, fun _ _ _ hc => (by cases hc)⟩
  | kept hpc =>
      rw [hpc] at hp
      exact ⟨hp, hlife, fun _ _ _ hc => (by cases hc)⟩
  | owned hpc =>
      rw [hpc] at hp
      exact ⟨hp, hlife, fun _ _ _ hc => (by cases hc)⟩
  | marked => exact ⟨trivial, hlife, fun _ _ _ hc => (by cases hc)⟩
  | die => exact ⟨trivial, hlife, fun _ _ _ hc => (by cases hc)⟩

/-- An operation on `sem_swap_pool_table`. -/
theorem mapped_swapPoolOp (h : Mapped ok s) {o : SemOp} {blocked next : Pc n}
    (hb : Allowed s i blocked) (hnext : Allowed s i next) :
    Mapped ok (s.swapPoolOp o i blocked next) := by
  have hmoves := swapPoolOp_moves (o := o) (R := Allowed s) hb hnext (Allowed.resumed h)
    (Allowed.refl h)
  rw [swapPoolOp_eq] at hmoves ⊢
  exact h.congr hmoves rfl (fun _ => rfl) rfl rfl (fun _ _ ht => ht)

theorem Unlocks.allowed (h : Mapped ok s) {blocked next : Pc n}
    (hu : Unlocks (s.pc i) blocked next) :
    Allowed s i blocked ∧ Allowed s i next := by
  have hp := h.places i
  have hl := hu.life
  generalize hpc : s.pc i = pc at hu hp hl
  cases hu with
  | release f =>
      exact ⟨Allowed.plain trivial (by rw [hpc]; rfl) rfl,
        Allowed.plain trivial (by rw [hpc]; rfl) rfl⟩
  | clean asid =>
      exact ⟨Allowed.plain hp (by rw [hpc]; rfl) rfl, Allowed.plain hp (by rw [hpc]; rfl) rfl⟩

/-- The first block with interrupts off. -/
theorem mapped_evict (hc : Admits S ok) (ho : Allotted s) (h : Mapped ok s) {f : Fault} {v : Victim}
    {swap : Swap n} {asid t : Fin n} {k kIndex : Nat} (hpc : s.pc i = .evict f v swap)
    (hp : swap.swPte = some (t, k))
    (hx : entryhiToIndex ((s.supportTable t).supPrivatePageTable k).pteEntryHi = .ok kIndex)
    {s₁ : SupportLevel n} (h₁ : s₁ = s.setTable (s.support i)
      (markPageNotValid (s.current i).supPrivatePageTable kIndex)) :
    Mapped ok ({ s₁ with
      tlb := updateTlb S.tlbSize s.tlb
        ((s₁.supportTable t).supPrivatePageTable k) }.setPc i (.write f v asid kIndex)) := by
  have hi : (s.pc i).life = .holding := by
    rw [hpc]
    rfl
  -- The block clears an entry of the table of the U-proc itself.
  have hown : Mapped ok s₁ := by
    rw [h₁, markPageNotValid_eq]
    exact mapped_own ho h hi (shaped_update (h.tables i hi) (fun _ => hc.clear i kIndex))
  -- The entry that goes into the TLB is one of a page table.
  have hpte : Cached ok ((s₁.supportTable t).supPrivatePageTable k) := by
    rcases hown.copies i f v swap t k (by rw [h₁]; exact hpc) hp with ⟨hk, a, ha⟩
    exact ha.cached hk
  have htlb := hown.setTlb (updateTlb S.tlbSize s.tlb
    ((s₁.supportTable t).supPrivatePageTable k)) (cached_updateTlb hpte h.tlb S.tlbSize)
  have hplace := h.place hpc
  refine mapped_goes htlb rfl ?_ ⟨hplace, index_le hx⟩ rfl rfl rfl rfl rfl rfl
  rw [h₁]
  exact hi

/-- The second block with interrupts off. -/
theorem mapped_commit (ho : Allotted s) (h : Mapped ok s) {f : Fault} {v : Victim} {asid : Fin n}
    {index : Nat} (hpc : s.pc i = .commit f v) (hx : vpnToIndex v.pVpn = .ok index)
    (hok : ok i v.pIndex (resident (pageAddr S.swapPoolAddr v.frame))) {table : PageTable}
    (ht : table = updatePageTable (s.current i).supPrivatePageTable v.pIndex
      (pageAddr S.swapPoolAddr v.frame)) :
    Mapped ok ({ s.setTable (s.support i) table with
      swapPoolTable := Function.update s.swapPoolTable v.frame
        { swAsid := some asid, swPageNo := v.pVpn, swPte := some (s.support i, index) }
      tlb := updateTlb S.tlbSize s.tlb (table v.pIndex) }.setPc i (.release f)) := by
  have hi : (s.pc i).life = .holding := by
    rw [hpc]
    rfl
  have hserves : v.Serves n f := h.place hpc
  have hle : v.pIndex ≤ 31 := index_le hserves.located
  have hindex : index = v.pIndex := Except.ok.inj (hx.symm.trans hserves.index)
  -- The block writes one entry of the table of the U-proc itself.
  have hshaped : Shaped ok i table := by
    rw [ht]
    exact shaped_update (h.tables i hi) (fun _ => hok)
  have hown : Mapped ok (s.setTable (s.support i) table) := mapped_own ho h hi hshaped
  -- The swap pool table points to that entry from now on.
  have hswap := hown.setSwap (Function.update s.swapPoolTable v.frame
    { swAsid := some asid, swPageNo := v.pVpn, swPte := some (s.support i, index) })
    (fun g t k hk => by
      by_cases hg : g = v.frame
      · rw [hg, Function.update_self] at hk
        cases hk
        exact ⟨hindex ▸ hle, filled_own hown hi⟩
      · rw [Function.update_of_ne hg] at hk
        exact hown.ptes g t k hk)
  have htlb := hswap.setTlb (updateTlb S.tlbSize s.tlb (table v.pIndex))
    (cached_updateTlb (hshaped.cached hle) h.tlb S.tlbSize)
  exact mapped_goes htlb rfl hi trivial rfl rfl rfl rfl rfl rfl

/-- The end of a command to a flash device. -/
theorem mapped_ends (h : Mapped ok s) {dev : Fin n} {b : Bool} (hends : Ends S s dev b s') :
    Mapped ok s' := by
  cases hends with
  | @uproc i r _ s₁ hreq h₁ =>
      rcases transfer_eq h₁ with ⟨ram, blocks, rfl⟩
      have hlife : (s.pc i).life = .holding := (pending_uproc (s := s) hreq).2.2.2
      -- Whoever waits for a device has no copy of an entry.
      have hcopied : ((s.pc i).finished b).copied = false := by
        cases hpc : s.pc i with
        | evict =>
            rw [hpc] at hreq
            cases hreq
        | writing =>
            cases b with
            | true => rfl
            | false => rfl
        | reading =>
            cases b with
            | true => rfl
            | false => rfl
        | _ => rfl
      exact mapped_goes h rfl hlife ((h.places i).finished b) hcopied rfl rfl rfl rfl rfl
  | header => exact mapped_same h rfl rfl (fun _ => rfl) rfl rfl (fun _ _ ht => by cases ht)
  | failed => exact mapped_same h rfl rfl (fun _ => rfl) rfl rfl (fun _ _ ht => by cases ht)

/-- Every step keeps the invariant, if what it loads meets the condition. -/
theorem mapped_step (hn : n < 64) (hc : Admits S ok) {e : UEvent n} (ho : Allotted s)
    (hq : Queued S s) (hh : Headed S s) (h : Mapped ok s)
    (hcommit : ∀ i f v, e = .step i → s.pc i = .commit f v →
      ok i v.pIndex (resident (pageAddr S.swapPoolAddr v.frame)))
    (hstep : UStep S s e s') : Mapped ok s' := by
  cases hstep with
  | panic msg =>
      exact mapped_same h rfl rfl (fun _ => rfl) rfl rfl (fun _ _ ht => ht)
  | quit hpc =>
      exact mapped_goes h rfl (by rw [hpc]; rfl) trivial rfl rfl rfl rfl rfl rfl
  | @refill i addr cause a slot pte hpc ha hl he hs =>
      rcases refill_entry he with ⟨j, hj, rfl⟩
      refine h.setTlb _ (fun k => ?_)
      by_cases hk : k = slot
      · rw [addRandomInTlb, hk, Function.update_self]
        exact (h.tables i (by rw [hpc]; rfl)).cached (index_le hj)
      · rw [addRandomInTlb, Function.update_of_ne hk]
        exact h.tlb k
  -- The address of a fault is in the TLB, so it is one of a page.
  | @fault i addr cause a slot e code hpc ha hl =>
      rcases located_of_lookup hn h ha hl with ⟨j, hj⟩
      refine mapped_goes h rfl (by rw [hpc]; rfl) ⟨j, ?_⟩ rfl rfl rfl rfl rfl rfl
      rw [← toOption_eq_some, entryhiToIndex_entryHiOf hn, hj]
  | access => exact mapped_same h rfl rfl (fun _ => rfl) rfl rfl (fun _ _ ht => ht)
  | goes hg => exact mapped_move h (hg.allowed ho h) rfl rfl rfl rfl rfl rfl
  | @lock i f hpc =>
      have hp := h.place hpc
      exact mapped_swapPoolOp h (Allowed.plain hp (by rw [hpc]; rfl) rfl)
        (Allowed.plain hp (by rw [hpc]; rfl) rfl)
  | @take i f asid hpc =>
      have hp := h.place hpc
      exact mapped_goes h rfl (by rw [hpc]; rfl) hp rfl rfl rfl rfl rfl rfl
  -- There is a U-proc, so the swap pool is not empty.
  | @fifo i f index hpc =>
      have hp := h.place hpc
      have hpos : 0 < POOLSIZE n := Nat.mul_pos i.pos (by omega)
      exact mapped_goes h rfl (by rw [hpc]; rfl) ⟨hp, Nat.mod_lt _ hpos⟩ rfl rfl rfl rfl rfl rfl
  | evict hpc ha hp hx h₁ => exact mapped_evict hc ho h hpc hp hx h₁
  | @write i f v asid k hpc =>
      have hp := h.place hpc
      exact mapped_goes h rfl (by rw [hpc]; rfl) hp rfl rfl rfl rfl rfl rfl
  | @read i f v asid hpc =>
      have hp := h.place hpc
      exact mapped_goes h rfl (by rw [hpc]; rfl) hp rfl rfl rfl rfl rfl rfl
  | @commit i f v asid index hpc ha hx table ht =>
      exact mapped_commit ho h hpc hx (hcommit i f v rfl hpc) ht
  | unlock hu => exact mapped_swapPoolOp h (hu.allowed h).1 (hu.allowed h).2
  | drop hpc =>
      exact mapped_goes h rfl (by rw [hpc]; rfl) trivial rfl rfl rfl rfl rfl rfl
  | @unmark i asid index hpc =>
      have hp := h.place hpc
      have hm : Mapped ok { s with
          swapPoolTable := Function.update s.swapPoolTable index
            { s.swapPoolTable index with swAsid := none } } := by
        refine h.setSwap _ (fun f t k hk => h.ptes f t k ?_)
        -- Only the owner of the frame changes.
        by_cases hf : f = index
        · rw [hf, Function.update_self] at hk
          rw [hf]
          exact hk
        · rw [Function.update_of_ne hf] at hk
          exact hk
      exact mapped_goes hm rfl (by rw [hpc]; rfl) hp rfl rfl rfl rfl rfl rfl
  | free hpc =>
      exact mapped_goes h rfl (by rw [hpc]; rfl) trivial rfl rfl rfl rfl rfl rfl
  | @post i hpc =>
      have hmoves := masterSemaphoreV_moves (i := i) (R := Allowed s)
        ⟨trivial, fun hc => (by cases hc), fun _ _ _ hc => (by cases hc)⟩
        ⟨trivial, fun hc => (by cases hc), fun _ _ _ hc => (by cases hc)⟩
        (Allowed.resumed h) (Allowed.refl h)
      have htest := fun j t =>
        masterSemaphoreV_test (s := s) (i := i) (t := .create j t) (fun _ hc => by cases hc)
      rw [masterSemaphoreV_eq] at hmoves htest ⊢
      exact h.congr hmoves rfl (fun _ => rfl) rfl rfl htest
  | complete hqueue h₁ => exact mapped_ends h (ends_of_queue hq hqueue h₁)
  | @alloc i t ts htest =>
      refine mapped_same h rfl rfl (fun u => ?_) rfl rfl (fun _ _ hc => by cases hc)
      by_cases hu : u = t
      · simp only [hu, Function.update_self]
      · simp only [Function.update_of_ne hu]
  | created => exact mapped_same h rfl rfl (fun _ => rfl) rfl rfl (fun _ _ hc => by cases hc)
  | header => exact mapped_same h rfl rfl (fun _ => rfl) rfl rfl (fun _ _ hc => by cases hc)
  | @fill i t data htest =>
      have hdata : data = S.blocks i 0 := hh.header i t data htest
      have hspare := ho.spare i t (by rw [htest]; rfl)
      have hshaped : Shaped ok i (initPageTable i data) :=
        shaped_initPageTable (fun j hj => hdata ▸ hc.start i j hj)
      have hm : Mapped ok (s.setTable t (initPageTable i data)) :=
        h.setTable hshaped (fun j hj hjt => absurd hjt (hspare.2.1 j hj))
          (fun j hc => by rw [htest] at hc; cases hc)
      refine ⟨hm.tables, fun j u hu => ?_, hm.ptes, hm.copies, hm.tlb, hm.places⟩
      cases hu
      simp only [SupportLevel.setTable, Function.update_self]
      exact hshaped
  | @create i t htest =>
      have hfresh : s.pc i = .unborn := ho.fresh (by rw [htest]; rfl)
      refine ⟨fun j hj => ?_, fun j u hu => (by cases hu), h.ptes, fun j f v swap u k hj hk => ?_,
        h.tlb, fun j => ?_⟩
      · by_cases hji : j = i
        · simp only [current, setPc, hji, Function.update_self]
          exact h.ready i t htest
        · simp only [setPc, Function.update_of_ne hji] at hj
          simp only [current, setPc, Function.update_of_ne hji]
          exact h.tables j hj
      · by_cases hji : j = i
        · simp only [setPc, hji, Function.update_self] at hj
          cases hj
        · simp only [setPc, Function.update_of_ne hji] at hj
          exact h.copies j f v swap u k hj hk
      · by_cases hji : j = i
        · simp only [setPc, hji, Function.update_self]
          exact trivial
        · simp only [setPc, Function.update_of_ne hji]
          exact h.places j
  | @wait k htest =>
      have hmoves := masterSemaphoreP_moves (k := k) (R := Allowed s) (Allowed.resumed h)
        (Allowed.refl h)
      have hnone := fun j t =>
        masterSemaphoreP_test (s := s) (i := k) (t := .create j t) (fun _ hc => by cases hc)
          (fun _ hc => by cases hc)
      rw [masterSemaphoreP_eq] at hmoves hnone ⊢
      exact h.congr hmoves rfl (fun _ => rfl) rfl rfl (fun j t ht => absurd ht (hnone j t))
  | halt => exact mapped_same h rfl rfl (fun _ => rfl) rfl rfl (fun _ _ ht => ht)

/-- Every run whose loads of pages meet the condition keeps the invariant. -/
theorem mapped_run (hn : n < 64) (hc : Admits S ok) {cond : SupportLevel n → UEvent n → Prop}
    (hcommit : ∀ s i f v, Mapped ok s → cond s (.step i) → s.pc i = .commit f v →
      ok i v.pIndex (resident (pageAddr S.swapPoolAddr v.frame)))
    {es : List (UEvent n)} (h : ((supportLevel S).restrict cond).Run es s) : Mapped ok s := by
  have hstart : ∀ s, ((supportLevel S).restrict cond).init s → Mapped ok s :=
    fun s hi => mapped_start (S := S) hi
  refine System.run_invariant hstart (fun es s e s' hrun hi hs => ?_) h
  have hbase := System.run_of_restrict hrun
  refine mapped_step hn hc (allotted_run hbase) (queued_run hbase) (headed_run hbase) hi
    (fun i f v he hpc => hcommit s i f v hi (he ▸ hs.2) hpc) (ustep_of_next hs.1).2

/-- Without a condition on the second words of entries, every run keeps the
    invariant. -/
theorem mapped_any (hn : n < 64) {es : List (UEvent n)} (h : (supportLevel S).Run es s) :
    Mapped (fun _ _ _ => True) s := by
  refine System.run_invariant (fun _ hi => mapped_start (S := S) hi)
    (fun es s e s' hrun hi hs => ?_) h
  exact mapped_step hn ⟨fun _ _ _ => trivial, fun _ _ => trivial⟩ (allotted_run hrun)
    (queued_run hrun) (headed_run hrun) hi (fun _ _ _ _ _ => trivial) (ustep_of_next hs).2

end PageTables

end Pandos
