import Pandos.Theory.PageTables
import Pandos.Theory.UprocReplay

/-!
# Text Pages

The write permission of the pages of a program. `init_page_table` leaves
`DIRTYON` out of the entries of the text, but `update_page_table` puts it into
every entry it writes, so a text page can be written from its first load on. The
branch of `support_tlb` for writes to read-only pages compares the whole Cause
register with an exception code, and no exception of that code passes.

## Main definitions

* `TextPage`: The pages `init_page_table` makes read-only.
* `ReadOnly`: No entry for a page of text has `DIRTYON`.
* `LoadsText`: A step ends the load of a page of text.

## Theorems

* `text_read_only_iff`: The text stays read-only exactly as long as none of it
  is loaded.
-/

namespace Pandos

section TextPages

variable {n : Nat}

open SupportLevel

/-- A page below the size of the text in the header of a program. -/
def TextPage (S : Platform n) (i : Fin n) (j : Nat) : Prop :=
  j < MAXPAGES - 1 ∧ j < (S.blocks i 0 5 / PAGESIZE).toNat

instance (S : Platform n) (i : Fin n) (j : Nat) : Decidable (TextPage S i j) :=
  inferInstanceAs (Decidable (_ ∧ _))

/-- `DIRTYON` is clear in the page table entries of all text pages, and in the
    entries of the TLB for them. -/
def ReadOnly (S : Platform n) (s : SupportLevel n) : Prop :=
  (∀ i j, (s.pc i).life = .holding → TextPage S i j →
    ((s.current i).supPrivatePageTable j).pteEntryLo &&& DIRTYON = 0) ∧
  ∀ slot i j, TextPage S i j → (s.tlb slot).pteEntryHi = tableHi i j →
    (s.tlb slot).pteEntryLo &&& DIRTYON = 0

/-- The page for which a step runs the second block with interrupts off. -/
def loads (s : SupportLevel n) : UEvent n → Option (Fin n × Nat)
  | .step i =>
    match s.pc i with
    | .commit _ v => some (i, v.pIndex)
    | _ => none
  | _ => none

/-- The second block with interrupts off runs for a page of text. -/
def LoadsText (S : Platform n) (s : SupportLevel n) (e : UEvent n) : Prop :=
  ∃ p ∈ loads s e, TextPage S p.1 p.2

instance (S : Platform n) (s : SupportLevel n) (e : UEvent n) : Decidable (LoadsText S s e) :=
  inferInstanceAs (Decidable (∃ p ∈ loads s e, TextPage S p.1 p.2))

variable {S : Platform n} {s s' : SupportLevel n} {i : Fin n}

theorem loads_commit {f : Fault} {v : Victim} (hpc : s.pc i = .commit f v) :
    loads s (.step i) = some (i, v.pIndex) := by
  simp only [loads, hpc]

theorem commit_of_loads {e : UEvent n} {p : Fin n × Nat} (h : loads s e = some p) :
    ∃ f v, e = .step p.1 ∧ s.pc p.1 = .commit f v ∧ p.2 = v.pIndex := by
  cases e with
  | step i =>
      simp only [loads] at h
      cases hpc : s.pc i with
      | commit f v =>
          rw [hpc] at h
          cases h
          exact ⟨f, v, rfl, hpc, rfl⟩
      | _ =>
          rw [hpc] at h
          cases h
  | _ => cases h

/-- The condition on the second words of page table entries. -/
def textWord (S : Platform n) (i : Fin n) (j : Nat) (lo : Word) : Prop :=
  TextPage S i j → lo &&& DIRTYON = 0

theorem admits_textWord : Admits S (textWord S) := by
  have hzero : (0 : Word) &&& DIRTYON = 0 := BitVec.zero_and
  refine ⟨fun i j _ htext => ?_, fun i j _ => hzero⟩
  simp only [initPageTable, if_pos htext.1, if_pos htext.2]
  exact hzero

/-- An entry that `update_page_table` wrote can be written. -/
theorem resident_dirty (a : Word) : resident a &&& DIRTYON ≠ 0 := by
  -- The bit is set last, so masking gives it back.
  have habs : resident a &&& DIRTYON = DIRTYON := by
    rw [resident]
    ext k hk
    simp only [BitVec.getElem_and, BitVec.getElem_or]
    cases DIRTYON[k] with
    | true => rw [Bool.or_true, Bool.and_true]
    | false => rw [Bool.and_false]
  rw [habs]
  decide

/-- The text is read-only as long as the entries of text pages meet the
    condition. -/
theorem readOnly_of_mapped (hn : n < 64) (h : Mapped (textWord S) s) : ReadOnly S s := by
  have hle : ∀ {i : Fin n} {j : Nat}, TextPage S i j → j ≤ 31 := fun ht => Nat.le_of_lt ht.1
  refine ⟨fun i j hi ht => (h.tables i hi j (hle ht)).2 ht, fun slot i j ht hhi => ?_⟩
  -- Entries of the TLB come from page tables.
  rcases h.tlb slot with hzero | ⟨a, b, hb, hab, hlo⟩
  · rw [hzero]
    exact BitVec.zero_and
  · rcases tableHi_inj hn hb (hle ht) (hab.symm.trans hhi) with ⟨rfl, rfl⟩
    exact hlo ht

/-- The load of a text page makes it writable. -/
theorem not_readOnly_of_loads (ho : Allotted s) (hm : Mapped (textWord S) s) {e : UEvent n}
    (hs : s.next S e = some s') (hl : LoadsText S s e) : ¬ ReadOnly S s' := by
  rcases hl with ⟨⟨i, j⟩, hload, htext⟩
  rcases commit_of_loads hload with ⟨f, v, rfl, hpc, rfl⟩
  simp only [] at hs hpc htext
  have hlife : (s.pc i).life = .holding := by
    rw [hpc]
    rfl
  have hserves : v.Serves n f := hm.place hpc
  have hstep : s.next S (.step i) = some (s.commitPage S i f v) := by
    simp only [next, (ustep_of_next hs).1, handle, hpc]
  rw [hstep, Option.some.injEq] at hs
  -- The U-proc has its ASID, and its page has an index.
  simp only [commitPage, ho.asid i hlife, addEntrySwapPoolTable, hserves.index, Except.map] at hs
  have hpc' : s'.pc i = .release f := by
    rw [← hs]
    exact Function.update_self _ _ _
  intro hro
  -- The entry that was written is the one of the text page.
  have hclear := hro.1 i v.pIndex (by rw [hpc']; rfl) htext
  rw [← hs] at hclear
  simp only [current, setPc, SupportLevel.setTable, Function.update_self, updatePageTable] at hclear
  exact resident_dirty _ hclear

/-- Only a Cause register that is the number of the exception takes the branch of
    `support_tlb` for TLB-Modification exceptions. -/
theorem handle_cause {f : Fault} (hpc : s.pc i = .cause f) :
    s.handle S i = some (s.setPc i .trap) ↔ f.cause = CAUSE_TLB_MOD := by
  simp only [handle, hpc, Option.some.injEq]
  by_cases hc : f.cause = CAUSE_TLB_MOD
  · rw [if_pos hc]
    exact iff_of_true rfl hc
  · rw [if_neg hc]
    refine iff_of_false (fun heq => ?_) hc
    have hpcs := congrFun (congrArg SupportLevel.pc heq) i
    simp only [setPc, Function.update_self, reduceCtorEq] at hpcs

theorem cause_ne_of_exccode {cause : Word} (h : CAUSE_GET_EXCCODE cause = CAUSE_TLB_MOD) :
    cause ≠ CAUSE_TLB_MOD := by
  rintro rfl
  revert h
  decide

/-- The text of every U-proc is read-only in every run that loads no page of it,
    and the next step keeps it read-only if and only if it is not the load of a
    page of text. The branch for TLB-Modification exceptions is taken if and
    only if the whole Cause register is 1, so it is never taken for an exception
    with this code. -/
theorem text_read_only_iff (hn : n < 64) {es : List (UEvent n)}
    (h : ((supportLevel S).restrict (fun s e => ¬ LoadsText S s e)).Run es s) :
    ReadOnly S s ∧
    (∀ e s', s.next S e = some s' → (ReadOnly S s' ↔ ¬ LoadsText S s e)) ∧
    ∀ (t : SupportLevel n) i f, t.pc i = .cause f →
      (t.handle S i = some (t.setPc i .trap) ↔ f.cause = CAUSE_TLB_MOD) ∧
      (CAUSE_GET_EXCCODE f.cause = CAUSE_TLB_MOD → t.handle S i = some (t.setPc i (.pass f))) := by
  have hcommit : ∀ s i f v, Mapped (textWord S) s → ¬ LoadsText S s (.step i) →
      s.pc i = .commit f v → textWord S i v.pIndex (resident (pageAddr S.swapPoolAddr v.frame)) :=
    fun s i f v _ hl hpc ht => absurd ⟨(i, v.pIndex), loads_commit hpc, ht⟩ hl
  have hm := mapped_run hn admits_textWord hcommit h
  have ho := allotted_run (System.run_of_restrict h)
  refine ⟨readOnly_of_mapped hn hm, fun e s' hs => ⟨fun hro hl => ?_, fun hl => ?_⟩,
    fun t i f hpc => ⟨handle_cause hpc, fun hc => ?_⟩⟩
  · exact not_readOnly_of_loads ho hm hs hl hro
  · exact readOnly_of_mapped hn (mapped_run hn admits_textWord hcommit (System.Run.step h ⟨hs, hl⟩))
  · simp only [handle, hpc, if_neg (cause_ne_of_exccode hc)]

end TextPages

/-- The first load of a text page makes it writable, in the page table and in the
    TLB. -/
theorem text_writable_after_load : ∃ es s, (supportLevel samplePlatform).Run es s ∧
    TextPage samplePlatform 0 0 ∧ s.pc 0 = .user ∧ (s.tlb 0).pteEntryHi = tableHi (0 : Fin 2) 0 ∧
      ((s.current 0).supPrivatePageTable 0).pteEntryLo &&& DIRTYON ≠ 0 ∧
      (s.tlb 0).pteEntryLo &&& DIRTYON ≠ 0 ∧ ¬ ReadOnly samplePlatform s := by
  rcases exists_uproc_run samplePlatform (fun _ _ => True)
    (bootUprocs ++ pageFault 0 0 0 ++ pickFrame 0 0 ++ loadPage 0)
    (fun s => s.pc 0 = .user ∧ (s.tlb 0).pteEntryHi = tableHi (0 : Fin 2) 0 ∧
      ((s.current 0).supPrivatePageTable 0).pteEntryLo &&& DIRTYON ≠ 0 ∧
      (s.tlb 0).pteEntryLo &&& DIRTYON ≠ 0) (by decide +kernel) with
    ⟨es, s, hrun, hpc, hhi, htable, htlb⟩
  have htext : TextPage samplePlatform 0 0 := by decide
  refine ⟨es, s, System.run_of_restrict hrun, htext, hpc, hhi, htable, htlb, fun hro => ?_⟩
  exact htable (hro.1 0 0 (by rw [hpc]; rfl) htext)

/-- A page of data is loaded. -/
theorem text_read_only_iff_sample : ∃ es s,
    ((supportLevel samplePlatform).restrict
      (fun s e => ¬ LoadsText samplePlatform s e)).Run es s ∧
    s.pc 0 = .user ∧ ((s.current 0).supPrivatePageTable 1).pteEntryLo &&& VALIDON ≠ 0 ∧
      ReadOnly samplePlatform s := by
  rcases exists_uproc_run samplePlatform (fun s e => ¬ LoadsText samplePlatform s e)
    (bootUprocs ++ pageFault 0 1 0 ++ pickFrame 0 0 ++ loadPage 0)
    (fun s => s.pc 0 = .user ∧
      ((s.current 0).supPrivatePageTable 1).pteEntryLo &&& VALIDON ≠ 0) (by decide +kernel) with
    ⟨es, s, hrun, hpc, hvalid⟩
  exact ⟨es, s, hrun, hpc, hvalid, (text_read_only_iff (by decide) hrun).1⟩

end Pandos
