import Pandos.Theory.AgreementSteps
import Pandos.Theory.MemoryReplay
import Pandos.Theory.SupportMemory

/-!
# Agreement of Page Tables, Frames and TLB

What the page tables, the swap pool table and the TLB say about each other while
nobody is inside the section of `support_tlb`. They agree as long as no U-proc
takes a frame from another one, no flash operation fails while a U-proc replaces a
page of its own, and the calls of `allocate` and `deallocate` do not overlap.

`mark_frames_as_unoccupied` gives up the frames of a U-proc one after the other,
with interrupts on and outside the section, and leaves the entries of its page
table as they are. From its first frame on a U-proc that terminates does not agree
with the rest of the tables any more, and somebody else can have its frames.

## Main definitions

* `Consistent`: The tables agree, and U-procs do not share frames.
* `SupportLevel.Exists`: A U-proc has been created and is not dead.

## Theorems

* `tables_agree`: The tables agree in every run of benign steps.
* `frame_shared`, `frame_given_twice`: Two entries lead to one frame.
-/

namespace Pandos

section PageAgreement

variable {n : Nat}

open SupportLevel

/-- The page tables, the swap pool table and the TLB agree about the U-procs that
    count as live. -/
structure Consistent (S : Platform n) (s : SupportLevel n) (live : Fin n → Prop) : Prop where
  /-- An occupied frame has an owner that has not given up all of its frames, and
      the entry of its page leads to the frame. -/
  frames : ∀ f a, (s.swapPoolTable f).swAsid = some a → (s.pc a).owns = true ∧
    ∃ j, vpnToIndex (s.swapPoolTable f).swPageNo = .ok j ∧
      (s.swapPoolTable f).swPte = some (s.support a, j) ∧
      (s.entry a j).pteEntryLo &&& VALIDON ≠ 0 ∧
      PteEntry.frame (s.entry a j) = pageAddr S.swapPoolAddr f
  /-- A valid entry is the one of exactly one occupied frame. -/
  entries : ∀ a j, live a → j ≤ 31 → (s.entry a j).pteEntryLo &&& VALIDON ≠ 0 →
    ∃ f, ((s.swapPoolTable f).swAsid ≠ none ∧
      (s.swapPoolTable f).swPte = some (s.support a, j)) ∧
      ∀ g, (s.swapPoolTable g).swAsid ≠ none →
        (s.swapPoolTable g).swPte = some (s.support a, j) → g = f
  /-- Two valid entries never lead to the same frame. -/
  apart : ∀ a b j k, live a → live b → j ≤ 31 → k ≤ 31 →
    (s.entry a j).pteEntryLo &&& VALIDON ≠ 0 → (s.entry b k).pteEntryLo &&& VALIDON ≠ 0 →
    PteEntry.frame (s.entry a j) = PteEntry.frame (s.entry b k) → a = b ∧ j = k
  /-- A valid entry of the TLB is the one of the page table. -/
  tlb : ∀ slot a j, slot < S.tlbSize → live a → j ≤ 31 →
    (s.tlb slot).pteEntryHi = tableHi a j → (s.tlb slot).pteEntryLo &&& VALIDON ≠ 0 →
    s.tlb slot = s.entry a j

variable {S : Platform n} {s : SupportLevel n}

theorem Consistent.mono {live live' : Fin n → Prop} (h : Consistent S s live)
    (hlive : ∀ a, live' a → live a) : Consistent S s live' :=
  ⟨h.frames, fun a j ha => h.entries a j (hlive a ha),
    fun a b j k ha hb => h.apart a b j k (hlive a ha) (hlive b hb),
    fun slot a j hs ha => h.tlb slot a j hs (hlive a ha)⟩

/-- A U-proc has been created and is not dead. -/
def SupportLevel.Exists (s : SupportLevel n) (a : Fin n) : Prop :=
  s.pc a ≠ .unborn ∧ s.pc a ≠ .dead

instance (s : SupportLevel n) (a : Fin n) : Decidable (s.Exists a) :=
  inferInstanceAs (Decidable (_ ∧ _))

/-- Nobody fills a frame while nobody is inside the section. -/
theorem loading_outside (hout : ∀ i, s.phases i ≠ .inside) (i : Fin n) (frame : Nat) :
    (s.pc i).loading ≠ some frame :=
  fun hc => hout i (Pc.inside_of_loading hc _)

/-- The page of an occupied frame is in the frame. -/
theorem resident_outside (h : Agree S s) (hout : ∀ i, s.phases i ≠ .inside) {f : Nat} {a : Fin n}
    (ha : (s.swapPoolTable f).swAsid = some a) :
    ∃ j, j ≤ 31 ∧ vpnToIndex (s.swapPoolTable f).swPageNo = .ok j ∧
      (s.swapPoolTable f).swPte = some (s.support a, j) ∧
      (s.entry a j).pteEntryLo = resident (pageAddr S.swapPoolAddr f) := by
  rcases h.frame f a ha with ⟨j, hj, hx, hp, hres⟩
  exact ⟨j, hj, hx, hp, hres.resolve_right (fun hc => loading_outside hout a f hc.2)⟩

/-- The frame of a valid entry. -/
theorem frame_of_entry (hn : n < 64) (hal : S.Aligned) (h : Agree S s)
    (hout : ∀ i, s.phases i ≠ .inside) {a : Fin n} {j : Nat} (ha : (s.pc a).alive = true)
    (hj : j ≤ 31) (hv : (s.entry a j).pteEntryLo &&& VALIDON ≠ 0) :
    ∃ f, f < POOLSIZE n ∧ (s.swapPoolTable f).swAsid = some a ∧
      (s.swapPoolTable f).swPte = some (s.support a, j) ∧
      (s.entry a j).pteEntryLo = resident (pageAddr S.swapPoolAddr f) ∧
      PteEntry.frame (s.entry a j) = pageAddr S.swapPoolAddr f := by
  rcases h.entry a j ha hj hv with ⟨f, hfa, hfp⟩
  have hlt := (h.owner f a hfa).2
  rcases resident_outside h hout hfa with ⟨k, hk, _, hkp, hres⟩
  rw [hfp] at hkp
  cases hkp
  exact ⟨f, hlt, hfa, hfp, hres, frame_of_resident hn hal hlt hres⟩

/-- The tables agree where each call of `allocate` and `deallocate` is one step. -/
theorem consistent_of_benign (hn : n < 64) (hal : S.Aligned) {es : List (UEvent n)}
    (hrun : (benignRuns S).Run es s) (hout : ∀ i, s.phases i ≠ .inside) :
    Consistent S s (fun a => (s.pc a).alive = true) := by
  have ho := allotted_run (System.run_of_restrict hrun)
  have hm := mapped_benign hn hrun
  have h := agree_run hn hal hrun
  -- Two frames of the same page have the same address.
  have hunique : ∀ f g a b j, (s.swapPoolTable f).swAsid = some a →
      (s.swapPoolTable g).swAsid = some b → (s.swapPoolTable f).swPte = some (s.support a, j) →
      (s.swapPoolTable g).swPte = some (s.support a, j) → g = f := fun f g a b j hf hg hfp hgp => by
    rcases resident_outside h hout hf with ⟨j₁, _, _, hp₁, hres₁⟩
    rcases resident_outside h hout hg with ⟨j₂, _, _, hp₂, hres₂⟩
    rw [hfp] at hp₁
    rw [hgp, Option.some.injEq, Prod.mk.injEq] at hp₂
    have hab : a = b := ho.inj a b (Pc.holding_of_owns (h.owner f a hf).1)
      (Pc.holding_of_owns (h.owner g b hg).1) hp₂.1
    cases hp₁
    rw [← hab, ← hp₂.2] at hres₂
    exact resident_pageAddr_inj hn hal (h.owner g b hg).2 (h.owner f a hf).2
      (hres₂.symm.trans hres₁)
  refine ⟨fun f a ha => ?_, fun a j ha hj hv => ?_, fun a b j k ha hb hj hk hv hv' heq => ?_,
    fun slot a j hs ha hj hhi hv => ?_⟩
  · rcases resident_outside h hout ha with ⟨j, hj, hx, hp, hres⟩
    have hlt := (h.owner f a ha).2
    refine ⟨(h.owner f a ha).1, j, hx, hp, ?_, frame_of_resident hn hal hlt hres⟩
    rw [hres]
    exact (resident_bits (pageAddr_aligned hn hal hlt)).1
  · rcases frame_of_entry hn hal h hout ha hj hv with ⟨f, _, hfa, hfp, _⟩
    refine ⟨f, ⟨by rw [hfa]; exact Option.some_ne_none a, hfp⟩, fun g hg hgp => ?_⟩
    rcases Option.ne_none_iff_exists'.mp hg with ⟨b, hgb⟩
    exact hunique f g a b j hfa hgb hfp hgp
  · -- Equal frames have equal owners and equal pointers.
    rcases frame_of_entry hn hal h hout ha hj hv with ⟨f, hf, hfa, hfp, _, hff⟩
    rcases frame_of_entry hn hal h hout hb hk hv' with ⟨g, hg, hgb, hgp, _, hgf⟩
    have hfg : f = g := pageAddr_inj hn hf hg (hff.symm.trans (heq.trans hgf))
    subst hfg
    rw [hfa] at hgb
    cases hgb
    rw [hfp] at hgp
    cases hgp
    exact ⟨rfl, rfl⟩
  · -- Both words are those of the page table.
    have hhi' : (s.entry a j).pteEntryHi = tableHi a j :=
      (hm.tables a (Pc.holding_of_alive ha) j hj).1
    have hlo := h.tlb slot a j hs ha hj hhi
    generalize s.tlb slot = e at hhi hlo
    generalize s.entry a j = e' at hhi' hlo
    cases e
    cases e'
    simp only [PteEntry.mk.injEq] at hhi hhi' hlo ⊢
    exact ⟨hhi.trans hhi'.symm, hlo⟩

/-- In every run in which each U-proc uses frames that are unoccupied or its
    own, in which no flash operation fails while a U-proc replaces a page of its
    own, and in which the calls of `allocate` and `deallocate` do not overlap, the
    page tables, the swap pool table and the TLB agree about all U-procs that have
    not begun to give up their frames, whenever nobody is inside the section of
    `support_tlb`. These are all U-procs if nobody is in the last part of
    `sys_terminate`. -/
theorem tables_agree (hn : n < 64) (hal : S.Aligned) {es : List (UEvent n)} {x : SupportMemory n}
    (hrun : (memoryRuns S Benign).Run es x) (hout : ∀ i, x.level.phases i ≠ .inside) :
    Consistent S x.level (fun a => (x.level.pc a).alive = true) ∧
      ((∀ i, x.level.Exists i → (x.level.pc i).alive = true) →
        Consistent S x.level x.level.Exists) := by
  rcases run_of_orderly (fun _ _ _ he => he) hrun with ⟨ds, s, hbenign, l, rfl, _⟩
  have hc := consistent_of_benign hn hal hbenign hout
  have halive : Consistent S x.level (fun a => (x.level.pc a).alive = true) :=
    ⟨hc.frames, hc.entries, hc.apart, hc.tlb⟩
  exact ⟨halive, fun hall => halive.mono hall⟩

end PageAgreement

/-- The first U-proc fills the swap pool. The second one takes a frame, and both
    have a valid entry for it afterwards, back in their programs. -/
theorem frame_shared : ∃ es x, (supportMemory samplePlatform).Run es x ∧
    samplePlatform.Aligned ∧ (∀ i, x.level.pc i = .user) ∧
      ¬ Consistent samplePlatform x.level x.level.Exists := by
  rcases exists_memory_run samplePlatform (fun _ _ => True)
    (createUprocs ++ fillPool ++
      pageFault 1 0 4 ++ pickFrame 1 4 ++ evictPage 1 0 ++ loadPage 1)
    (fun x => (∀ i, x.level.pc i = .user) ∧
      (x.level.entry 0 0).pteEntryLo &&& VALIDON ≠ 0 ∧
      (x.level.entry 1 0).pteEntryLo &&& VALIDON ≠ 0 ∧
      PteEntry.frame (x.level.entry 0 0) = PteEntry.frame (x.level.entry 1 0))
    (by decide +kernel) with ⟨es, x, hrun, hpc, hv, hv', heq⟩
  refine ⟨es, x, System.run_of_restrict hrun, by decide, hpc, fun hc => ?_⟩
  have hexists : ∀ i, x.level.Exists i := fun i => by
    rw [SupportLevel.Exists, hpc i]
    constructor <;> exact fun h => by cases h
  have hsame := hc.apart 0 1 0 0 (hexists 0) (hexists 1) (by omega) (by omega) hv hv' heq
  exact absurd hsame.1 (by decide)

/-- The first U-proc has given up its first frame, and is still in the loop of
    `mark_frames_as_unoccupied` when the second one loads a page into it. Both have
    a valid entry for it, although all steps are benign and no calls overlap. -/
theorem frame_given_twice : ∃ es x, (memoryRuns samplePlatform Benign).Run es x ∧
    (∀ i, x.level.phases i ≠ .inside) ∧ ¬ Consistent samplePlatform x.level x.level.Exists := by
  rcases exists_memory_run samplePlatform (fun x e => x.Orderly e ∧ Benign x.level e)
    (createUprocs ++ pageFault 0 0 0 ++ pickFrame 0 0 ++ loadPage 0 ++
      [.quit 0, .step 0, .step 0, .step 0, .step 0] ++
      pageFault 1 0 1 ++ pickFrame 1 0 ++ loadPage 1)
    (fun x => (∀ i, x.level.phases i ≠ .inside) ∧ (x.level.Exists 0 ∧ x.level.Exists 1) ∧
      (x.level.entry 0 0).pteEntryLo &&& VALIDON ≠ 0 ∧
      (x.level.entry 1 0).pteEntryLo &&& VALIDON ≠ 0 ∧
      PteEntry.frame (x.level.entry 0 0) = PteEntry.frame (x.level.entry 1 0))
    (by decide +kernel) with ⟨es, x, hrun, hout, hexists, hv, hv', heq⟩
  refine ⟨es, x, hrun, hout, fun hc => ?_⟩
  have hsame := hc.apart 0 1 0 0 hexists.1 hexists.2 (by omega) (by omega) hv hv' heq
  exact absurd hsame.1 (by decide)

/-- The first U-proc uses more pages than there are frames, and replaces one of
    its own. -/
theorem tables_agree_sample : ∃ es x, (memoryRuns samplePlatform Benign).Run es x ∧
    (x.level.entry 0 0).pteEntryLo = 0 ∧ (x.level.entry 0 4).pteEntryLo &&& VALIDON ≠ 0 ∧
      Consistent samplePlatform x.level x.level.Exists := by
  rcases exists_memory_run samplePlatform (fun x e => x.Orderly e ∧ Benign x.level e)
    (createUprocs ++ fillPool ++
      pageFault 0 4 4 ++ pickFrame 0 4 ++ evictPage 0 0 ++ loadPage 0)
    (fun x => (∀ i, x.level.phases i ≠ .inside) ∧
      (∀ i, x.level.Exists i → (x.level.pc i).alive = true) ∧
      (x.level.entry 0 0).pteEntryLo = 0 ∧ (x.level.entry 0 4).pteEntryLo &&& VALIDON ≠ 0)
    (by decide +kernel) with ⟨es, x, hrun, hout, hall, hzero, hvalid⟩
  exact ⟨es, x, hrun, hzero, hvalid, (tables_agree (by decide) (by decide) hrun hout).2 hall⟩

end Pandos
