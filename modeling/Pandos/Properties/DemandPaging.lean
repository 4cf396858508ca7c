import Pandos.Theory.Contents
import Pandos.Theory.UprocReplay

/-!
# Demand Paging

What a U-proc loads from its pages, compared with a flat memory that performs
the same stores and starts with the contents of the flash devices. The two are
the same as long as no U-proc takes a frame from another one.

## Main definitions

* `UEvent.smooth`: No flash operation fails, and no U-proc terminates.

## Theorems

* `paging_transparent`: Loads return what the flat memory holds.
* `storeFlat_load`: Loads do not change the flat memory.
-/

namespace Pandos

section DemandPaging

variable {n : Nat}

open SupportLevel

/-- No flash operation fails, and no U-proc terminates. -/
def UEvent.smooth : UEvent n → Bool
  | .touch _ addr _ _ _ => ! decide (addr < KUSEG)
  | .quit _ => false
  | .flash _ ok => ok
  | _ => true

/-- Memory is only read. -/
def UEvent.reads : UEvent n → Bool
  | .touch _ _ (.store _ _) _ _ => false
  | _ => true

variable {S : Platform n} {s s' : SupportLevel n} {i : Fin n} {flat : Fin n → Nat → Page}

/-- In every run in which each U-proc uses frames that are unoccupied or its own,
    and in which no flash operation fails while a U-proc replaces a page of its
    own, a U-proc in user mode loads from an address the word it stored there
    last, or the word of its flash device if it has stored none. -/
theorem paging_transparent (hn : n < 64) (hal : S.Aligned) {es : List (UEvent n)}
    (h : (watchedRuns S).Run es (s, flat)) (hpc : s.pc i = .user) {addr w : Word}
    (hl : s.loaded S i addr = some w) : ∃ j, pageOf addr = some j ∧ w = flat i j (offset addr) := by
  have hbenign := System.run_of_observed h
  unfold SupportLevel.loaded at hl
  cases hlook : s.lookup S i addr with
  | none =>
      rw [hlook] at hl
      cases hl
  | some e =>
      simp only [hlook] at hl
      by_cases hr : Access.load.refused e = none
      · rw [if_pos hr, Option.some.injEq] at hl
        rcases place_of_access hn hal (mapped_benign hn hbenign) (agree_run hn hal hbenign) hpc
          hlook hr with ⟨j, hj, hpage, hplace⟩
        refine ⟨j, hpage, ?_⟩
        -- The frame holds what the flat memory holds for the page.
        have hview := (mirrors_run hn hal h).view i j (Or.inr (by rw [hpc]; rfl)) hj
        rw [Paged.view_placed (p := pages S s) hplace] at hview
        rw [← hl, ← hview]
        rfl
      · rw [if_neg hr] at hl
        cases hl

/-- Loads do not change the flat memory. -/
theorem storeFlat_load {e : UEvent n} (h : e.reads = true) : storeFlat S s e s' flat = flat := by
  cases e with
  | touch i addr a cause slot =>
      cases a with
      | load =>
          simp only [storeFlat]
          split
          · split
            · simp only [Access.result, Function.update_eq_self]
            · rfl
          · rfl
      | store mask w => cases h
  | _ => rfl

/-- The runs whose events all meet a condition, watched by the flat memory. -/
abbrev eventRuns (S : Platform n) (ok : UEvent n → Prop) :
    System (SupportLevel n × (Fin n → Nat → Page)) (UEvent n) :=
  ((supportLevel S).restrict (fun _ e => ok e)).observed (fun _ => S.blocks) (storeFlat S)

/-- As long as memory is only read, the flat memory holds what stands on the flash
    devices. -/
theorem smooth_reads {es : List (UEvent n)}
    (h : ((supportLevel S).restrict (fun _ e => e.smooth = true ∧ e.reads = true)).Run es s) :
    (eventRuns S (fun e => e.smooth = true)).Run es (s, S.blocks) := by
  rcases System.run_observed (fun _ => S.blocks) (storeFlat S) h with ⟨flat, hflat⟩
  have hstart : ∀ x, (eventRuns S (fun e => e.smooth = true ∧ e.reads = true)).init x →
      x.2 = S.blocks := fun x hx => hx.2
  have hstep : ∀ x e x', (eventRuns S (fun e => e.smooth = true ∧ e.reads = true)).step x e x' →
      (eventRuns S (fun e => e.smooth = true)).step x e x' :=
    fun x e x' hs => ⟨⟨hs.1.1, hs.1.2.1⟩, hs.2⟩
  -- No event is a store, so the watcher never changes its record.
  have hsame : flat = S.blocks := by
    refine System.run_invariant (P := fun x => x.2 = S.blocks) hstart
      (fun es x e x' _ hx hs => ?_) hflat
    rw [hs.2, storeFlat_load hs.1.2.2]
    exact hx
  subst hsame
  refine System.run_mono ?_ hstep hflat
  exact fun x hx => hx

end DemandPaging

/-- The first U-proc fills the swap pool, and the second one takes a frame. Then
    the first one reads the word of the other. -/
theorem paging_leaks : ∃ es s flat,
    (eventRuns samplePlatform (fun e => e.smooth = true)).Run es (s, flat) ∧
    samplePlatform.Aligned ∧ s.pc 0 = .user ∧ s.loaded samplePlatform 0 0x80000000 = some 200 ∧
      ¬ ∃ j, pageOf 0x80000000 = some j ∧
        (200 : Word) = flat 0 j (SupportLevel.offset 0x80000000) := by
  rcases exists_uproc_run samplePlatform (fun _ e => e.smooth = true ∧ e.reads = true)
    (bootUprocs ++ fillPool ++
      pageFault 1 0 4 ++ pickFrame 1 4 ++ evictPage 1 0 ++ loadPage 1)
    (fun s => s.pc 0 = .user ∧ s.loaded samplePlatform 0 0x80000000 = some 200) (by decide +kernel)
    with ⟨es, s, hrun, hpc, hload⟩
  refine ⟨es, s, _, smooth_reads hrun, by decide, hpc, hload, fun hc => ?_⟩
  rcases hc with ⟨j, hj, hw⟩
  have hzero : j = 0 := Option.some.inj (hj.symm.trans (by decide))
  subst hzero
  exact absurd hw (by decide)

/-- A word is stored, its page goes to the device and comes back, and the word is
    loaded. -/
theorem paging_transparent_sample : ∃ es s flat, (watchedRuns samplePlatform).Run es (s, flat) ∧
    s.loaded samplePlatform 0 0x80000000 = some 7 ∧ ∃ j, pageOf 0x80000000 = some j ∧
      (7 : Word) = flat 0 j (SupportLevel.offset 0x80000000) := by
  rcases exists_uproc_run samplePlatform Benign
    (bootUprocs ++ fillPool ++
      [.touch 0 0x80000000 (.store 0xFFFFFFFF 7) 0 0] ++
      pageFault 0 4 4 ++ pickFrame 0 4 ++ evictPage 0 0 ++ loadPage 0 ++
      (pageFault 0 0 0).tail ++ pickFrame 0 4 ++ evictPage 0 0 ++ loadPage 0)
    (fun s => s.pc 0 = .user ∧ (s.flash 0).blocks 0 0 = 7 ∧
      s.loaded samplePlatform 0 0x80000000 = some 7) (by decide +kernel) with
    ⟨es, s, hrun, hpc, _, hload⟩
  rcases System.run_observed (fun _ => samplePlatform.blocks) (storeFlat samplePlatform) hrun with
    ⟨flat, hflat⟩
  exact ⟨es, s, flat, hflat, hload, paging_transparent (by decide) (by decide) hflat hpc hload⟩

end Pandos
