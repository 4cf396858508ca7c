import Pandos.Theory.SemdLists

/-!
# Semaphore Lookup

`find_semd` finds a descriptor by its exact key on the target, where pointers
have the 32 bits of an `int`. With pointers of 64 bits `key_cmp` cannot tell two
semaphores apart that lie a multiple of 16 GiB from each other, and the
descriptor of the one may be returned for the other.

`find_semd` refuses `NULL`, wherever the build puts it. No descriptor in use has
that key, because `alloc_semd` refuses it too.

## Main definitions

* `FindsExact`: A search returns the first descriptor with the wanted key.
* `Separates`: Nothing in front of it has a key that looks the same.

## Theorems

* `separates_of_le`: Pointers of 32 bits never look the same.
* `find_semd_exact_iff`: When a search is exact.
* `find_semd_mistaken`: A descriptor 16 GiB away is found.
-/

namespace Pandos

section SemaphoreLookup

variable {w : Nat} {ι δ : Type} [DecidableEq ι] [DecidableEq δ]

/-- `find_semd` ends, and returns the first descriptor whose key is the wanted
    one, or `NULL` if there is none. -/
def DescriptorList.FindsExact (L : DescriptorList w ι δ) (semAddr : IntPtr w) : Prop :=
  ∀ rounds, L.semds.length < rounds →
    L.findSemd rounds (some (.head L.head)) semAddr =
      some (L.semds.find? (fun d => decide (L.sKey d = semAddr)))

/-- A descriptor whose key is another address, a multiple of 16 GiB from the
    wanted one, stands behind a descriptor with the wanted key. `NULL` is the key
    of no descriptor. -/
def DescriptorList.Separates (L : DescriptorList w ι δ) (semAddr : IntPtr w) : Prop :=
  if semAddr.addr = L.null then ∀ d ∈ L.semds, (L.sKey d).addr ≠ L.null
  else ∀ before d after, L.semds = before ++ d :: after → semAddr.Alias (L.sKey d) →
    L.sKey d ≠ semAddr → ∃ e ∈ before, L.sKey e = semAddr

variable {L : DescriptorList w ι δ} {semAddr : IntPtr w}

omit [DecidableEq ι] [DecidableEq δ] in
/-- Short pointers are separate unless `NULL` is looked for. -/
theorem separates_of_le (hw : w ≤ 34)
    (hnull : semAddr.addr = L.null → ∀ d ∈ L.semds, (L.sKey d).addr ≠ L.null) :
    L.Separates semAddr := by
  unfold DescriptorList.Separates
  split
  · rename_i h
    exact hnull h
  · intro before d after _ halias hne
    exact absurd ((alias_iff_eq hw).mp halias).symm hne

theorem finds_null_iff (hnull : semAddr.addr = L.null) :
    L.FindsExact semAddr ↔ ∀ d ∈ L.semds, (L.sKey d).addr ≠ L.null := by
  have hnone : L.semds.find? (fun d => decide (L.sKey d = semAddr)) = none ↔
      ∀ d ∈ L.semds, (L.sKey d).addr ≠ L.null := by
    simp only [List.find?_eq_none, decide_eq_true_iff, ← hnull, IntPtr.ext_iff, ne_eq]
  rw [← hnone]
  constructor
  · intro h
    have hrun := h (L.semds.length + 1) (Nat.lt_succ_self _)
    rw [findSemd_null hnull] at hrun
    exact (Option.some.inj hrun).symm
  · intro h rounds _
    rw [findSemd_null hnull, h]

theorem finds_iff (hne : semAddr.addr ≠ L.null) :
    L.FindsExact semAddr ↔
      ∀ before d after, L.semds = before ++ d :: after → semAddr.Alias (L.sKey d) →
        L.sKey d ≠ semAddr → ∃ e ∈ before, L.sKey e = semAddr := by
  have hweak : ∀ d, decide (L.sKey d = semAddr) = true →
      decide (semAddr.Alias (L.sKey d)) = true := by
    intro d hd
    rw [decide_eq_true_iff] at hd ⊢
    rw [hd]
    exact Nat.ModEq.refl _
  have hsame := find?_eq_find?_iff (l := L.semds) hweak
  simp only [decide_eq_true_iff, decide_eq_false_iff_not] at hsame
  rw [← hsame]
  constructor
  · intro h
    have hrun := h (L.semds.length + 1) (Nat.lt_succ_self _)
    rw [findSemd_eq hne (Nat.lt_succ_self _)] at hrun
    exact Option.some.inj hrun
  · intro h rounds hr
    rw [findSemd_eq hne hr, h]

/-- For pointers of any width and wherever `NULL` is, `find_semd` is exact if and
    only if the list separates the wanted key from all others, as it does for all
    keys on the target. -/
theorem find_semd_exact_iff (ι δ : Type) [DecidableEq ι] [DecidableEq δ] :
    (∀ (w : Nat) (L : DescriptorList w ι δ) (semAddr : IntPtr w),
      L.FindsExact semAddr ↔ L.Separates semAddr) ∧
    ∀ (L : DescriptorList 32 ι δ) (semAddr : IntPtr 32),
      L.Separates semAddr ↔
        (semAddr.addr = L.null → ∀ d ∈ L.semds, (L.sKey d).addr ≠ L.null) := by
  refine ⟨fun w L semAddr => ?_, fun L semAddr => ⟨fun h hnull => ?_, fun h => ?_⟩⟩
  · unfold DescriptorList.Separates
    by_cases hne : semAddr.addr = L.null
    · rw [if_pos hne]
      exact finds_null_iff hne
    · rw [if_neg hne]
      exact finds_iff hne
  · unfold DescriptorList.Separates at h
    rw [if_pos hnull] at h
    exact h
  · exact separates_of_le (by decide) h

end SemaphoreLookup

/-! ## Samples -/

/-- The address of a semaphore. -/
def nearKey : IntPtr 64 := ⟨0x1000, by decide⟩

/-- The address 16 GiB behind it. -/
def farKey : IntPtr 64 := ⟨0x400001000, by decide⟩

/-- A list with one descriptor, for the semaphore that is far away. -/
def farList : DescriptorList 64 Unit Unit where
  null := 0
  links :=
    { next := fun c => match c with
        | .head _ => some (.sLink ())
        | _ => some (.head ())
      prev := fun c => match c with
        | .head _ => some (.sLink ())
        | _ => some (.head ()) }
  sKey _ := farKey
  head := ()
  semds := [()]
  ring := ⟨⟨rfl, rfl⟩, ⟨rfl, rfl⟩⟩

/-- The semaphore has no descriptor in the list, and yet one is found. -/
theorem find_semd_mistaken : nearKey ≠ farKey ∧ ¬ farList.FindsExact nearKey := by
  refine ⟨by decide, fun h => ?_⟩
  have hrun := h 2 (by decide)
  have hfound : farList.findSemd 2 (some (.head farList.head)) nearKey = some (some ()) := by
    decide +kernel
  have hnone : farList.semds.find? (fun d => decide (farList.sKey d = nearKey)) = none := by
    decide +kernel
  rw [hfound, hnone] at hrun
  cases hrun

end Pandos
