import Pandos.Theory.PageTables
import Pandos.Theory.UprocReplay

/-!
# Bad Addresses

What happens when a U-proc touches an address in `kuseg`. The TLB-Refill handler
translates the address with the same two functions as `support_tlb`, and both
call `panic` for an address they do not know. An access to such an address never
gets as far as `support_tlb`: no entry of the TLB answers for it, so the
TLB-Refill handler comes first.

## Main definitions

* `Contained`: An access leaves the machine running and hurts nobody else.

## Theorems

* `panics_touch`: The only panics are the ones of the TLB-Refill handler.
* `bad_address_contained_iff`: An access is harmless exactly when its address
  lies in the pages of the U-proc.
-/

namespace Pandos

section BadAddress

variable {n : Nat}

open SupportLevel

/-- However the machine answers to an access of U-proc `i`, it keeps running. If
    the address lies in none of the pages of a U-proc, then the U-proc is on its
    way to `sys_terminate`, and nothing else has changed. -/
def Contained (S : Platform n) (s : SupportLevel n) (i : Fin n) (addr : Word) : Prop :=
  ∀ a cause slot s', s.next S (.touch i addr a cause slot) = some s' →
    s'.down = none ∧ (pageOf addr = none → s' = s.setPc i .trap)

/-- A U-proc is in `support_tlb`. -/
def Pc.paging : Pc n → Bool
  | .cause _ => true
  | .pass _ => true
  | .passing _ => true
  | .take _ => true
  | .pick _ _ => true
  | .copy _ _ => true
  | .evict _ _ _ => true
  | .write _ _ _ _ => true
  | .writing _ _ _ _ => true
  | .read _ _ => true
  | .reading _ _ => true
  | .commit _ _ => true
  | .release _ => true
  | .releasing _ => true
  | .drop _ => true
  | _ => false

variable {S : Platform n} {s s' : SupportLevel n} {i : Fin n}

/-- The machine stops when somebody panics, or when `test` ends. -/
theorem panics_of_down {e : UEvent n} (hdown : s.down = none) (h : UStep S s e s') {msg : String}
    (hpanic : s'.down = some (.panic msg)) : Panics S s e := by
  have hnone : s.down ≠ some (.panic msg) := fun hc => by
    rw [hdown] at hc
    cases hc
  -- All steps but a panic leave the machine running, or end it with `test`.
  cases h with
  | panic _ h => exact h
  | lock =>
      rw [swapPoolOp_eq] at hpanic
      exact absurd hpanic hnone
  | unlock =>
      rw [swapPoolOp_eq] at hpanic
      exact absurd hpanic hnone
  | post =>
      rw [masterSemaphoreV_eq] at hpanic
      exact absurd hpanic hnone
  | wait =>
      rw [masterSemaphoreP_eq] at hpanic
      exact absurd hpanic hnone
  | evict _ _ _ _ h₁ =>
      rw [h₁] at hpanic
      exact absurd hpanic hnone
  | @complete dev ok r rest _ s₁ h₁ =>
      rcases transfer_eq h₁ with ⟨ram, blocks, rfl⟩
      cases hw : r.who with
      | some j =>
          rw [hw] at hpanic
          exact absurd hpanic hnone
      | none =>
          rw [hw] at hpanic
          simp only [finish] at hpanic
          split at hpanic
          · split at hpanic
            · exact absurd hpanic hnone
            · cases hpanic
          · exact absurd hpanic hnone
  | halt => cases hpanic
  | _ => exact absurd hpanic hnone

/-- An access does not halt the machine. -/
theorem down_touch {addr cause : Word} {a : Access} {slot : Nat}
    (h : UStep S s (.touch i addr a cause slot) s') :
    s'.down = s.down ∨ ∃ msg, s'.down = some (.panic msg) := by
  cases h with
  | panic msg => exact Or.inr ⟨msg, rfl⟩
  | quit => exact Or.inl rfl
  | refill => exact Or.inl rfl
  | fault => exact Or.inl rfl
  | access => exact Or.inl rfl

/-- The translation fails exactly for the addresses outside the pages of a
    U-proc. -/
theorem refill_error_iff (hn : n < 64) (pageTable : PageTable) (addr : Word) :
    (∃ msg, tlbRefillEntry pageTable (entryHiOf i addr) = .error msg) ↔ pageOf addr = none := by
  rw [← entryhiToIndex_entryHiOf hn i addr, tlbRefillEntry]
  cases entryhiToIndex (entryHiOf i addr) with
  | error msg => exact iff_of_true ⟨msg, rfl⟩ rfl
  | ok j =>
      exact iff_of_false (fun hc => by rcases hc with ⟨msg, hc⟩; cases hc) (fun hc => by cases hc)

/-- The only panics are the ones of `tlb_refill_handler`, for an address outside
    the pages of the U-proc. -/
theorem panics_touch (hn : n < 64) (ho : Allotted s) (hm : Mapped (fun _ _ _ => True) s)
    {e : UEvent n} (h : Panics S s e) :
    ∃ i addr a cause slot, e = .touch i addr a cause slot ∧ s.pc i = .user ∧ ¬ addr < KUSEG ∧
      pageOf addr = none := by
  cases h with
  | @refill i addr cause a slot msg hpc ha _ he =>
      exact ⟨i, addr, a, cause, slot, rfl, hpc, ha, (refill_error_iff hn _ addr).mp ⟨msg, he⟩⟩
  | @baton i f hpc ha =>
      -- A U-proc that runs has a support structure, with its ASID.
      have hlife : (s.pc i).life = .holding := by
        rcases hpc with hpc | hpc | hpc
        · rw [hpc]
          rfl
        · rw [hpc]
          rfl
        · rw [hpc]
          rfl
      rw [ho.asid i hlife] at ha
      cases ha
  -- The fault was let in by the TLB, so the pager knows its page.
  | @vpn i f frame msg hpc he =>
      have hplace := hm.place hpc
      rcases hplace.1 with ⟨j, hj⟩
      rw [entryhiToIndex, he] at hj
      cases hj
  | @index i f frame pVpn msg hpc hv he =>
      have hplace := hm.place hpc
      rcases hplace.1 with ⟨j, hj⟩
      rw [entryhiToIndex, hv] at hj
      exact absurd (he.symm.trans hj) (by simp only [reduceCtorEq, not_false_eq_true])
  -- The pointers of the swap pool table lead to entries of page tables.
  | @evict i f v swap asid t k msg hpc _ hp he =>
      rcases hm.copies i f v swap t k hpc hp with ⟨hk, a, ha⟩
      rw [(ha k hk).1, entryhiToIndex_tableHi hn a hk] at he
      cases he
  | @commit i f v msg hpc he =>
      have hplace := hm.place hpc
      exact absurd (he.symm.trans hplace.index) (by simp only [reduceCtorEq, not_false_eq_true])
  | @double i hpc ht => exact absurd ht (ho.held i (by rw [hpc]; rfl))
  | empty htest hi he => exact absurd he (supportFree_ne_nil ho htest hi)

/-- An address outside the pages of a U-proc is not in the TLB. -/
theorem lookup_bad (hn : n < 64) (hm : Mapped (fun _ _ _ => True) s) {addr : Word}
    (ha : ¬ addr < KUSEG) (hbad : pageOf addr = none) : s.lookup S i addr = none := by
  cases hl : s.lookup S i addr with
  | none => rfl
  | some e =>
      rcases located_of_lookup hn hm ha hl with ⟨j, hj⟩
      rw [hbad] at hj
      cases hj

/-- In every reachable state, an access of a U-proc in user mode to an address
    at or above `KUSEG` is harmless if and only if the address lies in its 31
    program pages or its stack page. `support_tlb` never panics. -/
theorem bad_address_contained_iff (hn : n < 64) {es : List (UEvent n)}
    (h : (supportLevel S).Run es s) (hdown : s.down = none) :
    (∀ i addr, s.pc i = .user → ¬ addr < KUSEG →
      (Contained S s i addr ↔ (pageOf addr).isSome = true)) ∧
    ∀ i s', (s.pc i).paging = true → s.next S (.step i) = some s' →
      ∀ msg, s'.down ≠ some (.panic msg) := by
  have ho := allotted_run h
  have hm := mapped_any hn h
  have hpanics : ∀ e s' msg, s.next S e = some s' → s'.down = some (.panic msg) →
      ∃ i addr a cause slot, e = .touch i addr a cause slot ∧ s.pc i = .user ∧ ¬ addr < KUSEG ∧
        pageOf addr = none := fun e s' msg hs hp =>
    panics_touch hn ho hm (panics_of_down hdown (ustep_of_next hs).2 hp)
  refine ⟨fun i addr hpc ha =>
      ⟨fun hc => ?_, fun hsome => fun a cause slot s' hs => ⟨?_, fun hbad => ?_⟩⟩,
    fun i s' _ hs msg hp => ?_⟩
  · -- The TLB-Refill handler gets every access to a bad address, and panics.
    cases hp : pageOf addr with
    | some j => rfl
    | none =>
        rcases (refill_error_iff (i := i) hn (s.current i).supPrivatePageTable addr).mpr hp with
          ⟨msg, he⟩
        have hs : s.next S (.touch i addr .load 0 0) = some (s.panic msg) := by
          simp only [next, hdown, hpc, if_true, touch, if_neg ha, lookup_bad hn hm ha hp, he]
        have hnone := (hc .load 0 0 (s.panic msg) hs).1
        cases hnone
  · -- A panic would need a bad address.
    rcases down_touch (ustep_of_next hs).2 with hd | ⟨msg, hd⟩
    · rw [hd, hdown]
    · rcases hpanics _ s' msg hs hd with ⟨_, _, _, _, _, he, _, _, hbad⟩
      cases he
      rw [hbad] at hsome
      cases hsome
  · rw [hbad] at hsome
    cases hsome
  · rcases hpanics _ s' msg hs hp with ⟨_, _, _, _, _, he, _⟩
    cases he

end BadAddress

/-- An address above the pages of the first U-proc stops the machine. -/
theorem bad_address_panics : ∃ es s, (supportLevel samplePlatform).Run es s ∧ s.down = none ∧
    s.pc 0 = .user ∧ ¬ (0x80020000 : Word) < KUSEG ∧ pageOf 0x80020000 = none ∧
      ¬ Contained samplePlatform s 0 0x80020000 := by
  rcases exists_uproc_run samplePlatform (fun _ _ => True) bootUprocs
    (fun s => (s.down = none ∧ s.pc 0 = .user) ∧
      (s.next samplePlatform (.touch 0 0x80020000 .load 0 0)).any (fun s' =>
        decide (s'.down = some (.panic "pager: entryhi_to_vpn: %p?\n"))) = true)
    (by decide +kernel) with ⟨es, s, hrun, ⟨hdown, hpc⟩, hnext⟩
  rw [Option.any_eq_true] at hnext
  rcases hnext with ⟨s', hs', hpanic⟩
  refine ⟨es, s, System.run_of_restrict hrun, hdown, hpc, by decide, by decide, fun hc => ?_⟩
  have hnone := (hc .load 0 0 s' hs').1
  rw [of_decide_eq_true hpanic] at hnone
  cases hnone

/-- The last address of the program and the first one behind it, after the
    U-procs have been created. -/
theorem bad_address_contained_iff_sample : ∃ es s, (supportLevel samplePlatform).Run es s ∧
    Contained samplePlatform s 0 0x8001EFFC ∧ ¬ Contained samplePlatform s 0 0x8001F000 ∧
      Contained samplePlatform s 1 0xBFFFF000 := by
  rcases exists_uproc_run samplePlatform (fun _ _ => True) bootUprocs
    (fun s => s.down = none ∧ s.pc 0 = .user ∧ s.pc 1 = .user) (by decide +kernel) with
    ⟨es, s, hrun, hdown, hpc, hpc'⟩
  have hall := (bad_address_contained_iff (by decide) (System.run_of_restrict hrun) hdown).1
  refine ⟨es, s, System.run_of_restrict hrun, (hall 0 0x8001EFFC hpc (by decide)).mpr (by decide),
    fun hc => ?_, (hall 1 0xBFFFF000 hpc' (by decide)).mpr (by decide)⟩
  have hsome := (hall 0 0x8001F000 hpc (by decide)).mp hc
  exact absurd hsome (by decide)

end Pandos
