import Pandos.Theory.Progress
import Pandos.Theory.UprocReplay

/-!
# Progress of the Support Level

No handler hangs. When the U-procs leave the machine alone, every page fault and
every termination that has begun comes to its end, whatever the order of the
steps and whether the flash devices succeed, and this takes a number of steps
that depends on the number of U-procs only. Then either all U-procs that are
left are back in user mode and `test` waits for one of them, or the machine has
stopped.

## Main definitions

* `AtRest`: Nothing is left to do.

## Theorems

* `atRest_of_quiet`: Where nothing can be done, nothing is left to do.
* `handlers_finish`: Every handler comes to its end.
-/

namespace Pandos

section PagerProgress

variable {n : Nat}

open SupportLevel

/-- Nothing is left to do: the machine has stopped, or all U-procs are in user
    mode or dead, and `test` waits for one that is alive. -/
def AtRest (s : SupportLevel n) : Prop :=
  s.down ≠ none ∨
    (∃ k, s.test = .waiting k) ∧ (∀ i, s.pc i = .user ∨ s.pc i = .dead) ∧ ∃ i, s.pc i = .user

/-- There is a next step at this place of the code. -/
def Pc.runnable : Pc n → Bool
  | .unborn => false
  | .user => false
  | .passing _ => false
  | .writing _ _ _ _ => false
  | .reading _ _ => false
  | .releasing _ => false
  | .cleaning _ => false
  | .posting => false
  | .dead => false
  | _ => true

variable {S : Platform n} {s s' : SupportLevel n} {es : List (UEvent n)} {i : Fin n}

theorem handle_of_runnable (S : Platform n) (h : (s.pc i).runnable = true) :
    ∃ s', s.handle S i = some s' := by
  unfold handle
  cases hpc : s.pc i with
  | read f v =>
      cases ha : (s.current i).supAsid with
      | none => exact ⟨_, rfl⟩
      | some asid => exact ⟨_, rfl⟩
  | trap =>
      cases ha : (s.current i).supAsid with
      | none => exact ⟨_, rfl⟩
      | some asid => exact ⟨_, rfl⟩
  | free =>
      cases hd : deallocate s.supportFree (s.support i) with
      | error msg => exact ⟨_, rfl⟩
      | ok free => exact ⟨_, rfl⟩
  | unborn => rw [hpc] at h; cases h
  | user => rw [hpc] at h; cases h
  | passing f => rw [hpc] at h; cases h
  | writing f v asid k => rw [hpc] at h; cases h
  | reading f v => rw [hpc] at h; cases h
  | releasing f => rw [hpc] at h; cases h
  | cleaning asid => rw [hpc] at h; cases h
  | posting => rw [hpc] at h; cases h
  | dead => rw [hpc] at h; cases h
  | _ => exact ⟨_, rfl⟩

/-! ## `test` -/

/-- Only a failed read of a header leaves `test` where it is, and it stops the
    machine. -/
theorem failed_finish {who : Party n} {ok : Bool} {data : Page} {j t : Fin n}
    (hs : s.test ≠ .failed j t) (ht : (s.finish who ok data).test = .failed j t) :
    (s.finish who ok data).down ≠ none := by
  cases who with
  | some i => exact absurd ht hs
  | none =>
      cases htest : s.test with
      | heading k u =>
          cases ok with
          | true => simp only [finish, htest, if_true, reduceCtorEq] at ht
          | false =>
              simp only [finish, htest, Bool.false_eq_true, if_false, ne_eq, reduceCtorEq,
                not_false_eq_true]
      | _ =>
          simp only [finish, htest] at ht
          exact absurd (htest.trans ht) (htest ▸ hs)

theorem failed_step {e : UEvent n} (hs : ∀ j t, s.test ≠ .failed j t) (h : UStep S s e s')
    {j t : Fin n} (ht : s'.test = .failed j t) : s'.down ≠ none := by
  cases h with
  | post => exact absurd (masterSemaphoreV_test (fun _ hc => by cases hc) ht) (hs j t)
  | wait => exact absurd ht (masterSemaphoreP_test (fun _ hc => by cases hc)
      (fun _ hc => by cases hc))
  | lock => rw [swapPoolOp_eq] at ht; exact absurd ht (hs j t)
  | unlock => rw [swapPoolOp_eq] at ht; exact absurd ht (hs j t)
  | @evict _ _ _ _ _ _ _ _ _ _ _ _ s₁ h₁ => subst h₁; exact absurd ht (hs j t)
  | alloc => cases ht
  | created => cases ht
  | header => cases ht
  | fill => cases ht
  | create => cases ht
  | @complete dev ok r rest hqueue s₁ h₁ =>
      rcases transfer_eq h₁ with ⟨ram, blocks, rfl⟩
      exact failed_finish (hs j t) ht
  | _ => exact absurd ht (hs j t)

theorem failed_run (h : (supportLevel S).Run es s) {j t : Fin n} (ht : s.test = .failed j t) :
    s.down ≠ none := by
  refine System.run_invariant (P := fun s => ∀ j t, s.test = .failed j t → s.down ≠ none)
    (fun s hs j t ht => ?_) (fun es s e s' _ hi hs j t ht => ?_) h j t ht
  · rcases hs with ⟨free, _, rfl⟩
    cases ht
  · rcases ustep_of_next hs with ⟨hdown, hstep⟩
    exact failed_step (fun j t hc => hi j t hc hdown) hstep ht

/-! ## Rest -/

/-- A device answers the process that waits for it. -/
theorem flash_of_pending (hq : Queued S s) (hdown : s.down = none) {p : Party n} {dev : Fin n}
    {r : Request n} (hp : pending S s p = some (dev, r)) :
    ∃ s', (supportLevel S).step s (.flash dev true) s' := by
  have hmem := hq.listed p dev r hp
  cases hqueue : (s.flash dev).queue with
  | nil =>
      rw [hqueue] at hmem
      exact absurd hmem List.not_mem_nil
  | cons r rest =>
      have hsome : (s.next S (.flash dev true)).isSome := by
        simp only [next, hdown, complete, hqueue, Option.isSome_some]
      exact Option.isSome_iff_exists.mp hsome

theorem step_of_runnable (S : Platform n) (hdown : s.down = none)
    (h : (s.pc i).runnable = true) : ∃ s', (supportLevel S).step s (.step i) s' := by
  rcases handle_of_runnable S h with ⟨s', hs'⟩
  refine ⟨s', ?_⟩
  simp only [supportLevel, next, hdown]
  exact hs'

theorem not_runnable_of_quiet (hquiet : (supportLevel S).Quiet (fun e => e.atWork = true) s)
    (hdown : s.down = none) (i : Fin n) : (s.pc i).runnable = false := by
  cases h : (s.pc i).runnable with
  | false => rfl
  | true =>
      rcases step_of_runnable S hdown h with ⟨s', hs'⟩
      exact absurd hs' (hquiet _ _ rfl)

theorem not_pending_of_quiet (hquiet : (supportLevel S).Quiet (fun e => e.atWork = true) s)
    (hdown : s.down = none) (hq : Queued S s) (p : Party n) : pending S s p = none := by
  cases hp : pending S s p with
  | none => rfl
  | some dr =>
      rcases flash_of_pending hq hdown hp with ⟨s', hs'⟩
      exact absurd hs' (hquiet _ _ rfl)

/-- Nobody is inside the guarded section, because everybody there could go on. -/
theorem not_inside_of_quiet (hquiet : (supportLevel S).Quiet (fun e => e.atWork = true) s)
    (hdown : s.down = none) (hq : Queued S s) (i : Fin n) : s.phases i ≠ .inside := by
  have hrun := not_runnable_of_quiet hquiet hdown i
  have hpend := not_pending_of_quiet hquiet hdown hq (some i)
  simp only [phases]
  simp only [pending] at hpend
  cases hpc : s.pc i with
  | writing f v asid k =>
      rw [hpc] at hpend
      cases hpend
  | reading f v =>
      rw [hpc] at hpend
      cases hpend
  | unborn => exact fun hc => by cases hc
  | user => exact fun hc => by cases hc
  | passing f => exact fun hc => by cases hc
  | releasing f => exact fun hc => by cases hc
  | cleaning asid => exact fun hc => by cases hc
  | posting => exact fun hc => by cases hc
  | dead => exact fun hc => by cases hc
  | _ =>
      rw [hpc] at hrun
      cases hrun

/-- `test` waits in a `master_semaphore_p`. -/
theorem waiting_of_quiet (hquiet : (supportLevel S).Quiet (fun e => e.atWork = true) s)
    (hdown : s.down = none) (hrun : (supportLevel S).Run es s) (hq : Queued S s) :
    ∃ k, s.test = .waiting k := by
  have hstuck : s.testStep = none := by
    cases htest : s.testStep with
    | none => rfl
    | some s' =>
        refine absurd (?_ : (supportLevel S).step s .test s') (hquiet _ _ rfl)
        simp only [supportLevel, next, hdown]
        exact htest
  have hpend := not_pending_of_quiet hquiet hdown hq none
  unfold testStep at hstuck
  simp only [pending] at hpend
  cases htest : s.test with
  | alloc k =>
      simp only [htest] at hstuck
      split at hstuck
      · split at hstuck
        · cases hstuck
        · cases hstuck
      · cases hstuck
  | header j t =>
      simp only [htest, reduceCtorEq] at hstuck
  | heading j t =>
      rw [htest] at hpend
      cases hpend
  | failed j t => exact absurd hdown (failed_run hrun htest)
  | fill j t data => simp only [htest, reduceCtorEq] at hstuck
  | create j t => simp only [htest, reduceCtorEq] at hstuck
  | wait k =>
      simp only [htest] at hstuck
      split at hstuck
      · cases hstuck
      · cases hstuck
  | waiting k => exact ⟨k, rfl⟩

/-- Where no handler, `test` or device can do anything, nothing is left to do. -/
theorem atRest_of_quiet (hrun : (supportLevel S).Run es s)
    (hquiet : (supportLevel S).Quiet (fun e => e.atWork = true) s) : AtRest s := by
  by_cases hdown : s.down = none
  · have ho := allotted_run hrun
    have hg := guarded_run hrun
    have hq := queued_run hrun
    rcases waiting_of_quiet hquiet hdown hrun hq with ⟨k, hk⟩
    have hjoined := hg.joined
    rw [hk] at hjoined
    -- The semaphore is at zero, since `test` waits, so nobody waits in a `V`.
    have hposting : ∀ i, s.posted i ≠ .posting := by
      rcases hjoined.kind with ⟨_, hnone⟩ | ⟨_, hc⟩
      · exact hnone
      · cases hc
    -- Whoever waits for the swap pool table waits for somebody inside.
    have hpassing : ∀ i, s.phases i ≠ .waiting := fun i hi => by
      rcases hg.mutex.value with ⟨_, j, hj⟩ | ⟨_, hout⟩
      · exact not_inside_of_quiet hquiet hdown hq j hj
      · rw [hout i] at hi
        cases hi
    have hborn : ∀ i, s.pc i ≠ .unborn := fun i hc => by
      have hb := (ho.born i).mp (by rw [hc]; rfl)
      rw [hk] at hb
      exact absurd i.isLt (Nat.not_lt.mpr hb)
    have hall : ∀ i, s.pc i = .user ∨ s.pc i = .dead := fun i => by
      have hrunnable := not_runnable_of_quiet hquiet hdown i
      have hpend := not_pending_of_quiet hquiet hdown hq (some i)
      have hpost := hposting i
      have hpass := hpassing i
      simp only [pending] at hpend
      simp only [posted] at hpost
      simp only [phases] at hpass
      cases hpc : s.pc i with
      | user => exact Or.inl rfl
      | dead => exact Or.inr rfl
      | unborn => exact absurd hpc (hborn i)
      | passing f =>
          rw [hpc] at hpass
          exact absurd rfl hpass
      | releasing f =>
          rw [hpc] at hpass
          exact absurd rfl hpass
      | cleaning asid =>
          rw [hpc] at hpass
          exact absurd rfl hpass
      | posting =>
          rw [hpc] at hpost
          exact absurd rfl hpost
      | writing f v asid k =>
          rw [hpc] at hpend
          cases hpend
      | reading f v =>
          rw [hpc] at hpend
          cases hpend
      | _ =>
          rw [hpc] at hrunnable
          cases hrunnable
    refine Or.inr ⟨⟨k, hk⟩, hall, ?_⟩
    -- The one `test` waits for has not called its `V`, so it is not dead.
    have hturn := hg.turn (by rw [hk]; rfl)
    rw [hk] at hturn
    rcases rendezvous_blocked hjoined ((Fintype.card_fin n).symm ▸ hturn) with ⟨i, hi⟩
    refine ⟨i, (hall i).resolve_right (fun hc => ?_)⟩
    rw [posted, hc] at hi
    cases hi
  · exact Or.inl hdown

/-- From every reachable state, the handlers, `test` and the flash devices make at
    most `maxWork n` steps in any order as long as the U-procs in user mode do
    nothing. They end where nothing is left to do, and there is such an end. -/
theorem handlers_finish (h : (supportLevel S).Run es s) :
    (∀ fs t, (supportLevel S).Path s fs t → (∀ e ∈ fs, e.atWork = true) →
      fs.length ≤ maxWork n ∧
        ((supportLevel S).Quiet (fun e => e.atWork = true) t → AtRest t)) ∧
    ∃ fs t, (supportLevel S).Path s fs t ∧ (∀ e ∈ fs, e.atWork = true) ∧ AtRest t := by
  have hstep : ∀ s e s', e.atWork = true → (supportLevel S).step s e s' → s'.work < s.work :=
    fun s e s' he hs => work_step (ustep_of_next hs).1 he (ustep_of_next hs).2
  have hatRest : ∀ fs t, (supportLevel S).Path s fs t →
      (supportLevel S).Quiet (fun e => e.atWork = true) t → AtRest t := fun fs t hp hq =>
    atRest_of_quiet (System.run_append h hp) hq
  refine ⟨fun fs t hp hw => ⟨?_, hatRest fs t hp⟩, ?_⟩
  · have hle := System.path_length_le hstep hp hw
    have hbound := work_le (queued_run h)
    omega
  · rcases System.exists_quiet hstep s with ⟨fs, t, hp, hw, hq⟩
    exact ⟨fs, t, hp, hw, hatRest fs t hp hq⟩

end PagerProgress

/-- Both U-procs have a page fault, and the second one waits until the first one
    is through. -/
theorem handlers_finish_sample : ∃ es s, (supportLevel samplePlatform).Run es s ∧
    s.phases 0 = .inside ∧ s.phases 1 = .waiting ∧
      ∃ fs t, (supportLevel samplePlatform).Path s fs t ∧ (∀ e ∈ fs, e.atWork = true) ∧
        AtRest t := by
  rcases exists_uproc_run samplePlatform (fun _ _ => True)
    (bootUprocs ++ pageFault 0 0 0 ++ (pageFault 1 0 1).dropLast)
    (fun s => s.phases 0 = .inside ∧ s.phases 1 = .waiting) (by decide +kernel) with
    ⟨es, s, hrun, hinside, hwaiting⟩
  have hrun' := System.run_of_restrict hrun
  exact ⟨es, s, hrun', hinside, hwaiting, (handlers_finish hrun').2⟩

end Pandos
