import Pandos.Theory.FreeList
import Pandos.Theory.SupportCalls

/-!
# The Support Level with and without Pointers

As long as the calls of `allocate` and `deallocate` do not overlap, the support
level with the pointers goes through the states of the one with a list. The last
access of a call is the step that takes the whole call; the accesses before it
change nothing there. In between the list of the one is the list the call was
begun with.

## Main definitions

* `SupportLevel.withFree`: The same state with another list.
* `Carries`: The pointers and the calls under way, for a list.
* `Abstracts`: A state without pointers for one with pointers.
* `memoryRuns`: Runs in which the calls do not overlap.

## Theorems

* `next_withFree`: Nobody but the two functions looks at the list.
* `memory_simulates`: One step is one step or none.
* `run_of_orderly`: Every run with pointers has one without them.
-/

namespace Pandos

section SupportMemory

variable {n : Nat} {S : Platform n}

namespace SupportLevel

/-- The same state with another list. -/
def withFree (l : List (Fin n)) (s : SupportLevel n) : SupportLevel n :=
  { s with supportFree := l }

variable {s s' : SupportLevel n} {l : List (Fin n)} {i : Fin n}

/-! ## Steps that do not look at the list -/

theorem swapPoolOp_withFree (o : SemOp) (blocked next : Pc n) :
    (s.withFree l).swapPoolOp o i blocked next = (s.swapPoolOp o i blocked next).withFree l := by
  simp only [swapPoolOp, withFree]
  cases (s.semSwapPoolTable.op o i).woken with
  | none => rfl
  | some t => rfl

theorem masterSemaphoreV_withFree :
    (s.withFree l).masterSemaphoreV i = (s.masterSemaphoreV i).withFree l := by
  simp only [masterSemaphoreV, withFree]
  cases (s.masterSemaphore.op .V (some i)).woken with
  | none => rfl
  | some t => cases t <;> rfl

theorem masterSemaphoreP_withFree (k : Nat) :
    (s.withFree l).masterSemaphoreP k = (s.masterSemaphoreP k).withFree l := by
  simp only [masterSemaphoreP, withFree]
  cases (s.masterSemaphore.op .P none).woken with
  | none => rfl
  | some t => cases t <;> rfl

theorem setSwapPoolBaton_withFree (value : Bool) (next : Pc n) :
    (s.withFree l).setSwapPoolBaton i value next =
      (s.setSwapPoolBaton i value next).withFree l := by
  simp only [setSwapPoolBaton, withFree, current]
  cases (s.supportTable (s.support i)).supAsid with
  | none => rfl
  | some asid => rfl

theorem pickPage_withFree (f : Fault) (index : Nat) :
    (s.withFree l).pickPage i f index = (s.pickPage i f index).withFree l := by
  unfold pickPage
  rw [apply_ite (withFree l), apply_ite (withFree l)]
  rfl

theorem chooseVictim_withFree (f : Fault) (frame : Nat) :
    (s.withFree l).chooseVictim i f frame = (s.chooseVictim i f frame).withFree l := by
  simp only [chooseVictim, withFree]
  cases entryhiToVpn f.entryHi with
  | error msg => rfl
  | ok pVpn =>
      simp only
      cases vpnToIndex pVpn with
      | error msg => rfl
      | ok pIndex => rfl

theorem evictVictim_withFree (f : Fault) (v : Victim) (swap : Swap n) :
    (s.withFree l).evictVictim S i f v swap = (s.evictVictim S i f v swap).withFree l := by
  simp only [evictVictim, withFree]
  cases swap.swAsid with
  | none => rfl
  | some asid =>
      cases swap.swPte with
      | none => rfl
      | some tk =>
          simp only
          cases entryhiToIndex ((s.supportTable tk.1).supPrivatePageTable tk.2).pteEntryHi with
          | error msg => rfl
          | ok kIndex => rfl

theorem commitPage_withFree (f : Fault) (v : Victim) :
    (s.withFree l).commitPage S i f v = (s.commitPage S i f v).withFree l := by
  simp only [commitPage, withFree, current]
  cases (s.supportTable (s.support i)).supAsid with
  | none => rfl
  | some asid =>
      simp only
      cases addEntrySwapPoolTable s.swapPoolTable v.frame asid v.pVpn (s.support i) with
      | error msg => rfl
      | ok swapPoolTable => rfl

theorem testFrame_withFree (asid : Fin n) (index : Nat) :
    (s.withFree l).testFrame i asid index = (s.testFrame i asid index).withFree l := by
  unfold testFrame
  rw [apply_ite (withFree l), apply_ite (withFree l)]
  rfl

theorem touch_withFree (addr : Word) (a : Access) (cause : Word) (slot : Nat) :
    (s.withFree l).touch S i addr a cause slot =
      (s.touch S i addr a cause slot).map (withFree l) := by
  have hlookup : (s.withFree l).lookup S i addr = s.lookup S i addr := rfl
  unfold touch
  rw [hlookup]
  split
  · rfl
  · cases s.lookup S i addr with
    | none =>
        simp only [withFree, current]
        cases tlbRefillEntry (s.supportTable (s.support i)).supPrivatePageTable
          (entryHiOf i addr) with
        | error msg => rfl
        | ok pte =>
            simp only
            split <;> rfl
    | some e =>
        simp only
        cases a.refused e with
        | none => rfl
        | some code =>
            simp only
            split <;> rfl

theorem transfer_withFree (dev : Fin n) (r : Request n) :
    (s.withFree l).transfer dev r = (s.transfer dev r).withFree l := by
  unfold transfer
  cases r.data0 with
  | none => rfl
  | some a =>
      simp only
      rw [apply_ite (withFree l), apply_ite (withFree l)]
      rfl

theorem finish_withFree (who : Party n) (ok : Bool) (data : Page) :
    (s.withFree l).finish who ok data = (s.finish who ok data).withFree l := by
  cases who with
  | some j => rfl
  | none =>
      have htest : (s.withFree l).test = s.test := rfl
      simp only [finish, htest]
      cases s.test with
      | heading j t => cases ok <;> rfl
      | _ => rfl

theorem complete_withFree (dev : Fin n) (ok : Bool) :
    (s.withFree l).complete dev ok = (s.complete dev ok).map (withFree l) := by
  have hflash : (s.withFree l).flash = s.flash := rfl
  unfold complete
  rw [hflash]
  cases (s.flash dev).queue with
  | nil => rfl
  | cons r rest =>
      simp only [Option.map_some, Option.some.injEq]
      cases ok with
      | false => exact finish_withFree (s := { s with flash := _ }) _ _ _
      | true =>
          rw [if_pos rfl, if_pos rfl, transfer_withFree]
          exact finish_withFree (s := { s.transfer dev r with flash := _ }) _ _ _

theorem handle_withFree (hpc : s.pc i ≠ .free) :
    (s.withFree l).handle S i = (s.handle S i).map (withFree l) := by
  have hpcs : (s.withFree l).pc i = s.pc i := rfl
  unfold handle
  rw [hpcs]
  cases h : s.pc i with
  | cause f => rfl
  | pass f => exact congrArg some (swapPoolOp_withFree _ _ _)
  | take f => exact congrArg some (setSwapPoolBaton_withFree _ _)
  | pick f index => exact congrArg some (pickPage_withFree _ _)
  | copy f frame => exact congrArg some (chooseVictim_withFree _ _)
  | evict f v swap => exact congrArg some (evictVictim_withFree _ _ _)
  | write f v asid k => rfl
  | read f v =>
      simp only [withFree, current]
      cases (s.supportTable (s.support i)).supAsid with
      | none => rfl
      | some asid => rfl
  | commit f v => exact congrArg some (commitPage_withFree _ _)
  | release f => exact congrArg some (swapPoolOp_withFree _ _ _)
  | drop f => exact congrArg some (setSwapPoolBaton_withFree _ _)
  | trap =>
      simp only [withFree, current]
      cases (s.supportTable (s.support i)).supAsid with
      | none => rfl
      | some asid => rfl
  | clean asid => exact congrArg some (swapPoolOp_withFree _ _ _)
  | mark asid index => exact congrArg some (testFrame_withFree _ _)
  | unmark asid index => rfl
  | free => exact absurd h hpc
  | post => exact congrArg some masterSemaphoreV_withFree
  | exit => rfl
  | _ => rfl

theorem testStep_withFree (htest : ∀ k, s.test = .alloc k → ¬ k < n) :
    (s.withFree l).testStep = s.testStep.map (withFree l) := by
  have htests : (s.withFree l).test = s.test := rfl
  unfold testStep
  rw [htests]
  cases h : s.test with
  | alloc k =>
      simp only [dif_neg (htest k h)]
      rfl
  | wait k =>
      simp only
      split
      · exact congrArg some (masterSemaphoreP_withFree k)
      · rfl
  | _ => rfl

/-- Nobody but the two functions looks at the list. -/
theorem next_withFree {e : UEvent n} (he : s.listCall e = none) :
    (s.withFree l).next S e = (s.next S e).map (withFree l) := by
  have hdown : (s.withFree l).down = s.down := rfl
  unfold next
  rw [hdown]
  cases s.down with
  | some d => rfl
  | none =>
      cases e with
      | touch i addr a cause slot =>
          have hpc : (s.withFree l).pc i = s.pc i := rfl
          simp only [hpc]
          split
          · exact touch_withFree _ _ _ _
          · rfl
      | quit i =>
          have hpc : (s.withFree l).pc i = s.pc i := rfl
          simp only [hpc]
          split <;> rfl
      | step i =>
          refine handle_withFree (fun hpc => ?_)
          simp only [listCall, if_pos hpc, reduceCtorEq] at he
      | test =>
          refine testStep_withFree (fun k hk hlt => ?_)
          simp only [listCall, hk, dif_pos hlt, reduceCtorEq] at he
      | flash dev ok => exact complete_withFree dev ok

/-! ## Steps of the two functions -/

theorem free_of_listCall (h : s.listCall (.step i) ≠ none) : s.pc i = .free := by
  by_contra hc
  exact h (if_neg hc)

theorem listCall_deallocate {e : UEvent n} (h : s.listCall e = some (.deallocate i)) :
    e = .step i ∧ s.pc i = .free := by
  cases e with
  | step j =>
      simp only [listCall] at h
      split at h
      · next hpc =>
          cases h
          exact ⟨rfl, hpc⟩
      · cases h
  | test =>
      simp only [listCall] at h
      split at h
      · split at h
        · cases h
        · cases h
      · cases h
  | _ => cases h

theorem listCall_allocate {e : UEvent n} (h : s.listCall e = some (.allocate i)) :
    e = .test ∧ s.test = .alloc i.val := by
  cases e with
  | step j =>
      simp only [listCall] at h
      split at h
      · cases h
      · cases h
  | test =>
      simp only [listCall] at h
      split at h
      · next k hk =>
          split at h
          · cases h
            exact ⟨rfl, hk⟩
          · cases h
      · cases h
  | _ => cases h

theorem next_deallocate (hdown : s.down = none) (hpc : s.pc i = .free)
    (ht : s.support i ∉ s.supportFree) : s.next S (.step i) =
      some ({ s with supportFree := s.support i :: s.supportFree }.setPc i .post) := by
  simp only [next, hdown, handle, hpc, deallocate, if_neg ht]

theorem next_double (hdown : s.down = none) (hpc : s.pc i = .free)
    (ht : s.support i ∈ s.supportFree) : s.next S (.step i) =
      some (s.panic "Double support_t %p deallocation.\n") := by
  simp only [next, hdown, handle, hpc, deallocate, if_pos ht]

theorem next_allocate (hdown : s.down = none) (htest : s.test = .alloc i.val) {t : Fin n}
    {ts : List (Fin n)} (hl : s.supportFree = t :: ts) : s.next S .test =
      some { s with
        supportFree := ts
        supportTable := Function.update s.supportTable t
          { s.supportTable t with supAsid := some i }
        test := .header i t } := by
  simp only [next, hdown, testStep, htest, dif_pos i.isLt, allocate, hl]

theorem next_out (hdown : s.down = none) (htest : s.test = .alloc i.val)
    (hl : s.supportFree = []) : s.next S .test = some (s.panic "Out of support_t\n") := by
  simp only [next, hdown, testStep, htest, dif_pos i.isLt, allocate, hl]

/-- Nobody else moves a U-proc on that is about to give its structure back. -/
theorem free_kept {e : UEvent n} (ho : Allotted s) (h : UStep S s e s') (hpc : s.pc i = .free)
    (he : e ≠ .step i) : s'.pc i = .free := by
  have hne : ∀ {j}, e = .step j → i ≠ j := fun hj hc => he (by rw [hj, hc])
  have hother : ∀ {j pc}, s.pc j = pc → pc ≠ .free → i ≠ j := fun hj hp hc => by
    rw [← hc, hpc] at hj
    exact hp hj.symm
  have hresumed : ∀ j, j = i → (s.pc j).resumed = .free := fun j hj => by
    rw [hj, hpc]
    rfl
  have hrest : ∀ j, j = i → s.pc j = .free := fun j hj => hj ▸ hpc
  cases h with
  | panic => exact hpc
  | quit hj => exact (Function.update_of_ne (hother hj (fun hc => by cases hc)) _ _).trans hpc
  | refill => exact hpc
  | fault hj => exact (Function.update_of_ne (hother hj (fun hc => by cases hc)) _ _).trans hpc
  | access => exact hpc
  | lock hj =>
      exact swapPoolOp_moves (R := fun j pc => j = i → pc = .free)
        (fun hc => absurd hc.symm (hne rfl)) (fun hc => absurd hc.symm (hne rfl)) hresumed hrest i
        rfl
  | unlock =>
      exact swapPoolOp_moves (R := fun j pc => j = i → pc = .free)
        (fun hc => absurd hc.symm (hne rfl)) (fun hc => absurd hc.symm (hne rfl)) hresumed hrest i
        rfl
  | evict _ _ _ _ h₁ =>
      subst h₁
      exact (Function.update_of_ne (hne rfl) _ _).trans hpc
  | post =>
      exact masterSemaphoreV_moves (R := fun j pc => j = i → pc = .free)
        (fun hc => absurd hc.symm (hne rfl)) (fun hc => absurd hc.symm (hne rfl)) hresumed hrest i
        rfl
  | @complete dev ok r rest _ s₁ h₁ =>
      rcases transfer_eq h₁ with ⟨ram, blocks, rfl⟩
      cases hw : r.who with
      | none =>
          simp only [finish]
          split
          · split <;> exact hpc
          · exact hpc
      | some j =>
          simp only [finish, setPc]
          by_cases hj : i = j
          · rw [← hj, Function.update_self, hpc]
            rfl
          · rw [Function.update_of_ne hj]
            exact hpc
  | alloc => exact hpc
  | created => exact hpc
  | header => exact hpc
  | fill => exact hpc
  | create htest =>
      have hunborn := ho.fresh (by rw [htest]; rfl)
      exact (Function.update_of_ne (hother hunborn (fun hc => by cases hc)) _ _).trans hpc
  | wait =>
      exact masterSemaphoreP_moves (R := fun j pc => j = i → pc = .free) hresumed hrest i rfl
  | halt => exact hpc
  | _ => exact (Function.update_of_ne (hne rfl) _ _).trans hpc

end SupportLevel

/-! ## The simulation -/

/-- The pointers are those of a list, or one call is under way and the list is
    the one it was begun with. -/
inductive Carries (x : SupportMemory n) (l : List (Fin n)) : Prop
  | allocating (h : x.free.alloc.Midway x.free.links l) (hd : ∀ i, x.free.dealloc i = .idle)
  | deallocating (i : Fin n) (h : (x.free.dealloc i).Midway x.free.links l (x.level.support i))
      (hpc : x.level.pc i = .free) (ha : x.free.alloc = .idle)
      (hd : ∀ j, j ≠ i → x.free.dealloc j = .idle)

/-- The state without pointers. -/
def Abstracts (x : SupportMemory n) (s : SupportLevel n) : Prop :=
  ∃ l, s = x.level.withFree l ∧ Carries x l

variable {x x' : SupportMemory n} {l : List (Fin n)} {e : UEvent n} {i : Fin n}

/-- The pointers between the calls. -/
theorem Carries.quiet (h : Carries x l) (hq : x.free.Quiet) : FreeList.Lists x.free.links l := by
  cases h with
  | allocating h =>
      rw [hq.1] at h
      exact h
  | deallocating i h =>
      rw [hq.2 i] at h
      exact h

/-- Nothing is under way but the call of `test`. -/
theorem Carries.alloc (h : Carries x l) (ho : x.Orderly e)
    (hc : x.level.listCall e = some (.allocate i)) :
    x.free.alloc.Midway x.free.links l ∧ ∀ j, x.free.dealloc j = .idle := by
  cases h with
  | allocating h hd => exact ⟨h, hd⟩
  | deallocating j h hpc ha hd =>
      -- The call begins, so the other one is over.
      have hq := ho _ hc ha
      refine ⟨?_, hq.2⟩
      rw [ha]
      rw [hq.2 j] at h
      exact h

/-- Nothing is under way but the call of U-proc `i`. -/
theorem Carries.dealloc (h : Carries x l) (ho : x.Orderly e)
    (hc : x.level.listCall e = some (.deallocate i)) :
    (x.free.dealloc i).Midway x.free.links l (x.level.support i) ∧ x.free.alloc = .idle ∧
      ∀ j, j ≠ i → x.free.dealloc j = .idle := by
  have hbegins : x.free.dealloc i = .idle →
      (x.free.dealloc i).Midway x.free.links l (x.level.support i) ∧ x.free.alloc = .idle ∧
        ∀ j, j ≠ i → x.free.dealloc j = .idle := fun hi => by
    have hq := ho _ hc hi
    refine ⟨?_, hq.1, fun j _ => hq.2 j⟩
    rw [hi]
    exact h.quiet hq
  cases h with
  | allocating h hd => exact hbegins (hd i)
  | deallocating j h hpc ha hd =>
      by_cases hij : i = j
      · subst hij
        exact ⟨h, ha, hd⟩
      · exact hbegins (hd i hij)

/-- One access of U-proc `i`: the call goes on, or it is over and the structure is
    in the list. -/
theorem deallocate_simulates (hd : l.Nodup) (h : Carries x l) (ho : x.Orderly e)
    (hc : x.level.listCall e = some (.deallocate i)) (hdown : x.level.down = none)
    (hstep : x.deallocStep i = some x') :
    (x'.level = x.level ∧ Carries x' l) ∨
      ∃ l', (x.level.withFree l).next S e = some (x'.level.withFree l') ∧ Carries x' l' := by
  rcases SupportLevel.listCall_deallocate hc with ⟨rfl, hpc⟩
  rcases h.dealloc ho hc with ⟨hmid, ha, hothers⟩
  have hrunning : (x.level.withFree l).down = none := hdown
  have hfree : (x.level.withFree l).pc i = .free := hpc
  unfold SupportMemory.deallocStep at hstep
  rcases FreeList.deallocate_access hd hmid with ⟨ht, hacc⟩ | ⟨m, hacc, honly, hgoes⟩
  · rw [hacc] at hstep
    cases hstep
    refine Or.inr ⟨l, SupportLevel.next_double hrunning hfree ht, ?_⟩
    exact Carries.deallocating i hmid hpc ha hothers
  · rw [hacc] at hstep
    cases hstep
    cases hgoes with
    | goes hmid' hbusy =>
        refine Or.inl ⟨if_neg hbusy, Carries.deallocating i ?_ ?_ (honly.alloc.trans ha)
          (fun j hj => (honly.others j hj).trans (hothers j hj))⟩
        · simp only [if_neg hbusy]
          exact hmid'
        · simp only [if_neg hbusy]
          exact hpc
    | ends hl ht hidle =>
        refine Or.inr ⟨x.level.support i :: l, ?_, Carries.allocating ?_ (fun j => ?_)⟩
        · rw [SupportLevel.next_deallocate hrunning hfree ht, if_pos hidle]
          rfl
        · simp only [honly.alloc, ha]
          exact hl
        · by_cases hj : j = i
          · rw [hj]
            exact hidle
          · exact (honly.others j hj).trans (hothers j hj)

/-- An access before the store of the ASID. -/
theorem allocStep_access (hne : ∀ lh, x.free.alloc ≠ .done lh) :
    (∀ msg, x.free.allocate = some (.error msg) →
      x.allocStep i = some { x with level := x.level.panic msg }) ∧
    ∀ m, x.free.allocate = some (.ok m) → x.allocStep i = some { x with free := m } := by
  unfold SupportMemory.allocStep
  refine ⟨fun msg hacc => ?_, fun m hacc => ?_⟩
  all_goals
    cases hpc : x.free.alloc with
    | done lh => exact absurd hpc (hne lh)
    | _ => simp only [hacc]

/-- One access of `test`: the call goes on, or its structure is taken out of the
    list. -/
theorem allocate_simulates (hd : l.Nodup) (h : Carries x l) (ho : x.Orderly e)
    (hc : x.level.listCall e = some (.allocate i)) (hdown : x.level.down = none)
    (hstep : x.allocStep i = some x') :
    (x'.level = x.level ∧ Carries x' l) ∨
      ∃ l', (x.level.withFree l).next S e = some (x'.level.withFree l') ∧ Carries x' l' := by
  rcases SupportLevel.listCall_allocate hc with ⟨rfl, htest⟩
  rcases h.alloc ho hc with ⟨hmid, hothers⟩
  have hrunning : (x.level.withFree l).down = none := hdown
  have htest' : (x.level.withFree l).test = .alloc i.val := htest
  by_cases hdone : ∃ lh, x.free.alloc = .done lh
  · rcases hdone with ⟨lh, hlh⟩
    rw [hlh] at hmid
    rcases hmid with ⟨t, ts, rfl, rfl, hl⟩
    simp only [SupportMemory.allocStep, hlh, Option.some.injEq] at hstep
    subst hstep
    exact Or.inr ⟨ts, SupportLevel.next_allocate hrunning htest' rfl,
      Carries.allocating hl hothers⟩
  · have hne : ∀ lh, x.free.alloc ≠ .done lh := fun lh hlh => hdone ⟨lh, hlh⟩
    rcases allocStep_access (i := i) hne with ⟨herror, hok⟩
    rcases FreeList.allocate_access hd hmid hne with ⟨hnil, hacc⟩ | ⟨m, hacc, hsame, hmid'⟩
    · rw [herror _ hacc] at hstep
      cases hstep
      exact Or.inr ⟨l, SupportLevel.next_out hrunning htest' hnil, Carries.allocating hmid hothers⟩
    · rw [hok m hacc] at hstep
      cases hstep
      exact Or.inl ⟨rfl, Carries.allocating hmid' (fun j => hsame ▸ hothers j)⟩

/-- A step of the support level with the pointers is one of the support level
    without them, or an access in the middle of a call. -/
theorem memory_simulates (hall : Allotted (x.level.withFree l)) (h : Carries x l)
    (ho : x.Orderly e) (hstep : x.next S e = some x') :
    (x.level.listCall e ≠ none ∧ x'.level = x.level ∧ Carries x' l) ∨
      ∃ l', (x.level.withFree l).next S e = some (x'.level.withFree l') ∧ Carries x' l' := by
  unfold SupportMemory.next at hstep
  cases hc : x.level.listCall e with
  | none =>
      rw [hc] at hstep
      rcases Option.map_eq_some_iff.mp hstep with ⟨level, hlevel, rfl⟩
      have hnext : (x.level.withFree l).next S e = some (level.withFree l) := by
        rw [SupportLevel.next_withFree hc, hlevel]
        rfl
      refine Or.inr ⟨l, hnext, ?_⟩
      cases h with
      | allocating h hd => exact Carries.allocating h hd
      | deallocating i h hpc ha hd =>
          -- The U-proc in the middle of its call is left alone.
          have hstep' := (ustep_of_next hnext).2
          have hne : e ≠ .step i := fun he => by
            rw [he, SupportLevel.listCall, if_pos hpc] at hc
            cases hc
          have hborn : (x.level.withFree l).pc i ≠ .unborn := fun hu => by
            rw [show x.level.pc i = .unborn from hu] at hpc
            cases hpc
          have hsupport := (uprocFrame_of_step hall hstep' i).support hborn
          have hkept := SupportLevel.free_kept hall hstep' hpc hne
          refine Carries.deallocating i ?_ hkept ha hd
          rw [show level.support i = x.level.support i from hsupport]
          exact h
  | some c =>
      rw [hc] at hstep
      cases hdown : x.level.down with
      | some d =>
          rw [hdown] at hstep
          cases hstep
      | none =>
          rw [hdown] at hstep
          refine Or.imp_left (fun hs => ⟨Option.some_ne_none c, hs⟩) ?_
          cases c with
          | allocate i => exact allocate_simulates hall.nodup h ho hc hdown hstep
          | deallocate i => exact deallocate_simulates hall.nodup h ho hc hdown hstep

/-- At boot the pointers are those of the list `init_supports` makes. -/
theorem abstracts_start (h : (supportMemory S).init x) :
    ∃ s, (supportLevel S).init s ∧ Abstracts x s := by
  rcases h with ⟨links, hlinks, rfl⟩
  rcases FreeList.initSupports_lists (n := n) with ⟨links', hlinks', hl⟩
  rw [hlinks, Option.some.injEq] at hlinks'
  subst hlinks'
  exact ⟨SupportLevel.start S _, ⟨_, initSupports_eq, rfl⟩, _, rfl,
    Carries.allocating hl (fun _ => rfl)⟩

/-- The runs of the support level whose steps meet a condition, with the pointers.
    The calls of `allocate` and `deallocate` do not overlap. -/
abbrev memoryRuns (S : Platform n) (ok : SupportLevel n → UEvent n → Prop) :
    System (SupportMemory n) (UEvent n) :=
  (supportMemory S).restrict (fun x e => x.Orderly e ∧ ok x.level e)

/-- Every run with pointers has one without them. -/
theorem run_of_orderly {ok : SupportLevel n → UEvent n → Prop}
    (hok : ∀ s l e, ok s e → ok (s.withFree l) e) {es : List (UEvent n)}
    (h : (memoryRuns S ok).Run es x) :
    ∃ ds s, ((supportLevel S).restrict ok).Run ds s ∧ Abstracts x s := by
  refine System.run_simulates (S := memoryRuns S ok) (T := (supportLevel S).restrict ok)
    (R := Abstracts) (fun x hx => abstracts_start hx) (fun x e x' ds s hrun hr hstep => ?_) h
  rcases hr with ⟨l, rfl, hcarries⟩
  rcases hstep with ⟨hnext, hord, he⟩
  have hall := allotted_run (System.run_of_restrict hrun)
  rcases memory_simulates hall hcarries hord hnext with ⟨_, hlevel, hcarries'⟩ |
    ⟨l', hnext', hcarries'⟩
  · exact Or.inl ⟨l, by rw [hlevel], hcarries'⟩
  · exact Or.inr ⟨e, x'.level.withFree l', ⟨hnext', hok _ _ _ he⟩, l', rfl, hcarries'⟩

end SupportMemory

end Pandos
