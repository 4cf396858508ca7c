import Pandos.Theory.SupportMemory

/-!
# System Calls over the Free Structures in Memory

The handlers of the system calls on top of the support level with the pointers.
They do not look at `support_free`, so as long as the calls of `allocate` and
`deallocate` do not overlap, they go through the same states as without pointers.

A U-proc that was stopped by an exception is followed until it goes on, in runs in
which the calls do not overlap.

## Main definitions

* `CallLevel.withFree`: The same state with another list.
* `callRuns`: The runs in which the calls do not overlap.
* `Caught`, `Faulted`: U-procs that have not gone on since an exception.

## Theorems

* `calls_simulate`: One step is one step or none.
* `inService_of_caught`, `inPager_of_faulted`: Both invariants hold in every run.
* `resumed_of_caught`, `resumed_of_faulted`: What is loaded at the end.
-/

namespace Pandos

section CallMemory

variable {n : Nat} {S : Platform n}

namespace CallLevel

/-- The same state with another list. -/
def withFree (l : List (Fin n)) (c : CallLevel n) : CallLevel n :=
  { c with level := c.level.withFree l }

variable {c : CallLevel n} {l l' : List (Fin n)} {i : Fin n}

theorem follow_withFree (e : UEvent n) (s : State) (level : SupportLevel n) :
    (c.withFree l).follow S e s (level.withFree l') = (c.follow S e s level).withFree l' := by
  cases e with
  | touch i addr a cause slot =>
      have hgranted : (c.withFree l).level.granted S i addr a = c.level.granted S i addr a := rfl
      have hpc : (level.withFree l').pc = level.pc := rfl
      simp only [follow, hgranted, hpc]
      cases c.level.granted S i addr a with
      | some word => rfl
      | none =>
          simp only
          split <;> rfl
  | step i =>
      have hpc : (c.withFree l).level.pc i = c.level.pc i := rfl
      simp only [follow, hpc]
      cases c.level.pc i <;> rfl
  | _ => rfl

theorem trap_withFree (s : State) :
    (c.withFree l).trap i s = (c.trap i s).map (withFree l) := by
  have hdown : (c.withFree l).level.down = c.level.down := rfl
  have hpc : (c.withFree l).level.pc = c.level.pc := rfl
  have hcall : (c.withFree l).call = c.call := rfl
  unfold trap
  rw [hdown, hpc, hcall]
  split <;> rfl

theorem handle_withFree (a : Ask n) (answer : Word) :
    (c.withFree l).handle i a answer = (c.handle i a answer).map (withFree l) := by
  have hdown : (c.withFree l).level.down = c.level.down := rfl
  have hpc : (c.withFree l).level.pc = c.level.pc := rfl
  have hcall : (c.withFree l).call = c.call := rfl
  have hasid : (c.withFree l).level.current i = c.level.current i := rfl
  have hsaved : (c.withFree l).saved GENERALEXCEPT i = c.saved GENERALEXCEPT i := rfl
  unfold handle
  rw [hdown, hpc, hcall, hasid, hsaved]
  split
  · cases (c.level.current i).supAsid with
    | none => rfl
    | some id =>
        simp only
        cases callStep (c.saved GENERALEXCEPT i) id answer (c.call i) with
        | none => rfl
        | some r =>
            simp only [Option.map_some, Option.some.injEq]
            split <;> rfl
  · rfl

/-- Nothing is handled in the middle of `allocate` or `deallocate`. -/
theorem follow_listCall {e : UEvent n} (h : c.level.listCall e ≠ none) (s : State) :
    c.follow S e s c.level = c := by
  cases e with
  | step i => simp only [follow, SupportLevel.free_of_listCall h]
  | test => rfl
  | _ => exact absurd rfl h

end CallLevel

/-- The handlers alone do nothing to the support level. -/
theorem level_handled {e : CallEvent n} {c c' : CallLevel n} (h : c.next S e = some c')
    (he : ∀ u s, e ≠ .level u s) : c'.level = c.level := by
  cases cstep_of_next h with
  | @level u s => exact absurd rfl (he u s)
  | _ => rfl

/-! ## The simulation -/

variable {x x' : CallMemory n} {l : List (Fin n)} {e : CallEvent n} {i : Fin n}

/-- The runs in which the calls of `allocate` and `deallocate` do not overlap. -/
abbrev callRuns (S : Platform n) : System (CallMemory n) (CallEvent n) :=
  (callMemory S).restrict CallMemory.Orderly

/-- A step of the handlers with the pointers is one without them, or an access in
    the middle of a call, which does not change them. -/
theorem calls_simulate (hall : Allotted (x.calls.level.withFree l)) (h : Carries x.memory l)
    (hstep : (callRuns S).step x e x') :
    ((∃ u s, e = .level u s ∧ x.calls.level.listCall u ≠ none) ∧ x'.calls = x.calls ∧
      Carries x'.memory l) ∨
      ∃ l', (x.calls.withFree l).next S e = some (x'.calls.withFree l') ∧
        Carries x'.memory l' := by
  rcases hstep with ⟨hnext, hord⟩
  cases e with
  | level e s =>
      -- The step below is one without pointers, or an access.
      simp only [callMemory, CallMemory.next] at hnext
      split at hnext
      · next hallows =>
          rcases Option.map_eq_some_iff.mp hnext with ⟨y, hy, rfl⟩
          have hlevel : (x.calls.follow S e s y.level).level = y.level :=
            follow_level _ _ _ _
          have hmemory : ∀ {l'}, Carries y l' →
              Carries (CallMemory.memory ⟨x.calls.follow S e s y.level, y.free⟩) l' :=
            fun hy => by
              simp only [CallMemory.memory, hlevel]
              exact hy
          rcases memory_simulates hall h hord hy with ⟨hcall, hsame, hcarries⟩ |
            ⟨l', hstep, hcarries⟩
          · refine Or.inl ⟨⟨e, s, rfl, hcall⟩, ?_, hmemory hcarries⟩
            simp only [hsame]
            exact CallLevel.follow_listCall hcall s
          · refine Or.inr ⟨l', ?_, hmemory hcarries⟩
            have hallows' : (x.calls.withFree l).Allows e := hallows
            simp only [CallLevel.next, if_pos hallows']
            refine Option.map_eq_some_iff.mpr ⟨_, hstep, ?_⟩
            exact CallLevel.follow_withFree e s y.level
      · cases hnext
  -- An exception and a step of a handler do nothing to the support level.
  | trap i s =>
      rcases Option.map_eq_some_iff.mp hnext with ⟨c, hc, rfl⟩
      refine Or.inr ⟨l, ?_, ?_⟩
      · simp only [CallLevel.next, CallLevel.trap_withFree, hc]
        rfl
      · have hlevel := level_handled (S := S) (e := .trap i s) hc (fun _ _ h => by cases h)
        simp only [CallMemory.memory, hlevel]
        exact h
  | call i a answer =>
      rcases Option.map_eq_some_iff.mp hnext with ⟨c, hc, rfl⟩
      refine Or.inr ⟨l, ?_, ?_⟩
      · simp only [CallLevel.next, CallLevel.handle_withFree, hc]
        rfl
      · have hlevel := level_handled (S := S) (e := .call i a answer) hc (fun _ _ h => by cases h)
        simp only [CallMemory.memory, hlevel]
        exact h

/-- Every run with pointers has one without them. -/
theorem run_of_calls {es : List (CallEvent n)} (h : (callRuns S).Run es x) :
    ∃ ds l, (callLevel S).Run ds (x.calls.withFree l) ∧ Carries x.memory l := by
  have hsim := System.run_simulates (S := callRuns S) (T := callLevel S)
    (R := fun x c => ∃ l, c = x.calls.withFree l ∧ Carries x.memory l)
    (fun x hx => ?_) (fun x e x' ds c hrun hr hstep => ?_) h
  · rcases hsim with ⟨ds, c, hrun, l, rfl, hcarries⟩
    exact ⟨ds, l, hrun, hcarries⟩
  · rcases abstracts_start hx.1 with ⟨s, hs, l, rfl, hcarries⟩
    exact ⟨x.calls.withFree l, ⟨hs, hx.2⟩, l, rfl, hcarries⟩
  · rcases hr with ⟨l, rfl, hcarries⟩
    have ho := allotted_of_callLevel hrun
    rcases calls_simulate (l := l) ho hcarries hstep with
      ⟨_, hsame, hcarries'⟩ | ⟨l', hnext, hcarries'⟩
    · exact Or.inl ⟨l, by rw [hsame], hcarries'⟩
    · exact Or.inr ⟨e, x'.calls.withFree l', hnext, l', rfl, hcarries'⟩

/-! ## U-procs that wait -/

/-- A U-proc was stopped by an exception that was passed up with the state `s₀`,
    and the handlers have not returned to it. -/
inductive Caught (S : Platform n) (i : Fin n) (s₀ : State) : CallMemory n → Prop
  | trap {es : List (CallEvent n)} {x x' : CallMemory n} (hrun : (callRuns S).Run es x)
      (hcall : x.calls.call i = .user) (h : (callRuns S).step x (.trap i s₀) x') : Caught S i s₀ x'
  | wait {x x' : CallMemory n} {e : CallEvent n} (h : Caught S i s₀ x)
      (hstep : (callRuns S).step x e x') (hcall : x'.calls.call i ≠ .user) : Caught S i s₀ x'

/-- A U-proc was stopped by a page fault that was passed up with the state `s₀`,
    and `support_tlb` has not returned to it. -/
inductive Faulted (S : Platform n) (i : Fin n) (s₀ : State) : CallMemory n → Prop
  | fault {es : List (CallEvent n)} {x x' : CallMemory n} {addr cause : Word} {a : Access}
      {slot : Nat} {s : State} (hrun : (callRuns S).Run es x)
      (h : (callRuns S).step x (.level (.touch i addr a cause slot) s) x')
      (hpc : x'.calls.level.pc i =
        .cause { cause := cause, entryHi := SupportLevel.entryHiOf i addr })
      (hs : s₀ = { s with cause := cause, entryHi := SupportLevel.entryHiOf i addr }) :
      Faulted S i s₀ x'
  | wait {x x' : CallMemory n} {e : CallEvent n} (h : Faulted S i s₀ x)
      (hstep : (callRuns S).step x e x') (hpc : x'.calls.level.pc i ≠ .user) : Faulted S i s₀ x'

theorem inService_of_caught {s₀ : State} (h : Caught S i s₀ x) :
    ∃ l, InService (x.calls.withFree l) i s₀ ∧ x.calls.call i ≠ .user ∧ Carries x.memory l := by
  induction h with
  | @trap es x x' hrun hcall h =>
      rcases run_of_calls hrun with ⟨ds, l, hcalls, hcarries⟩
      have ho := allotted_of_callLevel hcalls
      rcases calls_simulate ho hcarries h with ⟨⟨u, s, he, _⟩, _⟩ | ⟨l', hnext, hcarries'⟩
      · -- An exception is no access.
        cases he
      · have hstart := inService_of_trap ho hnext
        exact ⟨l', hstart.1, hstart.2, hcarries'⟩
  | @wait x x' e _ hstep hcall ih =>
      rcases ih with ⟨l, hin, hbusy, hcarries⟩
      rcases calls_simulate hin.allotted hcarries hstep with ⟨_, hsame, hcarries'⟩ |
        ⟨l', hnext, hcarries'⟩
      · exact ⟨l, hsame ▸ hin, hcall, hcarries'⟩
      · exact ⟨l', inService_step hin hbusy (cstep_of_next hnext), hcall, hcarries'⟩

theorem inPager_of_faulted {s₀ : State} (h : Faulted S i s₀ x) :
    ∃ l, InPager (x.calls.withFree l) i s₀ ∧ x.calls.level.pc i ≠ .user ∧
      Carries x.memory l := by
  induction h with
  | @fault es x x' addr cause a slot s hrun h hpc hs =>
      rcases run_of_calls hrun with ⟨ds, l, hcalls, hcarries⟩
      have ho := allotted_of_callLevel hcalls
      rcases calls_simulate ho hcarries h with ⟨⟨u, s, he, hcall⟩, _⟩ | ⟨l', hnext, hcarries'⟩
      · cases he
        exact absurd rfl hcall
      · have hstart := inPager_of_fault ho hnext hpc
        exact ⟨l', hs ▸ hstart.1, hstart.2, hcarries'⟩
  | @wait x x' e _ hstep hpc ih =>
      rcases ih with ⟨l, hin, hbusy, hcarries⟩
      rcases calls_simulate hin.allotted hcarries hstep with ⟨_, hsame, hcarries'⟩ |
        ⟨l', hnext, hcarries'⟩
      · exact ⟨l, hsame ▸ hin, hpc, hcarries'⟩
      · exact ⟨l', inPager_step hin hbusy (cstep_of_next hnext), hpc, hcarries'⟩

/-- The handler of a request returns to its caller. -/
theorem resumed_of_caught {s₀ : State} (h : Caught S i s₀ x) (hstep : (callRuns S).step x e x')
    (hback : x'.calls.call i = .user) :
    (∃ v, x'.calls.regs i = advanced (s₀.setReg .v0 v)) ∧ ServedCall s₀ := by
  rcases inService_of_caught h with ⟨l, hin, hbusy, hcarries⟩
  rcases calls_simulate hin.allotted hcarries hstep with ⟨_, hsame, _⟩ | ⟨l', hnext, _⟩
  · exact absurd (hsame ▸ hback) hbusy
  · exact (resumed_of_inService hin hbusy (cstep_of_next hnext) hback :)

/-- `support_tlb` returns to the program or the handler that ran into the page
    fault. -/
theorem resumed_of_faulted {s₀ : State} (h : Faulted S i s₀ x) (hstep : (callRuns S).step x e x')
    (hback : x'.calls.level.pc i = .user) : x'.calls.regs i = s₀ := by
  rcases inPager_of_faulted h with ⟨l, hin, hbusy, hcarries⟩
  rcases calls_simulate hin.allotted hcarries hstep with ⟨_, hsame, _⟩ | ⟨l', hnext, _⟩
  · exact absurd (hsame ▸ hback) hbusy
  · exact (resumed_of_inPager hin hbusy (cstep_of_next hnext) hback :)

end CallMemory

end Pandos
