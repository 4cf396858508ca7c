import Mathlib.Tactic.Common

/-!
# Runs of Transition Systems

A system is a set of initial states and a relation that takes a state to the
next one under an event. `Run` collects the finite runs together with the
events that made them, the latest one first.

Statements about the past of a run are statements about the states of an
observed system: an observer keeps a record beside the state and updates it
from what it sees of each step, without any influence on the steps.

## Main definitions

* `System`: Initial states and steps.
* `System.Run`: The finite runs of a system.
* `System.observed`: A system together with an observer.
* `System.restrict`: A system whose steps all meet a condition.

## Theorems

* `run_invariant`: What holds initially and is kept by every step holds in
  every run.
* `run_of_observed`: An observed run is a run of the system.
* `run_observed`: Every run can be observed.
* `run_of_restrict`: A restricted run is a run of the system.
* `run_mono`: A system with more steps has more runs.
* `run_lockstep`: Two systems that go through the same events.
* `run_simulates`: A system that follows another one and may stand still.
* `run_of_foldlM`, `exists_run_of_replay`: Runs that are computed.
-/

namespace Pandos

/-- A transition system. -/
structure System (σ ε : Type*) where
  init : σ → Prop
  step : σ → ε → σ → Prop

namespace System

variable {σ ε γ : Type*}

/-- The finite runs of a system, with their events, the latest one first. -/
inductive Run (S : System σ ε) : List ε → σ → Prop
  | init {s : σ} (h : S.init s) : Run S [] s
  | step {es : List ε} {s s' : σ} {e : ε} (h : Run S es s) (hs : S.step s e s') :
      Run S (e :: es) s'

/-- The rule of invariants. -/
theorem run_invariant {S : System σ ε} {P : σ → Prop} (hi : ∀ s, S.init s → P s)
    (hs : ∀ es s e s', S.Run es s → P s → S.step s e s' → P s') {es : List ε} {s : σ}
    (h : S.Run es s) : P s := by
  induction h with
  | init h => exact hi _ h
  | step h hstep ih => exact hs _ _ _ _ h ih hstep

/-- A system together with an observer that starts from `start` and updates
    its record with `note`. -/
def observed (S : System σ ε) (start : σ → γ) (note : σ → ε → σ → γ → γ) :
    System (σ × γ) ε where
  init s := S.init s.1 ∧ s.2 = start s.1
  step s e s' := S.step s.1 e s'.1 ∧ s'.2 = note s.1 e s'.1 s.2

theorem run_of_observed {S : System σ ε} {start : σ → γ} {note : σ → ε → σ → γ → γ} {es : List ε}
    {s : σ × γ} (h : (S.observed start note).Run es s) : S.Run es s.1 := by
  induction h with
  | init h => exact Run.init h.1
  | step _ hs ih => exact Run.step ih hs.1

theorem run_observed {S : System σ ε} (start : σ → γ) (note : σ → ε → σ → γ → γ) {es : List ε}
    {s : σ} (h : S.Run es s) : ∃ x, (S.observed start note).Run es (s, x) := by
  induction h with
  | @init s h => exact ⟨start s, Run.init ⟨h, rfl⟩⟩
  | @step es s s' e _ hs ih =>
      rcases ih with ⟨x, hx⟩
      exact ⟨note s e s' x, Run.step hx ⟨hs, rfl⟩⟩

/-- A system whose steps all meet a condition. -/
def restrict (S : System σ ε) (ok : σ → ε → Prop) : System σ ε where
  init := S.init
  step s e s' := S.step s e s' ∧ ok s e

theorem run_of_restrict {S : System σ ε} {ok : σ → ε → Prop} {es : List ε} {s : σ}
    (h : (S.restrict ok).Run es s) : S.Run es s := by
  induction h with
  | init h => exact Run.init h
  | step _ hs ih => exact Run.step ih hs.1

/-- A system with more steps has more runs. -/
theorem run_mono {S T : System σ ε} (hi : ∀ s, S.init s → T.init s)
    (hs : ∀ s e s', S.step s e s' → T.step s e s') {es : List ε} {s : σ} (h : S.Run es s) :
    T.Run es s := by
  induction h with
  | init h => exact Run.init (hi _ h)
  | step _ hstep ih => exact Run.step ih (hs _ _ _ hstep)

/-- Two systems in lockstep: every run of the first one can be followed by the
    second, which ends in a related state however it went on. -/
theorem run_lockstep {τ : Type*} {S : System σ ε} {T : System τ ε} {R : σ → τ → Prop}
    (hi : ∀ s, S.init s → (∃ t, T.init t) ∧ ∀ t, T.init t → R s t)
    (hs : ∀ es s e s' t, S.Run es s → R s t → S.step s e s' →
      (∃ t', T.step t e t') ∧ ∀ t', T.step t e t' → R s' t') {es : List ε} {s : σ}
    (h : S.Run es s) : (∃ t, T.Run es t) ∧ ∀ t, T.Run es t → R s t := by
  induction h with
  | init h =>
      rcases hi _ h with ⟨⟨t, ht⟩, hall⟩
      refine ⟨⟨t, Run.init ht⟩, fun t' ht' => ?_⟩
      cases ht' with
      | init ht' => exact hall t' ht'
  | step hrun hstep ih =>
      rcases ih with ⟨⟨t, ht⟩, hall⟩
      rcases (hs _ _ _ _ t hrun (hall t ht) hstep).1 with ⟨t', ht'⟩
      refine ⟨⟨t', Run.step ht ht'⟩, fun u' hu' => ?_⟩
      cases hu' with
      | step hu hstep' => exact (hs _ _ _ _ _ hrun (hall _ hu) hstep).2 u' hstep'

/-- A simulation with stuttering: every step of the first system is a step of the
    second one or none, so the second one follows every run of the first. -/
theorem run_simulates {τ δ : Type*} {S : System σ ε} {T : System τ δ} {R : σ → τ → Prop}
    (hi : ∀ s, S.init s → ∃ t, T.init t ∧ R s t)
    (hs : ∀ s e s' ds t, T.Run ds t → R s t → S.step s e s' →
      R s' t ∨ ∃ d t', T.step t d t' ∧ R s' t') {es : List ε} {s : σ} (h : S.Run es s) :
    ∃ ds t, T.Run ds t ∧ R s t := by
  induction h with
  | init h =>
      rcases hi _ h with ⟨t, ht, hr⟩
      exact ⟨[], t, Run.init ht, hr⟩
  | step _ hstep ih =>
      rcases ih with ⟨ds, t, ht, hr⟩
      rcases hs _ _ _ ds t ht hr hstep with hr' | ⟨d, t', hd, hr'⟩
      · exact ⟨ds, t, ht, hr'⟩
      · exact ⟨d :: ds, t', Run.step ht hd, hr'⟩

/-- States that a function computes one after the other make a run, if each of
    its values is a step. -/
theorem run_of_foldlM {S : System σ ε} {ι : Type*} {f : σ → ι → Option σ} (xs : List ι) :
    (∀ x ∈ xs, ∀ s s', f s x = some s' → ∃ e, S.step s e s') →
    ∀ {es : List ε} {s s' : σ}, S.Run es s → xs.foldlM f s = some s' → ∃ es', S.Run es' s' := by
  induction xs with
  | nil =>
      intro _ es s s' hrun h
      rw [List.foldlM_nil, Option.pure_def, Option.some.injEq] at h
      exact ⟨es, h ▸ hrun⟩
  | cons x xs ih =>
      intro hs es s s' hrun h
      rw [List.foldlM_cons, Option.bind_eq_bind, Option.bind_eq_some_iff] at h
      rcases h with ⟨s₁, hx, h⟩
      rcases hs x List.mem_cons_self s s₁ hx with ⟨e, he⟩
      exact ih (fun y hy => hs y (List.mem_cons_of_mem x hy)) (Run.step hrun he) h

/-- A function that computes steps, and checks a condition before each of them. -/
theorem step_of_checked {S : System σ ε} (ok : σ → ε → Prop) [∀ s e, Decidable (ok s e)]
    {f : σ → ε → Option σ} (hs : ∀ s e s', f s e = some s' → S.step s e s') (s : σ) (e : ε) (s' : σ)
    (h : (if ok s e then f s e else none) = some s') : (S.restrict ok).step s e s' := by
  by_cases hok : ok s e
  · rw [if_pos hok] at h
    exact ⟨hs s e s' h, hok⟩
  · rw [if_neg hok] at h
    cases h

/-- A replay whose last state has a property shows that such a state is
    reached. -/
theorem exists_run_of_replay {S : System σ ε} {start : Option σ} {f : σ → ε → Option σ}
    (hi : ∀ s, start = some s → S.init s) (hs : ∀ s e s', f s e = some s' → S.step s e s')
    (es : List ε) (P : σ → Prop) [DecidablePred P]
    (h : (start.bind (fun s => es.foldlM f s)).any (fun s => decide (P s)) = true) :
    ∃ es s, S.Run es s ∧ P s := by
  rw [Option.any_eq_true] at h
  rcases h with ⟨s', hs', hp⟩
  rw [Option.bind_eq_some_iff] at hs'
  rcases hs' with ⟨s, hstart, hreplay⟩
  have hsteps : ∀ e ∈ es, ∀ s s', f s e = some s' → ∃ e', S.step s e' s' :=
    fun e _ s s' hstep => ⟨e, hs s e s' hstep⟩
  rcases run_of_foldlM es hsteps (Run.init (hi s hstart)) hreplay with ⟨es', hrun⟩
  exact ⟨es', s', hrun, of_decide_eq_true hp⟩

end System

end Pandos
