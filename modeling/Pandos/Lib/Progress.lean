import Pandos.Lib.Systems

/-!
# Progress

Some steps of a system are its own work, and the others come from outside. If
every step of work lowers a measure, the system cannot work forever, and it works
on until no such step is possible any more.

## Main definitions

* `System.Path`: The steps from one state to another.
* `System.Quiet`: No step of work is possible.

## Theorems

* `run_append`: A run can be continued.
* `path_length_le`: The measure bounds the steps of work.
* `exists_quiet`: Work comes to an end.
-/

namespace Pandos

namespace System

variable {σ ε : Type*} {S : System σ ε}

/-- The steps from one state to another, with their events, the first one
    first. -/
inductive Path (S : System σ ε) : σ → List ε → σ → Prop
  | nil (s : σ) : Path S s [] s
  | cons {s s' t : σ} {e : ε} {es : List ε} (hs : S.step s e s') (h : Path S s' es t) :
      Path S s (e :: es) t

/-- No event of the given kind is possible. -/
def Quiet (S : System σ ε) (work : ε → Prop) (s : σ) : Prop :=
  ∀ e s', work e → ¬ S.step s e s'

/-- A run can be continued. -/
theorem run_append {es fs : List ε} {s t : σ} (h : S.Run es s) (hp : S.Path s fs t) :
    S.Run (fs.reverse ++ es) t := by
  induction hp generalizing es with
  | nil s => exact h
  | @cons s s' t e fs hs _ ih =>
      rw [List.reverse_cons, List.append_assoc]
      exact ih (Run.step h hs)

variable {work : ε → Prop} {measure : σ → Nat}

/-- The measure bounds the steps of work that are still possible. -/
theorem path_length_le (hm : ∀ s e s', work e → S.step s e s' → measure s' < measure s)
    {fs : List ε} {s t : σ} (hp : S.Path s fs t) (hw : ∀ e ∈ fs, work e) :
    fs.length + measure t ≤ measure s := by
  induction hp with
  | nil s => exact Nat.le_of_eq (Nat.zero_add _)
  | @cons s s' t e fs hs _ ih =>
      have hlt := hm s e s' (hw e List.mem_cons_self) hs
      have hle := ih (fun e he => hw e (List.mem_cons_of_mem _ he))
      rw [List.length_cons]
      omega

/-- Work comes to an end. -/
theorem exists_quiet (hm : ∀ s e s', work e → S.step s e s' → measure s' < measure s) (s : σ) :
    ∃ fs t, S.Path s fs t ∧ (∀ e ∈ fs, work e) ∧ S.Quiet work t := by
  induction hn : measure s using Nat.strongRecOn generalizing s with
  | ind k ih =>
      by_cases hq : S.Quiet work s
      · exact ⟨[], s, Path.nil s, fun e he => absurd he List.not_mem_nil, hq⟩
      · unfold Quiet at hq
        push Not at hq
        rcases hq with ⟨e, s', he, hs⟩
        rcases ih (measure s') (hn ▸ hm s e s' he hs) s' rfl with ⟨fs, t, hp, hw, hquiet⟩
        refine ⟨e :: fs, t, Path.cons hs hp, fun e' he' => ?_, hquiet⟩
        rcases List.mem_cons.mp he' with rfl | he'
        · exact he
        · exact hw e' he'

end System

end Pandos
