import Mathlib.Data.List.Nodup
import Pandos.Lib.Systems

/-!
# Two-Level Schedulers

A first-in first-out scheduler with two priorities. The processes that are ready
stand in two lists; one more process may have yielded, and takes its turn when
nobody else is ready. A call hands over at most one process, which either goes
on at once or is queued first.

Between two calls processes leave the lists, and others join them at the end.

## Main definitions

* `TwoLevel`: The two lists and the process that yielded.
* `TwoLevel.offer`, `TwoLevel.pick`, `TwoLevel.settle`: The parts of a call.
* `TwoLevel.schedule`: A call, with the process it dispatches.
* `TwoLevel.Ahead`, `TwoLevel.turn`: Who stands before a process, and whose
  list a call takes the next one from.
* `TwoLevel.change`: What happens between two calls.
* `TwoLevel.system`: Sequences of calls, with the processes they dispatched.

## Theorems

* `schedule_fst`: Who is dispatched.
* `schedule_snd`: What the lists hold afterwards.
* `not_mem_schedule`: The dispatched process is in neither list.
* `prefix_schedule`: The others keep their order.
* `Ahead.call`: Nobody overtakes a process that waits.
* `idle_of_again`: Who yielded is dispatched when nobody is ready.
-/

namespace Pandos

/-- The processes that are ready, by priority, and the one that yielded. -/
structure TwoLevel (α : Type*) where
  hi : List α
  lo : List α
  yielded : Option α

namespace TwoLevel

variable {α : Type*} {high : α → Bool}

/-- The list of one level. -/
def level (s : TwoLevel α) : Bool → List α
  | true => s.hi
  | false => s.lo

/-- A process goes to the end of the list of its priority. -/
def enqueue (high : α → Bool) (s : TwoLevel α) (p : α) : TwoLevel α :=
  if high p then { s with hi := s.hi ++ [p] } else { s with lo := s.lo ++ [p] }

/-- The process handed over is queued, if it does not go on at once. -/
def offer (high : α → Bool) (s : TwoLevel α) : Option α → Bool → TwoLevel α
  | some p, true => s.enqueue high p
  | _, _ => s

/-- The next process: the first one of the upper list, else of the lower one,
    else the one that yielded. -/
def next (s : TwoLevel α) : Option α :=
  match s.hi, s.lo with
  | p :: _, _ => some p
  | [], p :: _ => some p
  | [], [] => s.yielded

/-- The process that yielded goes to the end of its list. -/
def settle (high : α → Bool) (s : TwoLevel α) : TwoLevel α :=
  match s.yielded with
  | none => s
  | some y => { s.enqueue high y with yielded := none }

/-- Who is dispatched: the process handed over, if it goes on at once, or else
    the next one. -/
def pick (high : α → Bool) (s : TwoLevel α) (pcb : Option α) (enqueue : Bool) : Option α :=
  match pcb, enqueue with
  | some p, false => some p
  | _, _ => (s.offer high pcb enqueue).next

/-! ## The parts of a call -/

theorem next_hi {s : TwoLevel α} {p : α} {ps : List α} (h : s.hi = p :: ps) : s.next = some p := by
  rw [next, h]

theorem next_lo {s : TwoLevel α} {p : α} {ps : List α} (hhi : s.hi = []) (h : s.lo = p :: ps) :
    s.next = some p := by
  rw [next, hhi, h]

theorem next_nil {s : TwoLevel α} (hhi : s.hi = []) (hlo : s.lo = []) : s.next = s.yielded := by
  rw [next, hhi, hlo]

theorem level_enqueue (s : TwoLevel α) (p : α) (l : Bool) :
    (s.enqueue high p).level l = s.level l ++ if high p = l then [p] else [] := by
  cases l with
  | true =>
      cases hp : high p with
      | true => simp only [enqueue, hp, level, if_true]
      | false => simp only [enqueue, hp, level, Bool.false_eq_true, if_false, List.append_nil]
  | false =>
      cases hp : high p with
      | true =>
          simp only [enqueue, hp, level, if_true, Bool.true_eq_false, if_false, List.append_nil]
      | false => simp only [enqueue, hp, level, Bool.false_eq_true, if_false, if_true]

/-- A process that is dispatched while somebody else had yielded leaves that one
    at the end of its list. -/
theorem level_settle (s : TwoLevel α) (l : Bool) :
    (s.settle high).level l = s.level l ++ (s.yielded.toList.filter (high · = l)) := by
  unfold settle
  cases hy : s.yielded with
  | none => simp only [Option.toList_none, List.filter_nil, List.append_nil]
  | some y =>
      have hlevel : ∀ t : TwoLevel α,
          ({ t with yielded := none } : TwoLevel α).level l = t.level l :=
        fun t => by cases l <;> rfl
      simp only [hlevel, level_enqueue, Option.toList_some]
      by_cases h : high y = l
      · simp only [List.filter_cons, h, decide_true, if_true, List.filter_nil]
      · simp only [List.filter_cons, h, decide_false, Bool.false_eq_true, if_false,
          List.filter_nil]

theorem yielded_settle (s : TwoLevel α) : (s.settle high).yielded = none := by
  unfold settle
  split
  · rename_i h
    exact h
  · rfl

theorem yielded_offer (s : TwoLevel α) (pcb : Option α) (enqueue : Bool) :
    (s.offer high pcb enqueue).yielded = s.yielded := by
  unfold offer
  split
  · unfold TwoLevel.enqueue
    split <;> rfl
  · rfl

/-- Nobody stands in the lists twice, and whoever yielded is in neither. -/
structure Wf (s : TwoLevel α) : Prop where
  nodup : ∀ l, (s.level l).Nodup
  disjoint : ∀ p, p ∈ s.hi → p ∉ s.lo
  yielded : ∀ p, s.yielded = some p → p ∉ s.hi ∧ p ∉ s.lo

/-- The process that yielded is dispatched again at once only if no other one is
    ready. -/
theorem idle_of_again {s : TwoLevel α} {pcb : Option α} {enqueue : Bool} {y : α}
    (hw : (s.offer high pcb enqueue).Wf) (hy : s.yielded = some y) (hne : pcb ≠ some y)
    (h : s.pick high pcb enqueue = some y) :
    (s.offer high pcb enqueue).hi = [] ∧ (s.offer high pcb enqueue).lo = [] := by
  have hout := hw.yielded y ((yielded_offer s pcb enqueue).trans hy)
  unfold pick at h
  split at h
  · exact absurd h hne
  · unfold next at h
    split at h
    · rename_i q qs hhi
      rw [Option.some.injEq] at h
      rw [hhi, h] at hout
      exact absurd List.mem_cons_self hout.1
    · rename_i q qs _ hlo
      rw [Option.some.injEq] at h
      rw [hlo, h] at hout
      exact absurd List.mem_cons_self hout.2
    · rename_i hhi hlo
      exact ⟨hhi, hlo⟩

/-! ## Waiting in a list -/

/-- Those who stand before a process in the list of a level. -/
def Ahead (s : TwoLevel α) (l : Bool) (p : α) (xs : List α) : Prop :=
  ∃ zs, s.level l = xs ++ p :: zs

/-- The list a call takes the next process from, if it takes one from a list. -/
def turn (high : α → Bool) (s : TwoLevel α) (pcb : Option α) (enqueue : Bool) : Option Bool :=
  match pcb, enqueue with
  | some _, false => none
  | _, _ =>
    if (s.offer high pcb enqueue).hi ≠ [] then some true
    else if (s.offer high pcb enqueue).lo ≠ [] then some false
    else none

theorem Ahead.offer {s : TwoLevel α} {l : Bool} {p : α} {xs : List α} (h : s.Ahead l p xs)
    (pcb : Option α) (enqueue : Bool) : (s.offer high pcb enqueue).Ahead l p xs := by
  unfold TwoLevel.offer
  split
  · rename_i q
    rcases h with ⟨zs, hzs⟩
    refine ⟨zs ++ if high q = l then [q] else [], ?_⟩
    rw [level_enqueue, hzs, List.append_assoc, List.cons_append]
  · exact h

theorem Ahead.settle {s : TwoLevel α} {l : Bool} {p : α} {xs : List α} (h : s.Ahead l p xs) :
    (s.settle high).Ahead l p xs := by
  rcases h with ⟨zs, hzs⟩
  refine ⟨zs ++ s.yielded.toList.filter (high · = l), ?_⟩
  rw [level_settle, hzs, List.append_assoc, List.cons_append]

/-- The process a call takes from a list stood at its head. -/
theorem head_of_turn {s : TwoLevel α} {pcb : Option α} {enqueue l : Bool} {q : α}
    (hturn : s.turn high pcb enqueue = some l) (hq : s.pick high pcb enqueue = some q) :
    ∃ ys, (s.offer high pcb enqueue).level l = q :: ys := by
  have hnext : (s.offer high pcb enqueue).next = some q ∧
      (if (s.offer high pcb enqueue).hi ≠ [] then some true
        else if (s.offer high pcb enqueue).lo ≠ [] then some false else none) = some l := by
    cases pcb with
    | none => exact ⟨hq, hturn⟩
    | some r =>
        cases enqueue with
        | false => cases hturn
        | true => exact ⟨hq, hturn⟩
  rcases hnext with ⟨hnext, hl⟩
  split at hl
  · rename_i hhi
    cases hl
    rcases List.exists_cons_of_ne_nil hhi with ⟨x, ys, hx⟩
    rw [next_hi hx, Option.some.injEq] at hnext
    exact ⟨ys, hnext ▸ hx⟩
  · rename_i hhi
    rw [not_not] at hhi
    split at hl
    · rename_i hlo
      cases hl
      rcases List.exists_cons_of_ne_nil hlo with ⟨x, ys, hx⟩
      rw [next_lo hhi hx, Option.some.injEq] at hnext
      exact ⟨ys, hnext ▸ hx⟩
    · cases hl

/-! ## One call -/

variable [DecidableEq α]

/-- A process leaves the scheduler. -/
def leave (s : TwoLevel α) (p : α) : TwoLevel α :=
  { hi := s.hi.erase p
    lo := s.lo.erase p
    yielded := if s.yielded = some p then none else s.yielded }

/-- A call: the process it dispatches, and what is left behind. -/
def schedule (high : α → Bool) (s : TwoLevel α) (pcb : Option α) (enqueue : Bool) :
    Option α × TwoLevel α :=
  match s.pick high pcb enqueue with
  | some p => (some p, ((s.offer high pcb enqueue).leave p).settle high)
  | none => (none, s.offer high pcb enqueue)

theorem schedule_fst (s : TwoLevel α) (pcb : Option α) (enqueue : Bool) :
    (s.schedule high pcb enqueue).1 = s.pick high pcb enqueue := by
  unfold schedule
  split
  · rename_i h
    exact h.symm
  · rename_i h
    exact h.symm

theorem schedule_snd {s : TwoLevel α} {pcb : Option α} {enqueue : Bool} {p : α}
    (h : s.pick high pcb enqueue = some p) :
    (s.schedule high pcb enqueue).2 = ((s.offer high pcb enqueue).leave p).settle high := by
  rw [schedule, h]

theorem level_leave (s : TwoLevel α) (p : α) (l : Bool) :
    (s.leave p).level l = (s.level l).erase p := by
  cases l <;> rfl

/-- The dispatched process is in neither list. -/
theorem not_mem_schedule {s : TwoLevel α} {pcb : Option α} {enqueue : Bool} {p : α}
    (hw : (s.offer high pcb enqueue).Wf) (h : s.pick high pcb enqueue = some p) (l : Bool) :
    p ∉ (s.schedule high pcb enqueue).2.level l := by
  rw [schedule_snd h, level_settle, level_leave, List.mem_append]
  rintro (hmem | hmem)
  · exact ((hw.nodup l).mem_erase_iff.mp hmem).1 rfl
  · rw [List.mem_filter, Option.mem_toList] at hmem
    have hne : ((s.offer high pcb enqueue).leave p).yielded ≠ some p := by
      simp only [leave]
      split
      · exact (Option.some_ne_none p).symm
      · rename_i hy
        exact hy
    exact hne hmem.1

/-- The other processes keep their order. -/
theorem prefix_schedule {s : TwoLevel α} {pcb : Option α} {enqueue : Bool} {p : α}
    (h : s.pick high pcb enqueue = some p) (l : Bool) :
    ((s.offer high pcb enqueue).level l).erase p <+: (s.schedule high pcb enqueue).2.level l := by
  rw [schedule_snd h, level_settle, level_leave]
  exact List.prefix_append _ _

/-- On a dispatch nobody is left that yielded. -/
theorem yielded_schedule {s : TwoLevel α} {pcb : Option α} {enqueue : Bool} {p : α}
    (h : s.pick high pcb enqueue = some p) : (s.schedule high pcb enqueue).2.yielded = none := by
  rw [schedule_snd h]
  exact yielded_settle _

/-- Somebody else leaves. -/
theorem Ahead.leave {s : TwoLevel α} {l : Bool} {p q : α} {xs : List α} (h : s.Ahead l p xs)
    (hq : q ≠ p) : (s.leave q).Ahead l p (xs.erase q) := by
  rcases h with ⟨zs, hzs⟩
  rw [Ahead, level_leave, hzs]
  by_cases hmem : q ∈ xs
  · exact ⟨zs, List.erase_append_left _ hmem⟩
  · refine ⟨zs.erase q, ?_⟩
    rw [List.erase_append_right _ hmem, List.erase_cons_tail (by rw [beq_iff_eq]; exact hq.symm),
      List.erase_of_not_mem hmem]

/-- A call does not let anybody overtake a process that waits: those ahead of it
    stay in their order, and a process taken from its list was the first one. -/
theorem Ahead.schedule {s : TwoLevel α} {pcb : Option α} {enqueue l : Bool} {p : α}
    {xs : List α} (h : s.Ahead l p xs) (hp : (s.schedule high pcb enqueue).1 ≠ some p) :
    ∃ ys, (s.schedule high pcb enqueue).2.Ahead l p ys ∧
      ((if s.turn high pcb enqueue = some l then (s.schedule high pcb enqueue).1.toList else []) ++
        ys).Sublist xs := by
  have hoffer : (s.offer high pcb enqueue).Ahead l p xs := h.offer pcb enqueue
  rw [schedule_fst] at hp ⊢
  cases hpick : s.pick high pcb enqueue with
  | none =>
      have hsnd : (s.schedule high pcb enqueue).2 = s.offer high pcb enqueue := by
        rw [TwoLevel.schedule, hpick]
      refine ⟨xs, hsnd ▸ hoffer, ?_⟩
      rw [Option.toList_none, ite_self, List.nil_append]
  | some q =>
      have hne : q ≠ p := by
        rintro rfl
        exact hp hpick
      refine ⟨xs.erase q, ?_, ?_⟩
      · rw [schedule_snd hpick]
        exact (hoffer.leave hne).settle
      · by_cases hturn : s.turn high pcb enqueue = some l
        · -- The process was at the head, so it was the first one ahead.
          rw [if_pos hturn, Option.toList_some]
          rcases head_of_turn hturn hpick with ⟨ys, hys⟩
          rcases hoffer with ⟨zs, hzs⟩
          rw [hys] at hzs
          cases xs with
          | nil =>
              rw [List.nil_append, List.cons.injEq] at hzs
              exact absurd hzs.1 hne
          | cons x xs =>
              rw [List.cons_append, List.cons.injEq] at hzs
              rw [hzs.1, List.erase_cons_head]
              exact List.Sublist.refl _
        · rw [if_neg hturn, List.nil_append]
          exact List.erase_sublist

/-! ## Sequences of calls -/

/-- What happens from the end of one call to the end of the next. -/
structure Call (α : Type*) where
  high : α → Bool
  /-- The processes that died. -/
  gone : List α
  /-- The processes that became ready. -/
  woken : List α
  yielded : Option α
  pcb : Option α
  enqueue : Bool

/-- Processes die, others become ready, and one may yield. -/
def change (s : TwoLevel α) (c : Call α) : TwoLevel α :=
  { hi := s.hi.filter (· ∉ c.gone) ++ c.woken.filter c.high
    lo := s.lo.filter (· ∉ c.gone) ++ c.woken.filter (!c.high ·)
    yielded := c.yielded }

/-- Whoever waits keeps waiting while others die and become ready. -/
theorem Ahead.change {s : TwoLevel α} {l : Bool} {p : α} {xs : List α} (h : s.Ahead l p xs)
    (c : Call α) (hp : p ∉ c.gone) : (s.change c).Ahead l p (xs.filter (· ∉ c.gone)) := by
  rcases h with ⟨zs, hzs⟩
  have hlevel : (s.change c).level l = (s.level l).filter (· ∉ c.gone) ++
      c.woken.filter (fun q => decide (c.high q = l)) := by
    cases l with
    | true =>
        refine congrArg _ (List.filter_congr (fun q _ => ?_))
        cases c.high q <;> rfl
    | false =>
        refine congrArg _ (List.filter_congr (fun q _ => ?_))
        cases c.high q <;> rfl
  refine ⟨zs.filter (· ∉ c.gone) ++ c.woken.filter (fun q => decide (c.high q = l)), ?_⟩
  have hkeep : decide (p ∉ c.gone) = true := decide_eq_true hp
  rw [hlevel, hzs, List.filter_append, List.filter_cons, if_pos hkeep, List.append_assoc,
    List.cons_append]

/-- One call after some died and others became ready. -/
theorem Ahead.call {s : TwoLevel α} {l : Bool} {p : α} {xs : List α} (h : s.Ahead l p xs)
    (c : Call α) (hgone : p ∉ c.gone)
    (hp : ((s.change c).schedule c.high c.pcb c.enqueue).1 ≠ some p) :
    ∃ ys, ((s.change c).schedule c.high c.pcb c.enqueue).2.Ahead l p ys ∧
      ((if (s.change c).turn c.high c.pcb c.enqueue = some l then
        ((s.change c).schedule c.high c.pcb c.enqueue).1.toList else []) ++ ys).Sublist xs := by
  rcases (h.change c hgone).schedule hp with ⟨ys, hys, hsub⟩
  exact ⟨ys, hys, hsub.trans List.filter_sublist⟩

/-- The scheduler together with the processes it dispatched, the latest one
    first. -/
def system : System (TwoLevel α × List α) (Call α) where
  init s := s.1.hi = [] ∧ s.1.lo = [] ∧ s.1.yielded = none ∧ s.2 = []
  step s c s' :=
    s' = (((s.1.change c).schedule c.high c.pcb c.enqueue).2,
      ((s.1.change c).schedule c.high c.pcb c.enqueue).1.toList ++ s.2)

end TwoLevel

end Pandos
