import Pandos.Lib.Threads
import Pandos.Theory.Lists

/-!
# The Functions of the Lists on Threaded Lists

What the functions of `list.h` and `util.h` do to a family of lists: each one
ends, changes one list, and leaves all cells outside the family alone.

## Theorems

* `listAddTail_carries`, `listAdd_carries`: Insertion.
* `listSdel_carries`, `listDel_carries`: Removal.
* `listEmpty_carries`, `getNext_carries`, `listContains_carries`: Inspection.
-/

namespace Pandos

namespace Threads

variable {C ι α : Type} [DecidableEq C] {T : Threads C ι α} {m : Links C} {ready : Set ι}
  {q : Queues ι α} {h : ι} {x : α}

/-! ## Inspection -/

theorem listEmpty_carries (hm : T.Carries m ready q) (hh : h ∈ ready) :
    m.listEmpty (some (T.head h)) = some (q h).isEmpty := by
  rw [Links.listEmpty_ring (hm.ring h hh) (head_not_mem T h (q h)), List.isEmpty_map]

theorem listContains_carries [DecidableEq α] (hm : T.Carries m ready q) (hh : h ∈ ready) (x : α)
    {rounds : Nat} (hr : (q h).length < rounds) :
    m.listContains rounds (some (T.field x)) (some (T.head h)) = some (decide (x ∈ q h)) := by
  rw [Links.listContains_ring (hm.ring h hh) (head_not_mem T h (q h))
    (by rwa [List.length_map])]
  exact congrArg some (decide_eq_decide.mpr (mem_field T))

omit [DecidableEq C] in
theorem getNext_carries (hm : T.Carries m ready q) (hh : h ∈ ready) {xs : List α}
    (hq : q h = x :: xs) : m.getNext (some (T.head h)) = some (some (T.field x)) := by
  have hring := hm.ring h hh
  rw [hq, List.map_cons] at hring
  exact congrArg some hring.1.1

theorem listNext_carries (hm : T.Carries m ready q) (hh : h ∈ ready) {xs : List α}
    (hq : q h = x :: xs) : m.listNext (some (T.head h)) = some (some (T.field x)) := by
  have hempty := listEmpty_carries hm hh
  rw [hq, List.isEmpty_cons] at hempty
  simp only [Links.listNext, hempty, getNext_carries hm hh hq, Bool.false_eq_true, if_false,
    Option.bind_eq_bind, Option.bind_some]

/-- A search in a list ends with the first match. -/
theorem listSearch_carries (hm : T.Carries m ready q) (hh : h ∈ ready) {element : Option C}
    {cmp : Option C → Option C → Bool} {rounds : Nat} (hr : (q h).length < rounds) :
    m.listSearch rounds element (some (T.head h)) cmp =
      some (((q h).find? (fun x => !cmp element (some (T.field x)))).map T.field) := by
  rw [Links.listSearch_ring (hm.ring h hh) (head_not_mem T h (q h)) (by rwa [List.length_map]),
    List.find?_map]
  rfl

/-! ## Insertion -/

section Insertion

/-- `INIT_LIST_HEAD` on a sentinel behind which there is nothing. -/
theorem initListHead_carries (hm : T.Carries m ready q) (hq : q h = []) :
    ∃ m', m.initListHead (some (T.head h)) = some m' ∧ T.Carries m' (insert h ready) q ∧
      T.Spares m m' :=
  ⟨_, rfl, carries_start hm hq, spares_join (covers_head T h) (covers_head T h)⟩

variable [DecidableEq ι]

/-- `list_add_tail` with an element that is in no list. -/
theorem listAddTail_carries (hm : T.Carries m ready q) (hx : q.Null x) (hh : h ∈ ready) :
    ∃ m', m.listAddTail (some (T.field x)) (some (T.head h)) = some m' ∧
      T.Carries m' ready (q.addTail h x) ∧ T.Spares m m' := by
  rcases carries_addTail hm hx hh with ⟨a, ha, hprev, hadd⟩
  exact ⟨_, Links.listAddTail_some hprev, hadd, spares_link ha List.mem_cons_self⟩

/-- `list_add` with an element that is in no list. -/
theorem listAdd_carries (hm : T.Carries m ready q) (hx : q.Null x) (hh : h ∈ ready) :
    ∃ m', m.listAdd (some (T.field x)) (some (T.head h)) = some m' ∧
      T.Carries m' ready (q.addHead h x) ∧ T.Spares m m' := by
  rcases carries_addHead hm hx hh with ⟨b, hb, hnext, hadd⟩
  exact ⟨_, Links.listAdd_some hnext, hadd, spares_link List.mem_cons_self hb⟩

end Insertion

/-! ## Removal -/

section Removal

variable [DecidableEq α]

/-- `list_sdel` with an element of a list. -/
theorem listSdel_carries (hm : T.Carries m ready q) (hx : x ∈ q h) :
    ∃ m', m.listSdel (some (T.field x)) = some m' ∧ T.Carries m' ready (q.del x) ∧
      T.Spares m m' := by
  rcases carries_remove hm hx with ⟨a, b, hprev, hnext, ha, hb, hrest⟩
  refine ⟨_, Links.listSdel_linked hprev hnext, ?_, ?_⟩
  · exact carries_null hrest ((Queues.null_del hm.wf x x).mpr (Or.inr rfl))
  · exact (spares_join (covers_ring ha) (covers_ring hb)).trans (spares_null T _ x)

/-- `list_del` with an element of a list. -/
theorem listDel_carries (hm : T.Carries m ready q) (hx : x ∈ q h) :
    ∃ m', m.listDel (some (T.field x)) = some m' ∧ T.Carries m' ready (q.del x) ∧
      T.Spares m m' := by
  rcases carries_remove hm hx with ⟨a, b, hprev, hnext, ha, hb, hrest⟩
  exact ⟨_, Links.listDel_some hprev hnext, hrest, spares_join (covers_ring ha) (covers_ring hb)⟩

/-- `list_del` and `list_add`: an element moves to the front of a list. -/
theorem listMove_carries [DecidableEq ι] (hm : T.Carries m ready q) {h' : ι} (hx : x ∈ q h')
    (hh : h ∈ ready) :
    ∃ m₁ m₂, m.listDel (some (T.field x)) = some m₁ ∧
      m₁.listAdd (some (T.field x)) (some (T.head h)) = some m₂ ∧
      T.Carries m₂ ready ((q.del x).addHead h x) ∧ T.Spares m m₂ := by
  rcases listDel_carries hm hx with ⟨m₁, hdel, h₁, hs₁⟩
  have hnull : (q.del x).Null x := (Queues.null_del hm.wf x x).mpr (Or.inr rfl)
  rcases listAdd_carries h₁ hnull hh with ⟨m₂, hadd, h₂, hs₂⟩
  exact ⟨m₁, m₂, hdel, hadd, h₂, hs₁.trans hs₂⟩

end Removal

end Threads

end Pandos
