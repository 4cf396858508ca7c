import Pandos.Lists

/-!
# The Functions of the Lists

What the functions of `list.h` and `util.h` do to the pointers, and what the
searches of `util.h` find in a ring: the first cell their comparison takes for
the wanted one.

## Theorems

* `listSdel_linked`, `listAdd_some`, `listAddTail_some`: The writers.
* `listSearch_ring`: A search in a ring ends with the first match.
* `listContains_ring`: The search for a cell finds the cells of the ring.
-/

namespace Pandos

namespace Links

variable {C : Type} [DecidableEq C] {m : Links C} {s x a b : C} {l : List C}

theorem listDel_some (hprev : m.prev x = some a) (hnext : m.next x = some b) :
    m.listDel (some x) = some (m.join a b) := by
  have hp : m.getPrev (some x) = some (some a) := congrArg some hprev
  have hn : m.getNext (some x) = some (some b) := congrArg some hnext
  unfold listDel
  rw [hp, hn]
  rfl

omit [DecidableEq C] in
theorem listNull_some (m : Links C) (x : C) :
    m.listNull (some x) = some ((m.prev x).isNone && (m.next x).isNone) := rfl

theorem listSdel_null (hprev : m.prev x = none) (hnext : m.next x = none) :
    m.listSdel (some x) = some m := by
  unfold listSdel
  rw [listNull_some, hprev, hnext]
  rfl

theorem listSdel_linked (hprev : m.prev x = some a) (hnext : m.next x = some b) :
    m.listSdel (some x) = some ((m.join a b).null x) := by
  unfold listSdel
  rw [listNull_some, hprev, hnext, listDel_some hprev hnext]
  rfl

theorem listAdd_some (hnext : m.next s = some b) :
    m.listAdd (some x) (some s) = some ((m.join x b).join s x) := by
  have hn : m.getNext (some s) = some (some b) := congrArg some hnext
  unfold listAdd
  rw [hn]
  rfl

theorem listAddTail_some (hprev : m.prev s = some a) :
    m.listAddTail (some x) (some s) = some ((m.join x s).join a x) := by
  have hp : m.getPrev (some s) = some (some a) := congrArg some hprev
  unfold listAddTail
  rw [hp]
  rfl

theorem listEmpty_some (m : Links C) (s : C) :
    m.listEmpty (some s) = some (m.next s == some s) := rfl

/-- The sentinel of a ring points at itself if nothing is behind it. -/
theorem listEmpty_ring (h : m.Ring s l) (hs : s ∉ l) :
    m.listEmpty (some s) = some l.isEmpty := by
  rw [listEmpty_some, Path.head h]
  cases l with
  | nil => simp only [List.nil_append, List.head?_cons, beq_self_eq_true, List.isEmpty_nil]
  | cons c l =>
      have hne : c ≠ s := fun hcs => hs (hcs ▸ List.mem_cons_self)
      simp only [List.cons_append, List.head?_cons, Option.some_beq_some, List.isEmpty_cons,
        beq_eq_false_iff_ne.mpr hne]

/-- A search along a path ends with the first match, or at the end. -/
theorem searchFrom_path {element : Option C} {cmp : Option C → Option C → Bool} {c : C}
    (h : m.Path c l s) (hs : s ∉ l) {rounds : Nat} (hr : l.length < rounds) :
    m.searchFrom element (some s) cmp rounds (m.next c) =
      some (l.find? (fun d => !cmp element (some d))) := by
  induction l generalizing c rounds with
  | nil =>
      rcases Nat.exists_eq_succ_of_ne_zero (Nat.ne_of_gt hr) with ⟨k, rfl⟩
      rw [h.1]
      simp only [searchFrom, if_true, List.find?_nil]
  | cons d l ih =>
      rcases Nat.exists_eq_succ_of_ne_zero (Nat.ne_of_gt (Nat.zero_lt_of_lt hr)) with ⟨k, rfl⟩
      rcases h with ⟨hcd, h⟩
      rw [List.mem_cons, not_or] at hs
      have hds : some d ≠ some s := fun hds => hs.1 (Option.some.inj hds).symm
      rw [hcd.1]
      unfold searchFrom
      rw [if_neg hds]
      cases hcmp : cmp element (some d) with
      | false =>
          rw [List.find?_cons_of_pos (by rw [hcmp]; rfl), Bool.not_false, if_pos rfl]
      | true =>
          rw [List.find?_cons_of_neg (by rw [hcmp]; exact Bool.false_ne_true), Bool.not_true,
            if_neg Bool.false_ne_true]
          exact ih h hs.2 (Nat.lt_of_succ_lt_succ hr)

/-- A search in a ring ends with the first match, or at the sentinel. -/
theorem listSearch_ring {element : Option C} {cmp : Option C → Option C → Bool}
    (h : m.Ring s l) (hs : s ∉ l) {rounds : Nat} (hr : l.length < rounds) :
    m.listSearch rounds element (some s) cmp =
      some (l.find? (fun d => !cmp element (some d))) :=
  searchFrom_path h hs hr

theorem listContains_ring (h : m.Ring s l) (hs : s ∉ l) {rounds : Nat}
    (hr : l.length < rounds) :
    m.listContains rounds (some x) (some s) = some (decide (x ∈ l)) := by
  have hmatch : ∀ d, (!exactCmp (some x) (some d)) = true ↔ d = x := by
    intro d
    rw [exactCmp, Bool.not_eq_true', bne_eq_false_iff_eq, Option.some.injEq]
    exact eq_comm
  have hfound : (l.find? (fun d => !exactCmp (some x) (some d))).isSome = decide (x ∈ l) := by
    rw [Bool.eq_iff_iff, List.find?_isSome, decide_eq_true_iff]
    simp only [hmatch, exists_eq_right]
  unfold listContains
  rw [listSearch_ring h hs hr, ← hfound]
  rfl

end Links

end Pandos
