import Mathlib.Data.List.Nodup
import Mathlib.Logic.Function.Basic
import Mathlib.Tactic.Common

/-!
# Rings of Doubly Linked Cells

Cells with two pointers each, `next` and `prev`. A path is a sequence of cells
in which both pointers of neighbours agree. A ring is a path that comes back to
its start: the sentinel of a circular list and the cells behind it.

Linking two cells writes one pointer of each. Unlinking a cell links its
neighbours, and inserting one links it to both of its new neighbours. Whether
the neighbours are the same cell makes no difference.

A path depends only on the pointers along it, so that operations on one ring
leave all rings alone that share no cell with it.

## Main definitions

* `Links`: The pointers of all cells.
* `Linked`, `Path`, `Ring`: Cells that are linked.
* `Links.join`: Linking two cells.

## Theorems

* `path_append`: A path goes through each of its cells.
* `path_frame`: A path depends on the pointers along it.
* `ring_remove`: Linking the neighbours of a cell takes it out of its ring.
* `ring_addHead`, `ring_addTail`: Linking a cell into a ring.
-/

namespace Pandos

/-- The pointers of all cells. -/
structure Links (C : Type*) where
  next : C → Option C
  prev : C → Option C

namespace Links

variable {C : Type*} {m m' : Links C}

/-- Two neighbours point at each other. -/
def Linked (m : Links C) (a b : C) : Prop := m.next a = some b ∧ m.prev b = some a

/-- From `a` over the cells of the list to `b`. -/
def Path (m : Links C) : C → List C → C → Prop
  | a, [], b => m.Linked a b
  | a, x :: l, b => m.Linked a x ∧ Path m x l b

/-- A sentinel and the cells behind it. -/
def Ring (m : Links C) (s : C) (l : List C) : Prop := m.Path s l s

/-! ## Paths -/

/-- A path goes through each of its cells. -/
theorem path_append {a x b : C} {u v : List C} :
    m.Path a (u ++ x :: v) b ↔ m.Path a u x ∧ m.Path x v b := by
  induction u generalizing a with
  | nil => exact Iff.rfl
  | cons y u ih =>
      simp only [List.cons_append, Path]
      rw [ih, and_assoc]

/-- A path depends on the pointers along it. -/
theorem path_frame {a b : C} {l : List C} (h : m.Path a l b)
    (hnext : ∀ c ∈ a :: l, m'.next c = m.next c)
    (hprev : ∀ c, c ∈ l ∨ c = b → m'.prev c = m.prev c) : m'.Path a l b := by
  induction l generalizing a with
  | nil =>
      refine ⟨?_, ?_⟩
      · rw [hnext a List.mem_cons_self]
        exact h.1
      · rw [hprev b (Or.inr rfl)]
        exact h.2
  | cons x l ih =>
      rcases h with ⟨hax, h⟩
      refine ⟨⟨?_, ?_⟩, ?_⟩
      · rw [hnext a List.mem_cons_self]
        exact hax.1
      · rw [hprev x (Or.inl List.mem_cons_self)]
        exact hax.2
      · refine ih h ?_ ?_
        · intro c hc
          exact hnext c (List.mem_cons_of_mem a hc)
        · intro c hc
          exact hprev c (hc.imp_left (List.mem_cons_of_mem x))

/-- A ring depends on the pointers of its cells. -/
theorem ring_frame {s : C} {l : List C} (h : m.Ring s l)
    (hnext : ∀ c ∈ s :: l, m'.next c = m.next c) (hprev : ∀ c ∈ s :: l, m'.prev c = m.prev c) :
    m'.Ring s l := by
  refine path_frame h hnext ?_
  rintro c (hc | rfl)
  · exact hprev c (List.mem_cons_of_mem s hc)
  · exact hprev c List.mem_cons_self

/-- Where a path starts. -/
theorem Path.head {a b : C} {l : List C} (h : m.Path a l b) :
    m.next a = (l ++ [b]).head? := by
  cases l with
  | nil => exact h.1
  | cons x l => exact h.1.1

/-- Where a ring starts and ends. -/
theorem Ring.next {s : C} {l : List C} (h : m.Ring s l) : ∃ b ∈ s :: l, m.next s = some b := by
  cases l with
  | nil => exact ⟨s, List.mem_cons_self, h.1⟩
  | cons b l => exact ⟨b, List.mem_cons_of_mem s List.mem_cons_self, h.1.1⟩

theorem Ring.prev {s : C} {l : List C} (h : m.Ring s l) : ∃ a ∈ s :: l, m.prev s = some a := by
  rcases List.eq_nil_or_concat l with rfl | ⟨l, a, rfl⟩
  · exact ⟨s, List.mem_cons_self, h.2⟩
  · rw [List.concat_eq_append] at *
    exact ⟨a, List.mem_cons_of_mem s (List.mem_append_right l (List.mem_singleton_self a)),
      (path_append.mp h).2.2⟩

/-- Every cell of a path has a predecessor and a successor. -/
theorem Path.neighbours {a x b : C} {l : List C} (h : m.Path a l b) (hx : x ∈ l) :
    (m.next x).isSome ∧ (m.prev x).isSome := by
  rcases List.append_of_mem hx with ⟨u, v, rfl⟩
  rcases path_append.mp h with ⟨hu, hv⟩
  constructor
  · rw [hv.head]
    cases v <;> rfl
  · -- The last step of the path before `x`.
    rcases List.eq_nil_or_concat u with rfl | ⟨u, y, rfl⟩
    · rw [hu.2]
      rfl
    · rw [List.concat_eq_append] at hu
      rw [(path_append.mp hu).2.2]
      rfl

section Update

variable [DecidableEq C]

/-- Make two cells neighbours. -/
def join (m : Links C) (a b : C) : Links C where
  next := Function.update m.next a (some b)
  prev := Function.update m.prev b (some a)

/-- A cell with both pointers null. -/
def null (m : Links C) (x : C) : Links C where
  next := Function.update m.next x none
  prev := Function.update m.prev x none

theorem linked_join (m : Links C) (a b : C) : (m.join a b).Linked a b :=
  ⟨Function.update_self _ _ _, Function.update_self _ _ _⟩

/-! Other cells keep their pointers. -/

theorem next_join (m : Links C) {a b c : C} (h : c ≠ a) : (m.join a b).next c = m.next c :=
  Function.update_of_ne h _ _

theorem prev_join (m : Links C) {a b c : C} (h : c ≠ b) : (m.join a b).prev c = m.prev c :=
  Function.update_of_ne h _ _

theorem null_of_ne (m : Links C) {c x : C} (h : c ≠ x) :
    (m.null x).next c = m.next c ∧ (m.null x).prev c = m.prev c :=
  ⟨Function.update_of_ne h _ _, Function.update_of_ne h _ _⟩

/-- Neighbours stay neighbours while others are joined. -/
theorem Linked.join {a b c d : C} (h : m.Linked c d) (hc : c ≠ a) (hd : d ≠ b) :
    (m.join a b).Linked c d := by
  constructor
  · rw [next_join m hc]
    exact h.1
  · rw [prev_join m hd]
    exact h.2

/-- A path stays a path while cells are joined that are not on it. -/
theorem Path.join {a b c d : C} {l : List C} (h : m.Path c l d) (ha : a ∉ c :: l)
    (hb : b ∉ l) (hbd : b ≠ d) : (m.join a b).Path c l d := by
  refine path_frame h ?_ ?_
  · intro x hx
    exact next_join m (fun hxa => ha (hxa ▸ hx))
  · intro x hx
    have hne : x ≠ b := by
      rintro rfl
      rcases hx with hx | hx
      · exact hb hx
      · exact hbd hx
    exact prev_join m hne

/-- A ring stays a ring while cells of no importance to it are joined. -/
theorem Ring.join {a b s : C} {l : List C} (h : m.Ring s l) (ha : a ∉ s :: l) (hb : b ∉ s :: l) :
    (m.join a b).Ring s l := by
  refine Path.join h ha (fun hbl => hb (List.mem_cons_of_mem s hbl)) ?_
  rintro rfl
  exact hb List.mem_cons_self

theorem Ring.null {x s : C} {l : List C} (h : m.Ring s l) (hx : x ∉ s :: l) :
    (m.null x).Ring s l := by
  have hne : ∀ c ∈ s :: l, c ≠ x := fun c hc hcx => hx (hcx ▸ hc)
  refine ring_frame h ?_ ?_
  · intro c hc
    exact (null_of_ne m (hne c hc)).1
  · intro c hc
    exact (null_of_ne m (hne c hc)).2

/-! ## Rings -/

/-- The last step of a path can be led somewhere else. -/
theorem path_redirect {s x : C} {u : List C} (h : m.Path s u x) (hd : (s :: u).Nodup) :
    ∃ a ∈ s :: u, m.prev x = some a ∧ ∀ b, b ∉ u → (m.join a b).Path s u b := by
  rcases List.eq_nil_or_concat u with rfl | ⟨u, a, rfl⟩
  · exact ⟨s, List.mem_cons_self, h.2, fun b _ => linked_join m s b⟩
  · rw [List.concat_eq_append] at *
    rcases path_append.mp h with ⟨hu, ha⟩
    have hau : a ∉ s :: u := by
      intro hmem
      rw [← List.cons_append] at hd
      exact List.disjoint_of_nodup_append hd hmem (List.mem_singleton_self a)
    refine ⟨a, List.mem_cons_of_mem s (List.mem_append_right u (List.mem_singleton_self a)),
      ha.2, fun b hb => path_append.mpr ⟨?_, linked_join m a b⟩⟩
    refine hu.join hau (fun hbu => hb (List.mem_append_left [a] hbu)) ?_
    rintro rfl
    exact hb (List.mem_append_right u (List.mem_singleton_self b))

/-- Linking the neighbours of a cell takes it out of its ring. -/
theorem ring_remove {s x : C} {u v : List C} (h : m.Ring s (u ++ x :: v))
    (hd : (s :: (u ++ x :: v)).Nodup) :
    ∃ a b, m.prev x = some a ∧ m.next x = some b ∧ a ∈ s :: (u ++ v) ∧ b ∈ s :: (u ++ v) ∧
      (m.join a b).Ring s (u ++ v) := by
  rcases path_append.mp h with ⟨hu, hv⟩
  rw [List.nodup_cons, List.nodup_append] at hd
  rcases hd with ⟨hs, hdu, hdv, huv⟩
  rw [List.mem_append, List.mem_cons, not_or, not_or] at hs
  rcases path_redirect hu (List.nodup_cons.mpr ⟨hs.1, hdu⟩) with ⟨a, ha, hprev, hjoin⟩
  have ha' : a ∈ s :: (u ++ v) := by
    rw [← List.cons_append]
    exact List.mem_append_left v ha
  cases v with
  | nil =>
      refine ⟨a, s, hprev, hv.1, ha', List.mem_cons_self, ?_⟩
      rw [List.append_nil]
      exact hjoin s hs.1
  | cons b v =>
      have hbu : b ∉ u := fun hb =>
        huv b hb b (List.mem_cons_of_mem x List.mem_cons_self) rfl
      have hbv : b ∉ v := (List.nodup_cons.mp (List.nodup_cons.mp hdv).2).1
      have hbs : b ≠ s := fun hb => hs.2.2 (hb ▸ List.mem_cons_self)
      have hab : a ∉ b :: v := by
        intro hmem
        rcases List.mem_cons.mp ha with rfl | hau
        · exact hs.2.2 hmem
        · exact huv a hau a (List.mem_cons_of_mem x hmem) rfl
      refine ⟨a, b, hprev, hv.1.1, ha', ?_, path_append.mpr ⟨hjoin b hbu, ?_⟩⟩
      · exact List.mem_cons_of_mem s (List.mem_append_right u List.mem_cons_self)
      · exact hv.2.join hab hbv hbs

/-- Linking a cell in behind the sentinel. -/
theorem ring_addHead {s x b : C} {l : List C} (h : m.Ring s l) (hd : (s :: l).Nodup)
    (hx : x ∉ s :: l) (hb : m.next s = some b) : ((m.join x b).join s x).Ring s (x :: l) := by
  rw [List.mem_cons, not_or] at hx
  rcases hx with ⟨hxs, hxl⟩
  have hsl := (List.nodup_cons.mp hd).1
  refine ⟨linked_join _ s x, ?_⟩
  cases l with
  | nil =>
      have hbs : b = s := Option.some.inj (hb.symm.trans h.1)
      subst hbs
      exact (linked_join m x b).join hxs (Ne.symm hxs)
  | cons c l =>
      have hbc : b = c := Option.some.inj (hb.symm.trans h.1.1)
      subst hbc
      have hbl : b ∉ l := (List.nodup_cons.mp (List.nodup_cons.mp hd).2).1
      have hbs : b ≠ s := fun hbs => hsl (hbs ▸ List.mem_cons_self)
      have hbx : b ≠ x := fun hbx => hxl (hbx ▸ List.mem_cons_self)
      refine ⟨(linked_join m x b).join hxs hbx, ?_⟩
      have hpath := h.2.join hxl hbl hbs
      exact hpath.join hsl (fun hmem => hxl (List.mem_cons_of_mem b hmem)) hxs

/-- Linking a cell in before the sentinel. -/
theorem ring_addTail {s x a : C} {l : List C} (h : m.Ring s l) (hd : (s :: l).Nodup)
    (hx : x ∉ s :: l) (ha : m.prev s = some a) :
    ((m.join x s).join a x).Ring s (l ++ [x]) := by
  rw [List.mem_cons, not_or] at hx
  rcases hx with ⟨hxs, hxl⟩
  rcases List.nodup_cons.mp hd with ⟨hsl, hdl⟩
  rcases List.eq_nil_or_concat l with rfl | ⟨l, c, rfl⟩
  · have has : a = s := Option.some.inj (ha.symm.trans h.2)
    subst has
    exact ⟨linked_join _ a x, (linked_join m x a).join hxs (Ne.symm hxs)⟩
  · rw [List.concat_eq_append] at *
    rcases path_append.mp h with ⟨hl, hc⟩
    have hac : a = c := Option.some.inj (ha.symm.trans hc.2)
    subst hac
    have hmem : a ∈ l ++ [a] := List.mem_append_right l (List.mem_singleton_self a)
    have hal : a ∉ l := fun hal =>
      List.disjoint_of_nodup_append hdl hal (List.mem_singleton_self a)
    have has : a ≠ s := fun has => hsl (has ▸ hmem)
    have hax : x ≠ a := fun hxa => hxl (hxa ▸ hmem)
    have hx' : x ∉ l := fun hmem' => hxl (List.mem_append_left [a] hmem')
    rw [Ring, List.append_assoc]
    refine path_append.mpr ⟨?_, linked_join _ a x, ?_⟩
    · have hxsl : x ∉ s :: l := by
        rw [List.mem_cons, not_or]
        exact ⟨hxs, hx'⟩
      have hasl : a ∉ s :: l := by
        rw [List.mem_cons, not_or]
        exact ⟨has, hal⟩
      have hs' : s ∉ l := fun hmem' => hsl (List.mem_append_left [a] hmem')
      exact (hl.join hxsl hs' (Ne.symm has)).join hasl hx' hax
    · exact (linked_join m x s).join hax (Ne.symm hxs)

end Update

end Links

end Pandos
