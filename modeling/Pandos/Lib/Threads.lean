import Mathlib.Data.Set.Insert
import Pandos.Lib.Queues
import Pandos.Lib.Rings

/-!
# Lists Threaded through a Field

A family of lists in memory. Each list has a sentinel, and each element has one
cell, so that it is in one list at most. The sentinels need not all be in use:
the pointers of one that is not say nothing.

The operations of rings change the pointers of one list of the family. All
others are made of other cells, and so is whatever else there is in memory.

## Main definitions

* `Threads`: The cells of a family of lists.
* `Threads.Carries`: The pointers make the lists.
* `Threads.Spares`: Other cells keep their pointers.

## Theorems

* `carries_frame`: What the lists depend on.
* `carries_remove`: Joining the neighbours of an element.
* `carries_addTail`, `carries_addHead`: Joining an element to its neighbours.
* `carries_start`: A sentinel that points at itself.
-/

namespace Pandos

/-- The cells of a family of lists: the sentinels, and one cell of each
    element. -/
structure Threads (C ι α : Type*) where
  head : ι → C
  field : α → C
  head_inj : Function.Injective head
  field_inj : Function.Injective field
  apart : ∀ h x, head h ≠ field x

namespace Threads

variable {C ι α : Type*} {T : Threads C ι α} {m m' m'' : Links C} {ready : Set ι}
  {q : Queues ι α} {h h' : ι} {x : α} {a b c : C}

/-- The cell belongs to the family. -/
def Covers (T : Threads C ι α) (c : C) : Prop := (∃ h, c = T.head h) ∨ ∃ x, c = T.field x

/-- The cells of one list: its sentinel and those of its elements. -/
def ring (T : Threads C ι α) (q : Queues ι α) (h : ι) : List C := T.head h :: (q h).map T.field

/-- The pointers make a ring of each sentinel in use and the elements behind
    it. -/
structure Carries (T : Threads C ι α) (m : Links C) (ready : Set ι) (q : Queues ι α) :
    Prop where
  wf : q.Wf
  ring : ∀ h ∈ ready, m.Ring (T.head h) ((q h).map T.field)
  outside : ∀ h, h ∉ ready → q h = []

/-- All cells outside the family keep their pointers. -/
def Spares (T : Threads C ι α) (m m' : Links C) : Prop :=
  ∀ c, ¬ T.Covers c → m'.next c = m.next c ∧ m'.prev c = m.prev c

/-! ## Cells -/

theorem covers_head (T : Threads C ι α) (h : ι) : T.Covers (T.head h) := Or.inl ⟨h, rfl⟩

theorem covers_field (T : Threads C ι α) (x : α) : T.Covers (T.field x) := Or.inr ⟨x, rfl⟩

theorem covers_ring (hc : c ∈ T.ring q h) : T.Covers c := by
  rcases List.mem_cons.mp hc with rfl | hc
  · exact covers_head T h
  · rcases List.mem_map.mp hc with ⟨x, _, rfl⟩
    exact covers_field T x

theorem mem_field (T : Threads C ι α) {l : List α} : T.field x ∈ l.map T.field ↔ x ∈ l :=
  List.mem_map_of_injective T.field_inj

theorem head_not_mem (T : Threads C ι α) (h : ι) (l : List α) : T.head h ∉ l.map T.field := by
  intro hmem
  rcases List.mem_map.mp hmem with ⟨x, _, hx⟩
  exact T.apart h x hx.symm

theorem head_mem_ring (hc : T.head h' ∈ T.ring q h) : h' = h := by
  rcases List.mem_cons.mp hc with hc | hc
  · exact T.head_inj hc
  · exact absurd hc (head_not_mem T h' (q h))

theorem field_mem_ring (hc : T.field x ∈ T.ring q h) : x ∈ q h := by
  rcases List.mem_cons.mp hc with hc | hc
  · exact absurd hc.symm (T.apart h x)
  · exact (mem_field T).mp hc

theorem nodup_ring (hq : q.Wf) (h : ι) : (T.ring q h).Nodup :=
  List.nodup_cons.mpr ⟨head_not_mem T h (q h), (hq.nodup h).map T.field_inj⟩

/-- Two lists have no cell in common. -/
theorem rings_disjoint (hq : q.Wf) (hne : h' ≠ h) (hc : c ∈ T.ring q h) : c ∉ T.ring q h' := by
  intro hc'
  rcases covers_ring hc with ⟨i, rfl⟩ | ⟨x, rfl⟩
  · exact hne ((head_mem_ring hc').symm.trans (head_mem_ring hc))
  · exact hne (hq.unique h' h x (field_mem_ring hc') (field_mem_ring hc))

theorem Spares.trans (hs : T.Spares m m') (hs' : T.Spares m' m'') : T.Spares m m'' := by
  intro c hc
  rcases hs c hc with ⟨hnext, hprev⟩
  rcases hs' c hc with ⟨hnext', hprev'⟩
  exact ⟨hnext'.trans hnext, hprev'.trans hprev⟩

/-! ## Frames -/

theorem Carries.mem_ready (hm : T.Carries m ready q) (hx : x ∈ q h) : h ∈ ready := by
  by_contra hh
  rw [hm.outside h hh] at hx
  exact List.not_mem_nil hx

/-- The lists depend on the pointers of their cells. -/
theorem carries_frame (hm : T.Carries m ready q)
    (hsame : ∀ c, T.Covers c → m'.next c = m.next c ∧ m'.prev c = m.prev c) :
    T.Carries m' ready q := by
  refine ⟨hm.wf, fun h hh => ?_, hm.outside⟩
  refine Links.ring_frame (hm.ring h hh) (fun c hc => ?_) (fun c hc => ?_)
  · exact (hsame c (covers_ring (q := q) hc)).1
  · exact (hsame c (covers_ring (q := q) hc)).2

section Update

variable [DecidableEq C]

theorem spares_join (ha : T.Covers a) (hb : T.Covers b) : T.Spares m (m.join a b) := by
  intro c hc
  refine ⟨Links.next_join m ?_, Links.prev_join m ?_⟩
  · rintro rfl
    exact hc ha
  · rintro rfl
    exact hc hb

theorem spares_null (T : Threads C ι α) (m : Links C) (x : α) :
    T.Spares m (m.null (T.field x)) := by
  intro c hc
  refine Links.null_of_ne m ?_
  rintro rfl
  exact hc (covers_field T x)

/-- The cell of an element that is in no list does not matter. -/
theorem carries_null (hm : T.Carries m ready q) (hx : q.Null x) :
    T.Carries (m.null (T.field x)) ready q :=
  ⟨hm.wf, fun h hh => (hm.ring h hh).null (fun hc => hx h (field_mem_ring (q := q) hc)),
    hm.outside⟩

/-! ## Removal -/

variable [DecidableEq α]

/-- An element leaves its list when its neighbours are joined. -/
theorem carries_remove (hm : T.Carries m ready q) (hx : x ∈ q h) :
    ∃ a b, m.prev (T.field x) = some a ∧ m.next (T.field x) = some b ∧
      a ∈ T.ring (q.del x) h ∧ b ∈ T.ring (q.del x) h ∧
      T.Carries (m.join a b) ready (q.del x) := by
  have hh := hm.mem_ready hx
  rcases List.append_of_mem hx with ⟨u, v, huv⟩
  have hring := hm.ring h hh
  have hnodup := nodup_ring (T := T) hm.wf h
  unfold ring at hnodup
  rw [huv, List.map_append, List.map_cons] at hring hnodup
  rcases Links.ring_remove hring hnodup with ⟨a, b, hprev, hnext, ha, hb, hrest⟩
  have herase : q.del x h = u ++ v := by
    have hxu : x ∉ u := by
      intro hxu
      have hd := hm.wf.nodup h
      rw [huv] at hd
      exact List.disjoint_of_nodup_append hd hxu List.mem_cons_self
    unfold Queues.del
    rw [huv, List.erase_append_right _ hxu, List.erase_cons_head]
  rw [← List.map_append, ← herase] at ha hb hrest
  refine ⟨a, b, hprev, hnext, ha, hb, Queues.wf_del hm.wf x, fun h' hh' => ?_, fun h' hh' => ?_⟩
  · by_cases hhh : h' = h
    · rw [hhh]
      exact hrest
    · have hother : q.del x h' = q h' := Queues.del_other hm.wf hx hhh
      have hsub : ∀ c, c ∈ T.ring (q.del x) h → c ∉ T.ring q h' := fun c hc hc' =>
        rings_disjoint (Queues.wf_del hm.wf x) hhh hc (by unfold ring at hc' ⊢; rwa [hother])
      rw [hother]
      exact (hm.ring h' hh').join (hsub a ha) (hsub b hb)
  · unfold Queues.del
    rw [hm.outside h' hh']
    rfl

end Update

/-! ## Insertion -/

section Insertion

variable [DecidableEq C]

/-- The other lists stay as they are while an element is linked into one. -/
theorem carries_link {q' : Queues ι α} (hm : T.Carries m ready q) (hx : q.Null x)
    (hh : h ∈ ready) (ha : a ∈ T.ring q h) (hb : b ∈ T.ring q h) (hq : q'.Wf)
    (hother : ∀ h', h' ≠ h → q' h' = q h')
    (hring : ((m.join (T.field x) b).join a (T.field x)).Ring (T.head h) ((q' h).map T.field)) :
    T.Carries ((m.join (T.field x) b).join a (T.field x)) ready q' := by
  have hout : ∀ h', T.field x ∉ T.ring q h' := fun h' hc => hx h' (field_mem_ring hc)
  refine ⟨hq, fun h' hh' => ?_, fun h' hh' => ?_⟩
  · by_cases hhh : h' = h
    · rw [hhh]
      exact hring
    · rw [hother h' hhh]
      have hfirst := (hm.ring h' hh').join (hout h') (rings_disjoint hm.wf hhh hb)
      exact hfirst.join (rings_disjoint hm.wf hhh ha) (hout h')
  · rw [hother h' (fun hhh => hh' (hhh ▸ hh))]
    exact hm.outside h' hh'

theorem spares_link (ha : a ∈ T.ring q h) (hb : b ∈ T.ring q h) :
    T.Spares m ((m.join (T.field x) b).join a (T.field x)) :=
  (spares_join (covers_field T x) (covers_ring hb)).trans
    (spares_join (covers_ring ha) (covers_field T x))

/-- A sentinel comes into use when it points at itself. -/
theorem carries_start (hm : T.Carries m ready q) (hq : q h = []) :
    T.Carries (m.join (T.head h) (T.head h)) (insert h ready) q := by
  refine ⟨hm.wf, fun h' hh' => ?_, fun h' hh' => ?_⟩
  · by_cases hhh : h' = h
    · rw [hhh, hq]
      exact Links.linked_join m (T.head h) (T.head h)
    · have hout : T.head h ∉ T.ring q h' := fun hc => hhh (head_mem_ring hc).symm
      exact (hm.ring h' (hh'.resolve_left hhh)).join hout hout
  · exact hm.outside h' (fun hc => hh' (Set.mem_insert_of_mem h hc))

variable [DecidableEq ι]

/-- An element that is in no list comes last in one. -/
theorem carries_addTail (hm : T.Carries m ready q) (hx : q.Null x) (hh : h ∈ ready) :
    ∃ a ∈ T.ring q h, m.prev (T.head h) = some a ∧
      T.Carries ((m.join (T.field x) (T.head h)).join a (T.field x)) ready (q.addTail h x) := by
  have hring := hm.ring h hh
  rcases hring.prev with ⟨a, ha, hprev⟩
  have hout : T.field x ∉ T.ring q h := fun hc => hx h (field_mem_ring hc)
  have hadd := Links.ring_addTail hring (nodup_ring (T := T) hm.wf h) hout hprev
  refine ⟨a, ha, hprev, ?_⟩
  refine carries_link hm hx hh ha List.mem_cons_self (Queues.wf_addTail hm.wf h hx) ?_ ?_
  · intro h' hhh
    exact Queues.addTail_other q h h' x hhh
  · rw [Queues.addTail_self, List.map_append]
    exact hadd

/-- An element that is in no list comes first in one. -/
theorem carries_addHead (hm : T.Carries m ready q) (hx : q.Null x) (hh : h ∈ ready) :
    ∃ b ∈ T.ring q h, m.next (T.head h) = some b ∧
      T.Carries ((m.join (T.field x) b).join (T.head h) (T.field x)) ready (q.addHead h x) := by
  have hring := hm.ring h hh
  rcases hring.next with ⟨b, hb, hnext⟩
  have hout : T.field x ∉ T.ring q h := fun hc => hx h (field_mem_ring hc)
  have hadd := Links.ring_addHead hring (nodup_ring (T := T) hm.wf h) hout hnext
  refine ⟨b, hb, hnext, ?_⟩
  refine carries_link hm hx hh List.mem_cons_self hb (Queues.wf_addHead hm.wf h hx) ?_ ?_
  · intro h' hhh
    exact Queues.addHead_other q h h' x hhh
  · rw [Queues.addHead_self, List.map_cons]
    exact hadd

end Insertion

end Threads

end Pandos
