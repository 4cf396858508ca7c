import Pandos.SupportMemory
import Pandos.Theory.Lists
import Pandos.Theory.Supports

/-!
# Allocation and Deallocation by Accesses

What `allocate` and `deallocate` do to the pointers of `support_free` when nobody
else calls one of them before they are through. In the middle of a call the
pointers are those of the list with some of the stores done, and after the last
store they are those of the list after the call.

## Main definitions

* `FreeList.Lists`: The pointers are those of a list.
* `DeallocPc.Midway`, `AllocPc.Midway`: The pointers in the middle of a call.

## Theorems

* `deallocate_access`, `allocate_access`: What one access of a call does.
* `initSupports_lists`: The pointers at boot.
-/

namespace Pandos

section FreeList

variable {n : Nat}

namespace FreeList

/-- The pointers are those of the list. -/
def Lists (links : Links (ListCell n)) (l : List (Fin n)) : Prop :=
  links.Ring .supportFree (l.map .pList)

variable {links : Links (ListCell n)} {l : List (Fin n)} {t : Fin n}

theorem nodup_cells (h : l.Nodup) : (ListCell.supportFree :: l.map .pList).Nodup := by
  refine List.nodup_cons.mpr ⟨fun hc => ?_, h.map (fun _ _ hab => ListCell.pList.inj hab)⟩
  rcases List.mem_map.mp hc with ⟨a, _, ha⟩
  cases ha

theorem mem_cells : ListCell.pList t ∈ ListCell.supportFree :: l.map .pList ↔ t ∈ l := by
  rw [List.mem_cons, List.mem_map]
  constructor
  · rintro (hc | ⟨a, ha, hat⟩)
    · cases hc
    · cases hat
      exact ha
  · exact fun h => Or.inr ⟨t, h, rfl⟩

/-- The first cell of a list, or the sentinel again. -/
def front : List (Fin n) → ListCell n
  | [] => .supportFree
  | a :: _ => .pList a

theorem path_front {c : ListCell n} (h : links.Path c (l.map .pList) .supportFree) :
    links.next c = some (front l) := by
  rw [h.head]
  cases l <;> rfl

/-- The cell behind the sentinel, and behind a cell of the list. -/
theorem Lists.head (h : Lists links l) : links.next .supportFree = some (front l) :=
  path_front h

theorem Lists.behind {u v : List (Fin n)} {a : Fin n} (h : Lists links (u ++ a :: v)) :
    links.next (.pList a) = some (front v) := by
  rw [Lists, List.map_append, List.map_cons] at h
  exact path_front (Links.path_append.mp h).2

theorem lists_cons (h : Lists links l) (hd : l.Nodup) (ht : t ∉ l) {next : ListCell n}
    (hn : links.next .supportFree = some next) :
    Lists ((links.join (.pList t) next).join .supportFree (.pList t)) (t :: l) :=
  Links.ring_addHead h (nodup_cells hd) (fun hc => ht (mem_cells.mp hc)) hn

theorem lists_tail {a : Fin n} {v : List (Fin n)} {prev next : ListCell n}
    (h : Lists links (a :: v)) (hd : (a :: v).Nodup) (hp : links.prev (.pList a) = some prev)
    (hn : links.next (.pList a) = some next) : Lists (links.join prev next) v := by
  rcases Links.ring_remove (u := []) (v := v.map ListCell.pList) h (nodup_cells hd) with
    ⟨p, q, hp', hn', _, _, hring⟩
  rw [hp, Option.some.injEq] at hp'
  rw [hn, Option.some.injEq] at hn'
  rw [hp', hn']
  exact hring

end FreeList

/-! ## `deallocate` -/

/-- The pointers while a call of `deallocate` for `t` is under way. -/
def DeallocPc.Midway (links : Links (ListCell n)) (l : List (Fin n)) (t : Fin n) :
    DeallocPc n → Prop
  | .idle => FreeList.Lists links l
  | .search iter => FreeList.Lists links l ∧
    ∃ u a v, l = u ++ a :: v ∧ iter = .pList a ∧ t ∉ u ++ [a]
  | .add => FreeList.Lists links l ∧ t ∉ l
  | .nextPrev next => FreeList.Lists links l ∧ t ∉ l ∧ links.next .supportFree = some next
  | .newNext next => t ∉ l ∧ ∃ m : Links (ListCell n), FreeList.Lists m l ∧
    m.next .supportFree = some next ∧
    links = { m with prev := Function.update m.prev next (some (.pList t)) }
  | .newPrev => t ∉ l ∧ ∃ m : Links (ListCell n), ∃ next, FreeList.Lists m l ∧
    m.next .supportFree = some next ∧ links = m.join (.pList t) next
  | .headNext => t ∉ l ∧ ∃ m : Links (ListCell n), ∃ next, FreeList.Lists m l ∧
    m.next .supportFree = some next ∧
    links = { m.join (.pList t) next with
      prev := Function.update (m.join (.pList t) next).prev (.pList t) (some .supportFree) }

/-- What one access of a call of `deallocate` leads to. -/
inductive Deallocates (m m' : FreeList n) (l : List (Fin n)) (i t : Fin n) : Prop
  | goes (h : (m'.dealloc i).Midway m'.links l t) (hb : m'.dealloc i ≠ .idle)
  | ends (h : FreeList.Lists m'.links (t :: l)) (ht : t ∉ l) (hb : m'.dealloc i = .idle)

/-- The access of one U-proc leaves the calls of the others alone. -/
structure FreeList.Only (m m' : FreeList n) (i : Fin n) : Prop where
  alloc : m'.alloc = m.alloc
  others : ∀ j, j ≠ i → m'.dealloc j = m.dealloc j

namespace FreeList

variable {m : FreeList n} {l : List (Fin n)} {i t : Fin n}

/-- A store to the pointers, or none, and a step of the call. -/
theorem access_goes {m₁ : FreeList n} {pc : DeallocPc n} (ha : m₁.alloc = m.alloc)
    (hd : m₁.dealloc = m.dealloc) (h : pc.Midway m₁.links l t) (hb : pc ≠ .idle) :
    m.Only (m₁.setDealloc i pc) i ∧ Deallocates m (m₁.setDealloc i pc) l i t := by
  have hself : (m₁.setDealloc i pc).dealloc i = pc := Function.update_self _ _ _
  refine ⟨⟨ha, fun j hj => ?_⟩, Deallocates.goes ?_ ?_⟩
  · exact (Function.update_of_ne hj _ _).trans (congrFun hd j)
  · rw [hself]
    exact h
  · rw [hself]
    exact hb

/-- The search goes on, or has found what it looks for. -/
theorem visit_cases (hl : Lists m.links l) {u v : List (Fin n)} (hu : l = u ++ v) (ht : t ∉ u) :
    (t ∈ l ∧ m.visit i t (front v) = .error "Double support_t %p deallocation.\n") ∨
    ∃ m', m.visit i t (front v) = .ok m' ∧ m.Only m' i ∧ Deallocates m m' l i t := by
  cases v with
  | nil =>
      -- The search is back at the sentinel.
      rw [List.append_nil] at hu
      exact Or.inr ⟨_, if_pos rfl, access_goes rfl rfl ⟨hl, hu ▸ ht⟩ (fun hc => by cases hc)⟩
  | cons a v =>
      by_cases hat : a = t
      · refine Or.inl ⟨?_, ?_⟩
        · rw [hu, hat]
          exact List.mem_append_right u List.mem_cons_self
        · rw [visit, front, if_neg (fun hc => by cases hc), hat, if_pos rfl]
      · refine Or.inr ⟨m.setDealloc i (.search (.pList a)), ?_,
          access_goes rfl rfl ⟨hl, u, a, v, hu, rfl, fun hc => ?_⟩ (fun hc => by cases hc)⟩
        · rw [visit, front, if_neg (fun hc => by cases hc),
            if_neg (fun hc => hat (ListCell.pList.inj hc))]
        · rcases List.mem_append.mp hc with hc | hc
          · exact ht hc
          · exact hat (List.mem_singleton.mp hc).symm

/-- One access of a call of `deallocate` that nobody disturbs. -/
theorem deallocate_access (hd : l.Nodup) (h : (m.dealloc i).Midway m.links l t) :
    (t ∈ l ∧ m.deallocate i t = some (.error "Double support_t %p deallocation.\n")) ∨
    ∃ m', m.deallocate i t = some (.ok m') ∧ m.Only m' i ∧ Deallocates m m' l i t := by
  unfold deallocate
  cases hpc : m.dealloc i with
  | idle =>
      -- The first access of the search.
      rw [hpc] at h
      simp only [Lists.head h, Option.map_some, Option.some.injEq]
      exact visit_cases h (u := []) rfl List.not_mem_nil
  | search iter =>
      rw [hpc] at h
      rcases h with ⟨hl, u, a, v, hu, rfl, ht⟩
      simp only [Lists.behind (hu ▸ hl), Option.map_some, Option.some.injEq]
      refine visit_cases hl (u := u ++ [a]) ?_ ht
      rw [hu, List.append_assoc]
      rfl
  | add =>
      rw [hpc] at h
      simp only [Lists.head h.1, Option.map_some, Option.some.injEq]
      exact Or.inr ⟨_, rfl, access_goes rfl rfl ⟨h.1, h.2, Lists.head h.1⟩ (fun hc => by cases hc)⟩
  | nextPrev next =>
      -- From here on the pointers are those of the list with some stores done.
      rw [hpc] at h
      exact Or.inr ⟨_, rfl, access_goes rfl rfl ⟨h.2.1, m.links, h.1, h.2.2, rfl⟩
        (fun hc => by cases hc)⟩
  | newNext next =>
      rw [hpc] at h
      rcases h with ⟨ht, links, hl, hn, hm⟩
      refine Or.inr ⟨_, rfl, access_goes rfl rfl ⟨ht, links, next, hl, hn, ?_⟩
        (fun hc => by cases hc)⟩
      simp only [storeNext, hm]
      rfl
  | newPrev =>
      rw [hpc] at h
      rcases h with ⟨ht, links, next, hl, hn, hm⟩
      refine Or.inr ⟨_, rfl, access_goes rfl rfl ⟨ht, links, next, hl, hn, ?_⟩
        (fun hc => by cases hc)⟩
      simp only [storePrev, hm]
  | headNext =>
      rw [hpc] at h
      -- The last store, to the sentinel, puts the new cell into the list.
      rcases h with ⟨ht, links, next, hl, hn, hm⟩
      refine Or.inr ⟨_, rfl, ⟨rfl, fun _ hj => Function.update_of_ne hj _ _⟩,
        Deallocates.ends ?_ ht (Function.update_self _ _ _)⟩
      have hlists := lists_cons hl hd ht hn
      simp only [storeNext, setDealloc, hm]
      exact hlists

end FreeList

/-! ## `allocate` -/

/-- The pointers while a call of `allocate` is under way. -/
def AllocPc.Midway (links : Links (ListCell n)) (l : List (Fin n)) : AllocPc n → Prop
  | .idle => FreeList.Lists links l
  | .first => FreeList.Lists links l ∧ l ≠ []
  | .entryPrev lh => FreeList.Lists links l ∧ ∃ a v, l = a :: v ∧ lh = .pList a
  | .entryNext lh prev => FreeList.Lists links l ∧ ∃ a v, l = a :: v ∧ lh = .pList a ∧
    links.prev lh = some prev
  | .nextPrev lh prev next => FreeList.Lists links l ∧ ∃ a v, l = a :: v ∧ lh = .pList a ∧
    links.prev lh = some prev ∧ links.next lh = some next
  | .prevNext lh prev next => ∃ m : Links (ListCell n), FreeList.Lists m l ∧
    ∃ a v, l = a :: v ∧ lh = .pList a ∧ m.prev lh = some prev ∧ m.next lh = some next ∧
      links = { m with prev := Function.update m.prev next (some prev) }
  | .done lh => ∃ a v, l = a :: v ∧ lh = .pList a ∧ FreeList.Lists links v

namespace FreeList

variable {m : FreeList n} {l : List (Fin n)}

/-- One access of a call of `allocate` that nobody disturbs. -/
theorem allocate_access (hd : l.Nodup) (h : m.alloc.Midway m.links l)
    (hdone : ∀ lh, m.alloc ≠ .done lh) :
    (l = [] ∧ m.allocate = some (.error "Out of support_t\n")) ∨
    ∃ m', m.allocate = some (.ok m') ∧ m'.dealloc = m.dealloc ∧ m'.alloc.Midway m'.links l := by
  unfold allocate
  cases hpc : m.alloc with
  | idle =>
      rw [hpc] at h
      simp only [Lists.head h, Option.map_some, Option.some.injEq]
      cases l with
      | nil => exact Or.inl ⟨rfl, if_pos rfl⟩
      | cons a v =>
          exact Or.inr ⟨{ m with alloc := .first }, if_neg (fun hc => by cases hc), rfl, h,
            fun hc => by cases hc⟩
  | first =>
      rw [hpc] at h
      simp only [Lists.head h.1, Option.map_some, Option.some.injEq]
      cases l with
      | nil => exact absurd rfl h.2
      | cons a v => exact Or.inr ⟨_, rfl, rfl, h.1, a, v, rfl, rfl⟩
  | entryPrev lh =>
      rw [hpc] at h
      rcases h with ⟨hl, a, v, rfl, rfl⟩
      rcases Option.isSome_iff_exists.mp
        (Links.Path.neighbours hl (x := .pList a) List.mem_cons_self).2 with ⟨prev, hp⟩
      simp only [hp, Option.map_some, Option.some.injEq]
      exact Or.inr ⟨_, rfl, rfl, hl, a, v, rfl, rfl, hp⟩
  | entryNext lh prev =>
      rw [hpc] at h
      rcases h with ⟨hl, a, v, rfl, rfl, hp⟩
      rcases Option.isSome_iff_exists.mp
        (Links.Path.neighbours hl (x := .pList a) List.mem_cons_self).1 with ⟨next, hn⟩
      simp only [hn, Option.map_some, Option.some.injEq]
      exact Or.inr ⟨_, rfl, rfl, hl, a, v, rfl, rfl, hp, hn⟩
  | nextPrev lh prev next =>
      rw [hpc] at h
      rcases h with ⟨hl, a, v, rfl, rfl, hp, hn⟩
      exact Or.inr ⟨_, rfl, rfl, m.links, hl, a, v, rfl, rfl, hp, hn, rfl⟩
  | prevNext lh prev next =>
      rw [hpc] at h
      rcases h with ⟨links, hl, a, v, rfl, rfl, hp, hn, hm⟩
      refine Or.inr ⟨_, rfl, rfl, a, v, rfl, rfl, ?_⟩
      have htail := lists_tail hl hd hp hn
      simp only [storeNext, hm]
      exact htail
  | done lh => exact absurd hpc (hdone lh)

/-! ## Boot -/

/-- The list that `init_supports` makes from another one. -/
theorem foldlM_lists {ts l : List (Fin n)} {links : Links (ListCell n)} (hl : Lists links l)
    (hd : (ts.reverse ++ l).Nodup) :
    ∃ links', ts.foldlM (fun links t => do
        if ← links.listContains (n + 1) (some (.pList t)) (some .supportFree) then none
        else links.listAdd (some (.pList t)) (some .supportFree)) links = some links' ∧
      Lists links' (ts.reverse ++ l) := by
  induction ts generalizing links l with
  | nil => exact ⟨links, rfl, hl⟩
  | cons t ts ih =>
      rw [List.reverse_cons, List.append_assoc] at hd
      have hd' : (t :: l).Nodup := hd.of_append_right
      have ht : t ∉ l := (List.nodup_cons.mp hd').1
      have hlt : (l.map ListCell.pList).length < n + 1 := by
        rw [List.length_map]
        have hle := (List.nodup_cons.mp hd').2.length_le_card
        rw [Fintype.card_fin] at hle
        omega
      have hs : ListCell.supportFree ∉ l.map (ListCell.pList (n := n)) :=
        (List.nodup_cons.mp (nodup_cells (List.nodup_cons.mp hd').2)).1
      have hcontains := Links.listContains_ring (x := .pList t) hl hs hlt
      have hmem : ListCell.pList t ∉ l.map ListCell.pList :=
        fun hc => ht (mem_cells.mp (List.mem_cons_of_mem _ hc))
      rcases Links.Ring.next hl with ⟨next, _, hn⟩
      rcases ih (lists_cons hl (List.nodup_cons.mp hd').2 ht hn) hd with ⟨links', hfold, hl'⟩
      refine ⟨links', ?_, ?_⟩
      · rw [List.foldlM_cons, hcontains, decide_eq_false hmem, Links.listAdd_some hn]
        exact hfold
      · rw [List.reverse_cons, List.append_assoc]
        exact hl'

/-- At boot all structures are in the list, the last one first. -/
theorem initSupports_lists : ∃ links : Links (ListCell n), initSupports = some links ∧
    Lists links (List.finRange n).reverse := by
  have hempty : Lists (n := n)
      { next := Function.update (fun _ => none) .supportFree (some .supportFree)
        prev := Function.update (fun _ => none) .supportFree (some .supportFree) } [] :=
    ⟨by simp only [Function.update_self], by simp only [Function.update_self]⟩
  have hd : ((List.finRange n).reverse ++ []).Nodup := by
    rw [List.append_nil]
    exact List.nodup_reverse.mpr (List.nodup_finRange n)
  rcases foldlM_lists hempty hd with ⟨links, hfold, hl⟩
  rw [List.append_nil] at hl
  exact ⟨links, hfold, hl⟩

end FreeList

end FreeList

end Pandos
