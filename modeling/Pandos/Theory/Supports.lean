import Mathlib.Data.Fintype.Card
import Pandos.Theory.UprocSteps

/-!
# Support Structures

Who has which support structure. A structure is free, or a U-proc has it from
its creation until it gives it back, or `test` has it at hand between
`allocate` and the creation of the U-proc it is meant for. It is never in two of
these places, and it never gets lost.

A U-proc gives its structure back a few steps before it dies, and `test` may
allocate it again in between. By then the U-proc does not use it any more.

## Main definitions

* `Life`, `Pc.life`: Whether a U-proc has a support structure.
* `TestPc.atHand`: The structure `test` is about to give away.
* `Retained`: What a step does to the structures.
* `Allotted`: Every structure has one place, and carries the ASID of its owner.

## Theorems

* `retained_step`: Every step keeps the invariant.
* `allotted_run`: The invariant holds in every run.
* `supportFree_ne_nil`: `test` never runs out of structures.
-/

namespace Pandos

section Supports

variable {n : Nat}

open SupportLevel

/-! ## Places of structures -/

/-- Whether a U-proc has a support structure. -/
inductive Life
  | unborn
  | holding
  | gone
  deriving DecidableEq

def Pc.life : Pc n → Life
  | .unborn => .unborn
  | .post => .gone
  | .posting => .gone
  | .exit => .gone
  | .dead => .gone
  | _ => .holding

theorem Pc.eq_unborn {pc : Pc n} (h : pc.life = .unborn) : pc = .unborn := by
  cases pc with
  | unborn => rfl
  | _ => cases h

/-- The structure `test` has allocated and not yet given away, with the U-proc
    it is meant for. -/
def TestPc.atHand : TestPc n → Option (Fin n × Fin n)
  | .header i t => some (i, t)
  | .heading i t => some (i, t)
  | .failed i t => some (i, t)
  | .fill i t _ => some (i, t)
  | .create i t => some (i, t)
  | _ => none

/-- How many U-procs `test` has created. -/
def TestPc.created : TestPc n → Nat
  | .alloc i => i
  | .header i _ => i
  | .heading i _ => i
  | .failed i _ => i
  | .fill i _ _ => i
  | .create i _ => i
  | .wait _ => n
  | .waiting _ => n

/-- Every support structure is free, or with one U-proc, or at hand, and carries
    the ASID of whoever has it. -/
structure Allotted (s : SupportLevel n) : Prop where
  asid : ∀ i, (s.pc i).life = .holding → (s.current i).supAsid = some i
  inj : ∀ i j, (s.pc i).life = .holding → (s.pc j).life = .holding → s.support i = s.support j →
    i = j
  held : ∀ i, (s.pc i).life = .holding → s.support i ∉ s.supportFree
  nodup : s.supportFree.Nodup
  spare : ∀ i t, s.test.atHand = some (i, t) → t ∉ s.supportFree ∧
    (∀ j, (s.pc j).life = .holding → s.support j ≠ t) ∧ (s.supportTable t).supAsid = some i
  born : ∀ i, (s.pc i).life = .unborn ↔ s.test.created ≤ i.val
  all : ∀ t, t ∈ s.supportFree ∨ (∃ i, (s.pc i).life = .holding ∧ s.support i = t) ∨
    ∃ i, s.test.atHand = some (i, t)

variable {s s' : SupportLevel n} {i : Fin n}

/-- The ASID a U-proc reads from its structure is its own. -/
theorem Allotted.own (h : Allotted s) (hlife : (s.pc i).life = .holding) {asid : Fin n}
    (ha : (s.current i).supAsid = some asid) : asid = i :=
  Option.some.inj (ha.symm.trans (h.asid i hlife))

/-- `deallocate` puts the structure of a U-proc on the list. -/
def Returns (s s' : SupportLevel n) (i : Fin n) : Prop :=
  s.pc i = .free ∧ s'.supportFree = s.support i :: s.supportFree

instance (s s' : SupportLevel n) (i : Fin n) : Decidable (Returns s s' i) :=
  inferInstanceAs (Decidable (_ ∧ _))

/-- What a step does to the structures: only `deallocate` makes the list of free
    ones longer, and its U-proc goes on without a structure. -/
structure Retained (s s' : SupportLevel n) : Prop where
  allotted : Allotted s'
  life : ∀ i, (s'.pc i).life = (s.pc i).life ∨ (Returns s s' i ∧ s'.pc i = .post) ∨
    ((s.pc i).life = .unborn ∧ (s'.pc i).life = .holding)
  free : s'.supportFree = s.supportFree ∨ (∃ i, Returns s s' i ∧ s'.pc i = .post) ∨
    ∃ t, s.supportFree = t :: s'.supportFree

/-- A step that moves no structure keeps the invariant. -/
theorem Allotted.congr (h : Allotted s) (hlife : ∀ i, (s'.pc i).life = (s.pc i).life)
    (hsupport : s'.support = s.support)
    (hasid : ∀ t, (s'.supportTable t).supAsid = (s.supportTable t).supAsid)
    (hfree : s'.supportFree = s.supportFree) (hhand : s'.test.atHand = s.test.atHand)
    (hborn : s'.test.created = s.test.created) : Retained s s' := by
  refine ⟨?_, fun i => Or.inl (hlife i), Or.inl hfree⟩
  refine ⟨fun i => ?_, fun i j => ?_, fun i => ?_, ?_, fun i t => ?_, fun i => ?_, fun t => ?_⟩
  · rw [hlife, current, hsupport, hasid]
    exact h.asid i
  · rw [hlife, hlife, hsupport]
    exact h.inj i j
  · rw [hlife, hsupport, hfree]
    exact h.held i
  · rw [hfree]
    exact h.nodup
  · simp only [hhand, hfree, hlife, hsupport, hasid]
    exact h.spare i t
  · rw [hlife, hborn]
    exact h.born i
  · simp only [hfree, hlife, hsupport, hhand]
    exact h.all t

/-- The U-proc `test` is about to create does not exist yet. -/
theorem Allotted.fresh (h : Allotted s) (htest : s.test.created = i.val) : s.pc i = .unborn :=
  Pc.eq_unborn ((h.born i).mpr (Nat.le_of_eq htest))

theorem Pc.resumed_life (pc : Pc n) : pc.resumed.life = pc.life := by
  cases pc <;> rfl

theorem Pc.finished_life (pc : Pc n) (ok : Bool) : (pc.finished ok).life = pc.life := by
  cases pc <;> cases ok <;> rfl

theorem TestPc.resumed_atHand (t : TestPc n) : t.resumed.atHand = t.atHand := by
  cases t <;> rfl

theorem TestPc.resumed_created (t : TestPc n) : t.resumed.created = t.created := by
  cases t <;> rfl

theorem Goes.life {pc : Pc n} (h : Goes s i pc) : pc.life = (s.pc i).life := by
  cases h with
  | modification h => rw [h]; rfl
  | missing h => rw [h]; rfl
  | occupied h => rw [h]; rfl
  | unoccupied h => rw [h]; rfl
  | evict h => rw [h]; rfl
  | read h => rw [h]; rfl
  | nobody h => rw [h]; rfl
  | nameless h =>
      rcases h with h | h
      · rw [h]
        rfl
      · rw [h]
        rfl
  | clean h => rw [h]; rfl
  | mark h => rw [h]; rfl
  | kept h => rw [h]; rfl
  | owned h => rw [h]; rfl
  | marked h => rw [h]; rfl
  | die h => rw [h]; rfl

theorem Unlocks.life {pc blocked next : Pc n} (h : Unlocks pc blocked next) :
    blocked.life = pc.life ∧ next.life = pc.life := by
  cases h with
  | release f => exact ⟨rfl, rfl⟩
  | clean asid => exact ⟨rfl, rfl⟩

/-- A U-proc that moves on keeps what it has. -/
theorem life_update {pc : Pc n} (h : pc.life = (s.pc i).life) (j : Fin n) :
    (Function.update s.pc i pc j).life = (s.pc j).life :=
  moves_update (R := fun j pc => pc.life = (s.pc j).life) h (fun _ => rfl) j

theorem life_setPc {pc : Pc n} (h : pc.life = (s.pc i).life) (j : Fin n) :
    ((s.setPc i pc).pc j).life = (s.pc j).life :=
  life_update h j

theorem life_swapPoolOp {o : SemOp} {blocked next : Pc n} (hb : blocked.life = (s.pc i).life)
    (hn : next.life = (s.pc i).life) (j : Fin n) :
    ((s.swapPoolOp o i blocked next).pc j).life = (s.pc j).life := by
  exact swapPoolOp_moves (R := fun j pc => pc.life = (s.pc j).life) hb hn
    (fun j => Pc.resumed_life _) (fun _ => rfl) j

/-- Writing a page table keeps the ASIDs. -/
theorem supAsid_setTable (s : SupportLevel n) (t : Fin n) (table : PageTable) (u : Fin n) :
    ((s.setTable t table).supportTable u).supAsid = (s.supportTable u).supAsid := by
  by_cases hu : u = t
  · simp only [setTable, hu, Function.update_self]
  · simp only [setTable, Function.update_of_ne hu]

/-! ## The start -/

theorem initSupports_eq : (initSupports : Except String (List (Fin n))) =
    .ok (List.finRange n).reverse := by
  -- Each structure is pushed on a list it does not stand in yet.
  have hfold : ∀ (ts free : List (Fin n)), (∀ t ∈ ts, t ∉ free) → ts.Nodup →
      ts.foldlM deallocate free = Except.ok (ts.reverse ++ free) := by
    intro ts
    induction ts with
    | nil => intro free _ _; rfl
    | cons t ts ih =>
        intro free hfree hnd
        rw [List.nodup_cons] at hnd
        have hd : deallocate free t = .ok (t :: free) := by
          rw [deallocate, if_neg (hfree t List.mem_cons_self)]
        have hrest := ih (t :: free) (fun u hu hc => ?_) hnd.2
        · simp only [List.foldlM_cons, hd, List.reverse_cons, List.append_assoc,
            List.singleton_append]
          exact hrest
        · rcases List.mem_cons.mp hc with rfl | hc
          · exact hnd.1 hu
          · exact hfree u (List.mem_cons_of_mem t hu) hc
  rw [initSupports, hfold _ [] (fun _ _ => List.not_mem_nil) (List.nodup_finRange n),
    List.append_nil]

theorem allotted_start {S : Platform n} (h : (supportLevel S).init s) : Allotted s := by
  rcases h with ⟨free, hfree, rfl⟩
  rw [initSupports_eq, Except.ok.injEq] at hfree
  -- Nobody exists, and every structure is free.
  refine ⟨fun i hi => (by cases hi), fun i j hi => (by cases hi), fun i hi => (by cases hi), ?_,
    fun i t ht => (by cases ht), fun i => iff_of_true rfl (Nat.zero_le _), fun t => Or.inl ?_⟩
  · rw [start, ← hfree]
    exact List.nodup_reverse.mpr (List.nodup_finRange n)
  · rw [start, ← hfree]
    exact List.mem_reverse.mpr (List.mem_finRange t)

/-! ## Steps -/

/-- A U-proc that still has its structure gives it back. -/
theorem retained_free (h : Allotted s) (hpc : s.pc i = .free) :
    Retained s ({ s with supportFree := s.support i :: s.supportFree }.setPc i .post) := by
  have hhold : (s.pc i).life = .holding := by
    rw [hpc]
    rfl
  have hret : Returns s ({ s with supportFree := s.support i :: s.supportFree }.setPc i .post) i ∧
      ({ s with supportFree := s.support i :: s.supportFree }.setPc i .post).pc i = .post :=
    ⟨⟨hpc, rfl⟩, Function.update_self _ _ _⟩
  refine ⟨?_, fun j => ?_, Or.inr (Or.inl ⟨i, hret⟩)⟩
  swap
  · by_cases hj : j = i
    · rw [hj]
      exact Or.inr (Or.inl hret)
    · simp only [setPc, Function.update_of_ne hj]
      exact Or.inl trivial
  -- Whoever holds a structure afterwards is somebody else, who held it before.
  have hothers : ∀ j, (Function.update s.pc i .post j).life = .holding →
      j ≠ i ∧ (s.pc j).life = .holding := fun j hj => by
    by_cases hji : j = i
    · rw [hji, Function.update_self] at hj
      cases hj
    · rw [Function.update_of_ne hji] at hj
      exact ⟨hji, hj⟩
  refine ⟨fun j hj => h.asid j (hothers j hj).2,
    fun j k hj hk => h.inj j k (hothers j hj).2 (hothers k hk).2, fun j hj hc => ?_,
    List.nodup_cons.mpr ⟨h.held i hhold, h.nodup⟩, fun j t ht => ⟨fun hc => ?_, fun k hk => ?_, ?_⟩,
    fun j => ?_, fun t => ?_⟩
  · -- Only the structure that came back could be held twice, and its U-proc is gone.
    rcases List.mem_cons.mp hc with hc | hc
    · exact (hothers j hj).1 (h.inj j i (hothers j hj).2 hhold hc)
    · exact h.held j (hothers j hj).2 hc
  · rcases List.mem_cons.mp hc with rfl | hc
    · exact (h.spare j _ ht).2.1 i hhold rfl
    · exact (h.spare j t ht).1 hc
  · exact (h.spare j t ht).2.1 k (hothers k hk).2
  · exact (h.spare j t ht).2.2
  · -- The U-proc was there before and is gone now, so it is not unborn.
    have hb := h.born j
    by_cases hji : j = i
    · rw [hji] at hb ⊢
      rw [hhold] at hb
      refine Iff.trans (iff_of_false (fun hc => ?_) (fun hc => ?_)) hb
      · simp only [setPc, Function.update_self] at hc
        cases hc
      · cases hc
    · refine Iff.trans ?_ hb
      simp only [setPc, Function.update_of_ne hji]
  · -- The structure that came back is on the list, the others where they were.
    rcases h.all t with ht | ⟨j, hj, ht⟩ | ht
    · exact Or.inl (List.mem_cons_of_mem _ ht)
    · by_cases hji : j = i
      · exact Or.inl (List.mem_cons.mpr (Or.inl (hji ▸ ht.symm)))
      · refine Or.inr (Or.inl ⟨j, ?_, ht⟩)
        simp only [setPc, Function.update_of_ne hji]
        exact hj
    · exact Or.inr (Or.inr ht)

/-- `test` allocates a structure. -/
theorem retained_alloc (h : Allotted s) {t : Fin n} {ts : List (Fin n)}
    (htest : s.test = .alloc i.val) (hf : s.supportFree = t :: ts) :
    Retained s { s with
      supportFree := ts
      supportTable := Function.update s.supportTable t
        { s.supportTable t with supAsid := some i }
      test := .header i t } := by
  refine ⟨?_, fun _ => Or.inl rfl, Or.inr (Or.inr ⟨t, hf⟩)⟩
  have hnd := h.nodup
  rw [hf, List.nodup_cons] at hnd
  have hts : ∀ u, u ∈ ts → u ∈ s.supportFree := fun u hu => hf ▸ List.mem_cons_of_mem t hu
  -- Nobody has a structure that is free.
  have hne : ∀ j, (s.pc j).life = .holding → s.support j ≠ t := fun j hj hc =>
    h.held j hj (hc ▸ hf ▸ List.mem_cons_self)
  refine ⟨fun j hj => ?_, h.inj, fun j hj hc => h.held j hj (hts _ hc), hnd.2, fun j u hu => ?_,
    fun j => ?_, fun u => ?_⟩
  · simp only [current, Function.update_of_ne (hne j hj)]
    exact h.asid j hj
  · cases hu
    refine ⟨hnd.1, hne, ?_⟩
    simp only [Function.update_self]
  · have hb := h.born j
    rw [htest] at hb
    exact hb
  · rcases h.all u with hu | hu | ⟨j, hu⟩
    · rw [hf] at hu
      rcases List.mem_cons.mp hu with rfl | hu
      · exact Or.inr (Or.inr ⟨i, rfl⟩)
      · exact Or.inl hu
    · exact Or.inr (Or.inl hu)
    · rw [htest] at hu
      cases hu

/-- `test` gives a structure to a new U-proc. -/
theorem retained_create (h : Allotted s) {t : Fin n} (htest : s.test = .create i t) :
    Retained s { s.setPc i .user with
      support := Function.update s.support i t
      test := .alloc (i.val + 1) } := by
  -- The structure at hand is neither free nor with anybody.
  rcases h.spare i t (by rw [htest]; rfl) with ⟨hfree, hne, hasid⟩
  have hunborn : (s.pc i).life = .unborn := by
    rw [h.fresh (by rw [htest]; rfl)]
    rfl
  refine ⟨?_, fun j => ?_, Or.inl rfl⟩
  swap
  · by_cases hj : j = i
    · simp only [hj, setPc, Function.update_self]
      exact Or.inr (Or.inr ⟨hunborn, rfl⟩)
    · simp only [setPc, Function.update_of_ne hj]
      exact Or.inl trivial
  have hothers : ∀ j, j ≠ i → (Function.update s.pc i .user j).life = .holding →
      (s.pc j).life = .holding := fun j hj hl => by
    rw [Function.update_of_ne hj] at hl
    exact hl
  refine ⟨fun j hj => ?_, fun j k hj hk hjk => ?_, fun j hj => ?_, h.nodup, fun j u hu => ?_,
    fun j => ?_, fun u => ?_⟩
  · by_cases hji : j = i
    · simp only [current, hji, Function.update_self, setPc]
      exact hasid
    · simp only [current, Function.update_of_ne hji, setPc]
      exact h.asid j (hothers j hji hj)
  · -- Nobody but the new U-proc has the structure it is given.
    simp only [setPc] at hj hk hjk
    by_cases hji : j = i
    · by_cases hki : k = i
      · exact hji.trans hki.symm
      · rw [hji, Function.update_self, Function.update_of_ne hki] at hjk
        exact absurd hjk.symm (hne k (hothers k hki hk))
    · by_cases hki : k = i
      · rw [hki, Function.update_self, Function.update_of_ne hji] at hjk
        exact absurd hjk (hne j (hothers j hji hj))
      · rw [Function.update_of_ne hji, Function.update_of_ne hki] at hjk
        exact h.inj j k (hothers j hji hj) (hothers k hki hk) hjk
  · by_cases hji : j = i
    · simp only [hji, Function.update_self, setPc]
      exact hfree
    · simp only [Function.update_of_ne hji, setPc]
      exact h.held j (hothers j hji hj)
  · cases hu
  · -- The counter of the loop is one further.
    have hb := h.born j
    rw [htest] at hb
    change (s.pc j).life = .unborn ↔ i.val ≤ j.val at hb
    change (Function.update s.pc i .user j).life = .unborn ↔ i.val + 1 ≤ j.val
    by_cases hji : j = i
    · rw [hji, Function.update_self]
      exact iff_of_false (fun hc => by cases hc) (by omega)
    · rw [Function.update_of_ne hji, hb]
      have hv : j.val ≠ i.val := fun hc => hji (Fin.ext hc)
      omega
  · rcases h.all u with hu | ⟨j, hj, hu⟩ | ⟨j, hu⟩
    · exact Or.inl hu
    · have hji : j ≠ i := fun hc => by
        rw [hc, hunborn] at hj
        cases hj
      refine Or.inr (Or.inl ⟨j, ?_, ?_⟩)
      · simp only [setPc, Function.update_of_ne hji]
        exact hj
      · simp only [Function.update_of_ne hji]
        exact hu
    · rw [htest] at hu
      cases hu
      refine Or.inr (Or.inl ⟨i, ?_, ?_⟩)
      · simp only [setPc, Function.update_self]
        rfl
      · simp only [Function.update_self]

/-- A step followed by a change that moves no structure. -/
theorem Retained.congr {s₂ : SupportLevel n} (hk : Retained s s')
    (hlife : ∀ i, (s₂.pc i).life = (s'.pc i).life)
    (hpost : ∀ i, s'.pc i = .post → s₂.pc i = .post) (hsupport : s₂.support = s'.support)
    (hasid : ∀ t, (s₂.supportTable t).supAsid = (s'.supportTable t).supAsid)
    (hfree : s₂.supportFree = s'.supportFree) (hhand : s₂.test.atHand = s'.test.atHand)
    (hborn : s₂.test.created = s'.test.created) : Retained s s₂ := by
  refine ⟨(hk.allotted.congr hlife hsupport hasid hfree hhand hborn).allotted, fun i => ?_, ?_⟩
  · rw [hlife, Returns, hfree]
    exact (hk.life i).imp_right (Or.imp_left (fun h => ⟨h.1, hpost i h.2⟩))
  · simp only [Returns, hfree]
    exact hk.free.imp_right (Or.imp_left (fun ⟨i, h⟩ => ⟨i, h.1, hpost i h.2⟩))

/-- The end of a flash operation moves no structure. -/
theorem retained_finish (hk : Retained s s') (who : Party n) (ok : Bool) (data : Page) :
    Retained s (s'.finish who ok data) := by
  cases who with
  | some i =>
      refine hk.congr (life_setPc (Pc.finished_life _ ok)) (fun j hj => ?_) rfl (fun _ => rfl) rfl
        rfl rfl
      -- Looking at a status is not the end of a U-proc.
      by_cases hji : j = i
      · simp only [finish, setPc, ← hji, Function.update_self, hj]
        rfl
      · simp only [finish, setPc, Function.update_of_ne hji, hj]
  | none =>
      simp only [finish]
      split
      · next i t htest =>
          split
          · exact hk.congr (fun _ => rfl) (fun _ => id) rfl (fun _ => rfl) rfl
              (by rw [htest]; rfl) (by rw [htest]; rfl)
          · exact hk.congr (fun _ => rfl) (fun _ => id) rfl (fun _ => rfl) rfl
              (by rw [htest]; rfl) (by rw [htest]; rfl)
      · exact hk

/-- Every step keeps the invariant. -/
theorem retained_step {S : Platform n} {e : UEvent n} (h : Allotted s) (hstep : UStep S s e s') :
    Retained s s' := by
  cases hstep with
  | panic msg _ => exact h.congr (fun _ => rfl) rfl (fun _ => rfl) rfl rfl rfl
  | quit hpc =>
      exact h.congr (life_setPc (by rw [hpc]; rfl)) rfl (fun _ => rfl) rfl rfl rfl
  | refill => exact h.congr (fun _ => rfl) rfl (fun _ => rfl) rfl rfl rfl
  | fault hpc =>
      exact h.congr (life_setPc (by rw [hpc]; rfl)) rfl (fun _ => rfl) rfl rfl rfl
  | access => exact h.congr (fun _ => rfl) rfl (fun _ => rfl) rfl rfl rfl
  | goes hg => exact h.congr (life_setPc hg.life) rfl (fun _ => rfl) rfl rfl rfl
  | lock hpc =>
      refine h.congr (life_swapPoolOp (by rw [hpc]; rfl) (by rw [hpc]; rfl)) ?_ ?_ ?_ ?_ ?_
      all_goals rw [swapPoolOp_eq]
      exact fun _ => rfl
  | take hpc =>
      exact h.congr (life_update (by rw [hpc]; rfl)) rfl (fun _ => rfl) rfl rfl rfl
  | fifo hpc =>
      exact h.congr (life_update (by rw [hpc]; rfl)) rfl (fun _ => rfl) rfl rfl rfl
  | evict hpc _ _ _ h₁ =>
      rw [h₁]
      exact h.congr (life_update (s := s) (by rw [hpc]; rfl)) rfl (supAsid_setTable s _ _)
        rfl rfl rfl
  | write hpc =>
      exact h.congr (life_update (s := s) (by rw [hpc]; rfl)) rfl (fun _ => rfl) rfl rfl rfl
  | read hpc =>
      exact h.congr (life_update (s := s) (by rw [hpc]; rfl)) rfl (fun _ => rfl) rfl rfl rfl
  | commit hpc =>
      exact h.congr (life_update (s := s) (by rw [hpc]; rfl)) rfl (supAsid_setTable s _ _)
        rfl rfl rfl
  | unlock hu =>
      refine h.congr (life_swapPoolOp hu.life.1 hu.life.2) ?_ ?_ ?_ ?_ ?_
      all_goals rw [swapPoolOp_eq]
      exact fun _ => rfl
  | drop hpc =>
      exact h.congr (life_update (by rw [hpc]; rfl)) rfl (fun _ => rfl) rfl rfl rfl
  | unmark hpc =>
      exact h.congr (life_update (by rw [hpc]; rfl)) rfl (fun _ => rfl) rfl rfl rfl
  | free hpc => exact retained_free h hpc
  | @post i hpc =>
      -- The caller goes on without a structure, and nobody it releases loses one.
      have hlife := masterSemaphoreV_moves (s := s) (i := i)
        (R := fun j pc => pc.life = (s.pc j).life) (by rw [hpc]; rfl) (by rw [hpc]; rfl)
        (fun j => Pc.resumed_life _) (fun _ => rfl)
      rw [masterSemaphoreV_eq] at hlife ⊢
      refine h.congr hlife rfl (fun _ => rfl) rfl ?_ ?_
      · simp only []
        split
        · exact TestPc.resumed_atHand _
        · rfl
      · simp only []
        split
        · exact TestPc.resumed_created _
        · rfl
  | complete _ h₁ =>
      rcases transfer_eq h₁ with ⟨ram, blocks, rfl⟩
      refine retained_finish (h.congr ?_ ?_ ?_ ?_ ?_ ?_) _ _ _
      all_goals first | rfl | exact fun _ => rfl
  | alloc htest hf => exact retained_alloc h htest hf
  | created htest hi =>
      -- The loop is over, so its counter is at least `n`.
      refine ⟨?_, fun _ => Or.inl rfl, Or.inl rfl⟩
      refine ⟨h.asid, h.inj, h.held, h.nodup, fun j t ht => (by cases ht), fun j => ?_, fun t => ?_⟩
      · have hb := h.born j
        rw [htest] at hb
        refine hb.trans (iff_of_false (fun hc => hi ?_) (Nat.not_le.mpr j.isLt))
        exact Nat.lt_of_le_of_lt hc j.isLt
      · have ha := h.all t
        rw [htest] at ha
        exact ha
  | header htest =>
      exact h.congr (fun _ => rfl) rfl (fun _ => rfl) rfl (by rw [htest]; rfl) (by rw [htest]; rfl)
  | fill htest =>
      exact h.congr (fun _ => rfl) rfl (supAsid_setTable s _ _) rfl (by rw [htest]; rfl)
        (by rw [htest]; rfl)
  | create htest => exact retained_create h htest
  | @wait k htest hi =>
      have hlife := masterSemaphoreP_moves (s := s) (k := k)
        (R := fun j pc => pc.life = (s.pc j).life) (fun j => Pc.resumed_life _) (fun _ => rfl)
      rw [masterSemaphoreP_eq] at hlife ⊢
      refine h.congr hlife rfl (fun _ => rfl) rfl ?_ ?_
      · simp only [htest]
        split
        · rfl
        · rfl
      · simp only [htest]
        split
        · rfl
        · rfl
  | halt => exact h.congr (fun _ => rfl) rfl (fun _ => rfl) rfl rfl rfl

/-- Nobody is born twice. -/
theorem Retained.born (h : Retained s s') (hi : (s.pc i).life ≠ .unborn) :
    (s'.pc i).life ≠ .unborn := by
  rcases h.life i with hl | ⟨_, hp⟩ | ⟨hl, _⟩
  · rw [hl]
    exact hi
  · rw [hp]
    simp only [Pc.life, ne_eq, reduceCtorEq, not_false_eq_true]
  · exact absurd hl hi

/-- A U-proc gives its structure back when it stops to have one. -/
theorem Retained.gone (ho : Allotted s) (h : Retained s s') (i : Fin n) :
    (s'.pc i).life = .gone ↔ (s.pc i).life = .gone ∨ Returns s s' i := by
  constructor
  · intro hgone
    rcases h.life i with hl | ⟨hret, _⟩ | ⟨_, hl⟩
    · exact Or.inl (hl ▸ hgone)
    · exact Or.inr hret
    · rw [hgone] at hl
      cases hl
  · rintro (hgone | hret)
    · rcases h.life i with hl | ⟨_, hp⟩ | ⟨hl, _⟩
      · exact hl.trans hgone
      · rw [hp]
        rfl
      · rw [hgone] at hl
        cases hl
    · -- The list is longer by one, so the step was a `deallocate`.
      have hlen := congrArg List.length hret.2
      rw [List.length_cons] at hlen
      rcases h.free with hf | ⟨j, hj, hp⟩ | ⟨t, hf⟩
      · rw [hf] at hlen
        omega
      · -- Nobody else has the structure that came back.
        have hs := (List.cons_eq_cons.mp (hret.2.symm.trans hj.2)).1
        have hij := ho.inj i j (by rw [hret.1]; rfl) (by rw [hj.1]; rfl) hs
        rw [hij, hp]
        rfl
      · rw [hf, List.length_cons] at hlen
        omega

theorem allotted_run {S : Platform n} {es : List (UEvent n)} (h : (supportLevel S).Run es s) :
    Allotted s :=
  System.run_invariant (fun _ => allotted_start)
    (fun _ _ _ _ _ hi hs => (retained_step hi (ustep_of_next hs).2).allotted) h

/-- As long as `test` has U-procs to create there is a free structure, because
    fewer than `n` are in use. -/
theorem supportFree_ne_nil (h : Allotted s) {i : Nat} (htest : s.test = .alloc i) (hi : i < n) :
    s.supportFree ≠ [] := by
  intro hnil
  -- If none were free, each of the `n` would be with one of the `i` created so far.
  have hex : ∀ t : Fin n, ∃ j : Fin i, ∃ hj : j.val < n, s.support ⟨j.val, hj⟩ = t := fun t => by
    rcases h.all t with ht | ⟨j, hj, ht⟩ | ⟨j, ht⟩
    · rw [hnil] at ht
      exact absurd ht List.not_mem_nil
    · have hborn : ¬ i ≤ j.val := fun hc => by
        have hu := (h.born j).mpr (by rw [htest]; exact hc)
        rw [hj] at hu
        cases hu
      exact ⟨⟨j.val, Nat.lt_of_not_le hborn⟩, j.isLt, ht⟩
    · rw [htest] at ht
      cases ht
  choose f hf hsupp using hex
  -- Structures in use are told apart by the U-procs that use them.
  have hinj : Function.Injective f := fun t u htu => by
    rw [← hsupp t, ← hsupp u]
    simp only [htu]
  have hcard := Fintype.card_le_of_injective f hinj
  rw [Fintype.card_fin, Fintype.card_fin] at hcard
  omega

end Supports

end Pandos
