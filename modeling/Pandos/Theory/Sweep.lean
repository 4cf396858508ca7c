import Pandos.Theory.Supports

/-!
# Marking the Frames of a U-proc

`sys_terminate` goes through the swap pool table frame by frame, with interrupts
on and without the semaphore of the table. The frames below its loop counter
have been given up, and nobody gives them back: the only step that makes a U-proc
the owner of a frame is one of the U-proc itself, inside `support_tlb`.

## Main definitions

* `Pc.swept`, `Pc.index`: How far a U-proc is with its frames.
* `Tidy`: What holds of a U-proc at its place in the code.
* `Swept`: The invariant.

## Theorems

* `swept_step`, `swept_run`: The invariant holds in every run.
-/

namespace Pandos

section Sweep

variable {n : Nat}

open SupportLevel

/-- A U-proc is past `mark_frames_as_unoccupied`. -/
def Pc.swept : Pc n → Bool
  | .free => true
  | .post => true
  | .posting => true
  | .exit => true
  | .dead => true
  | _ => false

/-- The loop counter of `mark_frames_as_unoccupied`. -/
def Pc.index : Pc n → Nat
  | .mark _ index => index
  | .unmark _ index => index
  | _ => 0

/-- The ASID `sys_terminate` has read. -/
def Pc.asid : Pc n → Option (Fin n)
  | .clean asid => some asid
  | .cleaning asid => some asid
  | .mark asid _ => some asid
  | .unmark asid _ => some asid
  | _ => none

/-- The frame a U-proc has picked. -/
def Pc.frame : Pc n → Option Nat
  | .copy _ frame => some frame
  | .evict _ v _ => some v.frame
  | .write _ v _ _ => some v.frame
  | .writing _ v _ _ => some v.frame
  | .read _ v => some v.frame
  | .reading _ v => some v.frame
  | .commit _ v => some v.frame
  | _ => none

/-- U-proc `i` may be at `pc`. Its frames are those from the loop counter on, the
    ASID at hand is its own, and the frame it has picked is one of the pool. -/
structure Tidy (s : SupportLevel n) (i : Fin n) (pc : Pc n) : Prop where
  owner : ∀ f, (s.swapPoolTable f).swAsid = some i → pc.swept = false ∧ pc.index ≤ f
  named : ∀ a, pc.asid = some a → a = i
  framed : ∀ f, pc.frame = some f → f < POOLSIZE n

/-- Every U-proc is where it may be, and only frames of the pool are occupied. -/
structure Swept (s : SupportLevel n) : Prop where
  places : ∀ i, Tidy s i (s.pc i)
  pool : ∀ f a, (s.swapPoolTable f).swAsid = some a → f < POOLSIZE n

variable {S : Platform n} {es : List (UEvent n)} {s s' : SupportLevel n} {i : Fin n}

/-- Places at which nothing has to hold. -/
theorem Tidy.free {pc : Pc n} (hs : pc.swept = false) (hx : pc.index = 0) (ha : pc.asid = none)
    (hf : pc.frame = none) (i : Fin n) : Tidy s i pc := by
  refine ⟨fun f _ => ⟨hs, ?_⟩, fun a h => ?_, fun f h => ?_⟩
  · rw [hx]
    exact Nat.zero_le f
  · rw [ha] at h
    cases h
  · rw [hf] at h
    cases h

/-- Places that demand no more than the one a U-proc is at. -/
theorem Tidy.moves {pc pc' : Pc n} (h : Tidy s i pc) (hs : pc'.swept = pc.swept)
    (hx : pc'.index = pc.index) (ha : ∀ a, pc'.asid = some a → pc.asid = some a)
    (hf : ∀ f, pc'.frame = some f → pc.frame = some f) : Tidy s i pc' := by
  refine ⟨fun f ho => ?_, fun a hc => h.named a (ha a hc), fun f hc => h.framed f (hf f hc)⟩
  rw [hs, hx]
  exact h.owner f ho

/-- A U-proc that owns nothing may be anywhere behind its frames. -/
theorem Tidy.over {pc : Pc n} (h : ∀ f, (s.swapPoolTable f).swAsid ≠ some i)
    (ha : pc.asid = none) (hf : pc.frame = none) : Tidy s i pc := by
  refine ⟨fun f ho => absurd ho (h f), fun a hc => ?_, fun f hc => ?_⟩
  · rw [ha] at hc
    cases hc
  · rw [hf] at hc
    cases hc

/-- A U-proc past the loop owns no frame. -/
theorem Tidy.nothing {pc : Pc n} (h : Tidy s i pc) (hs : pc.swept = true) (f : Nat) :
    (s.swapPoolTable f).swAsid ≠ some i := fun hc => by
  have hfalse := (h.owner f hc).1
  rw [hs] at hfalse
  cases hfalse

/-- A step that gives no frames away. -/
theorem Swept.congr (h : Swept s) (hpc : ∀ j, Tidy s j (s'.pc j))
    (htable : ∀ f j, (s'.swapPoolTable f).swAsid = some j → (s.swapPoolTable f).swAsid = some j) :
    Swept s' :=
  ⟨fun j => ⟨fun f hf => (hpc j).owner f (htable f j hf), (hpc j).named, (hpc j).framed⟩,
    fun f a ha => h.pool f a (htable f a ha)⟩

theorem tidy_update (h : Swept s) {pc : Pc n} (hi : Tidy s i pc) (j : Fin n) :
    Tidy s j (Function.update s.pc i pc j) :=
  moves_update (R := Tidy s) hi h.places j

theorem Swept.resumed (h : Swept s) (j : Fin n) : Tidy s j (s.pc j).resumed := by
  have hj := h.places j
  generalize s.pc j = pc at hj
  cases pc with
  | passing f => exact hj.moves rfl rfl (fun _ => id) (fun _ => id)
  | releasing f => exact hj.moves rfl rfl (fun _ => id) (fun _ => id)
  | cleaning asid => exact hj.moves rfl rfl (fun _ => id) (fun _ => id)
  | posting => exact hj.moves rfl rfl (fun _ => id) (fun _ => id)
  | _ => exact hj

theorem Swept.finished (h : Swept s) (ok : Bool) (j : Fin n) :
    Tidy s j ((s.pc j).finished ok) := by
  have hj := h.places j
  generalize s.pc j = pc at hj
  cases pc with
  | writing f v asid k =>
      cases ok with
      | true => exact hj.moves rfl rfl (fun _ => id) (fun _ => id)
      | false => exact Tidy.free rfl rfl rfl rfl j
  | reading f v =>
      cases ok with
      | true => exact hj.moves rfl rfl (fun _ => id) (fun _ => id)
      | false => exact Tidy.free rfl rfl rfl rfl j
  | _ => exact hj

/-- The branches that only move a U-proc on. -/
theorem Goes.tidy {pc : Pc n} (ho : Allotted s) (h : Swept s) (hg : Goes s i pc) :
    Tidy s i pc := by
  have hi := h.places i
  cases hg with
  | unoccupied hpc hx =>
      refine ⟨fun f _ => ⟨rfl, Nat.zero_le f⟩, fun a hc => (by cases hc), fun f hc => ?_⟩
      cases hc
      exact hx
  | evict hpc =>
      rw [hpc] at hi
      exact hi.moves rfl rfl (fun _ => id) (fun _ => id)
  | read hpc =>
      rw [hpc] at hi
      exact hi.moves rfl rfl (fun _ => id) (fun _ => id)
  | clean hpc ha =>
      refine ⟨fun f _ => ⟨rfl, Nat.zero_le f⟩, fun a hc => ?_, fun f hc => (by cases hc)⟩
      cases hc
      exact ho.own (by rw [hpc]; rfl) ha
  | mark hpc ha =>
      refine ⟨fun f _ => ⟨rfl, Nat.zero_le f⟩, fun a hc => ?_, fun f hc => (by cases hc)⟩
      cases hc
      exact ho.own (by rw [hpc]; rfl) ha
  | @kept asid index hpc hx hne =>
      -- The frame at the counter is not its own, so the others start one later.
      rw [hpc] at hi
      have hai : asid = i := hi.named asid rfl
      refine ⟨fun f hf => ⟨rfl, ?_⟩, fun a hc => hi.named a hc, fun f hc => (by cases hc)⟩
      refine Nat.lt_of_le_of_ne (hi.owner f hf).2 (fun hc => hne ?_)
      rw [show index = f from hc, hai]
      exact hf
  | owned hpc =>
      rw [hpc] at hi
      exact hi.moves rfl rfl (fun _ => id) (fun _ => id)
  | @marked asid index hpc hx =>
      rw [hpc] at hi
      exact Tidy.over (fun f hf => hx (Nat.lt_of_le_of_lt (hi.owner f hf).2 (h.pool f i hf)))
        rfl rfl
  | die hpc =>
      rw [hpc] at hi
      exact hi.moves rfl rfl (fun _ => id) (fun _ => id)
  | _ => exact Tidy.free rfl rfl rfl rfl i

theorem Unlocks.tidy {blocked next : Pc n} (h : Swept s) (hu : Unlocks (s.pc i) blocked next) :
    Tidy s i blocked ∧ Tidy s i next := by
  have hi := h.places i
  generalize s.pc i = pc at hu hi
  cases hu with
  | release f => exact ⟨Tidy.free rfl rfl rfl rfl i, Tidy.free rfl rfl rfl rfl i⟩
  | clean asid =>
      exact ⟨hi.moves rfl rfl (fun _ => id) (fun _ => id),
        hi.moves rfl rfl (fun _ => id) (fun _ => id)⟩

theorem swept_swapPoolOp (h : Swept s) {o : SemOp} {blocked next : Pc n} (hb : Tidy s i blocked)
    (hn : Tidy s i next) : Swept (s.swapPoolOp o i blocked next) := by
  have hmoves := swapPoolOp_moves (o := o) (R := Tidy s) hb hn h.resumed h.places
  rw [swapPoolOp_eq] at hmoves ⊢
  exact h.congr hmoves (fun _ _ => id)

theorem swept_finish (h : Swept s) (who : Party n) (ok : Bool) (data : Page) :
    Swept (s.finish who ok data) := by
  cases who with
  | some i => exact h.congr (tidy_update h (h.finished ok i)) (fun _ _ => id)
  | none =>
      simp only [finish]
      split
      · split
        · exact h.congr h.places (fun _ _ => id)
        · exact h.congr h.places (fun _ _ => id)
      · exact h

theorem swept_start (h : (supportLevel S).init s) : Swept s := by
  rcases h with ⟨free, _, rfl⟩
  exact ⟨fun i => Tidy.free rfl rfl rfl rfl i, fun f a ha => (by cases ha)⟩

/-- U-proc `i` becomes the owner of a frame of the pool. -/
theorem swept_commit (h : Swept s) {frame : Nat} {swap : Swap n} {pc : Pc n}
    (hf : (s.pc i).frame = some frame) (hpc : s'.pc = Function.update s.pc i pc)
    (hfree : pc.swept = false ∧ pc.index = 0 ∧ pc.asid = none ∧ pc.frame = none)
    (hswap : s'.swapPoolTable = Function.update s.swapPoolTable frame swap)
    (ha : swap.swAsid = some i) : Swept s' := by
  refine ⟨fun j => ?_, fun g a hg => ?_⟩
  · rw [hpc]
    by_cases hj : j = i
    · rw [hj, Function.update_self]
      exact Tidy.free hfree.1 hfree.2.1 hfree.2.2.1 hfree.2.2.2 i
    · rw [Function.update_of_ne hj]
      refine ⟨fun g hg => ?_, (h.places j).named, (h.places j).framed⟩
      -- The new owner is somebody else.
      by_cases hgf : g = frame
      · rw [hswap, hgf, Function.update_self, ha] at hg
        exact absurd (Option.some.inj hg).symm hj
      · rw [hswap, Function.update_of_ne hgf] at hg
        exact (h.places j).owner g hg
  · by_cases hgf : g = frame
    · rw [hgf]
      exact (h.places i).framed frame hf
    · rw [hswap, Function.update_of_ne hgf] at hg
      exact h.pool g a hg

/-- U-proc `i` gives up the frame at its loop counter. -/
theorem swept_unmark (h : Swept s) {asid : Fin n} {index : Nat}
    (hpc : s.pc i = .unmark asid index) :
    Swept ({ s with
      swapPoolTable := Function.update s.swapPoolTable index
        { s.swapPoolTable index with swAsid := none } }.setPc i (.mark asid (index + 1))) := by
  have htable : ∀ f j, (Function.update s.swapPoolTable index
      { s.swapPoolTable index with swAsid := none } f).swAsid = some j →
      f ≠ index ∧ (s.swapPoolTable f).swAsid = some j := fun f j hf => by
    by_cases hfi : f = index
    · rw [hfi, Function.update_self] at hf
      cases hf
    · rw [Function.update_of_ne hfi] at hf
      exact ⟨hfi, hf⟩
  have hi := h.places i
  rw [hpc] at hi
  refine ⟨fun j => ?_, fun f a hf => h.pool f a (htable f a hf).2⟩
  by_cases hj : j = i
  · simp only [setPc, hj, Function.update_self]
    refine ⟨fun f hf => ⟨rfl, ?_⟩, fun a hc => hi.named a hc, fun f hc => (by cases hc)⟩
    exact Nat.lt_of_le_of_ne (hi.owner f (htable f i hf).2).2 (Ne.symm (htable f i hf).1)
  · simp only [setPc, Function.update_of_ne hj]
    exact ⟨fun f hf => (h.places j).owner f (htable f j hf).2, (h.places j).named,
      (h.places j).framed⟩

/-- A step gives no frame to a U-proc that has given it up. -/
theorem swept_step {e : UEvent n} (ho : Allotted s) (h : Swept s) (hstep : UStep S s e s') :
    Swept s' := by
  have hall : ∀ f j, (s.swapPoolTable f).swAsid = some j → (s.swapPoolTable f).swAsid = some j :=
    fun _ _ => id
  cases hstep with
  | panic => exact h.congr h.places hall
  | quit => exact h.congr (tidy_update h (Tidy.free rfl rfl rfl rfl _)) hall
  | refill => exact h.congr h.places hall
  | fault => exact h.congr (tidy_update h (Tidy.free rfl rfl rfl rfl _)) hall
  | access => exact h.congr h.places hall
  | goes hg => exact h.congr (tidy_update h (hg.tidy ho h)) hall
  | lock hpc =>
      exact swept_swapPoolOp h (Tidy.free rfl rfl rfl rfl _) (Tidy.free rfl rfl rfl rfl _)
  | take => exact h.congr (tidy_update h (Tidy.free rfl rfl rfl rfl _)) hall
  | @fifo i f index hpc hx =>
      -- The position is a remainder.
      refine h.congr (tidy_update h ⟨fun f _ => ⟨rfl, Nat.zero_le f⟩, fun a hc => (by cases hc),
        fun f hc => ?_⟩) hall
      cases hc
      exact Nat.mod_lt _ (Nat.mul_pos (Nat.lt_of_le_of_lt (Nat.zero_le _) i.isLt) Nat.two_pos)
  | @evict i f v swap asid t k kIndex hpc _ _ _ s₁ h₁ =>
      subst h₁
      have hi := h.places i
      rw [hpc] at hi
      exact h.congr (tidy_update h (hi.moves rfl rfl (fun _ hc => (by cases hc)) (fun _ => id)))
        hall
  | @write i f v asid k hpc =>
      have hi := h.places i
      rw [hpc] at hi
      exact h.congr (tidy_update h (hi.moves rfl rfl (fun _ => id) (fun _ => id))) hall
  | @read i f v asid hpc =>
      have hi := h.places i
      rw [hpc] at hi
      exact h.congr (tidy_update h (hi.moves rfl rfl (fun _ => id) (fun _ => id))) hall
  | @commit i f v asid index hpc hasid =>
      have hai : asid = i := ho.own (by rw [hpc]; rfl) hasid
      exact swept_commit (i := i) h (by rw [hpc]; rfl) rfl ⟨rfl, rfl, rfl, rfl⟩ rfl
        (congrArg some hai)
  | unlock hu => exact swept_swapPoolOp h (hu.tidy h).1 (hu.tidy h).2
  | drop => exact h.congr (tidy_update h (Tidy.free rfl rfl rfl rfl _)) hall
  | unmark hpc => exact swept_unmark h hpc
  -- The U-proc has given up its frames before.
  | @free i hpc =>
      have hi := h.places i
      rw [hpc] at hi
      exact h.congr (tidy_update h (hi.moves rfl rfl (fun _ => id) (fun _ => id))) hall
  | @post i hpc =>
      have hi := h.places i
      rw [hpc] at hi
      have hmoves := masterSemaphoreV_moves (i := i) (R := Tidy s)
        (hi.moves rfl rfl (fun _ => id) (fun _ => id))
        (hi.moves rfl rfl (fun _ => id) (fun _ => id)) h.resumed h.places
      rw [masterSemaphoreV_eq] at hmoves ⊢
      exact h.congr hmoves hall
  | complete _ h₁ =>
      rcases transfer_eq h₁ with ⟨ram, blocks, rfl⟩
      refine swept_finish ?_ _ _ _
      exact h.congr h.places hall
  | alloc => exact h.congr h.places hall
  | created => exact h.congr h.places hall
  | header => exact h.congr h.places hall
  | fill => exact h.congr h.places hall
  | create => exact h.congr (tidy_update h (Tidy.free rfl rfl rfl rfl _)) hall
  | @wait k =>
      have hmoves := masterSemaphoreP_moves (k := k) (R := Tidy s) h.resumed h.places
      rw [masterSemaphoreP_eq] at hmoves ⊢
      exact h.congr hmoves hall
  | halt => exact h.congr h.places hall

theorem swept_run (h : (supportLevel S).Run es s) : Swept s :=
  System.run_invariant (fun _ => swept_start)
    (fun _ _ _ _ hrun hi hs => swept_step (allotted_run hrun) hi (ustep_of_next hs).2) h

end Sweep

end Pandos
