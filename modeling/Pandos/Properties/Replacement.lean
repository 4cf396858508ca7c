import Mathlib.Order.Bounds.Basic
import Pandos.Lib.RoundRobin
import Pandos.Replacement
import Pandos.Support

/-!
# First In First Out

While a frame is unoccupied, `pick_page` returns the first of them. Otherwise it
goes through the frames in turn, behind a static index that stands still while
free frames are reused. So a full pool is a circle of frames served in turn, and
`pick_page` is first in first out for the loads to come if and only if the
frames, from the index on, were loaded in this order.

A pool becomes full by the load that takes its last free frame, so this load
decides: its frame must be the last in turn, and the others must have been
loaded in turn. The first time this is so. After a termination it is so only by
chance.

## Main definitions

* `RightPick`: The frame the claim asks for.
* `FillsInTurn`: The load of a frame leaves the frames in order.
* `orderlyRuns`: The runs in which every load of the last free frame does.

## Theorems

* `page_replacement_fifo`: `pick_page` is right in every orderly run, and the
  condition is exact.
* `page_replacement_not_fifo`: A run in which `pick_page` evicts a page that
  was just loaded.
* `orderly_without_termination`: The condition holds while nobody terminates.
* `scan_picks`, `commit_loads`, `mark_terminates`: The support level finds its
  victims by `pickPage`, and its pool changes by loads and terminations.
-/

namespace Pandos

variable {n : Nat} {s s' : SwapPool n} {t t' : LoadTimes} {e : PoolEvent n}

/-! ## What is asked for -/

namespace SwapPool

/-- Every frame of the pool is occupied. -/
def Full (s : SwapPool n) : Prop := ∀ f < POOLSIZE n, s.Occupied f

/-- `f` is the only frame of the pool that is not occupied. -/
def OnlyFree (s : SwapPool n) (f : Nat) : Prop :=
  f < POOLSIZE n ∧ ∀ g < POOLSIZE n, s.Occupied g ↔ g ≠ f

/-- The frames in the order in which `pick_page` takes them. -/
def frames (s : SwapPool n) : List Nat := turns (POOLSIZE n) (s.fifo + 1).toNat

end SwapPool

/-- `pick_page` returns the first unoccupied frame, or else the one whose page
    was loaded before all others. -/
structure RightPick (s : SwapPool n) (t : LoadTimes) : Prop where
  free : ¬ s.Full → IsLeast {f | f < POOLSIZE n ∧ ¬ s.Occupied f} s.pickPage.1
  oldest : s.Full → s.pickPage.1 < POOLSIZE n ∧
    ∀ f < POOLSIZE n, f ≠ s.pickPage.1 → t.loadedAt s.pickPage.1 < t.loadedAt f

/-- The frame `f` is the last in turn, and the others were loaded in turn. -/
def FillsInTurn (s : SwapPool n) (t : LoadTimes) (f : Nat) : Prop :=
  ∃ others, s.frames = others ++ [f] ∧ RoundRobin.InOrder t.loadedAt others

/-- A load that takes the last free frame leaves the frames in order. -/
def Orderly (x : SwapPool n × LoadTimes) (e : PoolEvent n) : Prop :=
  match e with
  | .load _ _ _ => ∀ f, x.1.OnlyFree f → FillsInTurn x.1 x.2 f
  | .terminate _ => True

/-- The runs in which every load that takes the last free frame leaves the
    frames in order. -/
def orderlyRuns (n : Nat) : System (SwapPool n × LoadTimes) (PoolEvent n) :=
  (timedRuns n).restrict Orderly

/-- One load more. -/
def LoadStep (x y : SwapPool n × LoadTimes) : Prop :=
  ∃ asid vpn p, (timedRuns n).step x (.load asid vpn p) y

/-! ## The pick -/

section Pick

theorem pickPage_free (h : ¬ s.Full) :
    s.pickPage.2 = s ∧ IsLeast {f | f < POOLSIZE n ∧ ¬ s.Occupied f} s.pickPage.1 := by
  unfold SwapPool.pickPage
  cases hf : (List.range (POOLSIZE n)).find? (fun i => !checkFrameOccupied (s.swapPoolTable i)) with
  | none =>
      refine absurd (fun f hlt => ?_) h
      have hocc := List.find?_eq_none.mp hf f (List.mem_range.mpr hlt)
      unfold SwapPool.Occupied
      simpa using hocc
  | some f =>
      rcases List.find?_range_eq_some.mp hf with ⟨hfree, hlt, hbefore⟩
      refine ⟨rfl, ⟨List.mem_range.mp hlt, ?_⟩, ?_⟩
      · unfold SwapPool.Occupied
        simpa using hfree
      · rintro g ⟨_, hg⟩
        by_contra hgf
        refine hg ?_
        unfold SwapPool.Occupied
        simpa using hbefore g (not_le.mp hgf)

theorem pickPage_full (h : s.Full) :
    s.pickPage =
      ((s.fifo + 1).toNat % POOLSIZE n,
        { s with fifo := BitVec.ofNat 32 ((s.fifo + 1).toNat % POOLSIZE n) }) := by
  unfold SwapPool.pickPage
  have hf : (List.range (POOLSIZE n)).find? (fun i => !checkFrameOccupied (s.swapPoolTable i)) =
      none := by
    refine List.find?_eq_none.mpr ?_
    intro f hf
    have hocc := h f (List.mem_range.mp hf)
    unfold SwapPool.Occupied at hocc
    simpa using hocc
  rw [hf]

theorem pickPage_table (s : SwapPool n) : s.pickPage.2.swapPoolTable = s.swapPoolTable := by
  by_cases h : s.Full
  · rw [pickPage_full h]
  · rw [(pickPage_free h).1]

end Pick

/-! ## One step -/

section Steps

theorem next_load (s : SwapPool n) (asid p : Fin n) {vpn : Word} {index : Nat}
    (hv : vpnToIndex vpn = .ok index) :
    s.next (.load asid vpn p) =
      some { swapPoolTable := Function.update s.swapPoolTable s.pickPage.1
              { swAsid := some asid
                swPageNo := vpn
                swPte := some (p, index) }
             fifo := s.pickPage.2.fifo } := by
  simp only [SwapPool.next, addEntrySwapPoolTable, pickPage_table, hv, Except.map]

/-- A load occupies the frame that was picked. -/
theorem load_spec {asid p : Fin n} {vpn : Word} (h : s.next (.load asid vpn p) = some s') :
    s'.fifo = s.pickPage.2.fifo ∧ ∀ f, s'.Occupied f ↔ f = s.pickPage.1 ∨ s.Occupied f := by
  cases hv : vpnToIndex vpn with
  | error msg =>
      simp only [SwapPool.next, addEntrySwapPoolTable, hv, Except.map] at h
      cases h
  | ok index =>
      rw [next_load s asid p hv] at h
      cases h
      refine ⟨rfl, fun f => ?_⟩
      unfold SwapPool.Occupied checkFrameOccupied
      by_cases hf : f = s.pickPage.1
      · subst hf
        simp only [Function.update_self, Option.isSome_some, true_or]
      · simp only [Function.update_of_ne hf, hf, false_or]

theorem terminate_spec {asid : Fin n} (h : s.next (.terminate asid) = some s') :
    s'.fifo = s.fifo ∧ ∀ f, s'.Occupied f → s.Occupied f := by
  cases h
  refine ⟨rfl, fun f => ?_⟩
  unfold SwapPool.Occupied markFramesAsUnoccupied
  simp only
  split
  · intro h
    cases h
  · exact id

/-- The pool as places served in turn. -/
def circle (x : SwapPool n × LoadTimes) : RoundRobin Nat where
  queue := x.1.frames
  time := x.2.loadedAt
  now := x.2.now

variable {x y : SwapPool n × LoadTimes}

theorem frames_head (hn : 0 < n) (h : s.Full) : ∃ l, s.frames = s.pickPage.1 :: l := by
  rw [pickPage_full h]
  exact turns_head (Nat.mul_pos hn Nat.two_pos) _

/-- A load into a full pool serves the frame whose turn it is. -/
theorem load_serves (hn : 0 < n) (hN : POOLSIZE n < 2 ^ 32) (hfull : x.1.Full)
    (h : LoadStep x y) : y.1.Full ∧ circle y = (circle x).serve := by
  rcases h with ⟨asid, vpn, p, hnext, htimes⟩
  rcases load_spec hnext with ⟨hfifo, hocc⟩
  refine ⟨fun f hf => (hocc f).mpr (Or.inr (hfull f hf)), ?_⟩
  rcases frames_head hn hfull with ⟨l, hl⟩
  have hq : (circle x).queue = x.1.pickPage.1 :: l := hl
  rw [RoundRobin.serve_cons hq]
  have hframes : y.1.frames = l ++ [x.1.pickPage.1] := by
    have hlt : (x.1.fifo + 1).toNat % POOLSIZE n < POOLSIZE n :=
      Nat.mod_lt _ (Nat.mul_pos hn Nat.two_pos)
    unfold SwapPool.frames at hl ⊢
    rw [hfifo, pickPage_full hfull]
    simp only
    have hturn : (BitVec.ofNat 32 ((x.1.fifo + 1).toNat % POOLSIZE n) + 1).toNat =
        (x.1.fifo + 1).toNat % POOLSIZE n + 1 := by
      rw [BitVec.toNat_add, BitVec.toNat_ofNat, Nat.mod_eq_of_lt (hlt.trans hN)]
      exact Nat.mod_eq_of_lt (lt_of_le_of_lt (Nat.succ_le_of_lt hlt) hN)
    rw [hturn]
    rw [pickPage_full hfull, ← turns_mod] at hl
    exact turns_succ hl
  unfold circle
  rw [hframes, htimes]
  rfl

/-- A load into the last free frame fills it, and the index stands still. -/
theorem load_fills {f : Nat} (hfree : x.1.OnlyFree f) (h : LoadStep x y) :
    y.1.Full ∧ x.1.pickPage.1 = f ∧ y.1.frames = x.1.frames ∧
      y.2.loadedAt = Function.update x.2.loadedAt f x.2.now ∧ y.2.now = x.2.now + 1 := by
  rcases h with ⟨asid, vpn, p, hnext, htimes⟩
  rcases load_spec hnext with ⟨hfifo, hocc⟩
  have hnfull : ¬ x.1.Full := fun hfull => (hfree.2 f hfree.1).mp (hfull f hfree.1) rfl
  rcases pickPage_free hnfull with ⟨hsame, hleast⟩
  have hpick : x.1.pickPage.1 = f := by
    by_contra hne
    exact hleast.1.2 ((hfree.2 _ hleast.1.1).mpr hne)
  refine ⟨fun g hg => ?_, hpick, ?_, ?_, ?_⟩
  · by_cases hgf : g = f
    · exact (hocc g).mpr (Or.inl (hgf.trans hpick.symm))
    · exact (hocc g).mpr (Or.inr ((hfree.2 g hg).mpr hgf))
  · unfold SwapPool.frames
    rw [hfifo, hsame]
  · rw [htimes, ← hpick]
    rfl
  · rw [htimes]
    rfl

/-- A load that fills the pool took the last free frame. -/
theorem onlyFree_of_full (hfull : ¬ x.1.Full) (h : LoadStep x y) (hy : y.1.Full) :
    x.1.OnlyFree x.1.pickPage.1 := by
  rcases h with ⟨asid, vpn, p, hnext, _⟩
  rcases load_spec hnext with ⟨_, hocc⟩
  rcases pickPage_free hfull with ⟨_, hleast⟩
  refine ⟨hleast.1.1, fun g hg => ⟨?_, ?_⟩⟩
  · rintro hg' rfl
    exact hleast.1.2 hg'
  · intro hne
    exact ((hocc g).mp (hy g hg)).resolve_left hne

end Steps

/-! ## Runs -/

section Runs

variable {x y : SwapPool n × LoadTimes} {es : List (PoolEvent n)}

/-- No frame was loaded in the future. -/
def Past (x : SwapPool n × LoadTimes) : Prop := ∀ f, x.1.Occupied f → x.2.loadedAt f < x.2.now

theorem past_step (h : Past x) (hs : (timedRuns n).step x e y) : Past y := by
  rcases hs with ⟨hnext, htimes⟩
  cases e with
  | load asid vpn p =>
      rcases load_spec hnext with ⟨_, hocc⟩
      intro f hf
      rw [htimes]
      change Function.update x.2.loadedAt x.1.pickPage.1 x.2.now f < x.2.now + 1
      by_cases hfp : f = x.1.pickPage.1
      · rw [hfp, Function.update_self]
        exact Nat.lt_succ_self _
      · rw [Function.update_of_ne hfp]
        exact Nat.lt_succ_of_lt (h f (((hocc f).mp hf).resolve_left hfp))
  | terminate asid =>
      rcases terminate_spec hnext with ⟨_, hocc⟩
      intro f hf
      rw [htimes]
      exact h f (hocc f hf)

theorem past_run (h : (timedRuns n).Run es x) : Past x := by
  refine System.run_invariant ?_ (fun _ _ _ _ _ hp hs => past_step hp hs) h
  rintro ⟨s, t⟩ ⟨hs, _⟩ f hf
  cases hs
  cases hf

/-- A full pool is a sound circle. -/
theorem sound_circle (h : Past x) (hfull : x.1.Full) : (circle x).Sound :=
  ⟨nodup_turns _ _, fun f hf => h f (hfull f (mem_turns.mp hf))⟩

/-- For a full pool the right frame is the oldest place of the circle. -/
theorem right_iff_oldest (hn : 0 < n) (hfull : x.1.Full) :
    RightPick x.1 x.2 ↔ (circle x).Oldest := by
  rcases frames_head hn hfull with ⟨l, hl⟩
  have hmem : ∀ f, f ∈ x.1.pickPage.1 :: l ↔ f < POOLSIZE n := by
    intro f
    rw [← hl]
    exact mem_turns
  have hnodup : (x.1.pickPage.1 :: l).Nodup := hl ▸ nodup_turns _ _
  constructor
  · intro h a l' hq b hb
    have hq' : x.1.frames = a :: l' := hq
    rw [hl, List.cons.injEq] at hq'
    rcases hq' with ⟨rfl, rfl⟩
    refine (h.oldest hfull).2 b ((hmem b).mp (List.mem_cons_of_mem _ hb)) ?_
    rintro rfl
    exact (List.nodup_cons.mp hnodup).1 hb
  · intro h
    refine ⟨fun hnot => absurd hfull hnot, fun _ => ⟨(hmem _).mp List.mem_cons_self, ?_⟩⟩
    intro f hf hne
    exact h _ l hl f (((List.mem_cons.mp ((hmem f).mpr hf)).resolve_left hne))

/-- A full pool has its frames in order. -/
def InTurn (x : SwapPool n × LoadTimes) : Prop :=
  x.1.Full → RoundRobin.InOrder x.2.loadedAt x.1.frames

theorem right_of_inTurn (hn : 0 < n) (h : InTurn x) : RightPick x.1 x.2 := by
  by_cases hfull : x.1.Full
  · refine (right_iff_oldest hn hfull).mpr ?_
    have ho : RoundRobin.InOrder (circle x).time (circle x).queue := h hfull
    exact ho.oldest
  · exact ⟨fun _ => (pickPage_free hfull).2, fun hf => absurd hf hfull⟩

/-- The frames of a pool that was just filled are in order if and only if its
    last load came in turn. -/
theorem inTurn_iff {f : Nat} (hp : Past x) (hfree : x.1.OnlyFree f) (h : LoadStep x y) :
    RoundRobin.InOrder y.2.loadedAt y.1.frames ↔ FillsInTurn x.1 x.2 f := by
  rcases load_fills hfree h with ⟨_, _, hframes, htimes, _⟩
  rw [hframes, htimes]
  refine RoundRobin.inOrder_renew_iff (nodup_turns _ _) (mem_turns.mpr hfree.1) ?_
  intro g hg hgf
  exact hp g ((hfree.2 g (mem_turns.mp hg)).mpr hgf)

theorem inTurn_step (hn : 0 < n) (hN : POOLSIZE n < 2 ^ 32) (hp : Past x) (h : InTurn x)
    (hs : (timedRuns n).step x e y) (ho : Orderly x e) : InTurn y := by
  intro hy
  cases e with
  | load asid vpn p =>
      have hload : LoadStep x y := ⟨asid, vpn, p, hs⟩
      by_cases hfull : x.1.Full
      · -- The oldest frame becomes the newest one.
        have hserve := (load_serves hn hN hfull hload).2
        have ho : RoundRobin.InOrder (circle y).time (circle y).queue := by
          rw [hserve]
          exact RoundRobin.InOrder.serve (sound_circle hp hfull) (h hfull)
        exact ho
      · have hfree := onlyFree_of_full hfull hload hy
        exact (inTurn_iff hp hfree hload).mpr (ho _ hfree)
  | terminate asid =>
      -- Nothing was freed.
      rcases hs with ⟨hnext, htimes⟩
      rcases terminate_spec hnext with ⟨hfifo, hocc⟩
      have ho := h (fun f hf => hocc f (hy f hf))
      unfold SwapPool.frames at ho ⊢
      rw [htimes, hfifo]
      exact ho

theorem inTurn_run (hn : 0 < n) (hN : POOLSIZE n < 2 ^ 32) (h : (orderlyRuns n).Run es x) :
    InTurn x := by
  refine System.run_invariant ?_ ?_ h
  · rintro ⟨s, t⟩ ⟨hs, _⟩ hfull
    cases hs
    exact absurd (hfull 0 (Nat.mul_pos hn Nat.two_pos)) (fun hocc => by cases hocc)
  · rintro es x e y hrun hx ⟨hs, ho⟩
    exact inTurn_step hn hN (past_run (System.run_of_restrict hrun)) hx hs ho

/-! Loads into a full pool go round the circle. -/

theorem circle_of_loads (hn : 0 < n) (hN : POOLSIZE n < 2 ^ 32) (hfull : x.1.Full)
    (h : Relation.ReflTransGen LoadStep x y) :
    y.1.Full ∧ ∃ k, circle y = RoundRobin.serve^[k] (circle x) := by
  induction h with
  | refl => exact ⟨hfull, 0, rfl⟩
  | tail _ hload ih =>
      rcases ih with ⟨hmid, k, hk⟩
      rcases load_serves hn hN hmid hload with ⟨hy, hserve⟩
      refine ⟨hy, k + 1, ?_⟩
      rw [hserve, hk, Function.iterate_succ_apply']

theorem exists_loads (hn : 0 < n) (hN : POOLSIZE n < 2 ^ 32) (hfull : x.1.Full) (k : Nat) :
    ∃ y, Relation.ReflTransGen LoadStep x y ∧ y.1.Full ∧
      circle y = RoundRobin.serve^[k] (circle x) := by
  induction k with
  | zero => exact ⟨x, Relation.ReflTransGen.refl, hfull, rfl⟩
  | succ k ih =>
      rcases ih with ⟨y, hloads, hy, hk⟩
      -- Any page will do.
      have hv : vpnToIndex (KUSEG >>> VPNSHIFT) = .ok 0 := by decide
      have hload : ∃ z, LoadStep y z :=
        ⟨(_, _), ⟨0, hn⟩, KUSEG >>> VPNSHIFT, ⟨0, hn⟩, next_load y.1 _ _ hv, rfl⟩
      rcases hload with ⟨z, hz⟩
      rcases load_serves hn hN hy hz with ⟨hzfull, hserve⟩
      refine ⟨z, hloads.tail hz, hzfull, ?_⟩
      rw [hserve, hk, Function.iterate_succ_apply']

end Runs

/-! ## The algorithm -/

/-- `pick_page` is right in every orderly run. And a load that takes the last
    free frame has to be orderly, or the loads to come show that it was not. -/
theorem page_replacement_fifo (hn : 0 < n) (hN : POOLSIZE n < 2 ^ 32) :
    (∀ es x, (orderlyRuns n).Run es x → RightPick x.1 x.2) ∧
    ∀ es x y f, (timedRuns n).Run es x → LoadStep x y → x.1.OnlyFree f →
      ((∀ z, Relation.ReflTransGen LoadStep y z → RightPick z.1 z.2) ↔
        FillsInTurn x.1 x.2 f) := by
  refine ⟨fun es x h => right_of_inTurn hn (inTurn_run hn hN h), ?_⟩
  intro es x y f hrun hload hfree
  have hy : y.1.Full := (load_fills hfree hload).1
  have hp : Past y := by
    rcases hload with ⟨asid, vpn, p, hs⟩
    exact past_step (past_run hrun) hs
  have hsound := sound_circle hp hy
  refine Iff.trans ⟨fun h k => ?_, fun h z hz => ?_⟩
    ((RoundRobin.inOrder_iff_oldest hsound).trans (inTurn_iff (past_run hrun) hfree hload))
  · rcases exists_loads hn hN hy k with ⟨z, hz, hzfull, hk⟩
    rw [← hk]
    exact (right_iff_oldest hn hzfull).mp (h z hz)
  · rcases circle_of_loads hn hN hy hz with ⟨hzfull, k, hk⟩
    refine (right_iff_oldest hn hzfull).mpr ?_
    rw [hk]
    exact h k

/-! While nobody terminates, the frames are filled one after the other. -/

section Filling

variable {x y : SwapPool n × LoadTimes} {es : List (PoolEvent n)}

/-- The first frames are occupied, in order, and the index is where it was. -/
structure Filling (x : SwapPool n × LoadTimes) : Prop where
  fifo : x.1.fifo = -1
  occupied : ∀ f < POOLSIZE n, x.1.Occupied f ↔ f < x.2.now
  times : ∀ f < x.2.now, x.2.loadedAt f = f

theorem filling_step (h : Filling x) (hfull : ¬ x.1.Full) (hload : LoadStep x y) : Filling y := by
  rcases hload with ⟨asid, vpn, p, hnext, htimes⟩
  rcases load_spec hnext with ⟨hfifo, hocc⟩
  rcases pickPage_free hfull with ⟨hsame, ⟨hlt, hfree⟩, hleast⟩
  have hge : x.2.now ≤ x.1.pickPage.1 :=
    not_lt.mp (fun hc => hfree ((h.occupied _ hlt).mpr hc))
  have hpick : x.1.pickPage.1 = x.2.now := by
    refine le_antisymm (hleast ⟨lt_of_le_of_lt hge hlt, ?_⟩) hge
    rw [h.occupied _ (lt_of_le_of_lt hge hlt)]
    exact lt_irrefl _
  have hnow : y.2.now = x.2.now + 1 := by
    rw [htimes]
    rfl
  constructor
  · rw [hfifo, hsame, h.fifo]
  · intro f hf
    rw [hocc f, hpick, h.occupied f hf, hnow]
    omega
  · intro f hf
    rw [hnow] at hf
    rw [htimes]
    change Function.update x.2.loadedAt x.1.pickPage.1 x.2.now f = f
    rw [hpick]
    by_cases hfp : f = x.2.now
    · rw [hfp, Function.update_self]
    · rw [Function.update_of_ne hfp]
      exact h.times f (by omega)

/-- The last frame is filled in turn. -/
theorem filling_orderly {f : Nat} (h : Filling x) (hfree : x.1.OnlyFree f) :
    FillsInTurn x.1 x.2 f := by
  have hf : f = x.2.now := by
    have hge : ¬ f < x.2.now := fun hc =>
      (hfree.2 f hfree.1).mp ((h.occupied f hfree.1).mpr hc) rfl
    by_contra hne
    have hlt : x.2.now < POOLSIZE n := lt_trans (by omega) hfree.1
    have hocc := (h.occupied _ hlt).mp ((hfree.2 _ hlt).mpr (Ne.symm hne))
    exact lt_irrefl _ hocc
  have hlast : POOLSIZE n = x.2.now + 1 := by
    by_contra hne
    have hfree' := hfree.1
    have hlt : x.2.now + 1 < POOLSIZE n := by omega
    have hocc := (h.occupied _ hlt).mp ((hfree.2 _ hlt).mpr (by omega))
    omega
  have hframes : x.1.frames = List.range (POOLSIZE n) := by
    unfold SwapPool.frames turns
    rw [h.fifo]
    exact List.rotate_zero _
  refine ⟨List.range x.2.now, ?_, ?_⟩
  · rw [hframes, hlast, List.range_succ, hf]
  · refine List.pairwise_lt_range.imp_of_mem ?_
    intro a b ha hb hab
    rwa [h.times a (List.mem_range.mp ha), h.times b (List.mem_range.mp hb)]

/-- Runs without terminations are orderly. -/
theorem orderly_without_termination (h : (timedRuns n).Run es x)
    (hes : ∀ asid, PoolEvent.terminate asid ∉ es) :
    (orderlyRuns n).Run es x ∧ (x.1.Full ∨ Filling x) := by
  induction h with
  | @init x h =>
      refine ⟨System.Run.init h, Or.inr ?_⟩
      rcases x with ⟨s, t⟩
      rcases h with ⟨hs, ht⟩
      cases hs
      simp only at ht
      subst ht
      refine ⟨rfl, fun f _ => ⟨fun hf => ?_, fun hf => absurd hf (Nat.not_lt_zero f)⟩,
        fun f hf => absurd hf (Nat.not_lt_zero f)⟩
      cases hf
  | @step es x y e hrun hs ih =>
      rcases ih (fun asid hmem => hes asid (List.mem_cons_of_mem e hmem)) with ⟨hrun', hx⟩
      cases e with
      | terminate asid => exact absurd List.mem_cons_self (hes asid)
      | load asid vpn p =>
          have hload : LoadStep x y := ⟨asid, vpn, p, hs⟩
          have ho : Orderly x (.load asid vpn p) := by
            intro f hfree
            rcases hx with hfull | hfill
            · exact absurd (hfull f hfree.1) (fun hocc => (hfree.2 f hfree.1).mp hocc rfl)
            · exact filling_orderly hfill hfree
          refine ⟨System.Run.step hrun' ⟨hs, ho⟩, ?_⟩
          by_cases hfull : x.1.Full
          · refine Or.inl (fun f hf => ?_)
            exact ((load_spec hs.1).2 f).mpr (Or.inr (hfull f hf))
          · exact Or.inr (filling_step (hx.resolve_left hfull) hfull hload)

end Filling

/-! ## The support level -/

section Scan

variable {S : Platform n} {x : SupportLevel n} {i : Fin n} {fault : Fault}

/-- The swap pool of the support level. -/
def SupportLevel.pool (x : SupportLevel n) : SwapPool n :=
  { swapPoolTable := x.swapPoolTable
    fifo := x.fifo }

theorem scan_step {index : Nat} (hdown : x.down = none) (hpc : x.pc i = .pick fault index) :
    (supportLevel S).step x (.step i) (x.pickPage i fault index) := by
  change SupportLevel.next S x (.step i) = _
  simp only [SupportLevel.next, SupportLevel.handle, hdown, hpc]

/-- The rounds `support_tlb` makes through `pick_page` find the frame. -/
theorem scan_picks {index : Nat} (hdown : x.down = none) (hpc : x.pc i = .pick fault index)
    (hle : index ≤ POOLSIZE n) (hbefore : ∀ f < index, x.pool.Occupied f) :
    ∃ y, Relation.ReflTransGen (fun a b => (supportLevel S).step a (.step i) b) x y ∧
      y.pc i = .copy fault x.pool.pickPage.1 ∧ y.pool = x.pool.pickPage.2 := by
  -- The induction is on the frames that are left.
  induction hk : POOLSIZE n - index generalizing x index with
  | zero =>
      have hstep := scan_step (S := S) hdown hpc
      have hfull : x.pool.Full := fun f hf => hbefore f (by omega)
      refine ⟨_, Relation.ReflTransGen.single hstep, ?_, ?_⟩
      · unfold SupportLevel.pickPage
        rw [if_neg (by omega), pickPage_full hfull]
        exact Function.update_self _ _ _
      · unfold SupportLevel.pickPage
        rw [if_neg (by omega), pickPage_full hfull]
        rfl
  | succ k ih =>
      have hstep := scan_step (S := S) hdown hpc
      have hlt : index < POOLSIZE n := by omega
      by_cases hocc : checkFrameOccupied (x.swapPoolTable index) = true
      · have hnext : x.pickPage i fault index = x.setPc i (.pick fault (index + 1)) := by
          unfold SupportLevel.pickPage
          rw [if_pos hlt, if_pos hocc]
        rw [hnext] at hstep
        have hpc' : (x.setPc i (.pick fault (index + 1))).pc i = .pick fault (index + 1) :=
          Function.update_self _ _ _
        have hbefore' : ∀ f < index + 1, x.pool.Occupied f := by
          intro f hf
          by_cases hfi : f = index
          · exact hfi ▸ hocc
          · exact hbefore f (by omega)
        have hk' : POOLSIZE n - (index + 1) = k := by omega
        rcases ih (x := x.setPc i (.pick fault (index + 1))) hdown hpc' hlt hbefore' hk' with
          ⟨y, hreach, hy⟩
        exact ⟨y, Relation.ReflTransGen.head hstep hreach, hy⟩
      · have hnfull : ¬ x.pool.Full := fun hfull => hocc (hfull index hlt)
        rcases pickPage_free hnfull with ⟨hsame, hleast⟩
        have hpick : x.pool.pickPage.1 = index := by
          refine le_antisymm (hleast.2 ⟨hlt, hocc⟩) (not_lt.mp ?_)
          intro hc
          exact hleast.1.2 (hbefore _ hc)
        refine ⟨_, Relation.ReflTransGen.single hstep, ?_, ?_⟩
        · unfold SupportLevel.pickPage
          rw [if_pos hlt, if_neg hocc, hpick]
          exact Function.update_self _ _ _
        · unfold SupportLevel.pickPage
          rw [if_pos hlt, if_neg hocc, hsame]
          rfl

/-- The end of a page fault fills the frame that was picked. -/
theorem commit_loads {y : SupportLevel n} {r : SwapPool n} {v : Victim} {asid : Fin n}
    (hpc : x.pc i = .commit fault v) (hasid : (x.current i).supAsid = some asid)
    (hpool : x.pool = r.pickPage.2) (hframe : v.frame = r.pickPage.1)
    (h : (supportLevel S).step x (.step i) y) (hdown : y.down = none) :
    r.next (.load asid v.pVpn (x.support i)) = some y.pool := by
  change SupportLevel.next S x (.step i) = some y at h
  unfold SupportLevel.next at h
  cases hx : x.down with
  | some d =>
      rw [hx] at h
      cases h
  | none =>
      simp only [hx, SupportLevel.handle, hpc, SupportLevel.commitPage, hasid,
        Option.some.injEq] at h
      have htable : x.swapPoolTable = r.swapPoolTable := by
        rw [← pickPage_table, ← hpool]
        rfl
      unfold SwapPool.next
      simp only [pickPage_table]
      rw [hframe, htable] at h
      cases hadd : addEntrySwapPoolTable r.swapPoolTable r.pickPage.1 asid v.pVpn (x.support i) with
      | error msg =>
          rw [hadd] at h
          cases h
          cases hdown
      | ok swapPoolTable =>
          rw [hadd] at h
          subst h
          rw [← hpool]
          rfl

theorem mark_step {asid : Fin n} {index : Nat} (hdown : x.down = none)
    (hpc : x.pc i = .mark asid index) :
    (supportLevel S).step x (.step i) (x.testFrame i asid index) := by
  change SupportLevel.next S x (.step i) = _
  simp only [SupportLevel.next, SupportLevel.handle, hdown, hpc]

theorem unmark_step {asid : Fin n} {index : Nat} (hdown : x.down = none)
    (hpc : x.pc i = .unmark asid index) :
    (supportLevel S).step x (.step i) (x.unmarkFrame i asid index) := by
  change SupportLevel.next S x (.step i) = _
  simp only [SupportLevel.next, SupportLevel.handle, hdown, hpc]

/-- A frame that is given up makes no difference for the whole loop. -/
theorem markFramesAsUnoccupied_update (table : Nat → Swap n) {asid : Fin n} {index : Nat}
    (h : (table index).swAsid = some asid) :
    markFramesAsUnoccupied (Function.update table index { table index with swAsid := none }) asid =
      markFramesAsUnoccupied table asid := by
  funext f
  unfold markFramesAsUnoccupied
  by_cases hf : f = index
  · rw [hf, Function.update_self, if_neg (fun hc => by cases hc), if_pos h]
  · rw [Function.update_of_ne hf]

/-- The rounds `sys_terminate` makes through `mark_frames_as_unoccupied`, if
    nobody comes in between, are the end of a U-proc. -/
theorem mark_terminates {asid : Fin n} {index : Nat} (hdown : x.down = none)
    (hpc : x.pc i = .mark asid index)
    (hown : ∀ f, (x.swapPoolTable f).swAsid = some asid → index ≤ f ∧ f < POOLSIZE n) :
    ∃ y, Relation.ReflTransGen (fun a b => (supportLevel S).step a (.step i) b) x y ∧
      y.pc i = .free ∧ x.pool.next (.terminate asid) = some y.pool := by
  -- The induction is on the frames that are left.
  induction hk : POOLSIZE n - index generalizing x index with
  | zero =>
      have hstep := mark_step (S := S) hdown hpc
      refine ⟨_, Relation.ReflTransGen.single hstep, ?_, ?_⟩
      · unfold SupportLevel.testFrame
        rw [if_neg (by omega)]
        exact Function.update_self _ _ _
      · -- No frame has to be given up any more.
        have hnone : markFramesAsUnoccupied x.swapPoolTable asid = x.swapPoolTable := by
          funext f
          unfold markFramesAsUnoccupied
          refine if_neg (fun hf => ?_)
          have hbounds := hown f hf
          omega
        unfold SupportLevel.testFrame SwapPool.next
        rw [if_neg (by omega)]
        simp only [SupportLevel.pool, hnone]
        rfl
  | succ k ih =>
      have hstep := mark_step (S := S) hdown hpc
      have hlt : index < POOLSIZE n := by omega
      have hk' : POOLSIZE n - (index + 1) = k := by omega
      by_cases hocc : (x.swapPoolTable index).swAsid = some asid
      · have hnext : x.testFrame i asid index = x.setPc i (.unmark asid index) := by
          unfold SupportLevel.testFrame
          rw [if_pos hlt, if_pos hocc]
        rw [hnext] at hstep
        have hstep' := unmark_step (S := S) (x := x.setPc i (.unmark asid index)) hdown
          (Function.update_self _ _ _)
        have hown' : ∀ f, (Function.update x.swapPoolTable index
            { x.swapPoolTable index with swAsid := none } f).swAsid = some asid →
            index + 1 ≤ f ∧ f < POOLSIZE n := fun f hf => by
          by_cases hfi : f = index
          · rw [hfi, Function.update_self] at hf
            cases hf
          · rw [Function.update_of_ne hfi] at hf
            have hbounds := hown f hf
            omega
        rcases ih (x := (x.setPc i (.unmark asid index)).unmarkFrame i asid index) hdown
          (Function.update_self _ _ _) hown' hk' with ⟨y, hreach, hy, hpool⟩
        refine ⟨y, Relation.ReflTransGen.head hstep (Relation.ReflTransGen.head hstep' hreach),
          hy, ?_⟩
        rw [← hpool]
        exact congrArg some (congrArg (fun table => SwapPool.mk table x.fifo)
          (markFramesAsUnoccupied_update x.swapPoolTable hocc).symm)
      · have hnext : x.testFrame i asid index = x.setPc i (.mark asid (index + 1)) := by
          unfold SupportLevel.testFrame
          rw [if_pos hlt, if_neg hocc]
        rw [hnext] at hstep
        have hown' : ∀ f, (x.swapPoolTable f).swAsid = some asid →
            index + 1 ≤ f ∧ f < POOLSIZE n := fun f hf => by
          have hbounds := hown f hf
          have hne : f ≠ index := fun hc => hocc (hc ▸ hf)
          omega
        rcases ih (x := x.setPc i (.mark asid (index + 1))) hdown (Function.update_self _ _ _)
          hown' hk' with ⟨y, hreach, hy, hpool⟩
        exact ⟨y, Relation.ReflTransGen.head hstep hreach, hy, hpool⟩

end Scan

/-! ## Samples -/

/-- The next state with the times of the loads. -/
def timedNext (x : SwapPool n × LoadTimes) (e : PoolEvent n) : Option (SwapPool n × LoadTimes) :=
  (x.1.next e).map (fun s' => (s', noteLoad x.1 e s' x.2))

/-- A sequence of events that is possible is a run. -/
theorem timed_run_of_foldlM (events : List (PoolEvent n)) {es : List (PoolEvent n)}
    {x y : SwapPool n × LoadTimes} (hx : (timedRuns n).Run es x)
    (hy : events.foldlM timedNext x = some y) : (timedRuns n).Run (events.reverse ++ es) y := by
  induction events generalizing es x with
  | nil =>
      rw [List.foldlM_nil, Option.pure_def, Option.some.injEq] at hy
      exact hy ▸ hx
  | cons e events ih =>
      rw [List.foldlM_cons, Option.bind_eq_bind, Option.bind_eq_some_iff] at hy
      rcases hy with ⟨z, hz, hy⟩
      rcases Option.map_eq_some_iff.mp hz with ⟨s', hs', rfl⟩
      rw [List.reverse_cons, List.append_assoc]
      have hstep : (timedRuns n).step x e (s', noteLoad x.1 e s' x.2) := ⟨hs', rfl⟩
      exact ih (System.Run.step hx hstep) hy

/-- A run from boot, with a test on the state it ends in. -/
theorem exists_timed_run (events : List (PoolEvent n)) (P : SwapPool n × LoadTimes → Bool)
    (h : (events.foldlM timedNext
      (SwapPool.start n, { loadedAt := fun _ => 0, now := 0 })).any P = true) :
    ∃ x, (timedRuns n).Run events.reverse x ∧ P x = true := by
  rcases (Option.any_eq_true _ _).mp h with ⟨x, hx, hP⟩
  have hinit : (timedRuns n).init (SwapPool.start n, { loadedAt := fun _ => 0, now := 0 }) :=
    ⟨rfl, rfl⟩
  have hrun := timed_run_of_foldlM events (System.Run.init hinit) hx
  rw [List.append_nil] at hrun
  exact ⟨x, hrun, hP⟩

/-- The U-proc `asid` loads a page into its own page table. -/
def sampleLoad (asid : Fin 8) : PoolEvent 8 := .load asid (KUSEG >>> VPNSHIFT) asid

/-- All frames are occupied. -/
def SwapPool.isFull (s : SwapPool n) : Bool :=
  (List.range (POOLSIZE n)).all (fun f => checkFrameOccupied (s.swapPoolTable f))

theorem full_of_isFull (h : s.isFull = true) : s.Full := by
  intro f hf
  exact List.all_eq_true.mp h f (List.mem_range.mpr hf)

/-- The first frame is freed by a termination and filled once more. It is the
    next victim, though its page is the newest one. -/
theorem page_replacement_not_fifo :
    ∃ es x, (timedRuns 8).Run es x ∧ x.1.Full ∧ ¬ RightPick x.1 x.2 := by
  rcases exists_timed_run
    (sampleLoad ⟨0, by decide⟩ :: List.replicate 15 (sampleLoad ⟨1, by decide⟩) ++
      [.terminate ⟨0, by decide⟩, sampleLoad ⟨1, by decide⟩])
    (fun x => x.1.isFull && x.1.pickPage.1 == 0 &&
      decide (x.2.loadedAt 1 < x.2.loadedAt 0)) (by decide +kernel) with ⟨x, hrun, htest⟩
  rw [Bool.and_eq_true, Bool.and_eq_true, beq_iff_eq, decide_eq_true_eq] at htest
  rcases htest with ⟨⟨hisFull, hpick⟩, hlt⟩
  have hfull := full_of_isFull hisFull
  refine ⟨_, x, hrun, hfull, fun hright => ?_⟩
  have hold := (hright.oldest hfull).2 1 (by decide) (by rw [hpick]; decide)
  rw [hpick] at hold
  exact lt_asymm hlt hold

theorem page_replacement_fifo_sample : ∃ es x, (orderlyRuns 8).Run es x ∧ x.1.Full ∧
    x.2.now = 19 ∧ RightPick x.1 x.2 := by
  rcases exists_timed_run (List.replicate 19 (sampleLoad ⟨3, by decide⟩))
    (fun x => x.1.isFull && decide (x.2.now = 19)) (by decide +kernel) with ⟨x, hrun, htest⟩
  rw [Bool.and_eq_true, decide_eq_true_eq] at htest
  have horderly := (orderly_without_termination hrun (by
    intro asid hmem
    rw [List.reverse_replicate] at hmem
    cases List.eq_of_mem_replicate hmem)).1
  exact ⟨_, x, horderly, full_of_isFull htest.1, htest.2,
    (page_replacement_fifo (by decide) (by decide)).1 _ x horderly⟩

end Pandos
