import Mathlib.Algebra.BigOperators.Group.Finset.Basic
import Mathlib.Algebra.Order.BigOperators.Group.Finset
import Pandos.Lib.Progress
import Pandos.Theory.FlashQueues

/-!
# The Work of the Support Level

How much the handlers, `test` and the flash devices have still to do while no
U-proc in user mode does anything. Every place of the code has a rank, higher
than all places that come after it, and a command to a device counts until its
status has come. Each step of theirs lowers the sum.

## Main definitions

* `UEvent.atWork`: Steps that are not taken by a U-proc in user mode.
* `Pc.rank`, `TestPc.rank`: What is left to do from a place of the code.
* `SupportLevel.work`: What is left to do.
* `maxWork`: A bound for all reachable states.

## Theorems

* `work_step`: Every step lowers the work.
* `work_le`: The bound.
-/

namespace Pandos

section Progress

variable {n : Nat}

open SupportLevel

/-- A step of a handler, of `test` or of a flash device. -/
def UEvent.atWork : UEvent n → Bool
  | .touch _ _ _ _ _ => false
  | .quit _ => false
  | _ => true

/-- How many steps there can be from a place of the code until user mode, or
    until the end of the U-proc. -/
def Pc.rank : Pc n → Nat
  | .unborn => 0
  | .user => 0
  | .dead => 0
  | .drop _ => 1
  | .releasing _ => 2
  | .release _ => 3
  | .exit => 1
  | .posting => 2
  | .post => 3
  | .free => 4
  | .mark _ index => 5 + 2 * (POOLSIZE n - index)
  | .unmark _ index => 6 + 2 * (POOLSIZE n - (index + 1))
  | .cleaning _ => 6 + 2 * POOLSIZE n
  | .clean _ => 7 + 2 * POOLSIZE n
  | .trap => 8 + 2 * POOLSIZE n
  | .commit _ _ => 9 + 2 * POOLSIZE n
  | .reading _ _ => 10 + 2 * POOLSIZE n
  | .read _ _ => 12 + 2 * POOLSIZE n
  | .writing _ _ _ _ => 13 + 2 * POOLSIZE n
  | .write _ _ _ _ => 15 + 2 * POOLSIZE n
  | .evict _ _ _ => 16 + 2 * POOLSIZE n
  | .copy _ _ => 17 + 2 * POOLSIZE n
  | .pick _ index => 18 + 2 * POOLSIZE n + (POOLSIZE n - index)
  | .take _ => 19 + 3 * POOLSIZE n
  | .passing _ => 20 + 3 * POOLSIZE n
  | .pass _ => 21 + 3 * POOLSIZE n
  | .cause _ => 22 + 3 * POOLSIZE n

/-- How many steps `test` has before it. Each U-proc takes it seven to create and
    two to wait for. -/
def TestPc.rank : TestPc n → Nat
  | .alloc i => 2 * n + 1 + 7 * (n - i)
  | .header i _ => 2 * n + 7 * (n - i.val)
  | .heading i _ => 2 * n + 7 * (n - i.val) - 2
  | .fill i _ _ => 2 * n + 7 * (n - i.val) - 3
  | .create i _ => 2 * n + 7 * (n - i.val) - 4
  | .failed _ _ => 0
  | .wait i => 2 * (n - i)
  | .waiting i => 2 * (n - i) - 1

namespace SupportLevel

/-- What the handlers, `test` and the devices have still to do. -/
def work (s : SupportLevel n) : Nat :=
  Finset.univ.sum (fun i => (s.pc i).rank) + s.test.rank +
    Finset.univ.sum (fun d => (s.flash d).queue.length) + if s.down = none then 1 else 0

end SupportLevel

/-- A bound for the work that is left. -/
def maxWork (n : Nat) : Nat := n * (22 + 3 * POOLSIZE n) + (9 * n + 1) + n + 1

theorem Pc.resumed_rank (pc : Pc n) : pc.resumed.rank ≤ pc.rank := by
  cases pc with
  | passing f =>
      simp only [Pc.resumed, Pc.rank]
      omega
  | releasing f => exact Nat.le_succ 1
  | cleaning asid =>
      simp only [Pc.resumed, Pc.rank]
      omega
  | posting => exact Nat.le_succ 1
  | _ => exact Nat.le_refl _

theorem Pc.finished_rank (pc : Pc n) (ok : Bool) : (pc.finished ok).rank ≤ pc.rank := by
  cases pc with
  | writing f v asid k =>
      cases ok with
      | true =>
          simp only [Pc.finished, Pc.rank, if_true]
          omega
      | false =>
          simp only [Pc.finished, Pc.rank, Bool.false_eq_true, if_false]
          omega
  | reading f v =>
      cases ok with
      | true =>
          simp only [Pc.finished, Pc.rank, if_true]
          omega
      | false =>
          simp only [Pc.finished, Pc.rank, Bool.false_eq_true, if_false]
          omega
  | _ => exact Nat.le_refl _

theorem TestPc.resumed_rank (t : TestPc n) : t.resumed.rank ≤ t.rank := by
  cases t with
  | waiting i =>
      simp only [TestPc.resumed, TestPc.rank]
      omega
  | _ => exact Nat.le_refl _

variable {S : Platform n} {s s' : SupportLevel n} {i : Fin n}

/-- Going on to another place takes a step. -/
theorem Goes.rank {pc : Pc n} (h : Goes s i pc) : pc.rank < (s.pc i).rank := by
  cases h with
  | nameless h =>
      rcases h with h | h
      · rw [h]
        simp only [Pc.rank]
        omega
      · rw [h]
        simp only [Pc.rank]
        omega
  | modification h | missing h | occupied h hx | unoccupied h hx | evict h | read h | nobody h
  | clean h | mark h | kept h | owned h | marked h | die h =>
      rw [h]
      simp only [Pc.rank]
      omega

theorem Unlocks.rank {pc blocked next : Pc n} (h : Unlocks pc blocked next) :
    blocked.rank < pc.rank ∧ next.rank < pc.rank := by
  cases h with
  | release f => simp only [Pc.rank, Nat.reduceLT, and_self]
  | clean asid =>
      simp only [Pc.rank]
      omega

/-! ## Sums -/

/-- One U-proc is nearer to its end, and nobody is farther from it. -/
theorem sum_rank_lt {pc : Fin n → Pc n} (hall : ∀ j, (pc j).rank ≤ (s.pc j).rank)
    (hi : (pc i).rank < (s.pc i).rank) :
    Finset.univ.sum (fun j => (pc j).rank) < Finset.univ.sum (fun j => (s.pc j).rank) :=
  Finset.sum_lt_sum (fun j _ => hall j) ⟨i, Finset.mem_univ i, hi⟩

/-- One U-proc is at another place. -/
theorem sum_rank_update (s : SupportLevel n) (i : Fin n) (pc : Pc n) :
    Finset.univ.sum (fun j => (Function.update s.pc i pc j).rank) + (s.pc i).rank =
      Finset.univ.sum (fun j => (s.pc j).rank) + pc.rank := by
  have hrest : (Finset.univ.erase i).sum (fun j => (Function.update s.pc i pc j).rank) =
      (Finset.univ.erase i).sum (fun j => (s.pc j).rank) :=
    Finset.sum_congr rfl (fun j hj => by rw [Function.update_of_ne (Finset.ne_of_mem_erase hj)])
  rw [← Finset.sum_erase_add _ _ (Finset.mem_univ i), hrest, Function.update_self,
    ← Finset.sum_erase_add _ (fun j => (s.pc j).rank) (Finset.mem_univ i)]
  omega

/-- One queue has another length. -/
theorem sum_queue_update (flash : Fin n → Flash n) (d : Fin n) (fl : Flash n) :
    Finset.univ.sum (fun j => (Function.update flash d fl j).queue.length) +
        (flash d).queue.length =
      Finset.univ.sum (fun j => (flash j).queue.length) + fl.queue.length := by
  have hrest : (Finset.univ.erase d).sum (fun j => (Function.update flash d fl j).queue.length) =
      (Finset.univ.erase d).sum (fun j => (flash j).queue.length) :=
    Finset.sum_congr rfl (fun j hj => by rw [Function.update_of_ne (Finset.ne_of_mem_erase hj)])
  rw [← Finset.sum_erase_add _ _ (Finset.mem_univ d), hrest, Function.update_self,
    ← Finset.sum_erase_add _ (fun j => (flash j).queue.length) (Finset.mem_univ d)]
  omega

/-! ## Steps -/

/-- The machine runs on, or stops. -/
theorem work_lt (hdown : s'.down = none → s.down = none)
    (hlt : Finset.univ.sum (fun j => (s'.pc j).rank) + s'.test.rank +
        Finset.univ.sum (fun d => (s'.flash d).queue.length) <
      Finset.univ.sum (fun j => (s.pc j).rank) + s.test.rank +
        Finset.univ.sum (fun d => (s.flash d).queue.length)) :
    s'.work < s.work := by
  have hd : (if s'.down = none then 1 else 0) ≤ if s.down = none then 1 else 0 := by
    by_cases hs : s'.down = none
    · rw [if_pos hs, if_pos (hdown hs)]
    · rw [if_neg hs]
      exact Nat.zero_le _
  unfold work
  omega

/-- Somebody moves on, and nobody else falls back. -/
theorem work_moves (hall : ∀ j, (s'.pc j).rank ≤ (s.pc j).rank)
    (hi : (s'.pc i).rank < (s.pc i).rank) (htest : s'.test.rank ≤ s.test.rank)
    (hflash : s'.flash = s.flash) (hdown : s'.down = s.down) : s'.work < s.work := by
  have hlt := sum_rank_lt hall hi
  refine work_lt (fun h => hdown ▸ h) ?_
  rw [hflash]
  omega

theorem work_move {pc : Pc n} (hpc : s'.pc = Function.update s.pc i pc)
    (hi : pc.rank < (s.pc i).rank) (htest : s'.test = s.test) (hflash : s'.flash = s.flash)
    (hdown : s'.down = s.down) : s'.work < s.work := by
  refine work_moves (i := i) (fun j => ?_) ?_ (by rw [htest]) hflash hdown
  · rw [hpc]
    exact moves_update (R := fun j pc => pc.rank ≤ (s.pc j).rank) (Nat.le_of_lt hi)
      (fun _ => Nat.le_refl _) j
  · rw [hpc, Function.update_self]
    exact hi

/-- An operation on `sem_swap_pool_table`. -/
theorem work_swapPoolOp {o : SemOp} {blocked next : Pc n} (hb : blocked.rank < (s.pc i).rank)
    (hn : next.rank < (s.pc i).rank) : (s.swapPoolOp o i blocked next).work < s.work := by
  have hall := swapPoolOp_moves (s := s) (o := o) (i := i)
    (R := fun j pc => pc.rank ≤ (s.pc j).rank) (Nat.le_of_lt hb) (Nat.le_of_lt hn)
    (fun j => Pc.resumed_rank _) (fun _ => Nat.le_refl _)
  rw [swapPoolOp_eq] at hall ⊢
  refine work_moves (i := i) hall ?_ (Nat.le_refl _) rfl rfl
  simp only [if_true]
  split
  · exact hb
  · exact hn

/-- `test` moves on. -/
theorem work_test (hpc : s'.pc = s.pc) (htest : s'.test.rank < s.test.rank)
    (hflash : s'.flash = s.flash) (hdown : s'.down = s.down) : s'.work < s.work := by
  refine work_lt (fun h => hdown ▸ h) ?_
  rw [hpc, hflash]
  omega

/-- A command is given to a device. -/
theorem sum_queue_doio (s : SupportLevel n) (d : Fin n) (r : Request n) :
    Finset.univ.sum (fun j => ((s.doio d r).flash j).queue.length) =
      Finset.univ.sum (fun j => (s.flash j).queue.length) + 1 := by
  have h := sum_queue_update s.flash d { s.flash d with queue := (s.flash d).queue ++ [r] }
  simp only [List.length_append, List.length_singleton] at h
  simp only [doio]
  omega

/-- A U-proc gives a command. Its place falls by two, so it pays for the
    command. -/
theorem work_command (s : SupportLevel n) (d : Fin n) (r : Request n) {pc : Pc n}
    (hi : pc.rank + 2 ≤ (s.pc i).rank) : ((s.doio d r).setPc i pc).work < s.work := by
  have hqueue := sum_queue_doio s d r
  have hrank := sum_rank_update s i pc
  have hpc : ((s.doio d r).setPc i pc).pc = Function.update s.pc i pc := rfl
  have hflash : ((s.doio d r).setPc i pc).flash = (s.doio d r).flash := rfl
  have htest : ((s.doio d r).setPc i pc).test = s.test := rfl
  have hdown : ((s.doio d r).setPc i pc).down = s.down := rfl
  unfold work
  rw [hpc, hflash, htest, hdown, hqueue]
  omega

/-- The status of a command takes nobody back. -/
theorem work_finish (s : SupportLevel n) (who : Party n) (ok : Bool) (data : Page) :
    (s.finish who ok data).work ≤ s.work := by
  cases who with
  | some i =>
      have hrank := sum_rank_update s i ((s.pc i).finished ok)
      have hle := Pc.finished_rank (s.pc i) ok
      have hpc : (s.finish (some i) ok data).pc =
        Function.update s.pc i ((s.pc i).finished ok) := rfl
      have htest : (s.finish (some i) ok data).test = s.test := rfl
      have hflash : (s.finish (some i) ok data).flash = s.flash := rfl
      have hdown : (s.finish (some i) ok data).down = s.down := rfl
      unfold work
      rw [hpc, htest, hflash, hdown]
      omega
  | none =>
      cases htest : s.test with
      | heading i t =>
          have hn := i.isLt
          cases ok with
          | true =>
              simp only [finish, htest, if_true, work, TestPc.rank]
              omega
          | false =>
              simp only [finish, htest, Bool.false_eq_true, if_false, work, TestPc.rank,
                reduceCtorEq]
              omega
      | _ =>
          simp only [finish, htest]
          exact Nat.le_refl _

theorem work_panic (msg : String) (hdown : s.down = none) : (s.panic msg).work < s.work := by
  unfold work SupportLevel.panic
  rw [if_pos hdown, if_neg (Option.some_ne_none _)]
  exact Nat.lt_succ_self _

/-- Every step of a handler, of `test` or of a device lowers the work. -/
theorem work_step {e : UEvent n} (hdown : s.down = none) (he : e.atWork = true)
    (hstep : UStep S s e s') : s'.work < s.work := by
  cases hstep with
  | panic msg => exact work_panic msg hdown
  | quit _ hq =>
      rcases hq with rfl | ⟨_, _, _, _, rfl, _⟩
      · cases he
      · cases he
  | refill => cases he
  | fault => cases he
  | access => cases he
  | goes h => exact work_move rfl h.rank rfl rfl rfl
  | @lock i f hpc =>
      have hb : (Pc.passing f : Pc n).rank < (s.pc i).rank := by
        rw [hpc]
        simp only [Pc.rank]
        omega
      have hn : (Pc.take f : Pc n).rank < (s.pc i).rank := by
        rw [hpc]
        simp only [Pc.rank]
        omega
      exact work_swapPoolOp hb hn
  | @take i f asid hpc =>
      refine work_move (i := i) rfl ?_ rfl rfl rfl
      rw [hpc]
      simp only [Pc.rank]
      omega
  | @fifo i f index hpc hx =>
      refine work_move (i := i) rfl ?_ rfl rfl rfl
      rw [hpc]
      simp only [Pc.rank]
      omega
  | @evict i f v swap asid t k kIndex hpc _ _ _ s₁ h₁ =>
      subst h₁
      refine work_move (i := i) rfl ?_ rfl rfl rfl
      rw [hpc]
      simp only [Pc.rank]
      omega
  | write hpc =>
      refine work_command s _ _ ?_
      rw [hpc]
      simp only [Pc.rank]
      omega
  | read hpc =>
      refine work_command s _ _ ?_
      rw [hpc]
      simp only [Pc.rank]
      omega
  | @commit i f v asid index hpc =>
      refine work_move (i := i) rfl ?_ rfl rfl rfl
      rw [hpc]
      simp only [Pc.rank]
      omega
  | unlock h => exact work_swapPoolOp h.rank.1 h.rank.2
  | @drop i f asid hpc =>
      refine work_move (i := i) rfl ?_ rfl rfl rfl
      rw [hpc]
      exact Nat.lt_succ_self 0
  | @unmark i asid index hpc =>
      refine work_move (i := i) rfl ?_ rfl rfl rfl
      rw [hpc]
      simp only [Pc.rank]
      omega
  | @free i hpc =>
      refine work_move (i := i) rfl ?_ rfl rfl rfl
      rw [hpc]
      exact Nat.lt_succ_self 3
  | @post i hpc =>
      have hall := masterSemaphoreV_moves (s := s) (i := i)
        (R := fun j pc => pc.rank ≤ (s.pc j).rank) (by rw [hpc]; exact Nat.le_succ 2)
        (by rw [hpc]; simp only [Pc.rank, Nat.reduceLeDiff]) (fun j => Pc.resumed_rank _)
        (fun _ => Nat.le_refl _)
      rw [masterSemaphoreV_eq] at hall ⊢
      refine work_moves (i := i) hall ?_ ?_ rfl rfl
      · simp only [if_true, hpc]
        split
        · exact Nat.lt_succ_self 2
        · simp only [Pc.rank, Nat.reduceLT]
      · simp only []
        split
        · exact TestPc.resumed_rank _
        · exact Nat.le_refl _
  | @complete dev ok r rest hqueue s₁ h₁ =>
      rcases transfer_eq h₁ with ⟨ram, blocks, rfl⟩
      refine Nat.lt_of_le_of_lt (work_finish _ _ _ _) (work_lt (fun h => h) ?_)
      -- The command is not in its queue any more.
      have hsum := sum_queue_update (fun d => { s.flash d with blocks := blocks d }) dev
        { queue := rest, blocks := blocks dev }
      simp only [hqueue, List.length_cons] at hsum
      simp only []
      omega
  | @alloc i t ts htest =>
      refine work_test rfl ?_ rfl rfl
      rw [htest]
      simp only [TestPc.rank]
      omega
  | @created i htest hi =>
      refine work_test rfl ?_ rfl rfl
      rw [htest]
      simp only [TestPc.rank]
      omega
  | @header i t htest =>
      have hqueue := sum_queue_doio s i (Request.read none 0 none)
      have hn := i.isLt
      refine work_lt (fun h => h) ?_
      simp only [readFlash] at hqueue ⊢
      rw [hqueue, htest]
      simp only [doio, TestPc.rank]
      omega
  | @fill i t data htest =>
      have hn := i.isLt
      refine work_test rfl ?_ rfl rfl
      rw [htest]
      simp only [TestPc.rank]
      omega
  | @create i t htest =>
      have hn := i.isLt
      have hrank := sum_rank_update s i .user
      refine work_lt (fun h => h) ?_
      simp only [setPc, htest, TestPc.rank, Pc.rank] at hrank ⊢
      omega
  | @wait k htest hk =>
      have hall := masterSemaphoreP_moves (s := s) (k := k)
        (R := fun j pc => pc.rank ≤ (s.pc j).rank) (fun j => Pc.resumed_rank _)
        (fun _ => Nat.le_refl _)
      rw [masterSemaphoreP_eq] at hall ⊢
      have hsum := Finset.sum_le_sum (fun j (_ : j ∈ Finset.univ) => hall j)
      refine work_lt (fun h => h) ?_
      have htr : (if (s.masterSemaphore.op .P none).waits then TestPc.waiting (n := n) k
          else .wait (k + 1)).rank < s.test.rank := by
        rw [htest]
        split
        · simp only [TestPc.rank]
          omega
        · simp only [TestPc.rank]
          omega
      simp only [] at hsum htr ⊢
      omega
  | halt =>
      unfold work
      rw [if_pos hdown, if_neg (Option.some_ne_none _)]
      exact Nat.lt_succ_self _

/-! ## The bound -/

theorem Pc.rank_le (pc : Pc n) : pc.rank ≤ 22 + 3 * POOLSIZE n := by
  cases pc <;> simp only [Pc.rank] <;> omega

theorem TestPc.rank_le (t : TestPc n) : t.rank ≤ 9 * n + 1 := by
  cases t <;> simp only [TestPc.rank] <;> omega

/-- As nobody waits for a device somebody else waits for, the work that is left
    depends on the number of U-procs only. -/
theorem work_le (hq : Queued S s) : s.work ≤ maxWork n := by
  have hpc := Finset.sum_le_card_nsmul Finset.univ (fun i => (s.pc i).rank) (22 + 3 * POOLSIZE n)
    (fun i _ => Pc.rank_le _)
  have hqueue := Finset.sum_le_card_nsmul Finset.univ (fun d => (s.flash d).queue.length) 1
    (fun d _ => hq.short d)
  have htest := TestPc.rank_le s.test
  have hdown : (if s.down = none then 1 else 0) ≤ 1 := by
    split
    · exact Nat.le_refl 1
    · exact Nat.zero_le 1
  rw [Finset.card_univ, Fintype.card_fin, nsmul_eq_mul, Nat.cast_id] at hpc hqueue
  rw [Nat.mul_one] at hqueue
  unfold work maxWork
  omega

end Progress

end Pandos
