import Pandos.Theory.FlashQueues

/-!
# What Flash Devices Hold

The commands of `read_flash` and `write_flash` as the devices decode them, and
the blocks of devices that nobody has used yet. A device is written only for
the owner of a frame, so the header `test` reads for a U-proc is the one its
device held at the start.

## Main definitions

* `Headed`: Devices of U-procs that do not exist yet are as they were.

## Theorems

* `transfer_read`, `transfer_write`: What the two commands do.
* `headed_step`, `headed_run`: The header of a U-proc is the one of its program.
-/

namespace Pandos

section FlashData

variable {n : Nat}

open SupportLevel

/-! ## Decoding commands -/

theorem flashCommand_toNat (op : Word) (hop : op.toNat < 256) (b : Nat) :
    (op ||| BitVec.ofNat 32 b <<< FLASHCMDSHIFT).toNat = b % 2 ^ 24 * 256 + op.toNat := by
  have hs : (BitVec.ofNat 32 b <<< FLASHCMDSHIFT).toNat = 2 ^ 8 * (b % 2 ^ 24) := by
    rw [BitVec.toNat_shiftLeft, BitVec.toNat_ofNat, FLASHCMDSHIFT, Nat.shiftLeft_eq]
    omega
  -- The operation fits below the block number.
  rw [BitVec.or_comm, BitVec.toNat_or, hs, ← Nat.two_pow_add_eq_or_of_lt (by omega)]
  omega

theorem flashCommand_op (op : Word) (hop : op.toNat < 256) (b : Nat) :
    (op ||| BitVec.ofNat 32 b <<< FLASHCMDSHIFT) &&& 0xFF = op := by
  have hmask : (0xFF : Word).toNat = 2 ^ 8 - 1 := rfl
  rw [← BitVec.toNat_inj, BitVec.toNat_and, flashCommand_toNat op hop, hmask,
    Nat.and_two_pow_sub_one_eq_mod]
  omega

theorem flashCommand_block (op : Word) (hop : op.toNat < 256) {b : Nat} (hb : b < 2 ^ 24) :
    ((op ||| BitVec.ofNat 32 b <<< FLASHCMDSHIFT) >>> FLASHCMDSHIFT).toNat = b := by
  rw [BitVec.toNat_ushiftRight, flashCommand_toNat op hop, FLASHCMDSHIFT,
    Nat.shiftRight_eq_div_pow]
  omega

theorem flashread_lt : FLASHREAD.toNat < 256 := by decide

theorem flashwrite_lt : FLASHWRITE.toNat < 256 := by decide

variable {S : Platform n} {s s' s₁ : SupportLevel n} {i dev : Fin n}

/-- Reading a block into memory. -/
theorem transfer_read (who : Party n) {b : Nat} (hb : b < 2 ^ 24) (a : Word) :
    s.transfer dev (Request.read who b (some a)) =
      { s with ram := Function.update s.ram a ((s.flash dev).blocks b) } := by
  have hop := flashCommand_op FLASHREAD flashread_lt b
  have hblock := flashCommand_block FLASHREAD flashread_lt hb
  simp only [transfer, Request.read, hop, hblock, if_true]

/-- Writing a block from memory. -/
theorem transfer_write (who : Party n) {b : Nat} (hb : b < 2 ^ 24) (a : Word) :
    s.transfer dev (Request.write who b (some a)) =
      { s with
        flash := Function.update s.flash dev
          { s.flash dev with blocks := Function.update (s.flash dev).blocks b (s.ram a) } } := by
  have hop := flashCommand_op FLASHWRITE flashwrite_lt b
  have hblock := flashCommand_block FLASHWRITE flashwrite_lt hb
  have hne : ¬ FLASHWRITE = FLASHREAD := by decide
  simp only [transfer, Request.write, hop, hblock, if_neg hne, if_true]

/-- Giving a command changes no block. -/
theorem doio_blocks (s : SupportLevel n) (dev : Fin n) (r : Request n) (d : Fin n) :
    ((s.doio dev r).flash d).blocks = (s.flash d).blocks := by
  by_cases hd : d = dev
  · simp only [doio, hd, Function.update_self]
  · simp only [doio, Function.update_of_ne hd]

/-- No command changes the blocks of another device. -/
theorem transfer_blocks_ne (r : Request n) {d : Fin n} (hd : d ≠ dev) :
    ((s.transfer dev r).flash d).blocks = (s.flash d).blocks := by
  unfold transfer
  cases r.data0 with
  | none => rfl
  | some a =>
      simp only []
      split
      · rfl
      · split
        · simp only [Function.update_of_ne hd]
        · rfl

/-! ## The end of a command -/

/-- Nobody waits for a device any more. -/
def SupportLevel.emptied (s : SupportLevel n) (dev : Fin n) : SupportLevel n :=
  { s with flash := Function.update s.flash dev { s.flash dev with queue := [] } }

@[simp] theorem emptied_blocks (s : SupportLevel n) (dev d : Fin n) :
    ((s.emptied dev).flash d).blocks = (s.flash d).blocks := by
  by_cases hd : d = dev
  · simp only [emptied, hd, Function.update_self]
  · simp only [emptied, Function.update_of_ne hd]

/-- What the end of a command does. Either the U-proc that waits for the device
    looks at the status, or `test` has its header. -/
inductive Ends (S : Platform n) (s : SupportLevel n) (dev : Fin n) : Bool → SupportLevel n → Prop
  | uproc {i : Fin n} {r : Request n} {ok : Bool} {s₁ : SupportLevel n}
      (hreq : (s.pc i).request S i = some (dev, r)) (h₁ : s₁ = if ok then s.transfer dev r else s) :
      Ends S s dev ok ((s₁.emptied dev).setPc i ((s.pc i).finished ok))
  | header {t : Fin n} (h : s.test = .heading dev t) :
      Ends S s dev true { s.emptied dev with test := .fill dev t ((s.flash dev).blocks 0) }
  | failed {t : Fin n} (h : s.test = .heading dev t) :
      Ends S s dev false { s.emptied dev with
        test := .failed dev t
        down := some .halt }

/-- The end of a command, for the process that waits for it. -/
theorem ends_of_queue (hq : Queued S s) {r : Request n} {rest : List (Request n)} {ok : Bool}
    (hqueue : (s.flash dev).queue = r :: rest) (h₁ : s₁ = if ok then s.transfer dev r else s) :
    Ends S s dev ok ({ s₁ with
      flash := Function.update s₁.flash dev { s₁.flash dev with queue := rest } }.finish r.who ok
        ((s.flash dev).blocks (r.command >>> FLASHCMDSHIFT).toNat)) := by
  have hr := hq.known dev r (hqueue ▸ List.mem_cons_self)
  have hrest : rest = [] := (List.cons.inj (hqueue.symm.trans (hq.alone hr))).2
  subst hrest
  -- The queue held this command only, so nobody waits for the device any more.
  cases hw : r.who with
  | some i =>
      rw [hw] at hr
      rcases transfer_eq h₁ with ⟨ram, blocks, hs₁⟩
      have hpc : s.pc = s₁.pc := by rw [hs₁]
      have hend := Ends.uproc (S := S) hr h₁
      rw [hpc] at hend
      exact hend
  | none =>
      rw [hw] at hr
      simp only [pending] at hr
      cases ht : s.test with
      | heading j t =>
          rw [ht] at hr
          cases hr
          -- Reading a header moves no data, and the header is block zero.
          have hs₁ : s₁ = s := by
            rw [h₁]
            cases ok with
            | true => rfl
            | false => rfl
          rw [hs₁, Request.read, flashCommand_block FLASHREAD flashread_lt (by omega)]
          cases ok with
          | true =>
              simp only [finish, ht, if_true]
              exact Ends.header ht
          | false =>
              simp only [finish, ht, Bool.false_eq_true, if_false]
              exact Ends.failed ht
      | _ =>
          rw [ht] at hr
          cases hr

/-! ## Headers -/

/-- The devices of U-procs that do not exist yet are as they were at the start,
    and so is the header `test` has read. -/
structure Headed (S : Platform n) (s : SupportLevel n) : Prop where
  blocks : ∀ i, (s.pc i).life = .unborn → (s.flash i).blocks = S.blocks i
  header : ∀ i t data, s.test = .fill i t data → data = S.blocks i 0

theorem headed_start (h : (supportLevel S).init s) : Headed S s := by
  rcases h with ⟨free, _, rfl⟩
  exact ⟨fun _ _ => rfl, fun i t data hc => by cases hc⟩

/-- A step that neither ends a command nor lets `test` read a header. -/
theorem Headed.congr (h : Headed S s) (hk : Retained s s')
    (hblocks : ∀ d, (s'.flash d).blocks = (s.flash d).blocks)
    (htest : ∀ i t data, s'.test = .fill i t data → s.test = .fill i t data) : Headed S s' := by
  refine ⟨fun i hi => ?_, fun i t data ht => h.header i t data (htest i t data ht)⟩
  rw [hblocks]
  -- A U-proc that does not exist after the step did not exist before.
  refine h.blocks i ?_
  by_contra hc
  exact hk.born hc hi

/-- A command changes no device of a U-proc that does not exist: whoever waits
    for it reads its own device, or writes for the owner of a frame. -/
theorem transfer_blocks_unborn (hq : Queued S s) {r : Request n}
    (hreq : (s.pc i).request S i = some (dev, r)) {d : Fin n} (hd : (s.pc d).life = .unborn) :
    ((s.transfer dev r).flash d).blocks = (s.flash d).blocks := by
  by_cases hdev : d = dev
  · rw [hdev] at hd
    rcases pending_uproc hreq with ⟨_, hvictim | hself, _, hlife⟩
    · exact absurd hd (hq.victims i dev hvictim)
    · rw [← hself, hd] at hlife
      cases hlife
  · exact transfer_blocks_ne r hdev

theorem headed_ends (ho : Allotted s) (hq : Queued S s) (h : Headed S s) {ok : Bool}
    (hk : Retained s s') (hends : Ends S s dev ok s') : Headed S s' := by
  cases hends with
  | @uproc i r _ s₁ hreq h₁ =>
      refine ⟨fun d hd => ?_, fun j t data ht => h.header j t data ?_⟩
      · have hunborn : (s.pc d).life = .unborn := by
          by_contra hc
          exact hk.born hc hd
        have hsame : (s₁.flash d).blocks = (s.flash d).blocks := by
          rw [h₁]
          split
          · exact transfer_blocks_unborn hq hreq hunborn
          · rfl
        rw [← h.blocks d hunborn, ← hsame]
        exact emptied_blocks s₁ dev d
      · rcases transfer_eq h₁ with ⟨ram, blocks, rfl⟩
        exact ht
  | @header t htest =>
      refine ⟨fun d hd => (emptied_blocks s dev d).trans (h.blocks d hd), fun j u data hj => ?_⟩
      cases hj
      rw [h.blocks dev ((ho.born dev).mpr (by rw [htest]; exact Nat.le_refl _))]
  | failed htest =>
      exact ⟨fun d hd => (emptied_blocks s dev d).trans (h.blocks d hd),
        fun j u data hj => by cases hj⟩

/-- Every step keeps the invariant. -/
theorem headed_step {e : UEvent n} (ho : Allotted s) (hq : Queued S s) (h : Headed S s)
    (hstep : UStep S s e s') : Headed S s' := by
  have hk : Retained s s' := retained_step ho hstep
  cases hstep with
  | evict _ _ _ _ h₁ =>
      subst h₁
      exact h.congr hk (fun _ => rfl) (fun _ _ _ ht => ht)
  | lock =>
      rw [swapPoolOp_eq] at hk ⊢
      exact h.congr hk (fun _ => rfl) (fun _ _ _ ht => ht)
  | unlock =>
      rw [swapPoolOp_eq] at hk ⊢
      exact h.congr hk (fun _ => rfl) (fun _ _ _ ht => ht)
  | write => exact h.congr hk (doio_blocks s _ _) (fun _ _ _ ht => ht)
  | read => exact h.congr hk (doio_blocks s _ _) (fun _ _ _ ht => ht)
  | post =>
      refine h.congr hk (fun _ => ?_) (fun i t data ht => ?_)
      · rw [masterSemaphoreV_eq]
      · exact masterSemaphoreV_test (fun _ hc => by cases hc) ht
  | wait htest =>
      refine h.congr hk (fun _ => ?_) (fun i t data ht => ?_)
      · rw [masterSemaphoreP_eq]
      · exact absurd ht
          (masterSemaphoreP_test (fun _ hc => by cases hc) (fun _ hc => by cases hc))
  | complete hqueue h₁ => exact headed_ends ho hq h hk (ends_of_queue hq hqueue h₁)
  | header => exact h.congr hk (doio_blocks s _ _) (fun _ _ _ ht => by cases ht)
  | create =>
      exact h.congr hk (fun _ => rfl) (fun _ _ _ ht => by cases ht)
  | alloc => exact h.congr hk (fun _ => rfl) (fun _ _ _ ht => by cases ht)
  | created => exact h.congr hk (fun _ => rfl) (fun _ _ _ ht => by cases ht)
  | fill => exact h.congr hk (fun _ => rfl) (fun _ _ _ ht => by cases ht)
  | _ => exact h.congr hk (fun _ => rfl) (fun _ _ _ ht => ht)

theorem headed_run {es : List (UEvent n)} (h : (supportLevel S).Run es s) : Headed S s :=
  System.run_invariant (fun _ => headed_start)
    (fun _ _ _ _ hrun hi hs =>
      headed_step (allotted_run hrun) (queued_run hrun) hi (ustep_of_next hs).2) h

end FlashData

end Pandos
