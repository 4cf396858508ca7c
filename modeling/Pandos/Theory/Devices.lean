import Mathlib.Tactic.FinCases
import Pandos.Machine
import Pandos.Theory.Asl

/-!
# Devices and Semaphores

The two ways from a device to its semaphore: an interrupt handler finds it from
the interrupt line and the bitmap, `DOIO` from the address of the command
register. Both lead to the semaphore of the same sub-unit, and the handler
acknowledges at the register the command was written to.

## Theorems

* `semAddr_aligned`, `semAddr_inj`, `semAddr_ne_timer`: The addresses of the
  semaphores.
* `findDeviceNumber_spec`: The scan of a bitmap finds a device whose bit is set.
* `getSemaphore_generic`, `getSemaphore_terminal`: The semaphore of a device.
* `commandReg_generic`, `commandReg_transm`, `commandReg_recv`: Where a handler
  acknowledges.
* `getIodev_block`, `getIodev_outside`: The semaphore of an address.
* `getIodev_commandReg`: The semaphore of a command register.
* `commandReg_inj`: Sub-units have command registers of their own.
-/

namespace Pandos

/-! ## Addresses of semaphores -/

theorem semAddr_toNat (L : Layout) {i : Nat} (hi : i < SEMAPHORES_NUM) :
    (L.semAddr i).toNat = L.semaphores.toNat + 4 * i := by
  have hfit := L.fits
  have hn : SEMAPHORES_NUM = 49 := rfl
  rw [hn] at hi hfit
  rw [Layout.semAddr, BitVec.toNat_add, BitVec.toNat_ofNat]
  omega

theorem semAddr_aligned (L : Layout) {i : Nat} (hi : i < SEMAPHORES_NUM) :
    Aligned (L.semAddr i) := by
  have ha := L.aligned
  unfold Aligned at ha ⊢
  rw [semAddr_toNat L hi]
  omega

theorem semAddr_inj (L : Layout) {i j : Nat} (hi : i < SEMAPHORES_NUM) (hj : j < SEMAPHORES_NUM)
    (h : L.semAddr i = L.semAddr j) : i = j := by
  have hnat := congrArg BitVec.toNat h
  rw [semAddr_toNat L hi, semAddr_toNat L hj] at hnat
  omega

theorem unit_lt (u : DevUnit) : u.val < SEMAPHORES_NUM := Nat.lt_succ_of_lt u.isLt

/-- The semaphore of a sub-unit is not the one of the interval timer. -/
theorem semAddr_ne_timer (L : Layout) (u : DevUnit) : L.semAddr u ≠ getTimerSemaphore L := by
  intro h
  have hi := semAddr_inj L (unit_lt u) (Nat.lt_succ_self 48) h
  have hu := u.isLt
  omega

/-! ## From an interrupt to a sub-unit -/

theorem findDeviceNumber_ofFin : ∀ n : Fin 256, n ≠ 0 →
    ∃ d : Fin 8, findDeviceNumber (BitVec.ofNat 32 n) = d ∧
      deviceBit (BitVec.ofNat 32 n) d = true := by
  decide +kernel

/-- The scan of a bitmap with a bit set finds a device whose bit is set. -/
theorem findDeviceNumber_spec {bitmap : Word} (h0 : bitmap ≠ 0)
    (h : bitmap.toNat < 2 ^ N_DEV_PER_IL) :
    ∃ d : Fin 8, findDeviceNumber bitmap = d ∧ deviceBit bitmap d = true := by
  have hne : (⟨bitmap.toNat, h⟩ : Fin 256) ≠ 0 := by
    intro hc
    have hz : bitmap.toNat = 0 := congrArg Fin.val hc
    exact h0 (BitVec.eq_of_toNat_eq hz)
  have hspec := findDeviceNumber_ofFin ⟨bitmap.toNat, h⟩ hne
  simp only [BitVec.ofNat_toNat, BitVec.setWidth_eq] at hspec
  exact hspec

/-- The line `interrupt_generic` serves is one of its four, and it is raised. -/
theorem genericLine_spec {cause : Word}
    (h : cause &&& (CAUSE_IP IL_DISK ||| CAUSE_IP IL_FLASH ||| CAUSE_IP IL_ETHERNET |||
      CAUSE_IP IL_PRINTER) ≠ 0) :
    IL_DISK ≤ genericLine cause ∧ genericLine cause ≤ IL_PRINTER ∧
      cause &&& CAUSE_IP (genericLine cause) ≠ 0 := by
  unfold genericLine
  cases hf : [IL_DISK, IL_FLASH, IL_ETHERNET, IL_PRINTER].find?
      (fun i => cause &&& CAUSE_IP i != 0) with
  | some i =>
      have hmem := List.mem_of_find?_eq_some hf
      have hbit := List.find?_some hf
      refine ⟨?_, ?_, bne_iff_ne.mp hbit⟩ <;>
        simp only [List.mem_cons, List.not_mem_nil, or_false] at hmem <;>
        rcases hmem with rfl | rfl | rfl | rfl <;> decide
  | none =>
      rw [List.find?_eq_none] at hf
      have hz : ∀ i ∈ [IL_DISK, IL_FLASH, IL_ETHERNET, IL_PRINTER], cause &&& CAUSE_IP i = 0 := by
        intro i hi
        have := hf i hi
        rwa [bne_iff_ne, ne_eq, not_not] at this
      refine absurd ?_ h
      rw [BitVec.and_or_distrib_left, BitVec.and_or_distrib_left, BitVec.and_or_distrib_left,
        hz IL_DISK (by decide), hz IL_FLASH (by decide), hz IL_ETHERNET (by decide),
        hz IL_PRINTER (by decide)]
      rfl

theorem genericUnit_val : ∀ il : Fin 7, IL_DISK ≤ il.val → ∀ devN : Fin 8,
    (genericUnit il devN).val = (il.val - IL_DISK) * DEVPERINT + devN.val := by
  decide +kernel

theorem getSemaphore_generic (L : Layout) {il : Nat} (h1 : IL_DISK ≤ il) (h2 : il ≤ IL_PRINTER)
    (devN : Fin 8) :
    getSemaphore L il devN false = .ok (L.semAddr (genericUnit il devN)) := by
  have hval := genericUnit_val ⟨il, Nat.lt_succ_of_le h2⟩ h1 devN
  simp only [IL_DISK, IL_PRINTER] at h1 h2
  simp only [] at hval
  rw [getSemaphore, if_neg (by simp only [IL_TERMINAL, IL_DISK]; omega),
    if_neg (by simp only [IL_TERMINAL]; omega), hval]
  have hsub : ((il : Int) - (IL_DISK : Int)).toNat = il - IL_DISK := by
    simp only [IL_DISK]
    omega
  rw [hsub]

theorem termUnit_val : ∀ devN : Fin 8, (transmUnit devN).val = 4 * DEVPERINT + (2 * devN.val + 1) ∧
    (recvUnit devN).val = 4 * DEVPERINT + (2 * devN.val + 0) := by
  decide

theorem termUnit_high : ∀ devN : Fin 8,
    ¬ (transmUnit devN).val < 32 ∧ ¬ (recvUnit devN).val < 32 := by
  decide

theorem getSemaphore_terminal (L : Layout) (devN : Fin 8) :
    getSemaphore L IL_TERMINAL devN true = .ok (L.semAddr (transmUnit devN)) ∧
      getSemaphore L IL_TERMINAL devN false = .ok (L.semAddr (recvUnit devN)) := by
  rw [(termUnit_val devN).1, (termUnit_val devN).2]
  exact ⟨rfl, rfl⟩

/-! ## From an address to a sub-unit -/

/-- The line of a register block, as `get_iodev` counts them. -/
theorem find_isInLine (block : Nat) :
    [IL_DISK, IL_FLASH, IL_ETHERNET, IL_PRINTER, IL_TERMINAL].find? (isInLine block) =
      if block < 32 then some (IL_DISK + block / DEVPERINT)
      else if block < 96 then some IL_TERMINAL else none := by
  have hline : ∀ il, isInLine block il =
      decide (block < ((if il = IL_TERMINAL then il * 2 else il) + 1 - IL_DISK) * DEVPERINT) := by
    intro il
    rfl
  simp only [List.find?_cons, List.find?_nil, hline, IL_DISK, IL_FLASH, IL_ETHERNET, IL_PRINTER,
    IL_TERMINAL, DEVPERINT, Nat.reduceEqDiff, if_true, if_false, Nat.reduceMul, Nat.reduceAdd,
    Nat.reduceSub]
  by_cases h1 : block < 8
  · simp only [h1, decide_true, if_pos (show block < 32 by omega), Option.some.injEq]
    omega
  by_cases h2 : block < 16
  · simp only [h1, h2, decide_true, decide_false, if_pos (show block < 32 by omega),
      Option.some.injEq]
    omega
  by_cases h3 : block < 24
  · simp only [h1, h2, h3, decide_true, decide_false, if_pos (show block < 32 by omega),
      Option.some.injEq]
    omega
  by_cases h4 : block < 32
  · simp only [h1, h2, h3, h4, decide_true, decide_false, if_true, Option.some.injEq]
    omega
  by_cases h5 : block < 96
  · simp only [h1, h2, h3, h4, h5, decide_true, decide_false, if_true, if_false]
  · simp only [h1, h2, h3, h4, h5, decide_false, if_false]

/-- The semaphore of an address among the registers: that of the sub-unit with
    the number of the register block, where the blocks of the terminals are
    counted modulo the number of devices on a line. -/
def blockUnit (a : Word) : Nat :=
  let block := (a - DEV_REG_START).toNat / 16
  if block < 32 then block
  else 32 + 2 * (block % 8) + if (a - DEV_REG_START).toNat % 16 = 12 then 1 else 0

theorem blockUnit_lt (a : Word) : blockUnit a < 48 := by
  unfold blockUnit
  simp only []
  split
  · omega
  · split <;> omega

/-- The last register of a block. -/
theorem transm_beq_iff (a : Word) :
    (DEV_REG_SIZE * BitVec.ofNat 32 ((a - DEV_REG_START).toNat / 16) + DEV_REG_START + 12 == a) =
      decide ((a - DEV_REG_START).toNat % 16 = 12) := by
  have hsize : DEV_REG_SIZE = 16 := rfl
  rw [Bool.eq_iff_iff, beq_iff_eq, decide_eq_true_iff, hsize]
  generalize hx : a - DEV_REG_START = x
  have ha : a = x + DEV_REG_START := by
    rw [← hx, BitVec.sub_add_cancel]
  have hbase : 16 * BitVec.ofNat 32 (x.toNat / 16) + DEV_REG_START + 12 = x + DEV_REG_START ↔
      16 * BitVec.ofNat 32 (x.toNat / 16) + 12 = x := by
    rw [BitVec.add_assoc, BitVec.add_comm DEV_REG_START, ← BitVec.add_assoc, BitVec.add_left_inj]
  have h16 : (16 : Word).toNat = 16 := rfl
  have h12 : (12 : Word).toNat = 12 := rfl
  have hlt := x.isLt
  rw [ha, hbase, ← BitVec.toNat_inj, BitVec.toNat_add, BitVec.toNat_mul, BitVec.toNat_ofNat, h16,
    h12]
  omega

theorem getIodev_block (L : Layout) {a : Word} (h : (a - DEV_REG_START).toNat < 96 * 16) :
    ∃ line, getIodev L a = .ok { semaphore := L.semAddr (blockUnit a), interruptLine := line } := by
  have hdiv : ((a - DEV_REG_START) / DEV_REG_SIZE).toNat = (a - DEV_REG_START).toNat / 16 := by
    rw [BitVec.toNat_udiv]
    rfl
  unfold getIodev blockUnit
  simp only [transm_beq_iff, hdiv, find_isInLine]
  by_cases hlow : (a - DEV_REG_START).toNat / 16 < 32
  · have hlow' : (a - DEV_REG_START).toNat / 16 / 8 < 4 := by omega
    simp only [if_pos hlow, getSemaphore, IL_DISK, IL_TERMINAL, DEVPERINT]
    rw [if_neg (by omega), if_neg (by omega)]
    have hindex : ((↑(3 + (a - DEV_REG_START).toNat / 16 / 8) : Int) - (3 : Nat)).toNat * 8
        + (a - DEV_REG_START).toNat / 16 % 8 = (a - DEV_REG_START).toNat / 16 := by omega
    rw [hindex]
    exact ⟨_, rfl⟩
  · have hhigh : (a - DEV_REG_START).toNat / 16 < 96 := by omega
    have hterm : ¬ ((IL_TERMINAL : Int) > (IL_TERMINAL : Int) ∨
        (IL_TERMINAL : Int) < (IL_DISK : Int)) := by decide
    have hindex : ((IL_TERMINAL : Int) - (IL_DISK : Int)).toNat * DEVPERINT = 32 := rfl
    simp only [if_neg hlow, if_pos hhigh, getSemaphore, if_neg hterm, if_true, hindex,
      decide_eq_true_eq, Nat.add_assoc]
    exact ⟨_, rfl⟩

theorem getIodev_outside (L : Layout) {a : Word} (h : 96 * 16 ≤ (a - DEV_REG_START).toNat) :
    getIodev L a = .error (.panic "Semaphore not found\n") := by
  have hdiv : ((a - DEV_REG_START) / DEV_REG_SIZE).toNat = (a - DEV_REG_START).toNat / 16 := by
    rw [BitVec.toNat_udiv]
    rfl
  have hrange : (-1 : Int) > (IL_TERMINAL : Int) ∨ (-1 : Int) < (IL_DISK : Int) := by decide
  unfold getIodev
  simp only [hdiv, find_isInLine]
  simp only [if_neg (show ¬ (a - DEV_REG_START).toNat / 16 < 32 by omega),
    if_neg (show ¬ (a - DEV_REG_START).toNat / 16 < 96 by omega), getSemaphore, if_pos hrange]

/-- The addresses that lead to a device are those of ninety-six blocks of
    registers, although there are forty devices. -/
theorem getIodev_ok_iff (L : Layout) (a : Word) :
    (∃ dev, getIodev L a = .ok dev) ↔ (a - DEV_REG_START).toNat < 96 * 16 := by
  refine ⟨fun ⟨dev, hd⟩ => ?_, fun h => ?_⟩
  · by_contra hc
    rw [getIodev_outside L (Nat.le_of_not_lt hc)] at hd
    cases hd
  · rcases getIodev_block L h with ⟨line, hd⟩
    exact ⟨_, hd⟩

/-! ## Command registers -/

theorem commandReg_generic : ∀ il : Fin 7, IL_DISK ≤ il.val → ∀ devN : Fin 8,
    devRegAddr il devN + 4 = commandReg (genericUnit il devN) := by
  decide +kernel

theorem commandReg_transm : ∀ devN : Fin 8,
    devRegAddr IL_TERMINAL devN + 12 = commandReg (transmUnit devN) := by
  decide +kernel

theorem commandReg_recv : ∀ devN : Fin 8,
    devRegAddr IL_TERMINAL devN + 4 = commandReg (recvUnit devN) := by
  decide +kernel

theorem commandReg_inj : ∀ u v : DevUnit, commandReg u = commandReg v → u = v := by
  decide +kernel

/-- `DOIO` waits on the semaphore of the sub-unit whose command register it
    writes. -/
theorem getIodev_commandReg (L : Layout) (u : DevUnit) :
    ∃ il, getIodev L (commandReg u) = .ok { semaphore := L.semAddr u, interruptLine := il } := by
  fin_cases u <;> exact ⟨_, rfl⟩

end Pandos
