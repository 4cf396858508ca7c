import Mathlib.Algebra.Order.Ring.Nat
import Mathlib.Data.Fintype.Defs
import Mathlib.Tactic.Common

/-!
# Architecture

The processor as the nucleus sees it: 32-bit words, the state saved at an
exception, the bits of the Status and Cause registers, and the placement of
device registers on the bus.

The constants named after `umps` headers follow the machine's documentation;
`os/const.h` repeats several of them as masks (`IEPON`, `TEBITON`,
`DISKINTERRUPT`).

A null pointer is not the zero word on this machine, so nothing here fixes its
value. `Layout` carries it, together with the link-time address of the array
of device semaphores, and everything proved holds for every layout.

## Main definitions

* `Word`: A machine word.
* `Reg`: The general purpose registers of a saved state.
* `State`: The processor state saved at an exception.
* `Context`: What `LDCXT` loads.
* `Layout`: The null pointer and the address of the semaphore array.
* `Layout.ptr`: A word read as a pointer that may be null.
* `isUserMode`: The mode bit `is_user_mode` tests.
-/

namespace Pandos

/-- A 32-bit machine word. -/
abbrev Word := BitVec 32

/-! ## Constants -/

abbrev MAX_PROC : Nat := 20
def MAX_PROC_BITS : Nat := 5
def NULL_PID : Word := 0
def PROCESS_PRIO_LOW : Word := 0
def PROCESS_PRIO_HIGH : Word := 1
def WORD_SIZE : Word := 4

def PGFAULTEXCEPT : Fin 2 := 0
def GENERALEXCEPT : Fin 2 := 1

def CREATEPROCESS : Int := -1
def TERMPROCESS : Int := -2
def PASSEREN : Int := -3
def VERHOGEN : Int := -4
def DOIO : Int := -5
def GETTIME : Int := -6
def CLOCKWAIT : Int := -7
def GETSUPPORTPTR : Int := -8
def GETPROCESSID : Int := -9
def YIELD : Int := -10

def DEVINTNUM : Nat := 5
def DEVPERINT : Nat := 8
def N_DEV_PER_IL : Nat := 8
def SEMAPHORES_NUM : Nat := (DEVINTNUM + 1) * DEVPERINT + 1

def IL_IPI : Nat := 0
def IL_CPUTIMER : Nat := 1
def IL_TIMER : Nat := 2
def IL_DISK : Nat := 3
def IL_FLASH : Nat := 4
def IL_ETHERNET : Nat := 5
def IL_PRINTER : Nat := 6
def IL_TERMINAL : Nat := 7

def DEV_REG_START : Word := 0x10000054
def DEV_REG_SIZE : Word := 16
def DEV_C_ACK : Word := 1
def TERMSTATMASK : Word := 0xFF
def DEV_STATUS_NOTINSTALLED : Word := 0
def DEV_STATUS_TERMINAL_OK : Word := 5

def CLEAREXECCODE : Word := 0xFFFFFF00
def CAUSESHIFT : Nat := 2
def EXC_RI : Word := 10

def STATUS_IEc : Word := 0x1
def STATUS_KUc : Word := 0x2
def STATUS_IEp : Word := 0x4
def STATUS_TE : Word := 0x08000000
def STATUS_IM_MASK : Word := 0xFF00

/-- The interrupt mask bit of one line. -/
def STATUS_IM (line : Nat) : Word := 1 <<< (8 + line)

/-- The interrupt pending bit of one line. -/
def CAUSE_IP (line : Nat) : Word := 1 <<< (8 + line)

/-- The exception code field of a Cause register. -/
def CAUSE_GET_EXCCODE (cause : Word) : Word := (cause >>> CAUSESHIFT) &&& 0x1F

/-! ## Processor state -/

/-- The general purpose registers a saved state holds. -/
inductive Reg
  | at_ | v0 | v1 | a0 | a1 | a2 | a3
  | t0 | t1 | t2 | t3 | t4 | t5 | t6 | t7
  | s0 | s1 | s2 | s3 | s4 | s5 | s6 | s7
  | t8 | t9 | gp | sp | fp | ra
  deriving DecidableEq

/-- The processor state saved at an exception (`state_t`). -/
structure State where
  entryHi : Word
  cause : Word
  status : Word
  pcEpc : Word
  gpr : Reg → Word
  hi : Word
  lo : Word

/-- Write one general purpose register. -/
def State.setReg (s : State) (r : Reg) (v : Word) : State :=
  { s with gpr := fun i => if i = r then v else s.gpr i }

/-- `null_state`: every field cleared, the status to `UNINSTALLED`. -/
def nullState : State :=
  { entryHi := 0, cause := 0, status := 0, pcEpc := 0, gpr := fun _ => 0, hi := 0, lo := 0 }

/-- Stack pointer, status and program counter, as `LDCXT` loads them. -/
structure Context where
  stackPtr : Word
  status : Word
  pc : Word

/-- The part of a support structure the nucleus reads and writes. -/
structure Support where
  supExceptState : Fin 2 → State
  supExceptContext : Fin 2 → Context

/-- `is_user_mode` on the saved status of the active process. -/
def isUserMode (s : State) : Bool := (s.status <<< 28) >>> 31 != 0

def statusInterruptsOnNucleus (status : Word) : Word := status ||| STATUS_IEc
def statusInterruptsOnProcess (status : Word) : Word := status ||| STATUS_IEp
def statusLocalTimerOn (status : Word) : Word := status ||| (STATUS_TE ||| STATUS_IM IL_TIMER)
def statusKernelModeOnNucleus (status : Word) : Word := (status ||| STATUS_KUc) ^^^ STATUS_KUc
def statusIlOnAll (status : Word) : Word := status ||| STATUS_IM_MASK
def statusIlOn (status : Word) (line : Nat) : Word := status ||| STATUS_IM line
def causeClean (cause : Word) : Word := cause &&& CLEAREXECCODE
def causeReservedInstruction (cause : Word) : Word := cause ||| (EXC_RI <<< CAUSESHIFT)

/-! ## Layout -/

/-- An address whose word the machine can load in one access. -/
def Aligned (a : Word) : Prop := a.toNat % 4 = 0

instance (a : Word) : Decidable (Aligned a) := inferInstanceAs (Decidable (_ = _))

/-- The null pointer of the target and the address of `semaphores[0]`. The
    array is word aligned, does not wrap around the address space, and none of
    its elements sits at the null pointer. -/
structure Layout where
  null : Word
  semaphores : Word
  aligned : Aligned semaphores
  fits : semaphores.toNat + 4 * SEMAPHORES_NUM ≤ 2 ^ 32
  not_null : ∀ i, i < SEMAPHORES_NUM → semaphores + BitVec.ofNat 32 (4 * i) ≠ null

/-- A word read as a pointer. -/
def Layout.ptr (L : Layout) (w : Word) : Option Word := if w = L.null then none else some w

/-- A pointer stored in a word. -/
def Layout.word (L : Layout) (p : Option Word) : Word := p.getD L.null

/-- The address of `semaphores[i]`. -/
def Layout.semAddr (L : Layout) (i : Nat) : Word := L.semaphores + BitVec.ofNat 32 (4 * i)

end Pandos
