import Pandos.Semaphores
import Pandos.Support

/-!
# System Calls of the Support Level

The handlers of `phase3/src/support.c` for the requests a U-proc goes on from:
`support_generic`, `support_syscall`, `sys_get_tod`, `syscall_writer` and
`sys_read_terminal`.

The state puts these handlers on top of the support level. A U-proc that is in
user mode there is either in its own program or at one of the points of `CallPc`,
so handlers of different U-procs take turns step by step, and a handler that
touches the buffer of its caller can run into a page fault. What a point asks the
rest of the machine for is its `Ask`; the answer (the result of a call of the
nucleus, the clock) is whatever comes back. The calls of `PASSEREN` and
`VERHOGEN` may take any time, and so may `DOIO`.

Both parts of `sup_except_state` are kept as whole states. An exception of a
U-proc in its own program is passed up into the part for its kind, and the
handler ends with `LDST` of that part. A handler that calls `TERMINATE` is passed
up as well: the call overwrites the state of the first exception, and
`support_generic` starts over, on its way to `sys_terminate`, which is the
`quit` of the support level.

Messages to the debug log are left out.

## Main definitions

* `CallPc`: Where a U-proc is in the handlers.
* `Ask`, `CallPc.ask`, `CallPc.access`: What a handler asks for.
* `supportGeneric`, `supportSyscall`, `syscallWriter`, `sysReadTerminal`: The
  decisions of the handlers.
* `callStep`: The next step of a handler.
* `CallLevel`, `callLevel`: The state and the transition system.
-/

namespace Pandos

/-! ## Constants -/

def GET_TOD : Int := 1
def TERMINATE : Int := 2
def WRITEPRINTER : Int := 3
def WRITETERMINAL : Int := 4
def READTERMINAL : Int := 5

def PRINTCHR : Word := 2
def RECVD : Word := 5
def MAXLEN : Word := 128
def RECEIVE_CHAR : Word := 2
def DEV_STATUS_READY : Word := 1
def EOS : BitVec 8 := 0
def NEWLINE : BitVec 8 := 10

def RECEIVE_STATUS (v : Word) : Word := v &&& 0xF
def RECEIVE_VALUE (v : Word) : Word := (v >>> 8) &&& 0xFF

/-! ## Devices and buffers -/

/-- The device classes `syscall_writer` is called with. -/
inductive Output
  | printer
  | terminal
  deriving DecidableEq

def Output.il : Output → Nat
  | .printer => IL_PRINTER
  | .terminal => IL_TERMINAL

/-- The register of the device a command is written to. -/
def Output.command (o : Output) (id : Nat) : Word :=
  match o with
  | .printer => devRegAddr IL_PRINTER id + 4
  | .terminal => devRegAddr IL_TERMINAL id + 12

/-- The command that prints a character. A plain `char` is signed. -/
def Output.value (o : Output) (c : BitVec 8) : Word :=
  match o with
  | .printer => PRINTCHR
  | .terminal => PRINTCHR ||| (c.signExtend 32 <<< 8)

/-- The part of the status `syscall_writer` looks at. -/
def Output.mask : Output → Word
  | .printer => -1
  | .terminal => TERMSTATMASK

/-- The status of a character that was printed. -/
def Output.done : Output → Word
  | .printer => DEV_STATUS_READY
  | .terminal => RECVD

/-- Where a byte stands in its word. -/
def byteShift (addr : Word) : Nat := 8 * (addr &&& 3).toNat

/-- The byte at an address, from the word it lies in. -/
def byteOf (addr word : Word) : BitVec 8 := (word >>> byteShift addr).setWidth 8

/-- The store of a byte. -/
def storeByte (addr : Word) (c : BitVec 8) : Access :=
  .store ((0xFF : Word) <<< byteShift addr) (c.setWidth 32 <<< byteShift addr)

deriving instance DecidableEq for Access

/-! ## The handlers -/

/-- The semaphores of `support.c`, `sys3_semaphores` and so on. -/
inductive SysSem (n : Nat)
  | sys3 (id : Fin n)
  | sys4 (id : Fin n)
  | sys5 (id : Fin n)
  deriving DecidableEq

def Output.semaphore {n : Nat} (o : Output) (id : Fin n) : SysSem n :=
  match o with
  | .printer => .sys3 id
  | .terminal => .sys4 id

/-- What `syscall_writer` has read from the support structure. -/
structure Writing (n : Nat) where
  output : Output
  id : Fin n
  s : Word
  len : Word
  deriving DecidableEq

/-- Where a U-proc is in the handlers. -/
inductive CallPc (n : Nat)
  | user
  -- `support_generic`, `support_syscall`
  | generic
  | syscall
  | getTod
  -- `syscall_writer`
  | writer (output : Output)
  | writerP (w : Writing n)
  | writerLoop (w : Writing n) (i : Word)
  | writerLoad (w : Writing n) (i : Word)
  | writerData (w : Writing n) (i : Word) (c : BitVec 8)
  | writerIo (w : Writing n) (i : Word) (c : BitVec 8)
  | writerV (w : Writing n) (result : Word)
  -- `sys_read_terminal`
  | reader
  | readerP (id : Fin n) (buf : Word)
  | readerIo (id : Fin n) (buf read : Word)
  | readerStore (id : Fin n) (buf read : Word) (r : BitVec 8)
  | readerFail (id : Fin n) (result : Word)
  | readerV (id : Fin n) (buf read : Word)
  | readerEnd (buf read : Word)
  -- back in `support_syscall` and `support_generic`
  | result (v : Word)
  | advance
  | load
  -- `support_trap`, `sys_terminate`
  | terminate
  | sysTerminate
  deriving DecidableEq

/-- What a handler asks the rest of the machine for. -/
inductive Ask (n : Nat)
  | nothing
  | getSupportPtr
  | storeTod
  | passeren (s : SysSem n)
  | verhogen (s : SysSem n)
  | doIo (cmdAddr value : Word)
  | store (addr value : Word)
  deriving DecidableEq

section Handlers

variable {n : Nat}

def CallPc.ask : CallPc n → Ask n
  | .generic => .getSupportPtr
  | .getTod => .storeTod
  | .writer _ => .getSupportPtr
  | .writerP w => .passeren (w.output.semaphore w.id)
  | .writerData w _ c => .store (devRegAddr w.output.il w.id + 8) (c.signExtend 32)
  | .writerIo w _ c => .doIo (w.output.command w.id) (w.output.value c)
  | .writerV w _ => .verhogen (w.output.semaphore w.id)
  | .reader => .getSupportPtr
  | .readerP id _ => .passeren (.sys5 id)
  | .readerIo id _ _ => .doIo (devRegAddr IL_TERMINAL id + 4) RECEIVE_CHAR
  | .readerFail id _ => .verhogen (.sys5 id)
  | .readerV id _ _ => .verhogen (.sys5 id)
  | _ => .nothing

/-- The access to the buffer of the caller a handler is about to make. -/
def CallPc.access : CallPc n → Option (Word × Access)
  | .writerLoad w i => some (w.s + i, .load)
  | .readerStore _ buf read r => some (buf + read, storeByte (buf + read) r)
  | .readerEnd buf read => some (buf + read, storeByte (buf + read) EOS)
  | _ => none

/-- The handler goes on after an access that found the given word. -/
def CallPc.accessed (word : Word) : CallPc n → CallPc n
  | .writerLoad w i =>
    match w.output with
    | .printer => .writerData w i (byteOf (w.s + i) word)
    | .terminal => .writerIo w i (byteOf (w.s + i) word)
  | .readerStore id buf read r =>
    if r ≠ NEWLINE then .readerIo id buf (read + 1) else .readerV id buf (read + 1)
  | .readerEnd _ read => .result read
  | pc => pc

/-- The decision of `support_generic`. -/
def supportGeneric (saved : State) : CallPc n :=
  if CAUSE_GET_EXCCODE saved.cause = 8 then .syscall else .terminate

/-- The `switch` of `support_syscall`. -/
def supportSyscall (saved : State) : CallPc n :=
  let id := (saved.gpr .a0).toInt
  if id = GET_TOD then .getTod
  else if id = WRITEPRINTER then .writer .printer
  else if id = WRITETERMINAL then .writer .terminal
  else if id = READTERMINAL then .reader
  else .sysTerminate

/-- The arguments of `syscall_writer`. A length is never negative. -/
def syscallWriter (output : Output) (id : Fin n) (saved : State) : CallPc n :=
  let s := saved.gpr .a1
  let len := saved.gpr .a2
  if len > MAXLEN ∨ s < KUSEG then .terminate
  else .writerP { output := output, id := id, s := s, len := len }

/-- The status of a character `syscall_writer` printed. -/
def writerStatus (w : Writing n) (i status : Word) : CallPc n :=
  if status &&& w.output.mask ≠ w.output.done then .writerV w (-(status &&& w.output.mask))
  else .writerLoop w (i + 1)

/-- The argument of `sys_read_terminal`. -/
def sysReadTerminal (id : Fin n) (saved : State) : CallPc n :=
  let buf := saved.gpr .a1
  if buf < KUSEG then .terminate else .readerP id buf

/-- The status of a character `sys_read_terminal` received. -/
def readerStatus (id : Fin n) (buf read status : Word) : CallPc n :=
  if RECEIVE_STATUS status ≠ DEV_STATUS_TERMINAL_OK then .readerFail id (-RECEIVE_STATUS status)
  else .readerStore id buf read ((RECEIVE_VALUE status).setWidth 8)

/-- The end of `support_generic`: the program counter and `reg_t9` move past the
    instruction. -/
def advanced (saved : State) : State :=
  { saved.setReg .t9 (saved.gpr .t9 + WORD_SIZE) with pcEpc := saved.pcEpc + WORD_SIZE }

/-- The next step of a handler that was given an answer, with the state saved in
    `sup_except_state[GENERALEXCEPT]` after it. A handler that touches memory or
    terminates has none. -/
def callStep (saved : State) (id : Fin n) (answer : Word) : CallPc n → Option (CallPc n × State)
  | .generic => some (supportGeneric saved, saved)
  | .syscall => some (supportSyscall saved, saved)
  | .getTod => some (.result answer, saved)
  | .writer output => some (syscallWriter output id saved, saved)
  | .writerP w => some (.writerLoop w 0, saved)
  | .writerLoop w i => some (if i < w.len then .writerLoad w i else .writerV w w.len, saved)
  | .writerData w i c => some (.writerIo w i c, saved)
  | .writerIo w i _ => some (writerStatus w i answer, saved)
  | .writerV _ result => some (.result result, saved)
  | .reader => some (sysReadTerminal id saved, saved)
  | .readerP id buf => some (.readerIo id buf 0, saved)
  | .readerIo id buf read => some (readerStatus id buf read answer, saved)
  | .readerFail _ result => some (.result result, saved)
  | .readerV _ buf read => some (.readerEnd buf read, saved)
  | .result v => some (.advance, saved.setReg .v0 v)
  | .advance => some (.load, advanced saved)
  | .load => some (.user, saved)
  | _ => none

end Handlers

/-! ## The system -/

/-- The support level with the handlers of its system calls. `regs` is the state
    each U-proc loaded last with `LDST`. -/
structure CallLevel (n : Nat) where
  level : SupportLevel n
  call : Fin n → CallPc n
  supExceptState : Fin n → Fin 2 → State
  regs : Fin n → State

/-- What happens next: a step of the support level, an exception that is passed
    up with the state the BIOS saved, or a step of a handler with what it asked
    for and the answer. A TLB exception saves a state as well. -/
inductive CallEvent (n : Nat)
  | level (e : UEvent n) (s : State)
  | trap (i : Fin n) (s : State)
  | call (i : Fin n) (a : Ask n) (answer : Word)

section System

variable {n : Nat}

open SupportLevel

/-- The word an access finds, if the machine lets it through. -/
def SupportLevel.granted (S : Platform n) (s : SupportLevel n) (i : Fin n) (addr : Word)
    (a : Access) : Option Word :=
  if addr < KUSEG then none
  else
    match s.lookup S i addr with
    | none => none
    | some e => if a.refused e = none then some (s.word (PteEntry.frame e) addr) else none

namespace CallLevel

/-- The state of one kind a U-proc has in its support structure. -/
def saved (c : CallLevel n) (type : Fin 2) (i : Fin n) : State :=
  c.supExceptState (c.level.support i) type

/-- Save a state of one kind in the support structure of a U-proc. -/
def save (c : CallLevel n) (type : Fin 2) (i : Fin n) (s : State) : CallLevel n :=
  { c with
    supExceptState := Function.update c.supExceptState (c.level.support i)
      (Function.update (c.supExceptState (c.level.support i)) type s) }

def setCall (c : CallLevel n) (i : Fin n) (pc : CallPc n) : CallLevel n :=
  { c with call := Function.update c.call i pc }

/-- `LDST`. -/
def loadState (c : CallLevel n) (i : Fin n) (s : State) : CallLevel n :=
  { c with regs := Function.update c.regs i s }

/-- A handler touches what it asked for, and gives up in `sys_terminate` only. -/
def Allows (c : CallLevel n) : UEvent n → Prop
  | .touch i addr a _ _ => c.call i = .user ∨ (c.call i).access = some (addr, a)
  | .quit i => c.call i = .sysTerminate
  | _ => True

instance (c : CallLevel n) : (e : UEvent n) → Decidable (c.Allows e)
  | .touch _ _ _ _ _ => inferInstanceAs (Decidable (_ ∨ _))
  | .quit _ => inferInstanceAs (Decidable (_ = _))
  | .step _ => .isTrue trivial
  | .test => .isTrue trivial
  | .flash _ _ => .isTrue trivial

/-- What a step of the support level does to the states and the handlers. A TLB
    exception is passed up, an access that succeeds takes its handler further, and
    `support_tlb` ends with `LDST`. -/
def follow (S : Platform n) (c : CallLevel n) (e : UEvent n) (s : State)
    (level : SupportLevel n) : CallLevel n :=
  match e with
  | .touch i addr a cause _ =>
    match c.level.granted S i addr a with
    | some word => { c with level := level }.setCall i ((c.call i).accessed word)
    | none =>
      if level.pc i = .cause { cause := cause, entryHi := entryHiOf i addr } then
        { c with level := level }.save PGFAULTEXCEPT i
          { s with cause := cause, entryHi := entryHiOf i addr }
      else { c with level := level }
  | .step i =>
    match c.level.pc i with
    | .drop _ => { c with level := level }.loadState i (c.saved PGFAULTEXCEPT i)
    | _ => { c with level := level }
  | _ => { c with level := level }

/-- The state a handler is passed up with when it calls `TERMINATE`. -/
def TerminateCall (s : State) : Prop :=
  CAUSE_GET_EXCCODE s.cause = 8 ∧ (s.gpr .a0).toInt = TERMINATE

instance (s : State) : Decidable (TerminateCall s) := inferInstanceAs (Decidable (_ ∧ _))

/-- The exception of a U-proc, in its program or in a call of `TERMINATE`. -/
def trap (c : CallLevel n) (i : Fin n) (s : State) : Option (CallLevel n) :=
  if c.level.down = none ∧ c.level.pc i = .user ∧
      (c.call i = .user ∨ (c.call i = .terminate ∧ TerminateCall s)) then
    some ((c.save GENERALEXCEPT i s).setCall i .generic)
  else none

/-- The next step of the handler of a U-proc. -/
def handle (c : CallLevel n) (i : Fin n) (a : Ask n) (answer : Word) : Option (CallLevel n) :=
  if c.level.down = none ∧ c.level.pc i = .user ∧ a = (c.call i).ask then
    match (c.level.current i).supAsid with
    | none => none
    | some id =>
      match callStep (c.saved GENERALEXCEPT i) id answer (c.call i) with
      | none => none
      | some (pc, s) =>
        let c' := (c.save GENERALEXCEPT i s).setCall i pc
        some (if c.call i = .load then c'.loadState i s else c')
  else none

/-- The next state, if the event is possible. -/
def next (S : Platform n) (c : CallLevel n) : CallEvent n → Option (CallLevel n)
  | .level e s => if c.Allows e then (c.level.next S e).map (c.follow S e s) else none
  | .trap i s => c.trap i s
  | .call i a answer => c.handle i a answer

end CallLevel

/-- The support level with its system calls as a transition system. -/
def callLevel (S : Platform n) : System (CallLevel n) (CallEvent n) where
  init c := (supportLevel S).init c.level ∧ c.call = fun _ => .user
  step c e c' := c.next S e = some c'

end System

end Pandos
