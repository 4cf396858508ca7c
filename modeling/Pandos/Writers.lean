import Mathlib.Data.List.TakeWhile
import Pandos.Arch

/-!
# Writers

The three writers of `os/src/util.c`, which take the pieces `__pandos_printf`
cuts its output into, and what they write to: a string buffer, a terminal and
the log in memory.

A string is passed as its characters before the terminator. An array on the
stack is read up to its first NUL, so `CString.ofArray` cuts it there.

The terminal is the device as the machine documents it: a transmission keeps
it busy for some reads of its status register and then ends well or badly.
Which of the two, and after how long, is up to the device.

## Main definitions

* `CString`: A string in memory.
* `CString.clip`: The characters a writer is asked for.
* `Writer`: The type of a writer: a target, a string and a length limit.
* `StrTarget`, `strWriter`: Into a string buffer.
* `Terminal`, `termPutchar`, `serialWriter`: Onto a terminal.
* `MemoryTarget`, `kputchar`, `memoryWriter`: Into the log.
-/

namespace Pandos

/-- A character of the machine. -/
abbrev Byte := BitVec 8

/-- The code of a character. -/
def chr (c : Char) : Byte := BitVec.ofNat 8 c.toNat

/-- A string in memory without its terminator. It fits into the address
    space. -/
structure CString where
  chars : List Byte
  nonzero : ∀ c ∈ chars, c ≠ 0
  bounded : chars.length < 2 ^ 32

/-- What a reader sees of an array that is followed by a NUL. -/
def CString.ofArray (a : List Byte) (h : a.length < 2 ^ 32) : CString where
  chars := a.takeWhile (· ≠ 0)
  nonzero c hc := by
    have := List.mem_takeWhile_imp hc
    exact of_decide_eq_true this
  bounded := lt_of_le_of_lt (List.takeWhile_prefix _).length_le h

/-- The characters a writer is asked for; a length of zero is no limit. -/
def CString.clip (s : CString) (len : Word) : List Byte :=
  if len = 0 then s.chars else s.chars.take len.toNat

/-- The constants of `util.c`. -/
def cEnd : CString := CString.ofArray [] (by decide)
def cNeg : CString := CString.ofArray [chr '-'] (by decide)

/-- A writer: it stores a string in its target, up to a length, and tells how
    many characters it took. -/
abbrev Writer (σ : Type) := σ → CString → Word → σ × Word

/-! ## String buffers -/

/-- A string buffer (`str_target_t`). `str` holds the bytes at each offset from
    the start of the buffer, those outside of it too. -/
structure StrTarget where
  str : Word → Byte
  size : Word
  wrote : Word

/-- The loop of `str_writer`, over the rest of the string with its NUL. A
    character is stored before the limit is looked at. -/
def strCopy (d : StrTarget) (checkLen : Bool) :
    List Byte → Word → Word → (Word → Byte) → (Word → Byte) × Word
  | [], i, _, str => (str, i)
  | c :: data, i, len, str =>
    if d.wrote + i < d.size - 1 then
      let str := Function.update str (d.wrote + i) c
      if c ≠ 0 ∧ (!checkLen ∨ len ≠ 0) then strCopy d checkLen data (i + 1) (len - 1) str
      else (str, i)
    else (str, i)

/-- `str_writer`. -/
def strWriter : Writer StrTarget := fun d data len =>
  if data.chars = [] then
    let last := if d.size - 1 ≤ d.wrote then d.wrote else d.wrote + 1
    ({ d with str := Function.update d.str last 0 }, 0)
  else
    let r := strCopy d (len ≠ 0) (data.chars ++ [0]) 0 len d.str
    ({ d with str := r.1, wrote := d.wrote + r.2 }, r.2)

/-! ## Terminals -/

def ST_READY : Word := 1
def ST_BUSY : Word := 3
def ST_TRANSMITTED : Word := 5
def CMD_ACK : Word := 1
def CMD_TRANSMIT : Word := 2
def CHAR_OFFSET : Nat := 8
def TERM_STATUS_MASK : Word := 0xFF

/-- The status of a terminal after a transmission that failed. -/
def ST_ERROR : Word := 4

/-- The transmitter of a terminal. `busy` counts the reads of the status that
    still find it busy; `delay` and `fails` are the device's decisions about
    each transmission, `sent` the number of transmissions so far. -/
structure Terminal where
  status : Word
  busy : Nat
  sent : Nat
  printed : List Byte
  delay : Nat → Nat
  fails : Nat → Bool

/-- `term_status`: the register is read, and time passes. -/
def termStatus (t : Terminal) : Word × Terminal :=
  if t.busy = 0 then (t.status &&& TERM_STATUS_MASK, t)
  else (ST_BUSY, { t with busy := t.busy - 1 })

/-- The device takes a command. -/
def storeTransmCommand (t : Terminal) (command : Word) : Terminal :=
  if command &&& TERM_STATUS_MASK = CMD_TRANSMIT then
    { t with
      busy := t.delay t.sent
      status := if t.fails t.sent then ST_ERROR else ST_TRANSMITTED
      printed :=
        if t.fails t.sent then t.printed
        else t.printed ++ [(command >>> CHAR_OFFSET).setWidth 8]
      sent := t.sent + 1 }
  else { t with status := ST_READY }

/-- The loop of `term_putchar` that waits for the device, which is busy for at
    most `n` more reads. -/
def awaitTransmission : Nat → Terminal → Word × Terminal
  | 0, t => termStatus t
  | n + 1, t =>
    let r := termStatus t
    if r.1 = ST_BUSY then awaitTransmission n r.2 else r

/-- `term_putchar`. -/
def termPutchar (t : Terminal) (c : Byte) : Word × Terminal :=
  let r := termStatus t
  if r.1 ≠ ST_READY ∧ r.1 ≠ ST_TRANSMITTED then (1, r.2)
  else
    let t := storeTransmCommand r.2 ((c.setWidth 32 <<< CHAR_OFFSET) ||| CMD_TRANSMIT)
    let r := awaitTransmission t.busy t
    (if r.1 = ST_TRANSMITTED then 0 else 2, storeTransmCommand r.2 CMD_ACK)

/-- The loop of `serial_writer`. -/
def serialLoop (checkLen : Bool) : List Byte → Word → Word → Terminal → Terminal × Word
  | [], _, n, t => (t, n)
  | c :: data, len, n, t =>
    if checkLen ∧ len = 0 then (t, n)
    else
      let r := termPutchar t c
      if r.1 ≠ 0 then (r.2, n) else serialLoop checkLen data (len - 1) (n + 1) r.2

/-- `serial_writer`. -/
def serialWriter : Writer Terminal := fun t data len => serialLoop (len ≠ 0) data.chars len 0 t

/-! ## The log -/

def MEM_WRITER_LINES : Nat := 102
def MEM_WRITER_LINE_LENGTH : Nat := 40

/-- The log (`memory_target_t`): its lines and the place of the next
    character. -/
structure MemoryTarget where
  buffer : Nat → Nat → Byte
  line : Nat
  ch : Nat

/-- `clean_line`. -/
def cleanLine (mem : MemoryTarget) (line : Nat) (c : Byte) : MemoryTarget :=
  { mem with buffer := fun l i =>
      if l = line ∧ i < MEM_WRITER_LINE_LENGTH then c else mem.buffer l i }

/-- `next_line`. -/
def nextLine (mem : MemoryTarget) : MemoryTarget :=
  let mem := { mem with line := (mem.line + 1) % MEM_WRITER_LINES, ch := 0 }
  cleanLine (cleanLine mem mem.line (chr ' ')) ((mem.line + 1) % MEM_WRITER_LINES) (chr '-')

/-- `kputchar`. -/
def kputchar (mem : MemoryTarget) (ch : Byte) : MemoryTarget :=
  if ch = chr '\n' then nextLine mem
  else
    let mem := { mem with
      buffer := fun l i => if l = mem.line ∧ i = mem.ch then ch else mem.buffer l i
      ch := mem.ch + 1 }
    if MEM_WRITER_LINE_LENGTH ≤ mem.ch then nextLine mem else mem

/-- The loop of `memory_writer`. -/
def memoryLoop (checkLen : Bool) : List Byte → Word → Word → MemoryTarget → MemoryTarget × Word
  | [], _, n, mem => (mem, n)
  | c :: data, len, n, mem =>
    if checkLen ∧ len = 0 then (mem, n)
    else memoryLoop checkLen data (len - 1) (n + 1) (kputchar mem c)

/-- `memory_writer`. -/
def memoryWriter : Writer MemoryTarget := fun mem data len =>
  let mem :=
    if mem.line = 0 ∧ mem.ch = 0 then
      cleanLine (cleanLine mem mem.line (chr ' ')) (mem.line + 1) (chr ' ')
    else mem
  memoryLoop (len ≠ 0) data.chars len 0 mem

end Pandos
