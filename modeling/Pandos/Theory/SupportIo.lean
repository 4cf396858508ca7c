import Pandos.Theory.Bytes
import Pandos.Theory.Contents
import Pandos.Theory.SupportCalls

/-!
# Input and Output of the Support Level

What the handlers of `syscall_writer` and `sys_read_terminal` have done to their
device and to the memory of their caller. The runs are watched: a record keeps
the memory without paging, the state and the memory each U-proc was stopped
with by its last request, and the traffic with the device registers since then.

A character is taken from the buffer before it is printed, and put into the
buffer after it was received, and each of these accesses can run into a page
fault in the middle of the loop. `Serving` is the invariant of the loops, and
`Fulfilled` is what it comes to when there is a result.

## Main definitions

* `Traffic`: What a handler did to a register of a device.
* `Watch`, `watchedCalls`: The record, and the runs with it.
* `Sent`, `Received`, `Fulfilled`: What a request comes to.
* `Serving`: What a handler has done so far.

## Theorems

* `serving_callStep`: One step of a handler.
* `serving_accessed`: One access to the buffer.
* `serving_run`: The invariant holds in every run.
-/

namespace Pandos

section SupportIo

variable {n : Nat}

open SupportLevel CallLevel Buffers

/-! ## The record -/

/-- What a handler did to a register of a device: a store, or a command with the
    status it came back with. -/
inductive Traffic
  | data (addr value : Word)
  | command (addr value status : Word)
  deriving DecidableEq

def Ask.traffic (answer : Word) : Ask n → List Traffic
  | .store addr value => [.data addr value]
  | .doIo cmdAddr value => [.command cmdAddr value answer]
  | _ => []

/-- What is kept beside a run: the memory without paging, and for each U-proc the
    state and the memory at its last request, and the traffic since then. -/
structure Watch (n : Nat) where
  flat : Fin n → Nat → Page
  request : Fin n → State
  before : Fin n → Nat → Page
  log : Fin n → List Traffic

def Watch.note (S : Platform n) (c : CallLevel n) (e : CallEvent n) (c' : CallLevel n)
    (w : Watch n) : Watch n :=
  match e with
  | .level e _ => { w with flat := storeFlat S c.level e c'.level w.flat }
  | .trap i s =>
    if c.call i = .user then
      { w with
        request := Function.update w.request i s
        before := Function.update w.before i (w.flat i)
        log := Function.update w.log i [] }
    else w
  | .call i a answer => { w with log := Function.update w.log i (w.log i ++ a.traffic answer) }

/-- The steps of the support level are benign. -/
def CallEvent.Benign (c : CallLevel n) : CallEvent n → Prop
  | .level e _ => Pandos.Benign c.level e
  | _ => True

instance (c : CallLevel n) : (e : CallEvent n) → Decidable (e.Benign c)
  | .level e _ => inferInstanceAs (Decidable (Pandos.Benign c.level e))
  | .trap _ _ => .isTrue trivial
  | .call _ _ _ => .isTrue trivial

/-- The runs of benign steps of the support level with its system calls, and the
    record of them. -/
abbrev watchedCalls (S : Platform n) : System (CallLevel n × Watch n) (CallEvent n) :=
  ((callLevel S).restrict (fun c e => e.Benign c)).observed
    (fun c => { flat := S.blocks, request := c.regs, before := S.blocks, log := fun _ => [] })
    (Watch.note S)

/-! ## Requests -/

/-- The request that is served by a device class. -/
def Output.number : Output → Int
  | .printer => WRITEPRINTER
  | .terminal => WRITETERMINAL

def Output.Accepts (o : Output) (status : Word) : Prop := status &&& o.mask = o.done

instance (o : Output) (status : Word) : Decidable (o.Accepts status) :=
  inferInstanceAs (Decidable (_ = _))

/-- What stands in the registers of the device before the command is given. -/
def Output.prepared (o : Output) (id : Fin n) (c : BitVec 8) : List Traffic :=
  match o with
  | .printer => [.data (devRegAddr IL_PRINTER id + 8) (c.signExtend 32)]
  | .terminal => []

/-- The traffic of a character. -/
def Output.print (o : Output) (id : Fin n) (x : BitVec 8 × Word) : List Traffic :=
  o.prepared id x.1 ++ [.command (o.command id) (o.value x.1) x.2]

/-- The traffic of a string, each character with its status. -/
def Output.printed (o : Output) (id : Fin n) (xs : List (BitVec 8 × Word)) : List Traffic :=
  xs.flatMap (o.print id)

theorem printed_snoc (o : Output) (id : Fin n) (xs : List (BitVec 8 × Word))
    (x : BitVec 8 × Word) : o.printed id (xs ++ [x]) = o.printed id xs ++ o.print id x := by
  rw [Output.printed, List.flatMap_append, List.flatMap_singleton, ← Output.printed]

/-- A string from the memory of a U-proc goes to its device, up to its end or to
    the first character that is not accepted. -/
inductive Sent (o : Output) (id : Fin n) (mem : Nat → Page) (s len : Word) :
    List Traffic → Word → Prop
  | all {xs : List (BitVec 8 × Word)} (hok : ∀ x ∈ xs, o.Accepts x.2)
      (hlen : xs.length = len.toNat) (htext : Spells mem s (xs.map Prod.fst)) :
      Sent o id mem s len (o.printed id xs) len
  | refused {xs : List (BitVec 8 × Word)} {x : BitVec 8 × Word} (hok : ∀ y ∈ xs, o.Accepts y.2)
      (hx : ¬ o.Accepts x.2) (hlen : xs.length < len.toNat)
      (htext : Spells mem s ((xs ++ [x]).map Prod.fst)) :
      Sent o id mem s len (o.printed id (xs ++ [x])) (-(x.2 &&& o.mask))

/-- The character in the status of a terminal. -/
def receivedChar (status : Word) : BitVec 8 := (RECEIVE_VALUE status).setWidth 8

/-- The status of a character in the middle of a line. -/
def Inline (status : Word) : Prop :=
  RECEIVE_STATUS status = DEV_STATUS_TERMINAL_OK ∧ receivedChar status ≠ NEWLINE

/-- The traffic of a line. -/
def receivedLine (id : Fin n) (xs : List Word) : List Traffic :=
  xs.map (fun status => .command (devRegAddr IL_TERMINAL id + 4) RECEIVE_CHAR status)

theorem receivedLine_snoc (id : Fin n) (xs : List Word) (status : Word) :
    receivedLine id (xs ++ [status]) = receivedLine id xs ++
      [.command (devRegAddr IL_TERMINAL id + 4) RECEIVE_CHAR status] := by
  rw [receivedLine, List.map_append, List.map_singleton, ← receivedLine]

/-- The memory of a U-proc after a string was stored in its buffer. -/
def Buffered (before mem : Nat → Page) (buf : Word) (cs : List (BitVec 8)) : Prop :=
  byteAt mem = stored (byteAt before) buf.toNat (cs.map some) ∧ buf.toNat + cs.length < 2 ^ 32

/-- A line from the terminal of a U-proc goes to its memory with an `EOS` behind
    it, or as much of it as is received before the first status that is not
    good. -/
inductive Received (id : Fin n) (before mem : Nat → Page) (buf : Word) :
    List Traffic → Word → Prop
  | line {xs : List Word} {status read : Word} (hxs : ∀ x ∈ xs, Inline x)
      (hok : RECEIVE_STATUS status = DEV_STATUS_TERMINAL_OK)
      (hend : receivedChar status = NEWLINE) (hread : read.toNat = xs.length + 1)
      (hmem : Buffered before mem buf ((xs ++ [status]).map receivedChar ++ [EOS])) :
      Received id before mem buf (receivedLine id (xs ++ [status])) read
  | failed {xs : List Word} {status : Word} (hxs : ∀ x ∈ xs, Inline x)
      (hbad : RECEIVE_STATUS status ≠ DEV_STATUS_TERMINAL_OK)
      (hmem : Buffered before mem buf (xs.map receivedChar)) :
      Received id before mem buf (receivedLine id (xs ++ [status])) (-RECEIVE_STATUS status)

/-- What the request of a U-proc comes to that was stopped in the state `s₀`. -/
inductive Fulfilled (id : Fin n) (s₀ : State) (before mem : Nat → Page) (log : List Traffic)
    (v : Word) : Prop
  | getTod (hid : (s₀.gpr .a0).toInt = GET_TOD) (hlog : log = []) (hmem : mem = before)
  | write (o : Output) (hid : (s₀.gpr .a0).toInt = o.number) (hlen : s₀.gpr .a2 ≤ MAXLEN)
      (hs : KUSEG ≤ s₀.gpr .a1) (hmem : mem = before)
      (h : Sent o id mem (s₀.gpr .a1) (s₀.gpr .a2) log v)
  | read (hid : (s₀.gpr .a0).toInt = READTERMINAL) (hs : KUSEG ≤ s₀.gpr .a1)
      (h : Received id before mem (s₀.gpr .a1) log v)

/-! ## Handlers at work -/

/-- What is known of a U-proc whose request is being served: the states and the
    memories at the request and now, and the traffic in between. -/
structure Account where
  request : State
  saved : State
  before : Nat → Page
  mem : Nat → Page
  log : List Traffic

/-- Nothing has been done about a request so far. -/
structure Account.Fresh (a : Account) (number : Int) : Prop where
  number : (a.request.gpr .a0).toInt = number
  saved : a.saved = a.request
  log : a.log = []
  mem : a.mem = a.before

/-- What `syscall_writer` works on is what its caller asked for. -/
structure Account.Writes (a : Account) (id : Fin n) (w : Writing n) : Prop where
  number : (a.request.gpr .a0).toInt = w.output.number
  saved : a.saved = a.request
  mem : a.mem = a.before
  own : w.id = id
  start : w.s = a.request.gpr .a1
  length : w.len = a.request.gpr .a2
  short : w.len ≤ MAXLEN
  user : KUSEG ≤ w.s

/-- The first characters of a string have been printed. -/
structure Account.Printed (a : Account) (id : Fin n) (w : Writing n) (i : Word)
    (xs : List (BitVec 8 × Word)) : Prop extends a.Writes id w where
  ok : ∀ x ∈ xs, w.output.Accepts x.2
  count : xs.length = i.toNat
  le : i ≤ w.len
  text : Spells a.mem w.s (xs.map Prod.fst)

/-- What `sys_read_terminal` works on is what its caller asked for. -/
structure Account.Reads (a : Account) (id' id : Fin n) (buf : Word) : Prop where
  number : (a.request.gpr .a0).toInt = READTERMINAL
  saved : a.saved = a.request
  own : id' = id
  buffer : buf = a.request.gpr .a1
  user : KUSEG ≤ buf

/-- The first characters of a line have been stored. -/
structure Account.Stored (a : Account) (id' id : Fin n) (buf read : Word) (xs : List Word) :
    Prop extends a.Reads id' id buf where
  count : read.toNat = xs.length
  place : (buf + read).toNat = buf.toNat + xs.length
  mem : byteAt a.mem = stored (byteAt a.before) buf.toNat ((xs.map receivedChar).map some)

/-- A whole line has been stored. -/
structure Account.Lined (a : Account) (id' id : Fin n) (buf read : Word) (xs : List Word)
    (status : Word) : Prop extends a.Stored id' id buf read (xs ++ [status]) where
  inside : ∀ x ∈ xs, Inline x
  ok : RECEIVE_STATUS status = DEV_STATUS_TERMINAL_OK
  newline : receivedChar status = NEWLINE
  log : a.log = receivedLine id (xs ++ [status])

/-- What the handler of a U-proc has done so far. -/
def Serving (id : Fin n) (a : Account) : CallPc n → Prop
  | .generic => (∃ number, a.Fresh number) ∨ TerminateCall a.saved
  | .syscall => (∃ number, a.Fresh number) ∨ TerminateCall a.saved
  | .getTod => a.Fresh GET_TOD
  | .writer output => a.Fresh output.number
  | .writerP w => a.Writes id w ∧ a.log = []
  | .writerLoop w i => ∃ xs, a.Printed id w i xs ∧ a.log = w.output.printed id xs
  | .writerLoad w i => i < w.len ∧ ∃ xs, a.Printed id w i xs ∧ a.log = w.output.printed id xs
  | .writerData w i c => w.output = .printer ∧ i < w.len ∧ byteAt a.mem (w.s + i) = some c ∧
      ∃ xs, a.Printed id w i xs ∧ a.log = w.output.printed id xs
  | .writerIo w i c => i < w.len ∧ byteAt a.mem (w.s + i) = some c ∧
      ∃ xs, a.Printed id w i xs ∧ a.log = w.output.printed id xs ++ w.output.prepared id c
  | .writerV w result => a.Writes id w ∧ Sent w.output id a.mem w.s w.len a.log result
  | .reader => a.Fresh READTERMINAL
  | .readerP id' buf => a.Reads id' id buf ∧ a.log = [] ∧ a.mem = a.before
  | .readerIo id' buf read => ∃ xs, a.Stored id' id buf read xs ∧ (∀ x ∈ xs, Inline x) ∧
      a.log = receivedLine id xs
  | .readerStore id' buf read r => ∃ xs status, a.Stored id' id buf read xs ∧
      (∀ x ∈ xs, Inline x) ∧ RECEIVE_STATUS status = DEV_STATUS_TERMINAL_OK ∧
      r = receivedChar status ∧ a.log = receivedLine id (xs ++ [status])
  | .readerFail id' result => ∃ buf, a.Reads id' id buf ∧
      Received id a.before a.mem buf a.log result
  | .readerV id' buf read => ∃ xs status, a.Lined id' id buf read xs status
  | .readerEnd buf read => ∃ xs status, a.Lined id id buf read xs status
  | .result v => a.saved = a.request ∧ Fulfilled id a.request a.before a.mem a.log v
  | .advance => ∃ v, a.saved = a.request.setReg .v0 v ∧
      Fulfilled id a.request a.before a.mem a.log v
  | .load => ∃ v, a.saved = advanced (a.request.setReg .v0 v) ∧
      Fulfilled id a.request a.before a.mem a.log v
  | _ => True

/-! ## Steps of the handlers -/

variable {a : Account} {id id' : Fin n} {l : List Traffic}

theorem Account.Writes.logged {w : Writing n} (h : a.Writes id w) :
    ({ a with log := l } : Account).Writes id w :=
  ⟨h.number, h.saved, h.mem, h.own, h.start, h.length, h.short, h.user⟩

theorem Account.Printed.logged {w : Writing n} {i : Word} {xs : List (BitVec 8 × Word)}
    (h : a.Printed id w i xs) : ({ a with log := l } : Account).Printed id w i xs :=
  ⟨h.toWrites.logged, h.ok, h.count, h.le, h.text⟩

theorem Account.Reads.logged {buf : Word} (h : a.Reads id' id buf) :
    ({ a with log := l } : Account).Reads id' id buf :=
  ⟨h.number, h.saved, h.own, h.buffer, h.user⟩

theorem Account.Stored.logged {buf read : Word} {xs : List Word}
    (h : a.Stored id' id buf read xs) : ({ a with log := l } : Account).Stored id' id buf read xs :=
  ⟨h.toReads.logged, h.count, h.place, h.mem⟩

/-- The character the loop has reached joins the ones before it. -/
theorem spells_snoc {mem : Nat → Page} {s i : Word} {cs : List (BitVec 8)} {c : BitVec 8}
    (h : Spells mem s cs) (hi : cs.length = i.toNat) (hc : byteAt mem (s + i) = some c) :
    Spells mem s (cs ++ [c]) := by
  intro k hk
  rw [List.length_append, List.length_singleton] at hk
  by_cases hlt : k < cs.length
  · rw [List.getElem?_append_left hlt]
    exact h k hlt
  · have hlast : k = i.toNat := by omega
    rw [hlast, BitVec.ofNat_toNat, BitVec.setWidth_eq, ← hi, List.getElem?_append_right (le_refl _),
      Nat.sub_self]
    exact hc

/-- `support_syscall` sends a request to its handler, and everything else to
    `sys_terminate`. -/
theorem serving_supportSyscall (h : (∃ number, a.Fresh number) ∨ TerminateCall a.saved) :
    Serving id a (supportSyscall a.saved) := by
  rcases h with ⟨number, hf⟩ | ⟨_, hterm⟩
  · have hfresh : ∀ k, (a.saved.gpr .a0).toInt = k → a.Fresh k := by
      intro k hk
      exact ⟨hf.saved ▸ hk, hf.saved, hf.log, hf.mem⟩
    unfold supportSyscall
    simp only
    split
    · exact hfresh GET_TOD (by assumption)
    · split
      · exact hfresh WRITEPRINTER (by assumption)
      · split
        · exact hfresh WRITETERMINAL (by assumption)
        · split
          · exact hfresh READTERMINAL (by assumption)
          · trivial
  · unfold supportSyscall
    rw [hterm]
    trivial

theorem serving_syscallWriter {o : Output} (h : a.Fresh o.number) :
    Serving id a (syscallWriter o id a.saved) := by
  unfold syscallWriter
  simp only
  split
  · trivial
  · rename_i hargs
    rw [not_or, BitVec.not_lt, BitVec.not_lt] at hargs
    exact ⟨⟨h.number, h.saved, h.mem, rfl, by rw [h.saved], by rw [h.saved], hargs.1, hargs.2⟩,
      h.log⟩

/-- The status of a character that was printed. -/
theorem serving_writerStatus {w : Writing n} {i status : Word} {c : BitVec 8}
    {xs : List (BitVec 8 × Word)} (h : a.Printed id w i xs) (hi : i < w.len)
    (hc : byteAt a.mem (w.s + i) = some c)
    (hlog : a.log = w.output.printed id (xs ++ [(c, status)])) :
    Serving id a (writerStatus w i status) := by
  have htext : Spells a.mem w.s ((xs ++ [(c, status)]).map Prod.fst) := by
    rw [List.map_append, List.map_singleton]
    exact spells_snoc h.text (by rw [List.length_map, h.count]) hc
  unfold writerStatus
  split
  · rename_i hbad
    refine ⟨h.toWrites, ?_⟩
    rw [hlog]
    exact Sent.refused (x := (c, status)) h.ok hbad (by rw [h.count]; exact hi) htext
  · rename_i hgood
    rw [not_not] at hgood
    have hnext : (i + 1).toNat = i.toNat + 1 := by bv_omega
    refine ⟨xs ++ [(c, status)], ⟨h.toWrites, fun x hx => ?_, ?_, ?_, htext⟩, hlog⟩
    · rw [List.mem_append, List.mem_singleton] at hx
      rcases hx with hx | rfl
      · exact h.ok x hx
      · exact hgood
    · rw [List.length_append, List.length_singleton, h.count, hnext]
    · bv_omega

theorem serving_sysReadTerminal (h : a.Fresh READTERMINAL) :
    Serving id a (sysReadTerminal id a.saved) := by
  unfold sysReadTerminal
  simp only
  split
  · trivial
  · rename_i harg
    rw [BitVec.not_lt] at harg
    exact ⟨⟨h.number, h.saved, rfl, by rw [h.saved], harg⟩, h.log, h.mem⟩

/-- The status of a character that was received. -/
theorem serving_readerStatus {buf read status : Word} {xs : List Word}
    (h : a.Stored id' id buf read xs) (hxs : ∀ x ∈ xs, Inline x)
    (hlog : a.log = receivedLine id (xs ++ [status])) :
    Serving id a (readerStatus id' buf read status) := by
  unfold readerStatus
  split
  · rename_i hbad
    refine ⟨buf, h.toReads, ?_⟩
    rw [hlog]
    refine Received.failed hxs hbad ⟨h.mem, ?_⟩
    rw [List.length_map, ← h.place]
    exact (buf + read).isLt
  · rename_i hgood
    exact ⟨xs, status, h, hxs, not_not.mp hgood, rfl, hlog⟩

/-- A result that was delivered is what the request comes to. -/
theorem fulfilled_of_sent {w : Writing n} {v : Word} (h : a.Writes id w)
    (hd : Sent w.output id a.mem w.s w.len a.log v) :
    Fulfilled id a.request a.before a.mem a.log v := by
  rw [h.start, h.length] at hd
  exact Fulfilled.write w.output h.number (h.length ▸ h.short) (h.start ▸ h.user) h.mem hd

theorem fulfilled_of_received {buf v : Word} (h : a.Reads id' id buf)
    (hr : Received id a.before a.mem buf a.log v) :
    Fulfilled id a.request a.before a.mem a.log v := by
  rw [h.buffer] at hr
  exact Fulfilled.read h.number (h.buffer ▸ h.user) hr

/-- One step of a handler that leaves the devices alone. -/
theorem serving_quiet {answer : Word} {pc pc' : CallPc n} {s' : State}
    (h : callStep a.saved id answer pc = some (pc', s')) (hq : pc.ask.traffic answer = [])
    (hs : Serving id a pc) : Serving id { a with saved := s' } pc' := by
  cases pc with
  | user | terminate | sysTerminate | writerLoad | readerStore | readerEnd => cases h
  | writerData | writerIo | readerIo => cases hq
  | generic =>
      cases h
      unfold supportGeneric
      split
      · exact hs
      · trivial
  | syscall =>
      cases h
      exact serving_supportSyscall hs
  | getTod =>
      cases h
      exact ⟨hs.saved, Fulfilled.getTod hs.number hs.log hs.mem⟩
  | writer output =>
      cases h
      exact serving_syscallWriter hs
  | writerP w =>
      cases h
      -- The loop starts with the empty string.
      refine ⟨[], ⟨hs.1, fun x hx => ?_, rfl, Nat.zero_le _, fun k hk => ?_⟩, hs.2⟩
      · cases hx
      · exact absurd hk (Nat.not_lt_zero k)
  | writerLoop w i =>
      cases h
      rcases hs with ⟨xs, hp, hlog⟩
      split
      · rename_i hi
        exact ⟨hi, xs, hp, hlog⟩
      · rename_i hi
        have hend : i = w.len := BitVec.le_antisymm hp.le (BitVec.not_lt.mp hi)
        refine ⟨hp.toWrites, ?_⟩
        simp only [hlog]
        exact Sent.all hp.ok (hend ▸ hp.count) hp.text
  | writerV w result =>
      cases h
      exact ⟨hs.1.saved, fulfilled_of_sent hs.1 hs.2⟩
  | reader =>
      cases h
      exact serving_sysReadTerminal hs
  | readerP id' buf =>
      cases h
      rcases hs with ⟨hr, hlog, hmem⟩
      refine ⟨[], ⟨hr, rfl, ?_, ?_⟩, fun x hx => ?_, hlog⟩
      · rw [BitVec.ofNat_eq_ofNat, BitVec.add_zero]
        rfl
      · rw [List.map_nil, List.map_nil, stored_nil]
        exact congrArg byteAt hmem
      · cases hx
  | readerFail id' result =>
      cases h
      rcases hs with ⟨buf, hr, hres⟩
      exact ⟨hr.saved, fulfilled_of_received hr hres⟩
  | readerV id' buf read =>
      cases h
      rcases hs with ⟨xs, status, hl⟩
      have hown := hl.own
      exact ⟨xs, status, hown ▸ hl⟩
  | result v =>
      cases h
      rcases hs with ⟨hsaved, hf⟩
      exact ⟨v, by rw [← hsaved], hf⟩
  | advance =>
      cases h
      rcases hs with ⟨v, hsaved, hf⟩
      exact ⟨v, by rw [← hsaved], hf⟩
  | load =>
      cases h
      trivial

/-- One step of a handler. -/
theorem serving_callStep {answer : Word} {pc pc' : CallPc n} {s' : State}
    (h : callStep a.saved id answer pc = some (pc', s')) (hs : Serving id a pc) :
    Serving id { a with saved := s', log := a.log ++ pc.ask.traffic answer } pc' := by
  by_cases hq : pc.ask.traffic answer = []
  · rw [hq, List.append_nil]
    exact serving_quiet h hq hs
  · cases pc with
    | writerData w i c =>
        cases h
        rcases hs with ⟨ho, hi, hc, xs, hp, hlog⟩
        refine ⟨hi, hc, xs, hp.logged, ?_⟩
        simp only [hlog, ho, hp.own, Output.prepared, CallPc.ask, Ask.traffic, Output.il]
    | writerIo w i c =>
        cases h
        rcases hs with ⟨hi, hc, xs, hp, hlog⟩
        refine serving_writerStatus hp.logged hi hc ?_
        simp only [hlog, printed_snoc, Output.print, hp.own, CallPc.ask, Ask.traffic,
          List.append_assoc]
    | readerIo id' buf read =>
        cases h
        rcases hs with ⟨xs, hst, hxs, hlog⟩
        refine serving_readerStatus hst.logged hxs ?_
        simp only [hlog, receivedLine_snoc, hst.own, CallPc.ask, Ask.traffic]
    | _ => exact absurd rfl hq

/-! ## Accesses to the buffer -/

/-- The character that was read is the one in the memory of the U-proc. -/
theorem serving_load {w : Writing n} {i word : Word} {j : Nat}
    (hs : Serving id a (.writerLoad w i)) (hj : pageOf (w.s + i) = some j)
    (hword : word = a.mem j (offset (w.s + i))) :
    Serving id a ((CallPc.writerLoad w i).accessed word) := by
  rcases hs with ⟨hi, xs, hp, hlog⟩
  have hc : byteAt a.mem (w.s + i) = some (byteOf (w.s + i) word) := by
    rw [byteAt, hj, Option.map_some, hword]
  simp only [CallPc.accessed]
  split
  · rename_i ho
    exact ⟨ho, hi, hc, xs, hp, hlog⟩
  · rename_i ho
    refine ⟨hi, hc, xs, hp, ?_⟩
    rw [ho, Output.prepared, List.append_nil, ← ho, hlog]

/-- The next character of a line is stored behind the others. -/
theorem stored_next {buf read : Word} {xs : List Word} {c : BitVec 8} {mem : Nat → Page}
    (hplace : (buf + read).toNat = buf.toNat + xs.length)
    (hmem : byteAt a.mem = stored (byteAt a.before) buf.toNat ((xs.map receivedChar).map some))
    (hnew : byteAt mem = Function.update (byteAt a.mem) (buf + read) (some c)) :
    byteAt mem = stored (byteAt a.before) buf.toNat ((xs.map receivedChar ++ [c]).map some) := by
  rw [hnew, hmem, stored_snoc (by rw [hplace, List.length_map, List.length_map]), List.map_append,
    List.map_singleton]

theorem serving_store {buf read word : Word} {r : BitVec 8} {j : Nat} {mem : Nat → Page}
    (hs : Serving id a (.readerStore id' buf read r)) (hj : pageOf (buf + read) = some j)
    (hnew : byteAt mem = Function.update (byteAt a.mem) (buf + read) (some r)) :
    Serving id { a with mem := mem } ((CallPc.readerStore id' buf read r).accessed word) := by
  rcases hs with ⟨xs, status, hst, hxs, hok, hr, hlog⟩
  have hlt := pageOf_lt hj
  have hplace := hst.place
  have hcount := hst.count
  -- The page ends long before the counter would wrap around.
  have hread : (read + 1).toNat = xs.length + 1 := by bv_omega
  have hnext : (buf + (read + 1)).toNat = buf.toNat + (xs.length + 1) := by bv_omega
  have hstored : Account.Stored { a with mem := mem } id' id buf (read + 1) (xs ++ [status]) := by
    refine ⟨⟨hst.number, hst.saved, hst.own, hst.buffer, hst.user⟩, ?_, ?_, ?_⟩
    · rw [List.length_append, List.length_singleton, hread]
    · rw [List.length_append, List.length_singleton, hnext]
    · rw [List.map_append, List.map_singleton]
      exact stored_next (a := a) hplace hst.mem (hr ▸ hnew)
  simp only [CallPc.accessed]
  split
  · rename_i hne
    refine ⟨xs ++ [status], hstored, fun x hx => ?_, hlog⟩
    rw [List.mem_append, List.mem_singleton] at hx
    rcases hx with hx | rfl
    · exact hxs x hx
    · exact ⟨hok, hr ▸ hne⟩
  · rename_i heq
    rw [not_not] at heq
    exact ⟨xs, status, hstored, hxs, hok, hr ▸ heq, hlog⟩

/-- The end of a line is stored behind it. -/
theorem serving_end {buf read word : Word} {j : Nat} {mem : Nat → Page}
    (hs : Serving id a (.readerEnd buf read)) (hj : pageOf (buf + read) = some j)
    (hnew : byteAt mem = Function.update (byteAt a.mem) (buf + read) (some EOS)) :
    Serving id { a with mem := mem } ((CallPc.readerEnd buf read : CallPc n).accessed word) := by
  rcases hs with ⟨xs, status, hl⟩
  have hlt := pageOf_lt hj
  have hplace := hl.place
  have hcount := hl.count
  rw [List.length_append, List.length_singleton] at hcount
  refine ⟨hl.saved, ?_⟩
  have hreceived : Received id a.before mem buf a.log read := by
    rw [hl.log]
    refine Received.line hl.inside hl.ok hl.newline hcount ⟨?_, ?_⟩
    · exact stored_next hplace hl.mem hnew
    · rw [List.length_append, List.length_map, List.length_singleton, ← Nat.add_assoc, ← hplace]
      omega
  exact fulfilled_of_received (a := { a with mem := mem })
    ⟨hl.number, hl.saved, hl.own, hl.buffer, hl.user⟩ hreceived

/-- One access to the buffer. -/
theorem serving_accessed {pc : CallPc n} {addr word : Word} {x : Access} {j : Nat}
    (hs : Serving id a pc) (hacc : pc.access = some (addr, x)) (hj : pageOf addr = some j)
    (hword : word = a.mem j (offset addr)) :
    Serving id { a with mem := Function.update a.mem j (Function.update (a.mem j) (offset addr)
      (x.result (a.mem j (offset addr)))) } (pc.accessed word) := by
  cases pc with
  | writerLoad w i =>
      cases hacc
      simp only [Access.result, Function.update_eq_self]
      exact serving_load hs hj hword
  | readerStore id' buf read r =>
      cases hacc
      exact serving_store hs hj (byteAt_store hj r)
  | readerEnd buf read =>
      cases hacc
      exact serving_end hs hj (byteAt_store hj EOS)
  | _ => cases hacc

/-! ## Runs -/

variable {S : Platform n} {c c' : CallLevel n} {w : Watch n} {i : Fin n}

theorem granted_word {s : SupportLevel n} {addr word : Word} {x : Access}
    (h : s.granted S i addr x = some word) : ∃ e, s.lookup S i addr = some e ∧
      x.refused e = none ∧ word = s.word (PteEntry.frame e) addr := by
  unfold granted at h
  split at h
  · cases h
  · split at h
    · cases h
    · rename_i e he
      split at h
      · rename_i hr
        exact ⟨e, he, hr, (Option.some.inj h).symm⟩
      · cases h

/-- What a step of the support level does to the handler and the memory of a U-proc:
    nothing, or the access the handler is about to make. -/
inductive Accesses (c : CallLevel n) (flat : Fin n → Nat → Page) (i : Fin n) (pc' : CallPc n)
    (mem' : Nat → Page) : Prop
  | none (hpc : pc' = c.call i) (hmem : mem' = flat i)
  | access {addr word : Word} {x : Access} {j : Nat}
      (hacc : c.call i = .user ∨ (c.call i).access = some (addr, x)) (hj : pageOf addr = some j)
      (hword : word = flat i j (offset addr)) (hpc : pc' = (c.call i).accessed word)
      (hmem : mem' = Function.update (flat i) j (Function.update (flat i j) (offset addr)
        (x.result (flat i j (offset addr)))))

/-- Nobody touches the memory of a U-proc but the U-proc itself. -/
theorem storeFlat_other {s s' : SupportLevel n} {flat : Fin n → Nat → Page} {e : UEvent n}
    (h : ∀ addr x cause slot, e ≠ .touch i addr x cause slot) :
    storeFlat S s e s' flat i = flat i := by
  cases e with
  | touch k addr x cause slot =>
      have hik : i ≠ k := by
        rintro rfl
        exact h addr x cause slot rfl
      cases hl : s.lookup S k addr with
      | none => rw [storeFlat_of_none hl]
      | some pte =>
          cases hj : pageOf addr with
          | none => simp only [storeFlat, hl, hj]
          | some j =>
              simp only [storeFlat, hl, hj]
              split
              · exact Function.update_of_ne hik _ _
              · rfl
  | _ => rfl

theorem follow_call_other {e : UEvent n} {s : State} {level : SupportLevel n}
    (h : ∀ addr x cause slot, e ≠ .touch i addr x cause slot) :
    (c.follow S e s level).call i = c.call i := by
  unfold follow
  split
  · rename_i k addr x cause slot
    have hik : i ≠ k := by
      rintro rfl
      exact h addr x cause slot rfl
    split
    · exact setCall_other { c with level := level } hik _
    · split <;> rfl
  · split <;> rfl
  · rfl

theorem accesses_of_level (hn : n < 64) (hal : S.Aligned) {es : List (UEvent n)}
    {flat : Fin n → Nat → Page} (hrun : (watchedRuns S).Run es (c.level, flat)) {e : UEvent n}
    {s : State} {level : SupportLevel n} (ha : c.Allows e)
    (h : c.level.next S e = some level) (i : Fin n) :
    Accesses c flat i ((c.follow S e s level).call i) (storeFlat S c.level e level flat i) := by
  by_cases hi : ∃ addr x cause slot, e = .touch i addr x cause slot
  · rcases hi with ⟨addr, x, cause, slot, rfl⟩
    have hu := touch_user h
    cases hg : c.level.granted S i addr x with
    | none =>
        refine Accesses.none ?_ ?_
        · simp only [follow, hg]
          split <;> rfl
        · -- An access that is not granted is not performed.
          cases hl : c.level.lookup S i addr with
          | none => rw [storeFlat_of_none hl]
          | some pte =>
              by_cases hlow : addr < KUSEG
              · rw [storeFlat_of_low hlow]
              · unfold granted at hg
                rw [if_neg hlow, hl] at hg
                simp only at hg
                split at hg
                · cases hg
                · rename_i hr
                  rcases Option.ne_none_iff_exists'.mp hr with ⟨code, hcode⟩
                  rw [storeFlat_of_refused hl hcode]
    | some word =>
        rcases granted_word hg with ⟨pte, hl, hr, hword⟩
        have hbenign := System.run_of_observed hrun
        rcases place_of_access hn hal (mapped_benign hn hbenign) (agree_run hn hal hbenign) hu
          hl hr with ⟨j, hj, hpage, hplace⟩
        -- The frame holds what the flat memory holds for the page.
        have hview := (mirrors_run hn hal hrun).view i j (Or.inr (by rw [hu]; rfl)) hj
        rw [Paged.view_placed (p := pages S c.level) hplace] at hview
        have hflat : word = flat i j (offset addr) := by
          rw [hword, ← hview]
          rfl
        refine Accesses.access ha hpage hflat ?_ ?_
        · simp only [follow, hg]
          exact setCall_self _ _ _
        · simp only [storeFlat, hl, hpage, if_pos hr, Function.update_self]
  · have hne : ∀ addr x cause slot, e ≠ .touch i addr x cause slot :=
      fun addr x cause slot he => hi ⟨addr, x, cause, slot, he⟩
    exact Accesses.none (follow_call_other hne) (storeFlat_other hne)

/-- A handler works for the U-proc whose structure it finds. -/
theorem call_of_next (ho : Allotted c.level) {x : Ask n} {answer : Word}
    (h : c.next S (.call i x answer) = some c') :
    c.level.pc i = .user ∧ x = (c.call i).ask ∧ ∃ pc s,
      callStep (c.saved GENERALEXCEPT i) i answer (c.call i) = some (pc, s) ∧
      c' = if c.call i = .load then ((c.save GENERALEXCEPT i s).setCall i pc).loadState i s
        else (c.save GENERALEXCEPT i s).setCall i pc := by
  simp only [CallLevel.next, CallLevel.handle] at h
  split at h
  · rename_i hc
    split at h
    · cases h
    · rename_i id hid
      rw [ho.own (holding_of_user hc.2.1) hid] at h
      split at h
      · cases h
      · rename_i pc s hstep
        exact ⟨hc.2.1, hc.2.2, pc, s, hstep, (Option.some.inj h).symm⟩
  · cases h

/-- What is known of a U-proc. -/
def Watch.account (w : Watch n) (c : CallLevel n) (i : Fin n) : Account :=
  { request := w.request i
    saved := c.saved GENERALEXCEPT i
    before := w.before i
    mem := w.flat i
    log := w.log i }

/-- A U-proc that has its support structure is where its handler has brought it. -/
structure Attended (c : CallLevel n) (w : Watch n) (i : Fin n) : Prop where
  unborn : c.level.pc i = .unborn → c.call i = .user
  serving : (c.level.pc i).life = .holding → Serving i (w.account c i) (c.call i)

theorem attended_level (hn : n < 64) (hal : S.Aligned) {es : List (UEvent n)}
    (hrun : (watchedRuns S).Run es (c.level, w.flat)) (h : Attended c w i) {e : UEvent n}
    {s : State} {level : SupportLevel n} (ha : c.Allows e)
    (hnext : c.level.next S e = some level) :
    Attended (c.follow S e s level)
      { w with flat := storeFlat S c.level e level w.flat } i := by
  have ho := allotted_run (System.run_of_restrict (System.run_of_observed hrun))
  have hustep := (ustep_of_next hnext).2
  have hret := retained_step ho hustep
  have hacc := accesses_of_level (s := s) hn hal hrun ha hnext i
  by_cases huser : c.call i = .user
  · -- A U-proc in its own program stays there.
    have hstill : (c.follow S e s level).call i = .user := by
      cases hacc with
      | none hpc => rw [hpc, huser]
      | access _ _ _ hpc => rw [hpc, huser]; rfl
    refine ⟨fun _ => hstill, fun _ => ?_⟩
    rw [hstill]
    trivial
  · have hborn : c.level.pc i ≠ .unborn := fun hc => huser (h.unborn hc)
    refine ⟨fun hc => ?_, fun hl => ?_⟩
    · rw [follow_level] at hc
      exact absurd hc (hret.exists hborn)
    · rw [follow_level] at hl
      have hserving := h.serving (hret.holding hborn hl)
      have hsaved : (c.follow S e s level).saved GENERALEXCEPT i = c.saved GENERALEXCEPT i :=
        follow_saved ((uprocFrame_of_step ho hustep i).support hborn)
          (fun ht => absurd ht (by decide))
      simp only [Watch.account, hsaved]
      cases hacc with
      | none hpc hmem =>
          rw [hpc, hmem]
          exact hserving
      | access hcall hj hword hpc hmem =>
          rw [hpc, hmem]
          exact serving_accessed hserving (hcall.resolve_left huser) hj hword

@[simp] theorem loadState_saved (c : CallLevel n) (j : Fin n) (s : State) (t : Fin 2)
    (i : Fin n) : (c.loadState j s).saved t i = c.saved t i := rfl

/-- Another U-proc is stopped by a request, or its handler takes a step. -/
theorem Attended.of_other {j : Fin n} {w' : Watch n} {s : State} {pc : CallPc n}
    (ho : Allotted c.level) (h : Attended c w i) (hj : c.level.pc j = .user) (hij : i ≠ j)
    (hc : c' = (c.save GENERALEXCEPT j s).setCall j pc ∨
      c' = ((c.save GENERALEXCEPT j s).setCall j pc).loadState j s)
    (hw : w'.account c i = w.account c i) : Attended c' w' i := by
  have hcall : c'.call i = c.call i := by
    rcases hc with rfl | rfl
    · exact setCall_other _ hij pc
    · exact setCall_other _ hij pc
  have hlevel : c'.level = c.level := by
    rcases hc with rfl | rfl <;> rfl
  refine ⟨fun hu => ?_, fun hl => ?_⟩
  · rw [hcall]
    exact h.unborn (hlevel ▸ hu)
  · rw [hlevel] at hl
    have hsaved : c'.saved GENERALEXCEPT i = c.saved GENERALEXCEPT i := by
      have hsame := saved_save_uproc ho hl hj hij GENERALEXCEPT GENERALEXCEPT s
      rcases hc with rfl | rfl
      · exact hsame
      · exact hsame
    have haccount : w'.account c' i = w.account c i := by
      rw [← hw]
      simp only [Watch.account, hsaved]
    rw [hcall, haccount]
    exact h.serving hl

/-- A U-proc is stopped by a request, or its handler calls `TERMINATE`. -/
theorem attended_trap {j : Fin n} {s : State} (ho : Allotted c.level) (h : Attended c w i)
    (hj : c.level.pc j = .user) (hcall : c.call j = .user ∨ (c.call j = .terminate ∧
      TerminateCall s)) :
    Attended ((c.save GENERALEXCEPT j s).setCall j .generic)
      (w.note S c (.trap j s) ((c.save GENERALEXCEPT j s).setCall j .generic)) i := by
  by_cases hij : i = j
  · subst hij
    refine ⟨fun hu => ?_, fun _ => ?_⟩
    · exact absurd (hj.symm.trans hu) (by simp only [reduceCtorEq, not_false_eq_true])
    · rw [setCall_self]
      have hsaved : ((c.save GENERALEXCEPT i s).setCall i .generic).saved GENERALEXCEPT i = s := by
        rw [setCall_saved, saved_save_self]
      rcases hcall with hidle | ⟨_, hterm⟩
      · refine Or.inl ⟨(s.gpr .a0).toInt, ?_⟩
        simp only [Watch.note, if_pos hidle, Watch.account, hsaved, Function.update_self]
        exact ⟨rfl, rfl, rfl, rfl⟩
      · refine Or.inr ?_
        simp only [Watch.account, hsaved]
        exact hterm
  · refine h.of_other ho hj hij (Or.inl rfl) ?_
    unfold Watch.note
    simp only
    split
    · simp only [Watch.account, Function.update_of_ne hij]
    · rfl

/-- A handler takes a step. -/
theorem attended_call {j : Fin n} {x : Ask n} {answer : Word} (ho : Allotted c.level)
    (h : Attended c w i) (hnext : c.next S (.call j x answer) = some c') :
    Attended c' (w.note S c (.call j x answer) c') i := by
  rcases call_of_next ho hnext with ⟨hj, hask, pc, s, hstep, hc'⟩
  have hend : c' = (c.save GENERALEXCEPT j s).setCall j pc ∨
      c' = ((c.save GENERALEXCEPT j s).setCall j pc).loadState j s := by
    by_cases hload : c.call j = .load
    · exact Or.inr (by rw [hc', if_pos hload])
    · exact Or.inl (by rw [hc', if_neg hload])
  by_cases hij : i = j
  · subst hij
    have hserving := serving_callStep (a := w.account c i) hstep (h.serving (holding_of_user hj))
    have hcall : c'.call i = pc := by
      rcases hend with rfl | rfl <;> exact setCall_self _ _ _
    have hsaved : c'.saved GENERALEXCEPT i = s := by
      rcases hend with rfl | rfl
      · rw [setCall_saved, saved_save_self]
      · rw [loadState_saved, setCall_saved, saved_save_self]
    have hlevel : c'.level = c.level := by
      rcases hend with rfl | rfl <;> rfl
    refine ⟨fun hu => ?_, fun _ => ?_⟩
    · rw [hlevel, hj] at hu
      exact absurd hu (by simp only [reduceCtorEq, not_false_eq_true])
    · rw [hcall]
      simp only [Watch.note, Watch.account, hsaved, Function.update_self, hask]
      exact hserving
  · refine h.of_other ho hj hij hend ?_
    simp only [Watch.note, Watch.account, Function.update_of_ne hij]

/-- The support level runs below its system calls, watched by the flat memory. -/
theorem watched_level {es : List (CallEvent n)} (h : (watchedCalls S).Run es (c, w)) :
    ∃ es', (watchedRuns S).Run es' (c.level, w.flat) := by
  have hstart : ∀ x, (watchedCalls S).init x →
      ∃ es', (watchedRuns S).Run es' (x.1.level, x.2.flat) := fun x hx =>
    ⟨[], System.Run.init ⟨hx.1.1, by rw [hx.2]⟩⟩
  refine System.run_invariant
    (P := fun x => ∃ es', (watchedRuns S).Run es' (x.1.level, x.2.flat)) hstart
    (fun es x e x' _ hx hs => ?_) h
  rcases x with ⟨c, w⟩
  rcases x' with ⟨c', w'⟩
  rcases hs with ⟨⟨hnext, hbenign⟩, hw⟩
  rcases hx with ⟨es', hrun⟩
  simp only at hw hnext hbenign
  subst hw
  cases cstep_of_next hnext with
  | @level e s level _ hlevel =>
      refine ⟨e :: es', System.Run.step hrun ⟨⟨?_, hbenign⟩, ?_⟩⟩
      · simp only [follow_level]
        exact hlevel
      · simp only [Watch.note, follow_level]
  | trap =>
      refine ⟨es', ?_⟩
      unfold Watch.note
      simp only
      split
      · exact hrun
      · exact hrun
  | call => exact ⟨es', hrun⟩
  | load => exact ⟨es', hrun⟩

/-- The invariant of the handlers. -/
theorem serving_run (hn : n < 64) (hal : S.Aligned) {es : List (CallEvent n)}
    (h : (watchedCalls S).Run es (c, w)) (i : Fin n) : Attended c w i := by
  have hstart : ∀ x, (watchedCalls S).init x → Attended x.1 x.2 i := fun x hx => by
    have hidle : x.1.call i = .user := congrFun hx.1.2 i
    refine ⟨fun _ => hidle, fun _ => ?_⟩
    rw [hidle]
    trivial
  refine System.run_invariant (P := fun x => Attended x.1 x.2 i) hstart
    (fun es x e x' hrun hx hs => ?_) h
  rcases x with ⟨c, w⟩
  rcases x' with ⟨c', w'⟩
  rcases watched_level hrun with ⟨es', hlevel⟩
  rcases hs with ⟨⟨hnext, _⟩, hw⟩
  simp only at hw hnext hx
  subst hw
  have ho := allotted_run (System.run_of_restrict (System.run_of_observed hlevel))
  cases e with
  | call j x answer => exact attended_call ho hx hnext
  | level e s =>
      cases cstep_of_next hnext with
      | level ha hl =>
          have hstep := attended_level (s := s) hn hal hlevel hx ha hl
          simp only [Watch.note, follow_level]
          exact hstep
  | trap j s =>
      cases cstep_of_next hnext with
      | trap hj hcall => exact attended_trap (S := S) ho hx hj hcall

end SupportIo

end Pandos
