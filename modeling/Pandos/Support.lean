import Pandos.Lib.Mutex
import Pandos.Lib.Systems
import Pandos.Pager

/-!
# The Support Level

The U-procs, the handlers `support_tlb` and `sys_terminate` that run on their
behalf, and the process `test` that starts them and waits for their end
(`pager.c`, `storage.c`, `support.c` and `test.c` of `phase3/src`).

A state says where each process is in the code that is running for it. The next
step of any process can come next, so every interleaving is a run. What the
source does with interrupts turned off is one step, and so is each call of the
nucleus. `allocate` and `deallocate` are one step each as well, although they run
with interrupts on; `Pandos.SupportMemory` splits them. The nucleus enters through
its binary semaphores, whose two operations can both block, and through `DOIO`,
which blocks the caller until the device is ready.

A U-proc in user mode touches memory through the TLB, one word at a time; the
store of a byte merges it into its word. It can also start its own termination
at any time, by `TERMINATE`, a program trap or a request the support level
refuses. Requests it does not refuse leave the data of the pager alone and count
as user mode.

A support structure that is freed goes back to `support_free` before its U-proc
is gone, and `test` may give it to another one.

## Main definitions

* `Platform`: The memory map, the TLB and the contents of the flash devices.
* `Pc`, `TestPc`: Where a U-proc and `test` are.
* `SupportLevel`: The state.
* `touch`: An access to memory, with the TLB-Refill handler.
* `handle`: The next step of `support_tlb` or `sys_terminate`.
* `testStep`: The next step of `test`.
* `complete`: The end of a flash operation.
* `supportLevel`: The transition system.
-/

namespace Pandos

/-! ## Devices -/

def FLASHREAD : Word := 2
def FLASHWRITE : Word := 3
def FLASHCMDSHIFT : Nat := 8

/-- A process of the support level: a U-proc, or `test`. -/
abbrev Party (n : Nat) := Option (Fin n)

/-- A command somebody waits for. Nothing stands in DATA0 for the array of
    `init_page_table`. -/
structure Request (n : Nat) where
  who : Party n
  command : Word
  data0 : Option Word

/-- The command `read_flash` gives. -/
def Request.read {n : Nat} (who : Party n) (block : Nat) (dest : Option Word) : Request n :=
  { who := who
    command := FLASHREAD ||| BitVec.ofNat 32 block <<< FLASHCMDSHIFT
    data0 := dest }

/-- The command `write_flash` gives. -/
def Request.write {n : Nat} (who : Party n) (block : Nat) (src : Option Word) : Request n :=
  { who := who
    command := FLASHWRITE ||| BitVec.ofNat 32 block <<< FLASHCMDSHIFT
    data0 := src }

/-- A flash device: who waits on its semaphore, and its blocks. -/
structure Flash (n : Nat) where
  queue : List (Request n)
  blocks : Nat → Page

/-- The memory map, the number of slots of the TLB and what stands on the flash
    devices at the start. -/
structure Platform (n : Nat) where
  swapPoolAddr : Word
  tlbSize : Nat
  blocks : Fin n → Nat → Page

/-! ## Processes -/

/-- What a TLB exception saves (`sup_except_state[PGFAULTEXCEPT]`). -/
structure Fault where
  cause : Word
  entryHi : Word
  deriving DecidableEq

/-- The frame a page fault is served with, and the missing page. -/
structure Victim where
  frame : Nat
  pVpn : Word
  pIndex : Nat
  deriving DecidableEq

/-- Where a U-proc is. A name ending in `-ing` means that it waits in a call of
    the nucleus. -/
inductive Pc (n : Nat)
  | unborn
  | user
  -- `support_tlb`
  | cause (f : Fault)
  | pass (f : Fault)
  | passing (f : Fault)
  | take (f : Fault)
  | pick (f : Fault) (index : Nat)
  | copy (f : Fault) (frame : Nat)
  | evict (f : Fault) (v : Victim) (swap : Swap n)
  | write (f : Fault) (v : Victim) (asid : Fin n) (kIndex : Nat)
  | writing (f : Fault) (v : Victim) (asid : Fin n) (kIndex : Nat)
  | read (f : Fault) (v : Victim)
  | reading (f : Fault) (v : Victim)
  | commit (f : Fault) (v : Victim)
  | release (f : Fault)
  | releasing (f : Fault)
  | drop (f : Fault)
  -- `sys_terminate`
  | trap
  | clean (asid : Fin n)
  | cleaning (asid : Fin n)
  | mark (asid : Fin n) (index : Nat)
  | unmark (asid : Fin n) (index : Nat)
  | free
  | post
  | posting
  | exit
  | dead
  deriving DecidableEq

/-- Where `test` is, with its loop counter and the support structure at hand. -/
inductive TestPc (n : Nat)
  | alloc (i : Nat)
  | header (i s : Fin n)
  | heading (i s : Fin n)
  | failed (i s : Fin n)
  | fill (i s : Fin n) (data : Page)
  | create (i s : Fin n)
  | wait (i : Nat)
  | waiting (i : Nat)

/-- The part of a support structure the pager uses. The ASID is missing as long
    as nobody has filled it in. -/
structure SupportT (n : Nat) where
  supAsid : Option (Fin n)
  supPrivatePageTable : PageTable

/-- Why the machine stopped. -/
inductive Down
  | panic (msg : String)
  | halt
  deriving DecidableEq

/-- The state of the support level. -/
structure SupportLevel (n : Nat) where
  pc : Fin n → Pc n
  test : TestPc n
  /-- The support structure of a U-proc. -/
  support : Fin n → Fin n
  supportTable : Fin n → SupportT n
  supportFree : List (Fin n)
  swapPoolBatons : Fin n → Bool
  semSwapPoolTable : Sem (Fin n)
  masterSemaphore : Sem (Party n)
  swapPoolTable : Nat → Swap n
  /-- The static variable of `pick_page`. -/
  fifo : Word
  tlb : Tlb
  ram : Word → Page
  flash : Fin n → Flash n
  down : Option Down

section Support

variable {n : Nat}

/-- A process that waited in a call of the nucleus goes on. -/
def Pc.resumed : Pc n → Pc n
  | .passing f => .take f
  | .releasing f => .drop f
  | .cleaning asid => .mark asid 0
  | .posting => .exit
  | pc => pc

/-- A flash operation a U-proc waited for is over, and it looks at the status. -/
def Pc.finished (ok : Bool) : Pc n → Pc n
  | .writing f v _ _ => if ok then .read f v else .trap
  | .reading f v => if ok then .commit f v else .trap
  | pc => pc

def TestPc.resumed : TestPc n → TestPc n
  | .waiting i => .wait (i + 1)
  | t => t

namespace SupportLevel

def setPc (s : SupportLevel n) (i : Fin n) (pc : Pc n) : SupportLevel n :=
  { s with pc := Function.update s.pc i pc }

def panic (s : SupportLevel n) (msg : String) : SupportLevel n :=
  { s with down := some (.panic msg) }

/-- The support structure of a U-proc (`GETSUPPORTPTR`). -/
def current (s : SupportLevel n) (i : Fin n) : SupportT n := s.supportTable (s.support i)

def setTable (s : SupportLevel n) (t : Fin n) (pageTable : PageTable) : SupportLevel n :=
  { s with
    supportTable := Function.update s.supportTable t
      { s.supportTable t with supPrivatePageTable := pageTable } }

/-- Somebody who waited on a semaphore was released. -/
def resume (s : SupportLevel n) : Party n → SupportLevel n
  | none => { s with test := s.test.resumed }
  | some i => s.setPc i (s.pc i).resumed

/-- `PASSEREN` or `VERHOGEN` of a U-proc on `sem_swap_pool_table`. -/
def swapPoolOp (s : SupportLevel n) (o : SemOp) (i : Fin n) (blocked next : Pc n) :
    SupportLevel n :=
  let r := s.semSwapPoolTable.op o i
  let s := { s with semSwapPoolTable := r.sem }
  let s := match r.woken with
    | none => s
    | some t => s.resume (some t)
  s.setPc i (if r.waits then blocked else next)

/-- `master_semaphore_v`. -/
def masterSemaphoreV (s : SupportLevel n) (i : Fin n) : SupportLevel n :=
  let r := s.masterSemaphore.op .V (some i)
  let s := { s with masterSemaphore := r.sem }
  let s := match r.woken with
    | none => s
    | some t => s.resume t
  s.setPc i (if r.waits then .posting else .exit)

/-- `master_semaphore_p`, in round `i` of the loop of `test`. -/
def masterSemaphoreP (s : SupportLevel n) (i : Nat) : SupportLevel n :=
  let r := s.masterSemaphore.op .P none
  let s := { s with masterSemaphore := r.sem }
  let s := match r.woken with
    | none => s
    | some t => s.resume t
  { s with test := if r.waits then .waiting i else .wait (i + 1) }

/-! ## Flash devices -/

/-- `DOIO` on a flash device: the caller waits on its semaphore. -/
def doio (s : SupportLevel n) (dev : Fin n) (r : Request n) : SupportLevel n :=
  { s with
    flash := Function.update s.flash dev
      { s.flash dev with queue := (s.flash dev).queue ++ [r] } }

/-- `read_flash`. -/
def readFlash (s : SupportLevel n) (who : Party n) (dev : Fin n) (block : Nat)
    (dest : Option Word) : SupportLevel n :=
  s.doio dev (Request.read who block dest)

/-- `write_flash`. -/
def writeFlash (s : SupportLevel n) (who : Party n) (dev : Fin n) (block : Nat)
    (src : Option Word) : SupportLevel n :=
  s.doio dev (Request.write who block src)

/-- What a device does for a command. -/
def transfer (s : SupportLevel n) (dev : Fin n) (r : Request n) : SupportLevel n :=
  let block := (r.command >>> FLASHCMDSHIFT).toNat
  match r.data0 with
  | none => s
  | some a =>
    if r.command &&& 0xFF = FLASHREAD then
      { s with ram := Function.update s.ram a ((s.flash dev).blocks block) }
    else if r.command &&& 0xFF = FLASHWRITE then
      { s with
        flash := Function.update s.flash dev
          { s.flash dev with blocks := Function.update (s.flash dev).blocks block (s.ram a) } }
    else s

/-- The status of a command reaches its process, with the block the device
    read. `support_trap` in `init_page_table` ends `test` and with it everybody,
    because `test` has no support structure. -/
def finish (s : SupportLevel n) (who : Party n) (ok : Bool) (data : Page) : SupportLevel n :=
  match who with
  | none =>
    match s.test with
    | .heading i t =>
      if ok then { s with test := .fill i t data }
      else { s with test := .failed i t, down := some .halt }
    | _ => s
  | some i => s.setPc i ((s.pc i).finished ok)

/-- The interrupt of a flash device: the longest waiting process gets the status
    of its command. -/
def complete (s : SupportLevel n) (dev : Fin n) (ok : Bool) : Option (SupportLevel n) :=
  match (s.flash dev).queue with
  | [] => none
  | r :: rest =>
    let data := (s.flash dev).blocks (r.command >>> FLASHCMDSHIFT).toNat
    let s := if ok then s.transfer dev r else s
    let s := { s with flash := Function.update s.flash dev { s.flash dev with queue := rest } }
    some (s.finish r.who ok data)

/-! ## User mode -/

/-- What the processor puts into EntryHi at a TLB exception: the page number and
    the ASID. -/
def entryHiOf (i : Fin n) (addr : Word) : Word :=
  (addr >>> VPNSHIFT) <<< VPNSHIFT ||| asidWord i <<< ASIDSHIFT

/-- The word of its page an address lies in. -/
def offset (addr : Word) : Nat := ((addr &&& 0xFFF) >>> 2).toNat

end SupportLevel

/-- An access to a word. A store changes the bits of its mask. -/
inductive Access
  | load
  | store (mask w : Word)

/-- The exception an access raises at an entry of the TLB, if any. -/
def Access.refused (a : Access) (e : PteEntry) : Option Word :=
  match a with
  | .load => if e.pteEntryLo &&& VALIDON = 0 then some TLBINVLDL else none
  | .store _ _ =>
    if e.pteEntryLo &&& VALIDON = 0 then some TLBINVLDS
    else if e.pteEntryLo &&& DIRTYON = 0 then some CAUSE_TLB_MOD
    else none

/-- The word an access leaves in memory. -/
def Access.result (a : Access) (old : Word) : Word :=
  match a with
  | .load => old
  | .store mask w => (old &&& ~~~mask) ||| (w &&& mask)

namespace SupportLevel

/-- The entry of the TLB an access of a U-proc finds. -/
def lookup (S : Platform n) (s : SupportLevel n) (i : Fin n) (addr : Word) : Option PteEntry :=
  (tlbp S.tlbSize s.tlb (entryHiOf i addr)).map s.tlb

/-- The word at an address of a page of memory. -/
def word (s : SupportLevel n) (frame addr : Word) : Word := s.ram frame (offset addr)

/-- A U-proc touches an address. Below `kuseg` that is a program trap. An access
    without an entry in the TLB is left to `tlb_refill_handler`, which puts one
    into the slot the machine picks. An access an entry refuses raises a TLB
    exception, with anything beside the exception code in the Cause register. -/
def touch (S : Platform n) (s : SupportLevel n) (i : Fin n) (addr : Word) (a : Access)
    (cause : Word) (slot : Nat) : Option (SupportLevel n) :=
  if addr < KUSEG then some (s.setPc i .trap)
  else
    match s.lookup S i addr with
    | none =>
      match tlbRefillEntry (s.current i).supPrivatePageTable (entryHiOf i addr) with
      | .error msg => some (s.panic msg)
      | .ok pte =>
        if slot < S.tlbSize then some { s with tlb := addRandomInTlb s.tlb slot pte } else none
    | some e =>
      match a.refused e with
      | some code =>
        if CAUSE_GET_EXCCODE cause = code then
          some (s.setPc i (.cause { cause := cause, entryHi := entryHiOf i addr }))
        else none
      | none =>
        some { s with
          ram := Function.update s.ram (PteEntry.frame e)
            (Function.update (s.ram (PteEntry.frame e)) (offset addr)
              (a.result (s.word (PteEntry.frame e) addr))) }

/-- The word a load of a U-proc returns, if the TLB does not refuse it. -/
def loaded (S : Platform n) (s : SupportLevel n) (i : Fin n) (addr : Word) : Option Word :=
  match s.lookup S i addr with
  | none => none
  | some e => if Access.load.refused e = none then some (s.word (PteEntry.frame e) addr) else none

/-! ## The handlers -/

/-- `set_swap_pool_baton` for the ASID of a U-proc, and on to `next`. -/
def setSwapPoolBaton (s : SupportLevel n) (i : Fin n) (value : Bool) (next : Pc n) :
    SupportLevel n :=
  match (s.current i).supAsid with
  | none => s.panic "memory.c: set_swap_pool_baton: invalid asid\n"
  | some asid => { s with
      swapPoolBatons := Function.update s.swapPoolBatons asid value }.setPc i next

/-- One round of the search of `pick_page`, or its last resort. -/
def pickPage (s : SupportLevel n) (i : Fin n) (f : Fault) (index : Nat) : SupportLevel n :=
  if index < POOLSIZE n then
    if checkFrameOccupied (s.swapPoolTable index) then s.setPc i (.pick f (index + 1))
    else s.setPc i (.copy f index)
  else
    let fifo := (s.fifo + 1).toNat % POOLSIZE n
    { s with fifo := BitVec.ofNat 32 fifo }.setPc i (.copy f fifo)

/-- The missing page and the owner of the frame that was picked. -/
def chooseVictim (s : SupportLevel n) (i : Fin n) (f : Fault) (frame : Nat) : SupportLevel n :=
  match entryhiToVpn f.entryHi with
  | .error msg => s.panic msg
  | .ok pVpn =>
    match vpnToIndex pVpn with
    | .error msg => s.panic msg
    | .ok pIndex =>
      let swap := s.swapPoolTable frame
      let v := { frame := frame, pVpn := pVpn, pIndex := pIndex }
      s.setPc i (if checkFrameOccupied swap then .evict f v swap else .read f v)

/-- The first block with interrupts off. It invalidates an entry of the page
    table of the U-proc itself, and puts into the TLB the entry of the victim.
    The entry is there whenever the frame is occupied; a null pointer would be a
    program trap. -/
def evictVictim (S : Platform n) (s : SupportLevel n) (i : Fin n) (f : Fault) (v : Victim)
    (swap : Swap n) : SupportLevel n :=
  match swap.swAsid, swap.swPte with
  | some asid, some (t, k) =>
    match entryhiToIndex ((s.supportTable t).supPrivatePageTable k).pteEntryHi with
    | .error msg => s.panic msg
    | .ok kIndex =>
      let s := s.setTable (s.support i)
        (markPageNotValid (s.current i).supPrivatePageTable kIndex)
      { s with
        tlb := updateTlb S.tlbSize s.tlb
          ((s.supportTable t).supPrivatePageTable k) }.setPc i (.write f v asid kIndex)
  | _, _ => s.setPc i .trap

/-- The second block with interrupts off: the page is in its frame. -/
def commitPage (S : Platform n) (s : SupportLevel n) (i : Fin n) (f : Fault) (v : Victim) :
    SupportLevel n :=
  match (s.current i).supAsid with
  | none => s.setPc i .trap
  | some asid =>
    match addEntrySwapPoolTable s.swapPoolTable v.frame asid v.pVpn (s.support i) with
    | .error msg => s.panic msg
    | .ok swapPoolTable =>
      let s := { s with swapPoolTable := swapPoolTable }
      let s := s.setTable (s.support i)
        (updatePageTable (s.current i).supPrivatePageTable v.pIndex
          (pageAddr S.swapPoolAddr v.frame))
      { s with
        tlb := updateTlb S.tlbSize s.tlb
          ((s.current i).supPrivatePageTable v.pIndex) }.setPc i (.release f)

/-- The test of one round of the loop of `mark_frames_as_unoccupied`, or the end
    of the loop. -/
def testFrame (s : SupportLevel n) (i asid : Fin n) (index : Nat) : SupportLevel n :=
  if index < POOLSIZE n then
    if (s.swapPoolTable index).swAsid = some asid then s.setPc i (.unmark asid index)
    else s.setPc i (.mark asid (index + 1))
  else s.setPc i .free

/-- The store of one round. -/
def unmarkFrame (s : SupportLevel n) (i asid : Fin n) (index : Nat) : SupportLevel n :=
  { s with
    swapPoolTable := Function.update s.swapPoolTable index
      { s.swapPoolTable index with swAsid := none } }.setPc i (.mark asid (index + 1))

/-- `deallocate`, the call as a whole: the structure goes back to `support_free`. -/
def deallocate (supportFree : List (Fin n)) (t : Fin n) : Except String (List (Fin n)) :=
  if t ∈ supportFree then .error "Double support_t %p deallocation.\n" else .ok (t :: supportFree)

/-- `allocate`, the call as a whole. -/
def allocate (supportFree : List (Fin n)) : Except String (Fin n × List (Fin n)) :=
  match supportFree with
  | [] => .error "Out of support_t\n"
  | t :: ts => .ok (t, ts)

/-- The next step of `support_tlb` or `sys_terminate` for a U-proc. A U-proc in
    user mode, one that waits and one that is not there have none. -/
def handle (S : Platform n) (s : SupportLevel n) (i : Fin n) : Option (SupportLevel n) :=
  match s.pc i with
  | .cause f => some (s.setPc i (if f.cause = CAUSE_TLB_MOD then .trap else .pass f))
  | .pass f => some (s.swapPoolOp .P i (.passing f) (.take f))
  | .take f => some (s.setSwapPoolBaton i true (.pick f 0))
  | .pick f index => some (s.pickPage i f index)
  | .copy f frame => some (s.chooseVictim i f frame)
  | .evict f v swap => some (s.evictVictim S i f v swap)
  | .write f v asid k =>
    some ((s.writeFlash (some i) asid k (some (pageAddr S.swapPoolAddr v.frame))).setPc i
      (.writing f v asid k))
  | .read f v =>
    match (s.current i).supAsid with
    | none => some (s.setPc i .trap)
    | some asid =>
      some ((s.readFlash (some i) asid v.pIndex (some (pageAddr S.swapPoolAddr v.frame))).setPc i
        (.reading f v))
  | .commit f v => some (s.commitPage S i f v)
  | .release f => some (s.swapPoolOp .V i (.releasing f) (.drop f))
  | .drop _ => some (s.setSwapPoolBaton i false .user)
  | .trap =>
    match (s.current i).supAsid with
    | none => some (s.panic "memory.c: get_swap_pool_baton: invalid asid\n")
    | some asid => some (s.setPc i (if s.swapPoolBatons asid then .clean asid else .mark asid 0))
  | .clean asid => some (s.swapPoolOp .V i (.cleaning asid) (.mark asid 0))
  | .mark asid index => some (s.testFrame i asid index)
  | .unmark asid index => some (s.unmarkFrame i asid index)
  | .free =>
    match deallocate s.supportFree (s.support i) with
    | .error msg => some (s.panic msg)
    | .ok supportFree => some ({ s with supportFree := supportFree }.setPc i .post)
  | .post => some (s.masterSemaphoreV i)
  | .exit => some (s.setPc i .dead)
  | _ => none

/-! ## The process test -/

/-- The next step of `test`. The machine halts when it terminates, because
    everybody else is its progeny. -/
def testStep (s : SupportLevel n) : Option (SupportLevel n) :=
  match s.test with
  | .alloc i =>
    if h : i < n then
      match allocate s.supportFree with
      | .error msg => some (s.panic msg)
      | .ok (t, supportFree) =>
        some { s with
          supportFree := supportFree
          supportTable := Function.update s.supportTable t
            { s.supportTable t with supAsid := some ⟨i, h⟩ }
          test := .header ⟨i, h⟩ t }
    else some { s with test := .wait 0 }
  | .header i t => some { s.readFlash none i 0 none with test := .heading i t }
  | .fill i t data =>
    some { s.setTable t (initPageTable i data) with
      swapPoolBatons := Function.update s.swapPoolBatons i false
      test := .create i t }
  | .create i t =>
    some { s.setPc i .user with
      support := Function.update s.support i t
      test := .alloc (i.val + 1) }
  | .wait i => if i < n then some (s.masterSemaphoreP i) else some { s with down := some .halt }
  | .heading _ _ => none
  | .failed _ _ => none
  | .waiting _ => none

end SupportLevel

/-! ## The system -/

/-- What happens next. -/
inductive UEvent (n : Nat)
  | touch (i : Fin n) (addr : Word) (a : Access) (cause : Word) (slot : Nat)
  | quit (i : Fin n)
  | step (i : Fin n)
  | test
  | flash (dev : Fin n) (ok : Bool)

namespace SupportLevel

/-- The next state, if the event is possible. Nothing happens on a machine that
    stopped. -/
def next (S : Platform n) (s : SupportLevel n) (e : UEvent n) : Option (SupportLevel n) :=
  match s.down with
  | some _ => none
  | none =>
    match e with
    | .touch i addr a cause slot =>
      if s.pc i = .user then s.touch S i addr a cause slot else none
    | .quit i => if s.pc i = .user then some (s.setPc i .trap) else none
    | .step i => s.handle S i
    | .test => s.testStep
    | .flash dev ok => s.complete dev ok

/-- `init_supports`. -/
def initSupports : Except String (List (Fin n)) := (List.finRange n).foldlM deallocate []

/-- The state in which `test` starts its first loop. -/
def start (S : Platform n) (supportFree : List (Fin n)) : SupportLevel n :=
  { pc := fun _ => .unborn
    test := .alloc 0
    support := id
    supportTable := fun _ => { supAsid := none, supPrivatePageTable := fun _ => ⟨0, 0⟩ }
    supportFree := supportFree
    swapPoolBatons := fun _ => false
    semSwapPoolTable := { value := 1, queue := [] }
    masterSemaphore := { value := 0, queue := [] }
    swapPoolTable := initSwapPoolTable
    fifo := -1
    tlb := fun _ => ⟨0, 0⟩
    ram := fun _ _ => 0
    flash := fun i => { queue := [], blocks := S.blocks i }
    down := none }

end SupportLevel

/-- The support level as a transition system. -/
def supportLevel (S : Platform n) : System (SupportLevel n) (UEvent n) where
  init s := ∃ free, SupportLevel.initSupports = .ok free ∧ s = SupportLevel.start S free
  step s e s' := s.next S e = some s'

end Support

end Pandos
