import Pandos.Support

/-!
# The Steps of the Support Level

What one step of the support level can do, one constructor for each branch of
the handlers that changes anything beside the place of a process in its code.
The branches that only move a U-proc on are collected in `Goes`, the reasons
for a panic in `Panics`. Invariants are proved by going through these cases
once.

## Main definitions

* `Goes`: A U-proc moves on and nothing else happens.
* `Panics`: Somebody calls `PANIC`.
* `Unlocks`: The two places that release the swap pool table.
* `UStep`: The steps of the support level.

## Theorems

* `ustep_of_next`: Every step is one of the cases.
* `swapPoolOp_moves`, `masterSemaphoreV_moves`, `masterSemaphoreP_moves`: Where
  the U-procs are after an operation on a semaphore.
* `swapPoolOp_eq`, `masterSemaphoreV_eq`, `masterSemaphoreP_eq`, `transfer_eq`:
  What the operations on the semaphores and the devices change.
-/

namespace Pandos

section UprocSteps

variable {n : Nat}

open SupportLevel

/-- U-proc `i` moves on to the given place, and nothing else happens. -/
inductive Goes (s : SupportLevel n) (i : Fin n) : Pc n → Prop
  | modification {f : Fault} (h : s.pc i = .cause f) (hc : f.cause = CAUSE_TLB_MOD) :
      Goes s i .trap
  | missing {f : Fault} (h : s.pc i = .cause f) (hc : f.cause ≠ CAUSE_TLB_MOD) :
      Goes s i (.pass f)
  | occupied {f : Fault} {index : Nat} (h : s.pc i = .pick f index) (hx : index < POOLSIZE n)
      (ho : checkFrameOccupied (s.swapPoolTable index) = true) : Goes s i (.pick f (index + 1))
  | unoccupied {f : Fault} {index : Nat} (h : s.pc i = .pick f index) (hx : index < POOLSIZE n)
      (ho : checkFrameOccupied (s.swapPoolTable index) = false) : Goes s i (.copy f index)
  | evict {f : Fault} {frame : Nat} {pVpn : Word} {pIndex : Nat} (h : s.pc i = .copy f frame)
      (hv : entryhiToVpn f.entryHi = .ok pVpn) (hx : vpnToIndex pVpn = .ok pIndex)
      (ho : checkFrameOccupied (s.swapPoolTable frame) = true) :
      Goes s i (.evict f { frame := frame, pVpn := pVpn, pIndex := pIndex } (s.swapPoolTable frame))
  | read {f : Fault} {frame : Nat} {pVpn : Word} {pIndex : Nat} (h : s.pc i = .copy f frame)
      (hv : entryhiToVpn f.entryHi = .ok pVpn) (hx : vpnToIndex pVpn = .ok pIndex)
      (ho : checkFrameOccupied (s.swapPoolTable frame) = false) :
      Goes s i (.read f { frame := frame, pVpn := pVpn, pIndex := pIndex })
  | nobody {f : Fault} {v : Victim} {swap : Swap n} (h : s.pc i = .evict f v swap)
      (ho : swap.swAsid = none ∨ swap.swPte = none) : Goes s i .trap
  | nameless {f : Fault} {v : Victim} (h : s.pc i = .read f v ∨ s.pc i = .commit f v)
      (ha : (s.current i).supAsid = none) : Goes s i .trap
  | clean {asid : Fin n} (h : s.pc i = .trap) (ha : (s.current i).supAsid = some asid)
      (hb : s.swapPoolBatons asid = true) : Goes s i (.clean asid)
  | mark {asid : Fin n} (h : s.pc i = .trap) (ha : (s.current i).supAsid = some asid)
      (hb : s.swapPoolBatons asid = false) : Goes s i (.mark asid 0)
  | kept {asid : Fin n} {index : Nat} (h : s.pc i = .mark asid index) (hx : index < POOLSIZE n)
      (ho : (s.swapPoolTable index).swAsid ≠ some asid) : Goes s i (.mark asid (index + 1))
  | owned {asid : Fin n} {index : Nat} (h : s.pc i = .mark asid index) (hx : index < POOLSIZE n)
      (ho : (s.swapPoolTable index).swAsid = some asid) : Goes s i (.unmark asid index)
  | marked {asid : Fin n} {index : Nat} (h : s.pc i = .mark asid index)
      (hx : ¬ index < POOLSIZE n) : Goes s i .free
  | die (h : s.pc i = .exit) : Goes s i .dead

/-- Somebody calls `PANIC` in a state in which `e` happens. -/
inductive Panics (S : Platform n) (s : SupportLevel n) : UEvent n → Prop
  | refill {i : Fin n} {addr cause : Word} {a : Access} {slot : Nat} {msg : String}
      (h : s.pc i = .user) (ha : ¬ addr < KUSEG) (hl : s.lookup S i addr = none)
      (he : tlbRefillEntry (s.current i).supPrivatePageTable (entryHiOf i addr) = .error msg) :
      Panics S s (.touch i addr a cause slot)
  | baton {i : Fin n} {f : Fault} (h : s.pc i = .take f ∨ s.pc i = .drop f ∨ s.pc i = .trap)
      (ha : (s.current i).supAsid = none) : Panics S s (.step i)
  | vpn {i : Fin n} {f : Fault} {frame : Nat} {msg : String} (h : s.pc i = .copy f frame)
      (he : entryhiToVpn f.entryHi = .error msg) : Panics S s (.step i)
  | index {i : Fin n} {f : Fault} {frame : Nat} {pVpn : Word} {msg : String}
      (h : s.pc i = .copy f frame) (hv : entryhiToVpn f.entryHi = .ok pVpn)
      (he : vpnToIndex pVpn = .error msg) : Panics S s (.step i)
  | evict {i : Fin n} {f : Fault} {v : Victim} {swap : Swap n} {asid t : Fin n} {k : Nat}
      {msg : String} (h : s.pc i = .evict f v swap) (ha : swap.swAsid = some asid)
      (hp : swap.swPte = some (t, k))
      (he : entryhiToIndex ((s.supportTable t).supPrivatePageTable k).pteEntryHi = .error msg) :
      Panics S s (.step i)
  | commit {i : Fin n} {f : Fault} {v : Victim} {msg : String} (h : s.pc i = .commit f v)
      (he : vpnToIndex v.pVpn = .error msg) : Panics S s (.step i)
  | double {i : Fin n} (h : s.pc i = .free) (ht : s.support i ∈ s.supportFree) :
      Panics S s (.step i)
  | empty {i : Nat} (h : s.test = .alloc i) (hi : i < n) (he : s.supportFree = []) :
      Panics S s .test

/-- The two places at which a U-proc performs `VERHOGEN` on the semaphore of the
    swap pool table: where it would wait, and where it goes on. -/
inductive Unlocks : Pc n → Pc n → Pc n → Prop
  | release (f : Fault) : Unlocks (.release f) (.releasing f) (.drop f)
  | clean (asid : Fin n) : Unlocks (.clean asid) (.cleaning asid) (.mark asid 0)

/-- The steps of the support level. -/
inductive UStep (S : Platform n) (s : SupportLevel n) : UEvent n → SupportLevel n → Prop
  | panic {e : UEvent n} (msg : String) (h : Panics S s e) : UStep S s e (s.panic msg)
  | quit {e : UEvent n} {i : Fin n} (h : s.pc i = .user)
      (he : e = .quit i ∨ ∃ addr a cause slot, e = .touch i addr a cause slot ∧ addr < KUSEG) :
      UStep S s e (s.setPc i .trap)
  | refill {i : Fin n} {addr cause : Word} {a : Access} {slot : Nat} {pte : PteEntry}
      (h : s.pc i = .user) (ha : ¬ addr < KUSEG) (hl : s.lookup S i addr = none)
      (he : tlbRefillEntry (s.current i).supPrivatePageTable (entryHiOf i addr) = .ok pte)
      (hs : slot < S.tlbSize) :
      UStep S s (.touch i addr a cause slot) { s with tlb := addRandomInTlb s.tlb slot pte }
  | fault {i : Fin n} {addr cause : Word} {a : Access} {slot : Nat} {e : PteEntry} {code : Word}
      (h : s.pc i = .user) (ha : ¬ addr < KUSEG) (hl : s.lookup S i addr = some e)
      (hr : a.refused e = some code) (hc : CAUSE_GET_EXCCODE cause = code) :
      UStep S s (.touch i addr a cause slot)
        (s.setPc i (.cause { cause := cause, entryHi := entryHiOf i addr }))
  | access {i : Fin n} {addr cause : Word} {a : Access} {slot : Nat} {e : PteEntry}
      (h : s.pc i = .user) (ha : ¬ addr < KUSEG) (hl : s.lookup S i addr = some e)
      (hr : a.refused e = none) :
      UStep S s (.touch i addr a cause slot)
        { s with
          ram := Function.update s.ram (PteEntry.frame e)
            (Function.update (s.ram (PteEntry.frame e)) (offset addr)
              (a.result (s.word (PteEntry.frame e) addr))) }
  | goes {i : Fin n} {pc : Pc n} (h : Goes s i pc) : UStep S s (.step i) (s.setPc i pc)
  | lock {i : Fin n} {f : Fault} (h : s.pc i = .pass f) :
      UStep S s (.step i) (s.swapPoolOp .P i (.passing f) (.take f))
  | take {i : Fin n} {f : Fault} {asid : Fin n} (h : s.pc i = .take f)
      (ha : (s.current i).supAsid = some asid) :
      UStep S s (.step i) ({ s with
        swapPoolBatons := Function.update s.swapPoolBatons asid true }.setPc i (.pick f 0))
  | fifo {i : Fin n} {f : Fault} {index : Nat} (h : s.pc i = .pick f index)
      (hx : ¬ index < POOLSIZE n) :
      UStep S s (.step i) ({ s with
        fifo := BitVec.ofNat 32 ((s.fifo + 1).toNat % POOLSIZE n) }.setPc i
          (.copy f ((s.fifo + 1).toNat % POOLSIZE n)))
  | evict {i : Fin n} {f : Fault} {v : Victim} {swap : Swap n} {asid t : Fin n} {k kIndex : Nat}
      (h : s.pc i = .evict f v swap) (ha : swap.swAsid = some asid) (hp : swap.swPte = some (t, k))
      (hx : entryhiToIndex ((s.supportTable t).supPrivatePageTable k).pteEntryHi = .ok kIndex)
      {s₁ : SupportLevel n}
      (h₁ : s₁ = s.setTable (s.support i)
        (markPageNotValid (s.current i).supPrivatePageTable kIndex)) :
      UStep S s (.step i) ({ s₁ with
        tlb := updateTlb S.tlbSize s.tlb
          ((s₁.supportTable t).supPrivatePageTable k) }.setPc i (.write f v asid kIndex))
  | write {i : Fin n} {f : Fault} {v : Victim} {asid : Fin n} {k : Nat}
      (h : s.pc i = .write f v asid k) :
      UStep S s (.step i)
        ((s.writeFlash (some i) asid k (some (pageAddr S.swapPoolAddr v.frame))).setPc i
          (.writing f v asid k))
  | read {i : Fin n} {f : Fault} {v : Victim} {asid : Fin n} (h : s.pc i = .read f v)
      (ha : (s.current i).supAsid = some asid) :
      UStep S s (.step i)
        ((s.readFlash (some i) asid v.pIndex (some (pageAddr S.swapPoolAddr v.frame))).setPc i
          (.reading f v))
  | commit {i : Fin n} {f : Fault} {v : Victim} {asid : Fin n} {index : Nat}
      (h : s.pc i = .commit f v) (ha : (s.current i).supAsid = some asid)
      (hx : vpnToIndex v.pVpn = .ok index) {table : PageTable}
      (ht : table = updatePageTable (s.current i).supPrivatePageTable v.pIndex
        (pageAddr S.swapPoolAddr v.frame)) :
      UStep S s (.step i) ({ s.setTable (s.support i) table with
        swapPoolTable := Function.update s.swapPoolTable v.frame
          { swAsid := some asid, swPageNo := v.pVpn, swPte := some (s.support i, index) }
        tlb := updateTlb S.tlbSize s.tlb (table v.pIndex) }.setPc i (.release f))
  | unlock {i : Fin n} {blocked next : Pc n} (h : Unlocks (s.pc i) blocked next) :
      UStep S s (.step i) (s.swapPoolOp .V i blocked next)
  | drop {i : Fin n} {f : Fault} {asid : Fin n} (h : s.pc i = .drop f)
      (ha : (s.current i).supAsid = some asid) :
      UStep S s (.step i) ({ s with
        swapPoolBatons := Function.update s.swapPoolBatons asid false }.setPc i .user)
  | unmark {i asid : Fin n} {index : Nat} (h : s.pc i = .unmark asid index) :
      UStep S s (.step i) ({ s with
        swapPoolTable := Function.update s.swapPoolTable index
          { s.swapPoolTable index with swAsid := none } }.setPc i (.mark asid (index + 1)))
  | free {i : Fin n} (h : s.pc i = .free) (ht : s.support i ∉ s.supportFree) :
      UStep S s (.step i) ({ s with
        supportFree := s.support i :: s.supportFree }.setPc i .post)
  | post {i : Fin n} (h : s.pc i = .post) : UStep S s (.step i) (s.masterSemaphoreV i)
  | complete {dev : Fin n} {ok : Bool} {r : Request n} {rest : List (Request n)}
      (h : (s.flash dev).queue = r :: rest) {s₁ : SupportLevel n}
      (h₁ : s₁ = if ok then s.transfer dev r else s) :
      UStep S s (.flash dev ok)
        ({ s₁ with
          flash := Function.update s₁.flash dev { s₁.flash dev with queue := rest } }.finish r.who
          ok ((s.flash dev).blocks (r.command >>> FLASHCMDSHIFT).toNat))
  | alloc {i t : Fin n} {ts : List (Fin n)} (h : s.test = .alloc i.val)
      (hf : s.supportFree = t :: ts) :
      UStep S s .test { s with
        supportFree := ts
        supportTable := Function.update s.supportTable t
          { s.supportTable t with supAsid := some i }
        test := .header i t }
  | created {i : Nat} (h : s.test = .alloc i) (hi : ¬ i < n) :
      UStep S s .test { s with test := .wait 0 }
  | header {i t : Fin n} (h : s.test = .header i t) :
      UStep S s .test { s.readFlash none i 0 none with test := .heading i t }
  | fill {i t : Fin n} {data : Page} (h : s.test = .fill i t data) :
      UStep S s .test { s.setTable t (initPageTable i data) with
        swapPoolBatons := Function.update s.swapPoolBatons i false
        test := .create i t }
  | create {i t : Fin n} (h : s.test = .create i t) :
      UStep S s .test { s.setPc i .user with
        support := Function.update s.support i t
        test := .alloc (i.val + 1) }
  | wait {i : Nat} (h : s.test = .wait i) (hi : i < n) : UStep S s .test (s.masterSemaphoreP i)
  | halt {i : Nat} (h : s.test = .wait i) (hi : ¬ i < n) :
      UStep S s .test { s with down := some .halt }

/-- The steps of a U-proc that touches memory. -/
theorem ustep_of_touch {S : Platform n} {s s' : SupportLevel n} {i : Fin n} {addr cause : Word}
    {a : Access} {slot : Nat} (hpc : s.pc i = .user)
    (h : s.touch S i addr a cause slot = some s') : UStep S s (.touch i addr a cause slot) s' := by
  unfold touch at h
  by_cases ha : addr < KUSEG
  · rw [if_pos ha, Option.some.injEq] at h
    exact h ▸ UStep.quit hpc (Or.inr ⟨_, _, _, _, rfl, ha⟩)
  · rw [if_neg ha] at h
    cases hl : s.lookup S i addr with
    | none =>
        simp only [hl] at h
        cases he : tlbRefillEntry (s.current i).supPrivatePageTable (entryHiOf i addr) with
        | error msg =>
            simp only [he, Option.some.injEq] at h
            exact h ▸ UStep.panic msg (Panics.refill hpc ha hl he)
        | ok pte =>
            simp only [he] at h
            by_cases hs : slot < S.tlbSize
            · rw [if_pos hs, Option.some.injEq] at h
              exact h ▸ UStep.refill hpc ha hl he hs
            · rw [if_neg hs] at h
              cases h
    | some e =>
        simp only [hl] at h
        cases hr : a.refused e with
        | none =>
            simp only [hr, Option.some.injEq] at h
            exact h ▸ UStep.access hpc ha hl hr
        | some code =>
            simp only [hr] at h
            by_cases hc : CAUSE_GET_EXCCODE cause = code
            · rw [if_pos hc, Option.some.injEq] at h
              exact h ▸ UStep.fault hpc ha hl hr hc
            · rw [if_neg hc] at h
              cases h

/-- The steps of `pick_page`. -/
theorem ustep_of_pick {S : Platform n} {s : SupportLevel n} {i : Fin n} {f : Fault} {index : Nat}
    (hpc : s.pc i = .pick f index) : UStep S s (.step i) (s.pickPage i f index) := by
  unfold pickPage
  by_cases hx : index < POOLSIZE n
  · rw [if_pos hx]
    cases ho : checkFrameOccupied (s.swapPoolTable index) with
    | true =>
        rw [if_pos rfl]
        exact UStep.goes (Goes.occupied hpc hx ho)
    | false =>
        rw [if_neg Bool.false_ne_true]
        exact UStep.goes (Goes.unoccupied hpc hx ho)
  · rw [if_neg hx]
    exact UStep.fifo hpc hx

/-- The steps that prepare an eviction. -/
theorem ustep_of_copy {S : Platform n} {s : SupportLevel n} {i : Fin n} {f : Fault} {frame : Nat}
    (hpc : s.pc i = .copy f frame) : UStep S s (.step i) (s.chooseVictim i f frame) := by
  unfold chooseVictim
  cases hv : entryhiToVpn f.entryHi with
  | error msg => exact UStep.panic msg (Panics.vpn hpc hv)
  | ok pVpn =>
      cases hx : vpnToIndex pVpn with
      | error msg =>
          simp only [hx]
          exact UStep.panic msg (Panics.index hpc hv hx)
      | ok pIndex =>
          simp only [hx]
          cases ho : checkFrameOccupied (s.swapPoolTable frame) with
          | true =>
              rw [if_pos rfl]
              exact UStep.goes (Goes.evict hpc hv hx ho)
          | false =>
              rw [if_neg Bool.false_ne_true]
              exact UStep.goes (Goes.read hpc hv hx ho)

/-- The steps of the first block with interrupts off. -/
theorem ustep_of_evict {S : Platform n} {s : SupportLevel n} {i : Fin n} {f : Fault} {v : Victim}
    {swap : Swap n} (hpc : s.pc i = .evict f v swap) :
    UStep S s (.step i) (s.evictVictim S i f v swap) := by
  unfold evictVictim
  cases ha : swap.swAsid with
  | none => exact UStep.goes (Goes.nobody hpc (Or.inl ha))
  | some asid =>
      cases hp : swap.swPte with
      | none => exact UStep.goes (Goes.nobody hpc (Or.inr hp))
      | some tk =>
          rcases tk with ⟨t, k⟩
          cases hx : entryhiToIndex ((s.supportTable t).supPrivatePageTable k).pteEntryHi with
          | error msg =>
              simp only [hx]
              exact UStep.panic msg (Panics.evict hpc ha hp hx)
          | ok kIndex =>
              simp only [hx]
              exact UStep.evict hpc ha hp hx rfl

/-- The steps of the second block with interrupts off. -/
theorem ustep_of_commit {S : Platform n} {s : SupportLevel n} {i : Fin n} {f : Fault} {v : Victim}
    (hpc : s.pc i = .commit f v) : UStep S s (.step i) (s.commitPage S i f v) := by
  unfold commitPage
  cases ha : (s.current i).supAsid with
  | none => exact UStep.goes (Goes.nameless (Or.inr hpc) ha)
  | some asid =>
      cases hx : vpnToIndex v.pVpn with
      | error msg =>
          simp only [addEntrySwapPoolTable, hx, Except.map]
          exact UStep.panic msg (Panics.commit hpc hx)
      | ok index =>
          simp only [addEntrySwapPoolTable, hx, Except.map]
          have hstep := UStep.commit (S := S) hpc ha hx rfl
          -- The second block reads the table through its own support structure.
          convert hstep using 2
          simp only [current, setTable, Function.update_self]

/-- The test of a round of `mark_frames_as_unoccupied`. -/
theorem ustep_of_mark {S : Platform n} {s : SupportLevel n} {i asid : Fin n} {index : Nat}
    (hpc : s.pc i = .mark asid index) : UStep S s (.step i) (s.testFrame i asid index) := by
  unfold testFrame
  by_cases hx : index < POOLSIZE n
  · rw [if_pos hx]
    by_cases ho : (s.swapPoolTable index).swAsid = some asid
    · rw [if_pos ho]
      exact UStep.goes (Goes.owned hpc hx ho)
    · rw [if_neg ho]
      exact UStep.goes (Goes.kept hpc hx ho)
  · rw [if_neg hx]
    exact UStep.goes (Goes.marked hpc hx)

/-- The steps of the handlers. -/
theorem ustep_of_handle {S : Platform n} {s s' : SupportLevel n} {i : Fin n}
    (h : s.handle S i = some s') : UStep S s (.step i) s' := by
  unfold handle at h
  cases hpc : s.pc i with
  | cause f =>
      simp only [hpc, Option.some.injEq] at h
      by_cases hc : f.cause = CAUSE_TLB_MOD
      · rw [if_pos hc] at h
        exact h ▸ UStep.goes (Goes.modification hpc hc)
      · rw [if_neg hc] at h
        exact h ▸ UStep.goes (Goes.missing hpc hc)
  | pass f =>
      simp only [hpc, Option.some.injEq] at h
      exact h ▸ UStep.lock hpc
  | take f =>
      simp only [hpc, Option.some.injEq, setSwapPoolBaton] at h
      cases ha : (s.current i).supAsid with
      | none =>
          rw [ha] at h
          exact h ▸ UStep.panic _ (Panics.baton (Or.inl hpc) ha)
      | some asid =>
          rw [ha] at h
          exact h ▸ UStep.take hpc ha
  | pick f index =>
      simp only [hpc, Option.some.injEq] at h
      exact h ▸ ustep_of_pick hpc
  | copy f frame =>
      simp only [hpc, Option.some.injEq] at h
      exact h ▸ ustep_of_copy hpc
  | evict f v swap =>
      simp only [hpc, Option.some.injEq] at h
      exact h ▸ ustep_of_evict hpc
  | write f v asid k =>
      simp only [hpc, Option.some.injEq] at h
      exact h ▸ UStep.write hpc
  | read f v =>
      simp only [hpc] at h
      cases ha : (s.current i).supAsid with
      | none =>
          simp only [ha, Option.some.injEq] at h
          exact h ▸ UStep.goes (Goes.nameless (Or.inl hpc) ha)
      | some asid =>
          simp only [ha, Option.some.injEq] at h
          exact h ▸ UStep.read hpc ha
  | commit f v =>
      simp only [hpc, Option.some.injEq] at h
      exact h ▸ ustep_of_commit hpc
  | release f =>
      simp only [hpc, Option.some.injEq] at h
      exact h ▸ UStep.unlock (hpc ▸ Unlocks.release f)
  | drop f =>
      simp only [hpc, Option.some.injEq, setSwapPoolBaton] at h
      cases ha : (s.current i).supAsid with
      | none =>
          rw [ha] at h
          exact h ▸ UStep.panic _ (Panics.baton (f := f) (Or.inr (Or.inl hpc)) ha)
      | some asid =>
          rw [ha] at h
          exact h ▸ UStep.drop hpc ha
  | trap =>
      simp only [hpc] at h
      cases ha : (s.current i).supAsid with
      | none =>
          simp only [ha, Option.some.injEq] at h
          exact h ▸ UStep.panic _ (Panics.baton (f := ⟨0, 0⟩) (Or.inr (Or.inr hpc)) ha)
      | some asid =>
          simp only [ha, Option.some.injEq] at h
          cases hb : s.swapPoolBatons asid with
          | true =>
              rw [hb, if_pos rfl] at h
              exact h ▸ UStep.goes (Goes.clean hpc ha hb)
          | false =>
              rw [hb, if_neg Bool.false_ne_true] at h
              exact h ▸ UStep.goes (Goes.mark hpc ha hb)
  | clean asid =>
      simp only [hpc, Option.some.injEq] at h
      exact h ▸ UStep.unlock (hpc ▸ Unlocks.clean asid)
  | mark asid index =>
      simp only [hpc, Option.some.injEq] at h
      exact h ▸ ustep_of_mark hpc
  | unmark asid index =>
      simp only [hpc, Option.some.injEq] at h
      exact h ▸ UStep.unmark hpc
  | free =>
      simp only [hpc, deallocate] at h
      by_cases ht : s.support i ∈ s.supportFree
      · simp only [if_pos ht, Option.some.injEq] at h
        exact h ▸ UStep.panic _ (Panics.double hpc ht)
      · simp only [if_neg ht, Option.some.injEq] at h
        exact h ▸ UStep.free hpc ht
  | post =>
      simp only [hpc, Option.some.injEq] at h
      exact h ▸ UStep.post hpc
  | exit =>
      simp only [hpc, Option.some.injEq] at h
      exact h ▸ UStep.goes (Goes.die hpc)
  | _ =>
      simp only [hpc, reduceCtorEq] at h

/-- The steps of `test`. -/
theorem ustep_of_test {S : Platform n} {s s' : SupportLevel n} (h : s.testStep = some s') :
    UStep S s .test s' := by
  unfold testStep at h
  cases htest : s.test with
  | alloc i =>
      simp only [htest] at h
      -- The loop over the ASIDs ends at `n`.
      by_cases hi : i < n
      · rw [dif_pos hi] at h
        cases hf : s.supportFree with
        | nil =>
            simp only [hf, allocate, Option.some.injEq] at h
            exact h ▸ UStep.panic _ (Panics.empty htest hi hf)
        | cons t ts =>
            simp only [hf, allocate, Option.some.injEq] at h
            exact h ▸ UStep.alloc (i := ⟨i, hi⟩) htest hf
      · rw [dif_neg hi, Option.some.injEq] at h
        exact h ▸ UStep.created htest hi
  | header i t =>
      simp only [htest, Option.some.injEq] at h
      exact h ▸ UStep.header htest
  | fill i t data =>
      simp only [htest, Option.some.injEq] at h
      exact h ▸ UStep.fill htest
  | create i t =>
      simp only [htest, Option.some.injEq] at h
      exact h ▸ UStep.create htest
  | wait i =>
      simp only [htest] at h
      by_cases hi : i < n
      · rw [if_pos hi, Option.some.injEq] at h
        exact h ▸ UStep.wait htest hi
      · rw [if_neg hi, Option.some.injEq, ← htest] at h
        exact h ▸ UStep.halt htest hi
  | _ =>
      simp only [htest, reduceCtorEq] at h

/-- Every step is one of the cases, and the machine was running. -/
theorem ustep_of_next {S : Platform n} {s s' : SupportLevel n} {e : UEvent n}
    (h : s.next S e = some s') : s.down = none ∧ UStep S s e s' := by
  unfold next at h
  cases hd : s.down with
  | some d => simp only [hd, reduceCtorEq] at h
  | none =>
      refine ⟨rfl, ?_⟩
      simp only [hd] at h
      cases e with
      | touch i addr a cause slot =>
          simp only [] at h
          by_cases hpc : s.pc i = .user
          · rw [if_pos hpc] at h
            exact ustep_of_touch hpc h
          · rw [if_neg hpc] at h
            cases h
      | quit i =>
          simp only [] at h
          by_cases hpc : s.pc i = .user
          · rw [if_pos hpc, Option.some.injEq] at h
            exact h ▸ UStep.quit hpc (Or.inl rfl)
          · rw [if_neg hpc] at h
            cases h
      | step i => exact ustep_of_handle h
      | test => exact ustep_of_test h
      | flash dev ok =>
          simp only [complete] at h
          cases hq : (s.flash dev).queue with
          | nil => simp only [hq, reduceCtorEq] at h
          | cons r rest =>
              simp only [hq, Option.some.injEq] at h
              exact h ▸ UStep.complete hq rfl

/-! ## What the semaphores change -/

/-- The places of the U-procs after one of them was released. -/
theorem update_resumed (pc : Fin n → Pc n) (t j : Fin n) :
    Function.update pc t (pc t).resumed j = if t = j then (pc j).resumed else pc j := by
  rw [Function.update_apply]
  by_cases hj : j = t
  · rw [if_pos hj, if_pos hj.symm, hj]
  · rw [if_neg hj, if_neg (show ¬ t = j from fun hc => hj hc.symm)]

theorem swapPoolOp_eq (s : SupportLevel n) (o : SemOp) (i : Fin n) (blocked next : Pc n) :
    s.swapPoolOp o i blocked next =
      { s with
        semSwapPoolTable := (s.semSwapPoolTable.op o i).sem
        pc := fun j =>
          if j = i then if (s.semSwapPoolTable.op o i).waits then blocked else next
          else if (s.semSwapPoolTable.op o i).woken = some j then (s.pc j).resumed
          else s.pc j } := by
  unfold swapPoolOp
  cases hw : (s.semSwapPoolTable.op o i).woken with
  | none =>
      simp only [setPc, hw, reduceCtorEq, if_false]
      congr 1
      funext j
      rw [Function.update_apply]
  | some t =>
      simp only [setPc, resume, hw, Option.some.injEq]
      congr 1
      funext j
      rw [Function.update_apply, update_resumed]

theorem masterSemaphoreV_eq (s : SupportLevel n) (i : Fin n) :
    s.masterSemaphoreV i =
      { s with
        masterSemaphore := (s.masterSemaphore.op .V (some i)).sem
        test := if (s.masterSemaphore.op .V (some i)).woken = some none then s.test.resumed
          else s.test
        pc := fun j =>
          if j = i then if (s.masterSemaphore.op .V (some i)).waits then .posting else .exit
          else if (s.masterSemaphore.op .V (some i)).woken = some (some j) then (s.pc j).resumed
          else s.pc j } := by
  unfold masterSemaphoreV
  cases hw : (s.masterSemaphore.op .V (some i)).woken with
  | none =>
      simp only [setPc, hw, reduceCtorEq, if_false]
      congr 1
      funext j
      rw [Function.update_apply]
  | some t =>
      cases t with
      | none =>
          simp only [setPc, resume, hw, Option.some.injEq, reduceCtorEq, if_false, if_true]
          congr 1
          funext j
          rw [Function.update_apply]
      | some t =>
          simp only [setPc, resume, hw, Option.some.injEq, reduceCtorEq, if_false]
          congr 1
          funext j
          rw [Function.update_apply, update_resumed]

theorem masterSemaphoreP_eq (s : SupportLevel n) (i : Nat) :
    s.masterSemaphoreP i =
      { s with
        masterSemaphore := (s.masterSemaphore.op .P none).sem
        test := if (s.masterSemaphore.op .P none).waits then .waiting i else .wait (i + 1)
        pc := fun j =>
          if (s.masterSemaphore.op .P none).woken = some (some j) then (s.pc j).resumed
          else s.pc j } := by
  unfold masterSemaphoreP
  cases hw : (s.masterSemaphore.op .P none).woken with
  | none => simp only [hw, reduceCtorEq, if_false]
  | some t =>
      cases t with
      | none => simp only [resume, hw, Option.some.injEq, reduceCtorEq, if_false]
      | some t =>
          simp only [setPc, resume, hw, Option.some.injEq]
          congr 1
          funext j
          rw [update_resumed]

section Moves

variable {s : SupportLevel n} {R : Fin n → Pc n → Prop}

/-- What holds wherever a U-proc may be after one of them moved on. -/
theorem moves_update {i : Fin n} {pc : Pc n} (hpc : R i pc) (hrest : ∀ j, R j (s.pc j))
    (j : Fin n) : R j (Function.update s.pc i pc j) :=
  (Function.forall_update_iff s.pc R).mpr ⟨hpc, fun j _ => hrest j⟩ j

/-- What holds wherever a U-proc may be after an operation on a semaphore. The
    caller waits or goes on, and at most one other U-proc is released. -/
theorem moves_of_op {i : Fin n} {blocked next : Pc n} (hblocked : R i blocked) (hnext : R i next)
    (hresumed : ∀ j, R j (s.pc j).resumed) (hrest : ∀ j, R j (s.pc j)) (waits : Bool)
    (released : Fin n → Prop) [DecidablePred released] (j : Fin n) :
    R j (if j = i then if waits then blocked else next
      else if released j then (s.pc j).resumed else s.pc j) := by
  by_cases hj : j = i
  · rw [hj, if_pos rfl]
    cases waits with
    | true => exact hblocked
    | false => exact hnext
  · rw [if_neg hj]
    by_cases hr : released j
    · rw [if_pos hr]
      exact hresumed j
    · rw [if_neg hr]
      exact hrest j

theorem swapPoolOp_moves {o : SemOp} {i : Fin n} {blocked next : Pc n} (hblocked : R i blocked)
    (hnext : R i next) (hresumed : ∀ j, R j (s.pc j).resumed) (hrest : ∀ j, R j (s.pc j))
    (j : Fin n) : R j ((s.swapPoolOp o i blocked next).pc j) := by
  rw [swapPoolOp_eq]
  exact moves_of_op hblocked hnext hresumed hrest _
    (fun j => (s.semSwapPoolTable.op o i).woken = some j) j

theorem masterSemaphoreV_moves {i : Fin n} (hblocked : R i .posting) (hnext : R i .exit)
    (hresumed : ∀ j, R j (s.pc j).resumed) (hrest : ∀ j, R j (s.pc j)) (j : Fin n) :
    R j ((s.masterSemaphoreV i).pc j) := by
  rw [masterSemaphoreV_eq]
  exact moves_of_op hblocked hnext hresumed hrest _
    (fun j => (s.masterSemaphore.op .V (some i)).woken = some (some j)) j

theorem masterSemaphoreP_moves {k : Nat} (hresumed : ∀ j, R j (s.pc j).resumed)
    (hrest : ∀ j, R j (s.pc j)) (j : Fin n) : R j ((s.masterSemaphoreP k).pc j) := by
  rw [masterSemaphoreP_eq]
  simp only []
  split
  · exact hresumed j
  · exact hrest j

/-- A `master_semaphore_v` lets `test` begin nothing but its next round. -/
theorem masterSemaphoreV_test {i : Fin n} {t : TestPc n} (ht : ∀ k, t ≠ .wait k)
    (h : (s.masterSemaphoreV i).test = t) : s.test = t := by
  rw [masterSemaphoreV_eq] at h
  simp only [] at h
  split at h
  · cases htest : s.test with
    | waiting k =>
        rw [htest] at h
        exact absurd h.symm (ht (k + 1))
    | _ =>
        rw [htest] at h
        exact h
  · exact h

/-- A `master_semaphore_p` lets `test` begin nothing but its next round. -/
theorem masterSemaphoreP_test {i : Nat} {t : TestPc n} (ht : ∀ k, t ≠ .wait k)
    (hb : ∀ k, t ≠ .waiting k) : (s.masterSemaphoreP i).test ≠ t := by
  rw [masterSemaphoreP_eq]
  simp only []
  split
  · exact (hb i).symm
  · exact (ht (i + 1)).symm

end Moves

/-- A flash operation changes memory and blocks only. -/
theorem transfer_eq {s s₁ : SupportLevel n} {dev : Fin n} {r : Request n} {ok : Bool}
    (h : s₁ = if ok then s.transfer dev r else s) :
    ∃ (ram : Word → Page) (blocks : Fin n → Nat → Page), s₁ = { s with
      ram := ram
      flash := fun d => { s.flash d with blocks := blocks d } } := by
  have hself : ∃ (ram : Word → Page) (blocks : Fin n → Nat → Page), s = { s with
      ram := ram
      flash := fun d => { s.flash d with blocks := blocks d } } :=
    ⟨s.ram, fun d => (s.flash d).blocks, rfl⟩
  rw [h]
  cases ok with
  | false => exact hself
  | true =>
      rw [if_pos rfl]
      -- A read replaces a frame, a write a block.
      unfold transfer
      cases ha : r.data0 with
      | none => exact hself
      | some a =>
          simp only []
          split
          · exact ⟨_, fun d => (s.flash d).blocks, rfl⟩
          · split
            · refine ⟨s.ram, fun d => if d = dev then Function.update (s.flash dev).blocks
                (r.command >>> FLASHCMDSHIFT).toNat (s.ram a) else (s.flash d).blocks, ?_⟩
              congr 1
              funext d
              by_cases hd : d = dev
              · simp only [hd, Function.update_self, if_true]
              · simp only [Function.update_of_ne hd, if_neg hd]
            · exact hself

end UprocSteps

end Pandos
