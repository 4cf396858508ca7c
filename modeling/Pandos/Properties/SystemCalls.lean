import Pandos.Properties.Registers
import Pandos.Theory.SupportIo

/-!
# Strings In and Out

What a U-proc gets for a request that prints a string or reads a line. The
handlers of all U-procs take turns with the pager, so between two characters
pages of the caller can be written back and come back again. In runs of benign
steps none of this shows: a device sees the characters that stand in the memory
of the caller, and the memory afterwards is the one before with the line in it.

## Theorems

* `fulfilled_on_return`: What a request has come to when its handler returns.
* `string_delivered`: `WRITEPRINTER` and `WRITETERMINAL`.
* `line_received`: `READTERMINAL`.
-/

namespace Pandos

section SystemCalls

variable {n : Nat} {S : Platform n} {c c' : CallLevel n} {w w' : Watch n} {i : Fin n}

open SupportLevel CallLevel Buffers

/-- A handler that returns to its caller has fulfilled the request, and leaves the
    memory alone in its last step. -/
theorem fulfilled_on_return (hn : n < 64) (hal : S.Aligned) {es : List (CallEvent n)}
    (h : (watchedCalls S).Run es (c, w)) {e : CallEvent n}
    (hstep : (watchedCalls S).step (c, w) e (c', w')) (hbusy : c.call i ≠ .user)
    (hback : c'.call i = .user) : ∃ v, c'.regs i = advanced ((w.request i).setReg .v0 v) ∧
      Fulfilled i (w.request i) (w.before i) (w'.flat i) (w'.log i) v := by
  have hattended := serving_run hn hal h i
  rcases watched_level h with ⟨es', hlevel⟩
  have ho := allotted_run (System.run_of_restrict (System.run_of_observed hlevel))
  rcases hstep with ⟨⟨hnext, _⟩, hw⟩
  simp only at hnext hw
  subst hw
  -- Only the handler of the U-proc itself gets back to it.
  cases e with
  | level e s =>
      exfalso
      cases cstep_of_next hnext with
      | @level _ _ level =>
          rcases follow_call c e s level i with hc | ⟨word, hc⟩
          · exact hbusy (hc ▸ hback)
          · exact hbusy (accessed_user (hc ▸ hback))
  | trap j s =>
      exfalso
      cases cstep_of_next hnext with
      | trap =>
          by_cases hij : i = j
          · rw [hij, setCall_self] at hback
            cases hback
          · rw [setCall_other _ hij] at hback
            exact hbusy hback
  | call j x answer =>
      rcases call_of_next ho hnext with ⟨hj, hask, pc, s, hcall, hc'⟩
      by_cases hload : c.call j = .load
      · rw [if_pos hload] at hc'
        have hij : i = j := by
          by_contra hij
          rw [hc', loadState_call, setCall_other _ hij] at hback
          exact hbusy hback
        subst hij
        rw [hload] at hcall hask
        cases hcall
        have hserving := hattended.serving (holding_of_user hj)
        rw [hload] at hserving
        rcases hserving with ⟨v, hsaved, hf⟩
        refine ⟨v, ?_, ?_⟩
        · rw [hc', loadState_regs]
          exact hsaved
        · simp only [Watch.note, hask, CallPc.ask, Ask.traffic, List.append_nil,
            Function.update_self]
          exact hf
      · exfalso
        rw [if_neg hload] at hc'
        by_cases hij : i = j
        · subst hij
          rw [hc', setCall_self] at hback
          rw [hback] at hcall
          exact hload (callStep_user hcall)
        · rw [hc', setCall_other _ hij] at hback
          exact hbusy hback

/-- A U-proc that asks for a string to be printed goes on past its request with
    the result in `reg_v0`. Its printer or its terminal was given the characters
    that stand in the buffer, one after the other and nothing else, and the memory
    of the U-proc has not changed. All of them were accepted and the result is
    their number, or the last one given was not accepted and the result is its
    status with the sign changed. -/
theorem string_delivered (hn : n < 64) (hal : S.Aligned) {es : List (CallEvent n)}
    (h : (watchedCalls S).Run es (c, w)) {e : CallEvent n}
    (hstep : (watchedCalls S).step (c, w) e (c', w')) (hbusy : c.call i ≠ .user)
    (hback : c'.call i = .user) (o : Output)
    (hid : ((w.request i).gpr .a0).toInt = o.number) :
    KUSEG ≤ (w.request i).gpr .a1 ∧ (w.request i).gpr .a2 ≤ MAXLEN ∧
    w'.flat i = w.before i ∧ ∃ v, c'.regs i = advanced ((w.request i).setReg .v0 v) ∧
      Sent o i (w'.flat i) ((w.request i).gpr .a1) ((w.request i).gpr .a2) (w'.log i) v := by
  rcases fulfilled_on_return hn hal h hstep hbusy hback with ⟨v, hregs, hf⟩
  cases hf with
  | getTod hid' =>
      rw [hid'] at hid
      cases o <;> exact absurd hid (by decide)
  | write o' hid' hlen hs hmem hd =>
      have ho : o' = o := by
        rw [hid'] at hid
        cases o' <;> cases o
        · rfl
        · exact absurd hid (by decide)
        · exact absurd hid (by decide)
        · rfl
      subst ho
      exact ⟨hs, hlen, hmem, v, hregs, hd⟩
  | read hid' =>
      rw [hid'] at hid
      cases o <;> exact absurd hid (by decide)

/-- A string that was stored lies in pages throughout. -/
theorem covers_of_buffered {before mem : Nat → Page} {buf : Word} {cs : List (BitVec 8)}
    (h : Buffered before mem buf cs) : Covers buf cs.length := by
  intro k hk
  have hspells := spells_of_stored h.1 h.2 k hk
  rw [List.getElem?_eq_getElem hk, byteAt, Option.map_eq_some_iff] at hspells
  rcases hspells with ⟨j, hj, _⟩
  rw [hj]
  rfl

/-- A line was received if the result is positive. -/
theorem Received.text {before mem : Nat → Page} {buf v : Word} {log : List Traffic}
    (h : Received i before mem buf log v) (hv : 0 < v.toInt) :
    ∃ cs : List (BitVec 8), NEWLINE ∉ cs ∧ Spells mem buf (cs ++ [NEWLINE, EOS]) ∧
      v.toNat = cs.length + 1 ∧ cs.length + 2 ≤ 31 * 4096 := by
  cases h with
  | @line xs status read hxs hok hend hread hmem =>
      refine ⟨xs.map receivedChar, fun hc => ?_, ?_, ?_, ?_⟩
      · rw [List.mem_map] at hc
        rcases hc with ⟨x, hx, hnew⟩
        exact (hxs x hx).2 hnew
      · have hspells := spells_of_stored hmem.1 hmem.2
        rw [List.map_append, List.map_singleton, hend, List.append_assoc] at hspells
        exact hspells
      · rw [List.length_map, hread]
      · have hlen := covers_length (covers_of_buffered hmem)
        simp only [List.length_append, List.length_map, List.length_singleton] at hlen ⊢
        omega
  | @failed xs status hxs hbad hmem =>
      -- The status has four bits, so its negation is not positive.
      exfalso
      have hsmall : (RECEIVE_STATUS status).toNat ≤ 15 := by
        rw [RECEIVE_STATUS, BitVec.toNat_and]
        exact Nat.and_le_right
      rw [BitVec.toInt_eq_toNat_cond, BitVec.toNat_neg] at hv
      split at hv
      · omega
      · omega

/-- A U-proc that asks for a line goes on past its request with the result in
    `reg_v0`. Characters were received from its terminal, one after the other up to
    the first `NEWLINE` or the first status that is not good, and its memory is the
    one before with these characters stored in the buffer. If the result is
    positive it is the length of the line, and the line stands in the buffer with
    an `EOS` behind it. -/
theorem line_received (hn : n < 64) (hal : S.Aligned) {es : List (CallEvent n)}
    (h : (watchedCalls S).Run es (c, w)) {e : CallEvent n}
    (hstep : (watchedCalls S).step (c, w) e (c', w')) (hbusy : c.call i ≠ .user)
    (hback : c'.call i = .user) (hid : ((w.request i).gpr .a0).toInt = READTERMINAL) :
    KUSEG ≤ (w.request i).gpr .a1 ∧ ∃ v, c'.regs i = advanced ((w.request i).setReg .v0 v) ∧
      Received i (w.before i) (w'.flat i) ((w.request i).gpr .a1) (w'.log i) v ∧
      (0 < v.toInt → ∃ cs : List (BitVec 8), NEWLINE ∉ cs ∧
        Spells (w'.flat i) ((w.request i).gpr .a1) (cs ++ [NEWLINE, EOS]) ∧
        v.toNat = cs.length + 1 ∧ cs.length + 2 ≤ 31 * 4096) := by
  rcases fulfilled_on_return hn hal h hstep hbusy hback with ⟨v, hregs, hf⟩
  cases hf with
  | getTod hid' =>
      rw [hid'] at hid
      exact absurd hid (by decide)
  | write o hid' =>
      rw [hid'] at hid
      cases o <;> exact absurd hid (by decide)
  | read _ hs hr => exact ⟨hs, v, hregs, hr, fun hv => hr.text hv⟩

end SystemCalls

/-! ## Samples -/

/-- A step of the support level, with the record of it. -/
def watchedStep {n : Nat} (S : Platform n) (x : CallLevel n × Watch n) (e : CallEvent n) :
    Option (CallLevel n × Watch n) :=
  if e.Benign x.1 then (x.1.next S e).map (fun c => (c, x.2.note S x.1 e c)) else none

theorem step_of_watchedStep {n : Nat} {S : Platform n} {x x' : CallLevel n × Watch n}
    {e : CallEvent n} (h : watchedStep S x e = some x') : (watchedCalls S).step x e x' := by
  unfold watchedStep at h
  split at h
  · rename_i hbenign
    rw [Option.map_eq_some_iff] at h
    rcases h with ⟨c, hnext, rfl⟩
    exact ⟨⟨hnext, hbenign⟩, rfl⟩
  · cases h

/-- A U-proc runs into a page fault at its first page, and loads it. -/
def missFirstPage (i : Fin 2) (x : Access) (code : Word) : List (CallEvent 2) :=
  let miss : UEvent 2 := .touch i KUSEG x (code <<< CAUSESHIFT) 0
  ([miss, miss, .step i, .step i, .step i] ++ pickFrame i 0 ++ loadPage i).map
    (fun e => .level e nullState)

/-- The run of a list of events after `test` has created both U-procs. -/
def watchedReplay (es : List (CallEvent 2)) : Option (CallLevel 2 × Watch 2) :=
  ((uprocStart samplePlatform).map callStart).bind (fun c =>
    (bootUprocs.map (fun e => CallEvent.level e nullState) ++ es).foldlM
      (watchedStep samplePlatform)
      (c, { flat := samplePlatform.blocks, request := c.regs, before := samplePlatform.blocks,
            log := fun _ => [] }))

theorem run_of_watchedReplay {es : List (CallEvent 2)} {x : CallLevel 2 × Watch 2}
    (h : watchedReplay es = some x) : ∃ es, (watchedCalls samplePlatform).Run es x := by
  rw [watchedReplay, Option.bind_eq_some_iff] at h
  rcases h with ⟨c, hstart, h⟩
  rw [Option.map_eq_some_iff] at hstart
  rcases hstart with ⟨s, hs, rfl⟩
  refine System.run_of_foldlM _ (fun e _ _ _ he => ⟨e, step_of_watchedStep he⟩)
    (System.Run.init ⟨⟨init_of_uprocStart hs, rfl⟩, rfl⟩) h

/-- The state of a U-proc that makes a request. -/
def requestCall (number : Int) (a1 a2 : Word) : State :=
  { ((nullState.setReg .a0 (BitVec.ofInt 32 number)).setReg .a1 a1).setReg .a2 a2 with
    cause := 8 <<< CAUSESHIFT }

/-- The handler prints the first two bytes of the first page, which is on the
    device at first. -/
def printTwo (i : Fin 2) : List (CallEvent 2) :=
  [.trap i (requestCall WRITETERMINAL KUSEG 2), .call i .getSupportPtr 0, .call i .nothing 0,
    .call i .getSupportPtr 0, .call i (.passeren (.sys4 i)) 0, .call i .nothing 0] ++
  missFirstPage i .load TLBINVLDL ++
  [.level (.touch i KUSEG .load 0 0) nullState,
    .call i (.doIo (devRegAddr IL_TERMINAL i + 12) (PRINTCHR ||| 100 <<< 8)) RECVD,
    .call i .nothing 0, .level (.touch i (KUSEG + 1) .load 0 0) nullState,
    .call i (.doIo (devRegAddr IL_TERMINAL i + 12) PRINTCHR) RECVD, .call i .nothing 0,
    .call i (.verhogen (.sys4 i)) 0, .call i .nothing 0, .call i .nothing 0]

/-- The handler receives a character and a `NEWLINE`, and stores them in the first
    page, which is on the device at first. -/
def readTwo (i : Fin 2) : List (CallEvent 2) :=
  [.trap i (requestCall READTERMINAL KUSEG 0), .call i .getSupportPtr 0, .call i .nothing 0,
    .call i .getSupportPtr 0, .call i (.passeren (.sys5 i)) 0,
    .call i (.doIo (devRegAddr IL_TERMINAL i + 4) RECEIVE_CHAR) 0x6805] ++
  missFirstPage i (storeByte KUSEG 0x68) TLBINVLDS ++
  [.level (.touch i KUSEG (storeByte KUSEG 0x68) 0 0) nullState,
    .call i (.doIo (devRegAddr IL_TERMINAL i + 4) RECEIVE_CHAR) 0x0A05,
    .level (.touch i (KUSEG + 1) (storeByte (KUSEG + 1) NEWLINE) 0 0) nullState,
    .call i (.verhogen (.sys5 i)) 0,
    .level (.touch i (KUSEG + 2) (storeByte (KUSEG + 2) EOS) 0 0) nullState,
    .call i .nothing 0, .call i .nothing 0]

/-- A handler that has come to its `LDST`, and takes this step. -/
theorem exists_return (es : List (CallEvent 2)) (number : Int) (len : Nat)
    (h : (watchedReplay es).any (fun x => decide (x.1.call 0 = .load ∧
        ((x.2.request 0).gpr .a0).toInt = number ∧ (x.2.log 0).length = len) &&
      (watchedStep samplePlatform x (.call 0 .nothing 0)).any (fun x' =>
        decide (x'.1.call 0 = .user ∧ (x'.1.regs 0).gpr .v0 = 2))) = true) :
    ∃ es c w c' w', (watchedCalls samplePlatform).Run es (c, w) ∧
      (watchedCalls samplePlatform).step (c, w) (.call 0 .nothing 0) (c', w') ∧
      c.call 0 ≠ .user ∧ c'.call 0 = .user ∧ ((w.request 0).gpr .a0).toInt = number ∧
      (w.log 0).length = len ∧ (c'.regs 0).gpr .v0 = 2 := by
  rw [Option.any_eq_true] at h
  rcases h with ⟨⟨c, w⟩, hreplay, h⟩
  rw [Bool.and_eq_true, decide_eq_true_iff, Option.any_eq_true] at h
  rcases h with ⟨⟨hload, hid, hlen⟩, ⟨c', w'⟩, hstep, h⟩
  rw [decide_eq_true_iff] at h
  rcases run_of_watchedReplay hreplay with ⟨es', hrun⟩
  refine ⟨es', c, w, c', w', hrun, step_of_watchedStep hstep, ?_, h.1, hid, hlen, h.2⟩
  rw [show c.call 0 = .load from hload]
  simp only [ne_eq, reduceCtorEq, not_false_eq_true]

/-- Two characters are printed. -/
theorem string_delivered_sample : ∃ (c' : CallLevel 2) (w w' : Watch 2) (v : Word),
    (w.log 0).length = 2 ∧ w'.flat 0 = w.before 0 ∧ (c'.regs 0).gpr .v0 = 2 ∧
      c'.regs 0 = advanced ((w.request 0).setReg .v0 v) ∧
      Sent .terminal (0 : Fin 2) (w'.flat 0) ((w.request 0).gpr .a1)
        ((w.request 0).gpr .a2) (w'.log 0) v := by
  rcases exists_return (printTwo 0) WRITETERMINAL 2 (by decide +kernel)
    with ⟨es, c, w, c', w', hrun, hstep, hbusy, hback, hid, hlen, hv0⟩
  rcases string_delivered (by decide) (by decide) hrun hstep hbusy hback .terminal hid with
    ⟨_, _, hmem, v, hregs, hd⟩
  exact ⟨c', w, w', v, hlen, hmem, hv0, hregs, hd⟩

/-- A line of one character is read. -/
theorem line_received_sample : ∃ (c' : CallLevel 2) (w w' : Watch 2) (v : Word),
    (w.log 0).length = 2 ∧ (c'.regs 0).gpr .v0 = 2 ∧
      c'.regs 0 = advanced ((w.request 0).setReg .v0 v) ∧
      Received (0 : Fin 2) (w.before 0) (w'.flat 0) ((w.request 0).gpr .a1) (w'.log 0) v := by
  rcases exists_return (readTwo 0) READTERMINAL 2 (by decide +kernel)
    with ⟨es, c, w, c', w', hrun, hstep, hbusy, hback, hid, hlen, hv0⟩
  rcases line_received (by decide) (by decide) hrun hstep hbusy hback hid with
    ⟨_, v, hregs, hr, _⟩
  exact ⟨c', w, w', v, hlen, hv0, hregs, hr⟩

end Pandos
