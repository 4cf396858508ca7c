import Pandos.Theory.Pids
import Pandos.Theory.Replay

/-!
# Process Identifiers

An identifier is the index of a block together with the low bits of a counter
of all processes ever created, plus one. The register keeps every identifier
that was ever given out. The identifiers of live processes are those the
register holds last for their blocks, so they differ, and `find_process` finds
exactly the live process an identifier belongs to. An identifier comes back for
the same block only when the counter has gone once around its low bits.

## Main definitions

* `Birth`: A process that was created, numbered in the order of creation.
* `Registered`: The register agrees with the identifiers of live processes.

## Theorems

* `findProcess_iff`: Which process an identifier stands for.
* `registered_step`: One exception keeps the register right.
* `pids_identify`: What identifiers mean in every run.
-/

namespace Pandos

/-! ## The register -/

/-- A process that was created: its block, how many were created before it, and
    its identifier. -/
structure Birth where
  slot : PcbId
  number : Nat
  pid : Word
  deriving DecidableEq

/-- The blocks that went into use between two states. -/
def newborns (k k' : Kernel) : List PcbId :=
  (List.finRange MAX_PROC).filter (fun q => q ∈ k.procq .pcbFree ∧ q ∉ k'.procq .pcbFree)

/-- Entries for new processes, the latest one first. -/
def enter (k : Kernel) (qs : List PcbId) (l : List Birth) : List Birth :=
  qs.foldl (fun l q => { slot := q, number := l.length, pid := (k.pcb q).pPid } :: l) l

/-- The register at the first dispatch. -/
def firstBirths (m : Machine) : List Birth :=
  enter m.kernel ((List.finRange MAX_PROC).filter (fun q => q ∉ m.kernel.procq .pcbFree)) []

/-- The register after an exception. -/
def noteBirths (m : Machine) (_ : Event) (m' : Machine) (l : List Birth) : List Birth :=
  enter m'.kernel (newborns m.kernel m'.kernel) l

/-- The last process that was created in a block. -/
def latest (l : List Birth) (p : PcbId) : Option Birth := l.find? (fun b => b.slot == p)

/-- The register agrees with the identifiers of live processes and with the
    counter. -/
structure Registered (k : Kernel) (l : List Birth) : Prop where
  count : k.recycleCount = BitVec.ofNat 32 l.length
  pid : ∀ b ∈ l, b.number < l.length ∧
    b.pid = makePid (BitVec.ofNat 32 b.slot.val) (BitVec.ofNat 32 b.number)
  live : ∀ p, p ∉ k.procq .pcbFree →
    ∃ b, latest l p = some b ∧ b.pid = (k.pcb p).pPid

/-- Two entries have the same identifier exactly when they are about one block
    and their numbers agree in the bits that fit. -/
theorem birth_pid_iff {k : Kernel} {l : List Birth} (h : Registered k l) {b b' : Birth}
    (hb : b ∈ l) (hb' : b' ∈ l) :
    b.pid = b'.pid ↔ b.slot = b'.slot ∧ b.number % 2 ^ 27 = b'.number % 2 ^ 27 := by
  have hlt : b.slot.val < 20 := b.slot.isLt
  have hlt' : b'.slot.val < 20 := b'.slot.isLt
  have hmod : ∀ n : Nat, (BitVec.ofNat 32 n).toNat % 2 ^ 27 = n % 2 ^ 27 := by
    intro n
    rw [BitVec.toNat_ofNat]
    omega
  rw [(h.pid b hb).2, (h.pid b' hb').2, ← BitVec.toNat_inj, makePid_toNat, makePid_toNat, hmod,
    hmod, Fin.ext_iff]
  omega

theorem latest_mem {l : List Birth} {p : PcbId} {b : Birth} (h : latest l p = some b) :
    b ∈ l ∧ b.slot = p := by
  refine ⟨List.mem_of_find?_eq_some h, ?_⟩
  have hp := List.find?_some h
  rwa [beq_iff_eq] at hp

theorem latest_cons_self (l : List Birth) (p : PcbId) (n : Nat) (x : Word) :
    latest ({ slot := p, number := n, pid := x } :: l) p
      = some { slot := p, number := n, pid := x } := by
  rw [latest, List.find?_cons, beq_self_eq_true]

theorem latest_cons_other (l : List Birth) {p q : PcbId} (n : Nat) (x : Word) (h : p ≠ q) :
    latest ({ slot := p, number := n, pid := x } :: l) q = latest l q := by
  rw [latest, List.find?_cons, beq_false_of_ne h]
  rfl

/-! ## Looking up an identifier -/

/-- `find_process` finds the process that has the identifier, if it lives. -/
theorem findProcess_iff {k : Kernel} (hw : PcbWf k) {l : List Birth} (h : Registered k l) (x : Word)
    (p : PcbId) : findProcess k x = some p ↔ p ∉ k.procq .pcbFree ∧ (k.pcb p).pPid = x := by
  constructor
  · intro hf
    unfold findProcess at hf
    split at hf
    · split at hf
      · exact absurd hf (by simp only [reduceCtorEq, not_false_eq_true])
      · rename_i hlt hpid
        rw [Option.some.injEq] at hf
        rw [not_not, hf] at hpid
        refine ⟨fun hfree => ?_, hpid⟩
        -- A free block has the null identifier, whose index is out of range.
        have hnull : x = 0 := hpid.symm.trans ((hw.free_iff p).mp hfree)
        rw [hnull] at hlt
        exact absurd hlt (by decide)
    · exact absurd hf (by simp only [reduceCtorEq, not_false_eq_true])
  · rintro ⟨hlive, rfl⟩
    rcases h.live p hlive with ⟨b, hb, hpid⟩
    rcases latest_mem hb with ⟨hmem, hslot⟩
    have hmask : (maskPidId (k.pcb p).pPid).toNat = p.val := by
      rw [← hpid, (h.pid b hmem).2, maskPidId_makePid, hslot]
    have hlt : (maskPidId (k.pcb p).pPid).toNat < MAX_PROC := hmask ▸ p.isLt
    have hfin : (⟨(maskPidId (k.pcb p).pPid).toNat, hlt⟩ : PcbId) = p := Fin.ext hmask
    rw [findProcess, dif_pos hlt, hfin, if_neg (not_not_intro rfl)]

/-! ## Runs -/

/-- The only block of a list of blocks in use. -/
theorem filter_eq_singleton {A : PcbId → Bool} {c : PcbId} (h : ∀ q, A q = true ↔ q = c) :
    (List.finRange MAX_PROC).filter A = [c] := by
  have hA : A = fun q => q == c := by
    funext q
    rw [Bool.eq_iff_iff, h, beq_iff_eq]
  rw [hA, List.filter_beq, List.count_eq_one_of_mem (List.nodup_finRange MAX_PROC)
    (List.mem_finRange c)]
  rfl

/-- A new process enters the register under the next number. -/
theorem registered_born {k k' : Kernel} {l : List Birth} (h : Registered k l) {c : PcbId}
    (hfree : ∀ q, q ∉ k'.procq .pcbFree ↔ q = c ∨ q ∉ k.procq .pcbFree)
    (hself : (k'.pcb c).pPid = makePid (BitVec.ofNat 32 c.val) k.recycleCount)
    (hother : ∀ q, q ≠ c → (k'.pcb q).pPid = (k.pcb q).pPid)
    (hcount : k'.recycleCount = k.recycleCount + 1) : Registered k' (enter k' [c] l) := by
  change Registered k' ({ slot := c, number := l.length, pid := (k'.pcb c).pPid } :: l)
  refine ⟨?_, fun b hb => ?_, fun p hp => ?_⟩
  · rw [hcount, h.count, List.length_cons, BitVec.ofNat_add]
    rfl
  · rcases List.mem_cons.mp hb with rfl | hb
    · refine ⟨Nat.lt_succ_self _, ?_⟩
      rw [hself, h.count]
    · rcases h.pid b hb with ⟨hn, hpid⟩
      exact ⟨Nat.lt_succ_of_lt hn, hpid⟩
  · by_cases hpc : p = c
    · rw [hpc, latest_cons_self]
      exact ⟨_, rfl, rfl⟩
    · rcases h.live p (((hfree p).mp hp).resolve_left hpc) with ⟨b, hb, hpid⟩
      refine ⟨b, ?_, hpid.trans (hother p hpc).symm⟩
      rw [latest_cons_other l _ _ (fun hc => hpc hc.symm)]
      exact hb

/-- One exception keeps the register right. -/
theorem registered_step {k k' : Kernel} {l : List Birth} (h : Registered k l)
    (hid : Identified k k') : Registered k' (enter k' (newborns k k') l) := by
  cases hid with
  | kept hfree hpid hcount =>
      have hnone : newborns k k' = [] := by
        rw [newborns, List.filter_eq_nil_iff]
        intro q _ hq
        rw [decide_eq_true_iff] at hq
        exact hfree q hq.2 hq.1
      rw [hnone]
      refine ⟨hcount.trans h.count, h.pid, fun p hp => ?_⟩
      rcases h.live p (hfree p hp) with ⟨b, hb, hb'⟩
      exact ⟨b, hb, hb'.trans (hpid p hp).symm⟩
  | @born c hc hfree hself hother hcount =>
      have hone : newborns k k' = [c] := by
        refine filter_eq_singleton (fun q => ?_)
        rw [decide_eq_true_iff, hfree]
        constructor
        · rintro ⟨hq, h | h⟩
          · exact h
          · exact absurd hq h
        · rintro rfl
          exact ⟨hc, Or.inl rfl⟩
      rw [hone]
      exact registered_born h hfree hself hother hcount

/-- The register starts with the first process. -/
theorem registered_main {L : Layout} {b : Boot} {k : Kernel} (hk : (main L b).next = some k) :
    Registered k (firstBirths { kernel := k, pending := fun _ => none }) := by
  rcases init_spawned L b with ⟨k₀, p, k₁, hblank, hzero, hs, hsame, hcount⟩
  have hkept := (main_kept hk).1
  have hid : Identified k₀ k := by
    refine (hs.identified ?_).trans_left (hkept.free.trans (by rw [hsame.procq]))
      (fun q => (hkept.pid q).trans (hsame.pid q)) (hkept.recycleCount.trans hcount)
    exact (blank_at hblank).wf.asl.procq.nodup .pcbFree
  have hstep := registered_step (l := []) ⟨hzero, fun _ h => absurd h List.not_mem_nil,
    fun q hq => absurd (hblank.free q) hq⟩ hid
  have hnew : newborns k₀ k = (List.finRange MAX_PROC).filter (fun q => q ∉ k.procq .pcbFree) := by
    refine List.filter_congr (fun q _ => ?_)
    simp only [hblank.free q, true_and]
  rwa [hnew] at hstep

/-- In every state of every run: a live process has an identifier that is not
    null, no two have the same, and `find_process` takes an identifier to the live
    process that has it and anything else to nobody. Two processes that ever
    existed have the same identifier exactly when they had the same block and
    their numbers in the order of creation agree modulo `2 ^ 27`, and whoever is
    found under an identifier is the last process that was created in its block. -/
theorem pids_identify {L : Layout} {b : Boot} {es : List Event} {m : Machine} {l : List Birth}
    (h : ((nucleus L b).observed firstBirths noteBirths).Run es (m, l)) :
    (∀ p, p ∉ m.kernel.procq .pcbFree → (m.kernel.pcb p).pPid ≠ NULL_PID) ∧
    (∀ p q, p ∉ m.kernel.procq .pcbFree → q ∉ m.kernel.procq .pcbFree →
      (m.kernel.pcb p).pPid = (m.kernel.pcb q).pPid → p = q) ∧
    (∀ x p, findProcess m.kernel x = some p ↔
      p ∉ m.kernel.procq .pcbFree ∧ (m.kernel.pcb p).pPid = x) ∧
    (∀ c ∈ l, ∀ d ∈ l,
      c.pid = d.pid ↔ c.slot = d.slot ∧ c.number % 2 ^ 27 = d.number % 2 ^ 27) ∧
    (∀ c ∈ l, ∀ p, findProcess m.kernel c.pid = some p →
      ∃ d, latest l p = some d ∧ d.pid = c.pid) := by
  have hinv : MachineWf L m ∧ Registered m.kernel l := by
    refine System.run_invariant (P := fun s => MachineWf L s.1 ∧ Registered s.1.kernel s.2)
      (fun s hs => ?_) (fun es s e s' _ hs hstep => ?_) h
    · rcases hs with ⟨⟨hk, hpend⟩, hl⟩
      have hwf := machineWf_main hk
      have hreg := registered_main hk
      rw [← hpend] at hwf hreg
      rw [hl]
      exact ⟨hwf, hreg⟩
    · rcases hstep with ⟨⟨hok, k, hk, hm⟩, hl⟩
      rw [hl, hm]
      exact ⟨machineWf_after hs.1 hok hk, registered_step hs.2 (identified_of_next hs.1 hok hk)⟩
  rcases hinv with ⟨hwf, hreg⟩
  have hpcb := hwf.between.at_.wf.pcb
  have hfind := findProcess_iff hpcb hreg
  refine ⟨fun p hp hnull => hp ((hpcb.free_iff p).mpr hnull), fun p q hp hq heq => ?_, hfind,
    fun c hc d hd => birth_pid_iff hreg hc hd, fun c hc p hp => ?_⟩
  · have hp' := (hfind _ p).mpr ⟨hp, rfl⟩
    have hq' := (hfind _ q).mpr ⟨hq, heq.symm⟩
    exact Option.some.inj (hp'.symm.trans hq')
  · rcases (hfind _ p).mp hp with ⟨hlive, hpid⟩
    rcases hreg.live p hlive with ⟨d, hd, hdp⟩
    exact ⟨d, hd, hdp.trans hpid⟩

/-- A process was created, killed and replaced by another in its block: the new
    one is found under its identifier, and nobody under the old one. -/
theorem pids_identify_sample : ∃ es m l,
    ((nucleus sampleLayout sampleBoot).observed firstBirths noteBirths).Run es (m, l) ∧
    findProcess m.kernel 83 = some 18 ∧ findProcess m.kernel 51 = none ∧
    18 ∉ m.kernel.procq .pcbFree ∧ (m.kernel.pcb 18).pPid = 83 := by
  rcases exists_run (L := sampleLayout) (b := sampleBoot)
    [(callHw CREATEPROCESS 0x20002000 0 0x20003000, .ignore), (callHw TERMPROCESS 51 0 0, .ignore),
      (callHw CREATEPROCESS 0x20002000 0 0x20003000, .ignore)]
    (fun m => findProcess m.kernel 83 = some 18 ∧ findProcess m.kernel 51 = none)
    (by decide +kernel) with ⟨es, m, hrun, hnew, hold⟩
  rcases System.run_observed firstBirths noteBirths hrun with ⟨l, hl⟩
  rcases ((pids_identify hl).2.2.1 83 18).mp hnew with ⟨hlive, hpid⟩
  exact ⟨es, m, l, hl, hnew, hold, hlive, hpid⟩

end Pandos
