import Pandos.Theory.PassUp
import Pandos.Theory.Refusals
import Pandos.Theory.Replay

/-!
# One Tree of Processes

The processes form one tree. Its root is the process `init` creates, since every
other one is created as the child of its creator and dies with its parent at
the latest.

An exception condemns at most one process: the target of `TERMPROCESS`, or the
active process if the exception is passed up and there is no support structure
to pass it to. Exactly the subtree of the condemned process dies. So the nucleus
halts if and only if the root is condemned, and whoever has the identifier of
the root can halt it.

## Main definitions

* `firstProcess`: The process `init` creates.
* `passedOn`: The exceptions that end in `pass_up_or_die`.
* `condemned`: The process an exception kills with its progeny.
* `Lineage`: What an exception does to the tree.
* `Executes`: The result of a handler that kills the condemned process.

## Theorems

* `handled_executes`: The handler kills the subtree of the condemned process.
* `oneTree_after`: The tree keeps its root while the nucleus goes on.
* `halt_iff_condemned`: The nucleus halts just if the root is condemned.
* `process_tree`: All of this in every run.
-/

namespace Pandos

open Forest

/-- The process `init` creates gets the last block of the table. -/
def firstProcess : PcbId := Fin.last (MAX_PROC - 1)

/-- The exceptions that end in `pass_up_or_die`. -/
def passedOn (L : Layout) (m : Machine) (e : Event) : Bool :=
  match excClass e.hw.cause with
  | .interrupt => false
  | .tlb => true
  | .other => true
  | .syscall => refused L m.kernel e.hw.bios

/-- The process an exception kills with its progeny. -/
def condemned (L : Layout) (m : Machine) (e : Event) : Option PcbId :=
  match m.kernel.activeProcess with
  | none => none
  | some p =>
    if passedOn L m e then
      if (m.kernel.pcb p).pSupport = none then some p else none
    else if excClass e.hw.cause = .syscall ∧ (e.hw.bios.gpr .a0).toInt = TERMPROCESS then
      if e.hw.bios.gpr .a1 = 0 then some p else findProcess m.kernel (e.hw.bios.gpr .a1)
    else none

/-- What an exception does to the tree, with the process it condemns. -/
inductive Lineage (k k' : Kernel) : Option PcbId → Prop
  | still (hfree : k'.procq .pcbFree = k.procq .pcbFree) (hpar : parentOf k' = parentOf k) :
      Lineage k k' none
  | create {p c : PcbId} (hp : p ∉ k.procq .pcbFree)
      (hfree : k.procq .pcbFree = c :: k'.procq .pcbFree)
      (hpar : parentOf k' = attach (parentOf k) p c) : Lineage k k' none
  | kill {t : PcbId} {ks : List PcbId} (ht : t ∉ k.procq .pcbFree)
      (hks : ∀ q, q ∈ ks ↔ Below (parentOf k) t q)
      (hfree : k'.procq .pcbFree = ks ++ k.procq .pcbFree)
      (hpar : parentOf k' = prune (parentOf k) (· ∈ ks)) : Lineage k k' (some t)

/-- The result of a handler that kills the subtree of the given process, or
    nobody if there is none. A handler that does not return kills nobody. -/
def Executes (k : Kernel) (v : Option PcbId) : Result (SchedulerControl × Kernel) → Prop
  | .ok (_, k') => Lineage k k' v
  | .error _ => v = none

section Handler

variable {L : Layout} {m : Machine} {e : Event} {p : PcbId} {k : Kernel}

theorem findProcess_congr {k k' : Kernel} (hpid : ∀ q, (k'.pcb q).pPid = (k.pcb q).pPid)
    (pid : Word) : findProcess k' pid = findProcess k pid := by
  simp only [findProcess, hpid]

/-- A refusal depends on the identifiers and on the queues of the semaphores. -/
theorem refused_congr {k k' : Kernel} (hpid : ∀ q, (k'.pcb q).pPid = (k.pcb q).pPid)
    (hwait : ∀ a, waiters k' a = waiters k a) (s : State) : refused L k' s = refused L k s := by
  simp only [refused, findProcess_congr hpid, hwait]

/-- A lineage depends on the free blocks and the parents of the state before. -/
theorem Lineage.of_same {k k₁ k' : Kernel} {v : Option PcbId} (hs : Same k k₁)
    (h : Lineage k₁ k' v) : Lineage k k' v := by
  have hpar : parentOf k₁ = parentOf k := funext hs.parent
  have hfree : k₁.procq .pcbFree = k.procq .pcbFree := congrFun hs.procq .pcbFree
  cases h with
  | still hf hp => exact Lineage.still (hf.trans hfree) (hp.trans hpar)
  | create hq hf hp =>
      rw [hfree] at hq hf
      rw [hpar] at hp
      exact Lineage.create hq hf hp
  | kill ht hks hf hp =>
      rw [hfree] at ht hf
      rw [hpar] at hks hp
      exact Lineage.kill ht hks hf hp

theorem Lineage.of_touched {k k' k₁ : Kernel} {v : Option PcbId} (h : Lineage k k' v)
    (ht : Touched k' k₁) : Lineage k k₁ v := by
  have hpar : parentOf k₁ = parentOf k' := funext ht.same.parent
  cases h with
  | still hf hp => exact Lineage.still (ht.free.trans hf) (hpar.trans hp)
  | create hq hf hp => exact Lineage.create hq (ht.free.symm ▸ hf) (hpar.trans hp)
  | kill hl hks hf hp => exact Lineage.kill hl hks (ht.free.trans hf) (hpar.trans hp)

theorem lineage_killed {t : PcbId} {ks : List PcbId} {s : Queues SemdList SemdId}
    (h : Killed k t ks s) : Lineage k (k.killed ks s) (some t) :=
  Lineage.kill h.live h.mem (killed_free k ks s) (parentOf_killed k ks s)

theorem Frame.lineage {k k' : Kernel} (h : Frame k k') : Lineage k k' none :=
  Lineage.still h.free (funext h.parent)

theorem Executes.of_same {k k₁ : Kernel} {v : Option PcbId}
    {r : Result (SchedulerControl × Kernel)} (hs : Same k k₁) (h : Executes k₁ v r) :
    Executes k v r := by
  cases r with
  | error => exact h
  | ok x => exact Lineage.of_same hs h

/-- An interrupt kills nobody. -/
theorem Interrupted.executes (hat : At k k.activeProcess.toFinset)
    {r : Result (SchedulerControl × Kernel)} (h : Interrupted L m e.hw k r) :
    Executes k none r := by
  cases h with
  | resume => exact Lineage.still rfl rfl
  | tick _ _ hd =>
      rcases hd with ⟨_, hd⟩ | ⟨_, rfl⟩
      · exact hd.frame.lineage
      · exact Lineage.still rfl rfl
  | device _ _ _ hans =>
      cases hans with
      | @wake t k₁ hb =>
          exact (hb.frame hat.wf.asl).lineage.of_touched
            (touched_trans (touched_setResult k₁ t _) (touched_acked _ _))
      | @stray q _ _ =>
          exact (frame_store k _ _).lineage.of_touched
            (touched_trans (touched_setResult _ q _) (touched_acked _ _))
      | idle => rfl
  | unexpected => rfl

/-- `pass_up_or_die` kills the active process if it has no support structure. -/
theorem PassUp.executes {hw : Hw} {type : Fin 2} {r : Result (SchedulerControl × Kernel)}
    (hp : k.activeProcess = some p) (h : PassUp hw k type r) :
    Executes k (if (k.pcb p).pSupport = none then some p else none) r := by
  cases h with
  | idle hn =>
      rw [hp] at hn
      cases hn
  | up hq hs =>
      rw [hp, Option.some.injEq] at hq
      rw [hq, hs]
      exact if_neg (Option.some_ne_none _)
  | die hq hs hk =>
      rw [hp, Option.some.injEq] at hq
      rw [hq, if_pos hs]
      exact lineage_killed hk

/-- A call that is granted kills the target of `TERMPROCESS` only. -/
theorem Granted.executes {hw : Hw} {r : Result (SchedulerControl × Kernel)} (hk : Calling k p)
    (h : Granted L hw k p r) : Executes k (if callId k p = TERMPROCESS then
      (if (k.pcb p).pS.gpr .a1 = 0 then some p else findProcess k ((k.pcb p).pS.gpr .a1))
      else none) r := by
  cases h with
  | still hid hfree hpar =>
      rw [if_neg hid]
      exact Lineage.still hfree hpar
  | create hid hfree hpar =>
      rw [if_neg hid]
      exact Lineage.create (hk.at_.not_free (Finset.mem_singleton_self p)) hfree hpar
  | terminate hid ht hkill =>
      rw [if_pos hid, ht]
      exact lineage_killed hkill
  | panic hid =>
      rw [if_neg (by rw [hid]; decide)]
      rfl

/-- Nobody is condemned while nobody is active. -/
theorem condemned_idle (hp : m.kernel.activeProcess = none) : condemned L m e = none := by
  simp only [condemned, hp]

theorem condemned_passed (hp : m.kernel.activeProcess = some p) (hon : passedOn L m e = true) :
    condemned L m e = if (m.kernel.pcb p).pSupport = none then some p else none := by
  simp only [condemned, hp, hon, if_true]

theorem condemned_interrupt (hc : excClass e.hw.cause = .interrupt) : condemned L m e = none := by
  unfold condemned
  cases m.kernel.activeProcess with
  | none => rfl
  | some p =>
      have hon : passedOn L m e = false := by simp only [passedOn, hc]
      have hns : ¬ (excClass e.hw.cause = .syscall ∧ (e.hw.bios.gpr .a0).toInt = TERMPROCESS) := by
        rw [hc]
        exact fun hx => ExcClass.noConfusion hx.1
      simp only [hon, if_neg hns, Bool.false_eq_true, if_false]

/-- The system call of a process carries out its sentence. -/
theorem call_executes (hwf : MachineWf L m) (hok : e.Ok L m)
    (hc : excClass e.hw.cause = .syscall) (hp : m.kernel.activeProcess = some p) :
    Executes m.kernel (condemned L m e) (syscallHandler L e.hw (calling m e) p) := by
  have hcalling := calling_spec hwf.between hp (e := e)
  have hstate : ((calling m e).pcb p).pS = e.hw.bios := calling_state hp
  have hun := unserved_calling (e := e) hwf.between hp
  have hpid := hun.same.pid
  have hcases := @syscallHandler_cases L e.hw (calling m e) p hcalling
    (calling_addressed hok hc hp) (calling_device hwf hok.toTrusted)
  rw [hstate, refused_congr hpid hun.base.waiters] at hcases
  have hon : passedOn L m e = refused L m.kernel e.hw.bios := by
    simp only [passedOn, hc]
  cases href : refused L m.kernel e.hw.bios with
  | true =>
      rw [condemned_passed hp (hon.trans href)]
      refine Executes.of_same hun.same ?_
      rcases hcases.1 href with heq | heq
      · rw [heq, ← hun.support]
        exact (hcalling.passUp _).executes hcalling.active
      · have hres := unserved_reserved hun
        rw [heq, ← hres.support]
        refine Executes.of_same (touched_reserved _ p).same ?_
        exact (hcalling.reserved.passUp _).executes hcalling.active
  | false =>
      have hg := (hcases.2 href).executes hcalling
      have hv : condemned L m e = if callId (calling m e) p = TERMPROCESS then
          (if e.hw.bios.gpr .a1 = 0 then some p
            else findProcess m.kernel (e.hw.bios.gpr .a1)) else none := by
        simp only [condemned, hp, hon, href, hc, Bool.false_eq_true, if_false, true_and, callId,
          hstate]
      rw [hstate, findProcess_congr hpid] at hg
      rw [hv]
      exact hg.of_same hun.same

theorem syscallException_executes (hwf : MachineWf L m) (hok : e.Ok L m)
    (hc : excClass e.hw.cause = .syscall) (hp : m.kernel.activeProcess = some p) :
    Executes m.kernel (condemned L m e) (syscallException L e.hw (charged m e)) := by
  have hcall := call_executes hwf hok hc hp
  rcases hs : syscallHandler L e.hw (calling m e) p with x | ⟨ctrl, k⟩ <;> rw [hs] at hcall
  · rw [syscallException_error hp hs]
    exact hcall
  · rw [syscallException_ok hp hs]
    exact Lineage.of_touched hcall (touched_afterSyscall e.hw k p)

/-- The exception handler kills the subtree of the process the exception
    condemns. -/
theorem handled_executes (hwf : MachineWf L m) (hok : e.Ok L m) :
    Executes m.kernel (condemned L m e) (handleException L e.hw (m.entry e)) := by
  have hat := charged_at hwf.between e
  have hh := handleException_spec hwf hok
  generalize hr : handleException L e.hw (m.entry e) = r at hh
  have hpassed : ∀ {type}, passedOn L m e = true → PassUp e.hw (charged m e) type r →
      Executes m.kernel (condemned L m e) r := by
    intro type hon hpass
    refine Executes.of_same (same_charged m e) ?_
    cases hp : m.kernel.activeProcess with
    | none =>
        rw [condemned_idle hp]
        cases hpass with
        | idle => exact Lineage.still rfl rfl
        | up hq =>
            rw [charged_active, hp] at hq
            cases hq
        | die hq =>
            rw [charged_active, hp] at hq
            cases hq
    | some p =>
        rw [condemned_passed hp hon, ← charged_support m e p]
        exact hpass.executes ((charged_active m e).trans hp)
  cases hh with
  | interrupt hc hi =>
      rw [condemned_interrupt hc]
      exact (hi.executes hat).of_same (same_charged m e)
  | pass hc hpass =>
      refine hpassed ?_ hpass
      rcases hc with hc | hc
      · simp only [passedOn, hc]
      · simp only [passedOn, hc]
  | noCaller hc hp => exact condemned_idle hp
  | leave hc hp _ =>
      rw [← hr, handleException_syscall hc]
      exact syscallException_executes hwf hok hc hp
  | call hc hp _ =>
      rw [← hr, handleException_syscall hc]
      exact syscallException_executes hwf hok hc hp

/-! ## The tree -/

/-- The live processes form one tree with the first process as its root. -/
abbrev OneTree (k : Kernel) : Prop :=
  Rooted (parentOf k) (fun q => q ∉ k.procq .pcbFree) firstProcess

theorem OneTree.congr {k k' : Kernel} (h : OneTree k) (hpar : parentOf k' = parentOf k)
    (hfree : k'.procq .pcbFree = k.procq .pcbFree) : OneTree k' := by
  unfold OneTree
  rw [hpar, hfree]
  exact h

/-- The tree grows by a leaf, or it loses a subtree that does not hold the
    root. -/
theorem Lineage.oneTree {k k' : Kernel} {v : Option PcbId} (h : Lineage k k' v) (hw : Wf k)
    (ht : OneTree k) (hv : v ≠ some firstProcess) : OneTree k' := by
  cases h with
  | still hfree hpar => exact ht.congr hpar hfree
  | @create p c hp hfree hpar =>
      have hnd := hw.asl.procq.nodup .pcbFree
      rw [hfree, List.nodup_cons] at hnd
      have hc : c ∈ k.procq .pcbFree := hfree ▸ List.mem_cons_self
      have hnone : parentOf k c = none := by
        cases hq : parentOf k c with
        | none => rfl
        | some q => exact absurd hc (hw.tree.live q c hq).1
      have hgrown := rooted_attach ht hp (not_not_intro hc) hnone
      have hlive : ∀ q, q = c ∨ q ∉ k.procq .pcbFree ↔ q ∉ k'.procq .pcbFree := by
        intro q
        rw [hfree, List.mem_cons, not_or]
        constructor
        · rintro (rfl | ⟨_, hq⟩)
          · exact hnd.1
          · exact hq
        · intro hq
          by_cases hqc : q = c
          · exact Or.inl hqc
          · exact Or.inr ⟨hqc, hq⟩
      refine ⟨(hlive _).mp hgrown.mem, ?_, fun q hq => ?_⟩
      · rw [hpar]
        exact hgrown.root
      · rw [hpar]
        exact hgrown.below q ((hlive q).mpr hq)
  | @kill t ks _ hks hfree hpar =>
      have hpruned := rooted_prune ht hks (fun hc => hv (congrArg some hc))
      unfold OneTree
      rw [hpar, hfree]
      refine ⟨?_, hpruned.root, fun q hq => ?_⟩
      · rw [List.mem_append, not_or]
        exact ⟨hpruned.mem.2, hpruned.mem.1⟩
      · rw [List.mem_append, not_or] at hq
        exact hpruned.below q ⟨hq.2, hq.1⟩

/-- Whoever lives below the condemned process dies, and nobody else. -/
theorem Lineage.dies {k k' : Kernel} {v : Option PcbId} (h : Lineage k k' v) {q : PcbId}
    (hq : q ∉ k.procq .pcbFree) :
    q ∈ k'.procq .pcbFree ↔ ∃ t, v = some t ∧ Below (parentOf k) t q := by
  have hnobody : ¬ ∃ t, none = some t ∧ Below (parentOf k) t q := by
    rintro ⟨t, ht, _⟩
    cases ht
  cases h with
  | still hfree _ =>
      rw [hfree]
      exact iff_of_false hq hnobody
  | create _ hfree _ =>
      exact iff_of_false (fun hmem => hq (hfree ▸ List.mem_cons_of_mem _ hmem)) hnobody
  | @kill t ks _ hks hfree _ =>
      rw [hfree, List.mem_append, or_iff_left hq, hks]
      constructor
      · exact fun hb => ⟨t, rfl, hb⟩
      · rintro ⟨t', ht', hb⟩
        rw [Option.some.injEq] at ht'
        exact ht' ▸ hb

/-- Nobody is left just if the root was condemned. -/
theorem Lineage.live_empty {k k' : Kernel} {v : Option PcbId} (h : Lineage k k' v) (hw : Wf k)
    (ht : OneTree k) : live k' = ∅ ↔ v = some firstProcess := by
  constructor
  · intro hl
    by_contra hv
    have hmem := (h.oneTree hw ht hv).mem
    rw [← mem_live, hl] at hmem
    exact absurd hmem (Finset.notMem_empty _)
  · rintro rfl
    cases h with
    | kill _ hks hfree _ =>
        rw [Finset.eq_empty_iff_forall_notMem]
        intro q hq
        rw [mem_live, hfree, List.mem_append, not_or] at hq
        exact hq.1 ((hks q).mpr ((rooted_covers ht).mpr rfl q hq.2))

/-- The nucleus goes on with the tree as the handler left it. -/
theorem oneTree_after (hwf : MachineWf L m) (hok : e.Ok L m) (ht : OneTree m.kernel)
    (hk : (m.outcome L e).next = some k) : OneTree k := by
  have hexec := handled_executes hwf hok
  have hh := handleException_spec hwf hok
  have hw := hwf.between.at_.wf
  rcases outcome_cases hwf hok with ⟨ctrl, k₁, hr, hs⟩ | ⟨k₁, ctx, hr, ho⟩ | ⟨msg, _, ho⟩
  · rw [hr] at hexec
    generalize m.outcome L e = o at hs hk
    have hgo : ∀ k', Kept k₁ k' → live k' ≠ ∅ → OneTree k' := by
      intro k' hkept hlive
      have hv : condemned L m e ≠ some firstProcess := by
        intro hv
        refine hlive ?_
        have hempty := (Lineage.live_empty hexec hw ht).mpr hv
        rw [Finset.eq_empty_iff_forall_notMem] at hempty ⊢
        intro q hq
        refine hempty q ?_
        rw [mem_live] at hq ⊢
        rwa [← hkept.free]
      exact (Lineage.oneTree hexec hw ht hv).congr (funext hkept.parent) hkept.free
    cases hs with
    | @run k' p hkept hb hp _ =>
        rw [Outcome.next, Option.some.injEq] at hk
        subst hk
        refine hgo _ hkept (Finset.ne_empty_of_mem (a := p) ?_)
        rw [mem_live]
        exact hb.at_.not_free (Option.mem_toFinset.mpr hp)
    | wait hkept _ _ _ hlive =>
        rw [Outcome.next, Option.some.injEq] at hk
        subst hk
        exact hgo _ hkept hlive
    | halt => cases hk
  · rw [hr] at hh
    rw [ho, Outcome.next, Option.some.injEq] at hk
    subst hk
    have htouch := (hh.context hwf.between).2.1
    exact ht.congr (funext (same_trans (same_entry m e) htouch.same).parent) htouch.free
  · rw [ho] at hk
    cases hk

/-- The nucleus halts just if the root is condemned. -/
theorem halt_iff_condemned (hwf : MachineWf L m) (hok : e.Ok L m) (ht : OneTree m.kernel) :
    (∃ k, m.outcome L e = .halt k) ↔ condemned L m e = some firstProcess := by
  have hexec := handled_executes hwf hok
  have hw := hwf.between.at_.wf
  have hleft : ∀ {x o}, handleException L e.hw (m.entry e) = .error x → m.outcome L e = o →
      (∀ k, o ≠ .halt k) → ((∃ k, m.outcome L e = .halt k) ↔
        condemned L m e = some firstProcess) := by
    intro x o hr ho hne
    rw [hr] at hexec
    have hnone : condemned L m e = none := hexec
    rw [hnone, ho]
    exact iff_of_false (not_exists.mpr hne) (Option.some_ne_none _).symm
  rcases outcome_cases hwf hok with ⟨ctrl, k₁, hr, hs⟩ | ⟨k₁, ctx, hr, ho⟩ | ⟨msg, hr, ho⟩
  · rw [hr] at hexec
    rw [← Lineage.live_empty hexec hw ht]
    generalize m.outcome L e = o at hs
    have hlive : ∀ {k'}, Kept k₁ k' → live k' = live k₁ := by
      intro k' hkept
      ext q
      rw [mem_live, mem_live, hkept.free]
    cases hs with
    | @run k' p hkept hb hp _ =>
        refine iff_of_false ?_ (fun hempty => ?_)
        · rintro ⟨k, hk⟩
          cases hk
        · have hmem := hb.at_.not_free (Option.mem_toFinset.mpr hp)
          rw [← mem_live, hlive hkept, hempty] at hmem
          exact absurd hmem (Finset.notMem_empty p)
    | wait hkept _ _ _ hne =>
        refine iff_of_false ?_ (fun hempty => hne ((hlive hkept).trans hempty))
        rintro ⟨k, hk⟩
        cases hk
    | halt hkept hempty => exact iff_of_true ⟨_, rfl⟩ ((hlive hkept).symm.trans hempty)
  · exact hleft hr ho (fun k hk => by cases hk)
  · exact hleft hr ho (fun k hk => by cases hk)

end Handler

/-! ## Runs -/

/-- The first process is alone at first. -/
theorem oneTree_main {L : Layout} {b : Boot} {k : Kernel} (hk : (main L b).next = some k) :
    OneTree k := by
  have hkept := (main_kept hk).1
  rcases init_spawned L b with ⟨k₀, p, k₁, hblank, _, hs, hsame, _⟩
  have hpar : ∀ q, parentOf k₁ q = none := by
    intro q
    by_cases hq : q = p
    · simp only [parentOf, hq, hs.self, nullPcbRecord]
    · simp only [parentOf, hs.other q hq, (hblank.pcb q).1]
  rcases hs.free with ⟨ps, hfree, hfree'⟩
  rw [hblank.procq] at hfree
  change (List.finRange MAX_PROC).reverse = p :: ps at hfree
  -- The free list starts with the last block of the table.
  have hp : p = firstProcess := by
    have hhead : (List.finRange MAX_PROC).reverse.head? = some firstProcess := by decide
    rw [hfree, List.head?_cons] at hhead
    exact Option.some.inj hhead
  have hnd : (p :: ps).Nodup := hfree ▸ List.nodup_reverse.mpr (List.nodup_finRange MAX_PROC)
  have htree : OneTree k₁ := by
    refine ⟨?_, hpar _, fun q hq => ?_⟩
    · rw [← hp, hfree']
      exact (List.nodup_cons.mp hnd).1
    · have hmem : q ∈ p :: ps := hfree ▸ List.mem_reverse.mpr (List.mem_finRange q)
      rw [hfree'] at hq
      rw [← hp, (List.mem_cons.mp hmem).resolve_right hq]
      exact Below.self
  exact htree.congr (funext fun q => (hkept.parent q).trans (hsame.parent q))
    (hkept.free.trans (congrFun hsame.procq .pcbFree))

theorem oneTree_run {L : Layout} {b : Boot} {es : List Event} {m : Machine}
    (h : (nucleus L b).Run es m) : OneTree m.kernel := by
  refine System.run_invariant (P := fun m => OneTree m.kernel) (fun m hm => ?_)
    (fun es m e m' hr ht hs => ?_) h
  · exact oneTree_main hm.1
  · rcases hs with ⟨hok, k, hk, rfl⟩
    exact oneTree_after (machineWf_run hr) hok ht hk

/-- In every run the live processes form one tree with the first process as its
    root. The next exception kills exactly the subtree of the process it
    condemns, and the nucleus halts if and only if this is the root. -/
theorem process_tree {L : Layout} {b : Boot} {es : List Event} {m : Machine}
    (h : (nucleus L b).Run es m) : OneTree m.kernel ∧ ∀ e, e.Ok L m →
      (∀ q, q ∉ m.kernel.procq .pcbFree →
        ((∃ ctrl k, handleException L e.hw (m.entry e) = .ok (ctrl, k) ∧ q ∈ k.procq .pcbFree) ↔
          ∃ t, condemned L m e = some t ∧ Below (parentOf m.kernel) t q)) ∧
      ((∃ k, m.outcome L e = .halt k) ↔ condemned L m e = some firstProcess) := by
  have hwf := machineWf_run h
  have ht := oneTree_run h
  refine ⟨ht, fun e hok => ⟨fun q hq => ?_, halt_iff_condemned hwf hok ht⟩⟩
  have hexec := handled_executes hwf hok
  generalize condemned L m e = v at hexec
  rcases hr : handleException L e.hw (m.entry e) with x | ⟨ctrl, k⟩ <;> rw [hr] at hexec
  · have hnone : v = none := hexec
    rw [hnone]
    refine iff_of_false ?_ ?_
    · rintro ⟨ctrl, k, hk, _⟩
      cases hk
    · rintro ⟨t, ht, _⟩
      cases ht
  · rw [← Lineage.dies hexec hq]
    constructor
    · rintro ⟨_, _, hk, hmem⟩
      rw [Except.ok.injEq, Prod.mk.injEq] at hk
      rwa [hk.2]
    · exact fun hmem => ⟨ctrl, k, rfl, hmem⟩

/-- The first process creates a second one, which terminates the first one by its
    identifier, and the nucleus halts. -/
theorem process_tree_sample : ∃ es m e, (nucleus sampleLayout sampleBoot).Run es m ∧
    e.Ok sampleLayout m ∧ m.kernel.activeProcess = some 18 ∧ m.kernel.processCount.val = 2 ∧
    ∃ k, m.outcome sampleLayout e = .halt k := by
  rcases exists_run (L := sampleLayout) (b := sampleBoot)
    [(callHw CREATEPROCESS 0x20002000 0 0x20003000, .ignore), (callHw YIELD 0 0 0, .ignore)]
    (fun m => m.kernel.activeProcess = some 18 ∧ m.kernel.processCount.val = 2 ∧
      (Event.quiet m (callHw TERMPROCESS (m.kernel.pcb 19).pPid 0 0, .ignore)).Ok sampleLayout m ∧
      condemned sampleLayout m
        (Event.quiet m (callHw TERMPROCESS (m.kernel.pcb 19).pPid 0 0, .ignore)) =
          some firstProcess)
    (by decide +kernel) with ⟨es, m, hrun, hactive, hcount, hok, hv⟩
  exact ⟨es, m, _, hrun, hok, hactive, hcount, ((process_tree hrun).2 _ hok).2.mpr hv⟩

end Pandos
