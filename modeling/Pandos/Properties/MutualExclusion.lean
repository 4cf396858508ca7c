import Mathlib.Data.Fintype.Option
import Pandos.Lib.Mutex
import Pandos.Properties.BinarySemaphores

/-!
# Mutual Exclusion for Processes

A section that processes guard with a word of their own: the word starts at one,
everybody performs `PASSEREN` on it before the section and `VERHOGEN` behind it.
Nothing else is asked of them. They may be preempted, yield, wait for devices and
for each other, create processes and kill any of them, in the section too.

The semaphore of the nucleus is the one of `Mutex` at every exception, so the
section is guarded. A process that is killed in the section never leaves it:
`none` stands in for it, and nobody enters any more.

## Main definitions

* `stand`: Where everybody stands after an exception, as far as it can be seen.
* `sections`: The runs in which processes guard a section.

## Theorems

* `semAt_effect`: An exception performs the operation that was asked for.
* `guards_effect`: One exception keeps the section guarded.
* `guards_run`: It is guarded in every run.
* `mutual_exclusion`: What that means for the processes.
-/

namespace Pandos

/-- Where an operation is performed. -/
def SemOp.place : SemOp → Phase
  | P => .out
  | V => .inside

/-- Where everybody stands after an exception. A process that performed `P` is
    inside unless it waits, one that performed `V` is outside, and whoever left the
    queue then is inside. Dead processes are outside, but one that died inside is
    replaced by `none`. -/
def stand (L : Layout) (a : Word) (m : Machine) (e : Event) (m' : Machine)
    (phase : Option PcbId → Phase) : Option PcbId → Phase :=
  match request L a m e with
  | some (p, .P) =>
    Function.update phase (some p) (if p ∈ waiters m'.kernel a then .waiting else .inside)
  | some (p, .V) => fun x =>
    if x = some p then .out
    else if phase x = .waiting ∧ x ∉ (waiters m'.kernel a).map some then .inside
    else phase x
  | none => fun x =>
    if x ∈ (m'.kernel.procq .pcbFree).map some then .out
    else if x = none ∧ ∃ z, phase z = .inside ∧ z ∈ (m'.kernel.procq .pcbFree).map some then
      .inside
    else phase x

/-- The runs in which processes guard a section with the word `a`: they perform
    `P` outside of it and `V` inside only. -/
def sections (L : Layout) (b : Boot) (a : Word) : System (Machine × (Option PcbId → Phase)) Event :=
  ((watched L b a 1).observed (fun _ _ => .out) (stand L a)).restrict
    (fun s e => ∀ p o, request L a s.1 e = some (p, o) → s.2 (some p) = o.place)

/-- The semaphore guards the section, and only live processes have to do with
    it. -/
structure Guards (a : Word) (m : Machine) (phase : Option PcbId → Phase) : Prop where
  mutex : Mutex ((semAt m.kernel a).map some) phase
  live : ∀ q, phase (some q) ≠ .out → q ∉ m.kernel.procq .pcbFree

/-! ## One exception -/

section Step

variable {L : Layout} {a : Word} {m : Machine} {e : Event} {k : Kernel}
  {phase : Option PcbId → Phase}

/-- Nobody is in a queue of semaphores who is free afterwards, if nobody died. -/
theorem semAt_same (hmem : k.mem a = m.kernel.mem a) (hwait : waiters k a = waiters m.kernel a)
    (hlive : ∀ q ∈ waiters m.kernel a, q ∉ k.procq .pcbFree) :
    semAt k a = { semAt m.kernel a with
      queue := (waiters m.kernel a).filter (fun q => !decide (q ∈ k.procq .pcbFree)) } := by
  have hfilter : (waiters m.kernel a).filter (fun q => !decide (q ∈ k.procq .pcbFree)) =
      waiters m.kernel a := by
    rw [List.filter_eq_self]
    intro q hq
    rw [Bool.not_eq_true', decide_eq_false_iff_not]
    exact hlive q hq
  simp only [semAt, hmem, hwait, hfilter]

/-- An exception performs the operation on the word that was asked for, or it
    takes the dead from its queue. -/
theorem semAt_effect (ha : ∀ i, i < SEMAPHORES_NUM → a ≠ L.semAddr i) (hb : Between m.kernel)
    (hbin : (m.kernel.mem a).toInt = 0 ∨ (m.kernel.mem a).toInt = 1)
    (hword : e.mem a = m.kernel.mem a) (heff : Effect L m e k) :
    (request L a m e = none ∧ semAt k a = { semAt m.kernel a with
      queue := (waiters m.kernel a).filter (fun q => !decide (q ∈ k.procq .pcbFree)) }) ∨
    ∃ p o, request L a m e = some (p, o) ∧ m.kernel.activeProcess = some p ∧
      k.procq .pcbFree = m.kernel.procq .pcbFree ∧
      semAt k a = ((semAt m.kernel a).op o p).sem := by
  have hlive : ∀ q ∈ waiters m.kernel a, q ∉ m.kernel.procq .pcbFree :=
    fun q hq => not_free_of_mem_waiters hb.at_.wf.asl hq
  have hstop : ∀ o : SemOp, (semAt m.kernel a).value = o.stop ↔ e.mem a = o.bound := by
    intro o
    rw [hword]
    exact stop_iff_bound _ o
  cases heff with
  | still hask hfree hwait hmem =>
      refine Or.inl ⟨request_none hask, semAt_same ((congrFun hmem a).trans hword) (hwait a) ?_⟩
      rwa [hfree]
  | create hask hfree hwait hmem =>
      refine Or.inl ⟨request_none hask, semAt_same ((congrFun hmem a).trans hword) (hwait a) ?_⟩
      intro q hq hf
      exact hlive q hq (hfree ▸ List.mem_cons_of_mem _ hf)
  | @kill t ks hask _ _ hfree hwait hmem =>
      refine Or.inl ⟨request_none hask, ?_⟩
      have hgone : waiters k a = (waiters m.kernel a).filter
          (fun q => !decide (q ∈ k.procq .pcbFree)) := by
        rw [hwait a]
        refine List.filter_congr (fun q hq => ?_)
        rw [hfree, ← decide_not]
        refine decide_eq_decide.mpr (not_congr ?_)
        rw [List.mem_append]
        exact (or_iff_left (hlive q hq)).symm
      simp only [semAt, ← hgone, (congrFun hmem a).trans hword]
  | @block op c bus p why hp hv hfree hwait hmem =>
      by_cases hca : c = a
      · rcases why.requested ha hca with ⟨p', hp', hreq⟩
        rw [hp, Option.some.injEq] at hp'
        subst hp' hca
        refine Or.inr ⟨p, op, hreq, hp, hfree, ?_⟩
        rw [Sem.op_stop ((hstop op).mpr hv)]
        simp only [semAt, hwait, if_true, (congrFun hmem c).trans hword]
      · refine Or.inl ⟨why.unrequested hca, semAt_same ((congrFun hmem a).trans hword)
          ((hwait a).trans (if_neg (fun hc => hca hc.symm))) ?_⟩
        rwa [hfree]
  | @wake op c bus t ts why ht hv hfree hwait hmem =>
      by_cases hca : c = a
      · rcases why.requested ha hca with ⟨p, hp, hreq⟩
        subst hca
        refine Or.inr ⟨p, op, hreq, hp, hfree, ?_⟩
        have hqueue : (semAt m.kernel c).queue = t :: ts := ht
        rw [Sem.op_cons (fun hs => hv ((hstop op).mp hs)) hqueue]
        simp only [semAt, hwait, if_true, (congrFun hmem c).trans hword]
      · refine Or.inl ⟨why.unrequested hca, semAt_same ((congrFun hmem a).trans hword)
          ((hwait a).trans (if_neg (fun hc => hca hc.symm))) ?_⟩
        rwa [hfree]
  | @change op c bus why hn hv hfree hwait hmem =>
      by_cases hca : c = a
      · rcases why.requested ha hca with ⟨p, hp, hreq⟩
        subst hca
        refine Or.inr ⟨p, op, hreq, hp, hfree, ?_⟩
        have hqueue : (semAt m.kernel c).queue = [] := hn
        rw [Sem.op_nil (fun hs => hv ((hstop op).mp hs)) hqueue]
        have hval : (k.mem c).toInt = (m.kernel.mem c).toInt + op.delta := by
          rw [← toInt_next hbin (hword ▸ hv), ← hword]
          exact congrArg BitVec.toInt ((congrFun hmem c).trans (if_pos rfl))
        simp only [semAt, hwait, hval]
      · refine Or.inl ⟨why.unrequested hca, semAt_same
          ((congrFun hmem a).trans (Eq.trans (if_neg (fun hc => hca hc.symm)) hword)) (hwait a) ?_⟩
        rwa [hfree]
  | drain hc _ _ hfree hwait hmem =>
      -- A tick drains only the semaphore of the interval timer.
      have hne : a ≠ getTimerSemaphore L := ha _ (Nat.lt_succ_self 48)
      refine Or.inl ⟨request_none (asked_other ?_), semAt_same
        ((congrFun hmem a).trans (Eq.trans (if_neg hne) hword)) ((hwait a).trans (if_neg hne)) ?_⟩
      · rw [hc]
        exact ExcClass.noConfusion
      · rwa [hfree]

theorem Guards.binary (h : Guards a m phase) :
    (m.kernel.mem a).toInt = 0 ∨ (m.kernel.mem a).toInt = 1 := by
  rcases h.mutex.value with ⟨hv, _⟩ | ⟨hv, _⟩
  · exact Or.inl hv
  · exact Or.inr hv

/-- The dead leave, and `none` stands in for one that was inside. -/
theorem guards_none (h : Guards a m phase) (hreq : request L a m e = none)
    (hsem : semAt k a = { semAt m.kernel a with
      queue := (waiters m.kernel a).filter (fun q => !decide (q ∈ k.procq .pcbFree)) }) :
    Guards a (m.after e k) (stand L a m e (m.after e k) phase) := by
  have hstand : stand L a m e (m.after e k) phase = fun x =>
      if x ∈ (k.procq .pcbFree).map some then .out
      else if x = none ∧ ∃ z, phase z = .inside ∧ z ∈ (k.procq .pcbFree).map some then .inside
      else phase x := by
    unfold stand
    rw [hreq]
    rfl
  have hfresh : ∀ l : List PcbId, none ∉ l.map some := by
    intro l hc
    rcases List.mem_map.mp hc with ⟨q, _, hq⟩
    cases hq
  have hnone : phase none ≠ .waiting :=
    fun hc => hfresh _ ((h.mutex.queue none).mpr hc)
  have hmutex : Mutex { (semAt m.kernel a).map some with
      queue := ((semAt m.kernel a).map some).queue.filter
        (fun x => !decide (x ∈ (k.procq .pcbFree).map some)) } (fun x =>
      if x ∈ (k.procq .pcbFree).map some then .out
      else if x = none ∧ ∃ z, phase z = .inside ∧ z ∈ (k.procq .pcbFree).map some then .inside
      else phase x) := mutex_inherit h.mutex (hfresh _) hnone
  rw [hstand]
  refine ⟨?_, fun q hq hf => ?_⟩
  · change Mutex ((semAt k a).map some) _
    have hqueue : (semAt k a).map some = { (semAt m.kernel a).map some with
        queue := ((semAt m.kernel a).map some).queue.filter
          (fun x => !decide (x ∈ (k.procq .pcbFree).map some)) } := by
      rw [hsem]
      simp only [Sem.map, semAt, List.filter_map]
      refine congrArg (fun l : List PcbId => Sem.mk (m.kernel.mem a).toInt (l.map some)) ?_
      refine List.filter_congr (fun q _ => ?_)
      simp only [Function.comp_apply, List.mem_map, Option.some.injEq, exists_eq_right]
    rw [hqueue]
    exact hmutex
  · change q ∈ k.procq .pcbFree at hf
    exact hq (if_pos (List.mem_map_of_mem hf))

/-- A process performs `P` outside of the section. -/
theorem guards_enter (h : Guards a m phase) (hb : Between m.kernel) {p : PcbId}
    (hreq : request L a m e = some (p, .P)) (hp : m.kernel.activeProcess = some p)
    (hout : phase (some p) = .out) (hfree : k.procq .pcbFree = m.kernel.procq .pcbFree)
    (hsem : semAt k a = ((semAt m.kernel a).op .P p).sem) :
    Guards a (m.after e k) (stand L a m e (m.after e k) phase) := by
  have hat := Option.mem_toFinset.mpr hp
  have hpq : p ∉ (semAt m.kernel a).queue :=
    ((nowhere_iff hb.at_.wf.asl p).mp (hb.at_.null hat)).2.2.2 a
  rcases Sem.op_map (m := semAt m.kernel a) (o := .P) (x := p) some with ⟨hmap, hwaits, _⟩
  have hmutex := (mutex_enter h.mutex hout).2
  have hiff : ((semAt m.kernel a).op .P p).waits = true ↔ p ∈ waiters k a := by
    rw [Sem.waits_iff hpq, ← hsem]
    rfl
  have hstand : stand L a m e (m.after e k) phase = Function.update phase (some p)
      (if (((semAt m.kernel a).map some).op .P (some p)).waits then .waiting else .inside) := by
    simp only [stand, hreq, hwaits]
    exact congrArg _ (if_congr hiff.symm rfl rfl)
  rw [hstand]
  refine ⟨?_, fun q hq => ?_⟩
  · change Mutex ((semAt k a).map some) _
    rw [hsem, ← hmap]
    exact hmutex
  · change q ∉ k.procq .pcbFree
    rw [hfree]
    by_cases hqp : q = p
    · rw [hqp]
      exact hb.at_.not_free hat
    · rw [Function.update_of_ne (fun hc => hqp (Option.some.inj hc))] at hq
      exact h.live q hq

/-- A process performs `V` in the section. -/
theorem guards_leave (h : Guards a m phase) {p : PcbId}
    (hreq : request L a m e = some (p, .V)) (hin : phase (some p) = .inside)
    (hfree : k.procq .pcbFree = m.kernel.procq .pcbFree)
    (hsem : semAt k a = ((semAt m.kernel a).op .V p).sem) :
    Guards a (m.after e k) (stand L a m e (m.after e k) phase) := by
  rcases Sem.op_map (m := semAt m.kernel a) (o := .V) (x := p) some with ⟨hmap, _, _⟩
  rcases mutex_leave h.mutex hin with ⟨_, hwoken, hmutex⟩
  have hstand : stand L a m e (m.after e k) phase = fun x => if x = some p then .out
      else if (((semAt m.kernel a).map some).op .V (some p)).woken = some x then .inside
      else phase x := by
    simp only [stand, hreq]
    funext x
    refine if_congr Iff.rfl rfl (if_congr ?_ rfl rfl)
    rw [Sem.woken_iff h.mutex.nodup, h.mutex.queue, hmap, ← hsem]
    rfl
  rw [hstand]
  refine ⟨?_, fun q hq => ?_⟩
  · change Mutex ((semAt k a).map some) _
    rw [hsem, ← hmap]
    exact hmutex
  · change q ∉ k.procq .pcbFree
    rw [hfree]
    refine h.live q (fun hout => hq ?_)
    by_cases hqp : some q = some p
    · exact if_pos hqp
    · rw [if_neg hqp]
      split
      · rename_i hw
        rw [hwoken _ hw] at hout
        cases hout
      · exact hout

/-- One exception keeps the section guarded, if whoever operates on the word is
    in its place. -/
theorem guards_effect (ha : ∀ i, i < SEMAPHORES_NUM → a ≠ L.semAddr i) (hb : Between m.kernel)
    (h : Guards a m phase) (hword : e.mem a = m.kernel.mem a)
    (hplace : ∀ p o, request L a m e = some (p, o) → phase (some p) = o.place)
    (heff : Effect L m e k) : Guards a (m.after e k) (stand L a m e (m.after e k) phase) := by
  rcases semAt_effect ha hb h.binary hword heff with ⟨hreq, hsem⟩ | ⟨p, o, hreq, hp, hfree, hsem⟩
  · exact guards_none h hreq hsem
  · cases o with
    | P => exact guards_enter h hb hreq hp (hplace p .P hreq) hfree hsem
    | V => exact guards_leave h hreq (hplace p .V hreq) hfree hsem

end Step

/-! ## Runs -/

section Runs

variable {L : Layout} {b : Boot} {a : Word} {m : Machine} {e : Event} {k : Kernel}
  {phase : Option PcbId → Phase}

/-- Nobody is in the section when the word is set. -/
theorem guards_start {m₀ : Machine} {mem : Word → Word} (hval : mem a = 1)
    (hnil : waiters m₀.kernel a = []) : Guards a (m₀.poke mem) (fun _ => .out) := by
  refine ⟨?_, fun q hq => absurd rfl hq⟩
  have hsem : (semAt (m₀.poke mem).kernel a).map some =
      { value := 1, queue := ([] : List (Option PcbId)) } := by
    have hqueue : waiters (m₀.poke mem).kernel a = [] := hnil
    have hvalue : (m₀.poke mem).kernel.mem a = 1 := hval
    simp only [Sem.map, semAt, hqueue, hvalue, List.map_nil]
    rfl
  rw [hsem]
  exact mutex_init

/-- The section is guarded in every run. -/
theorem guards_run (ha : ∀ i, i < SEMAPHORES_NUM → a ≠ L.semAddr i) {es : List Event}
    (h : (sections L b a).Run es (m, phase)) : MachineWf L m ∧ Guards a m phase := by
  refine System.run_invariant (P := fun s => MachineWf L s.1 ∧ Guards a s.1 s.2)
    (fun s hs => ?_) (fun es s e s' _ hs hstep => ?_) h
  · rcases hs with ⟨⟨es₀, m₀, mem, hrun, hmem, hm, hval, hnil⟩, hl⟩
    rw [hm, hl]
    exact ⟨machineWf_poke (machineWf_run hrun) hmem, guards_start hval hnil⟩
  · rcases hstep with ⟨⟨⟨⟨hok, k, hk, hm⟩, hword⟩, hl⟩, hplace⟩
    rw [hl, hm]
    exact ⟨machineWf_after hs.1 hok hk, guards_effect ha hs.1.between hs.2 hword hplace
      (effect_of_next hs.1 hok hk).1⟩

theorem Guards.waiting (h : Guards a m phase) (q : PcbId) :
    phase (some q) = .waiting ↔ q ∈ waiters m.kernel a := by
  rw [← h.mutex.queue]
  constructor
  · intro hq
    rcases List.mem_map.mp hq with ⟨r, hr, hrq⟩
    exact Option.some.inj hrq ▸ hr
  · exact fun hq => List.mem_map_of_mem hq

theorem Guards.word (h : Guards a m phase) :
    m.kernel.mem a = 0 ∧ (∃ x, phase x = .inside) ∨ m.kernel.mem a = 1 ∧ ∀ x, phase x = .out := by
  rcases h.mutex.value with ⟨hv, hx⟩ | ⟨hv, hx⟩
  · exact Or.inl ⟨BitVec.eq_of_toInt_eq hv, hx⟩
  · exact Or.inr ⟨BitVec.eq_of_toInt_eq hv, hx⟩

/-- Leaving the section takes the longest waiting process out of the queue. -/
theorem guards_release (ha : ∀ i, i < SEMAPHORES_NUM → a ≠ L.semAddr i) (hb : Between m.kernel)
    (h : Guards a m phase) (hword : e.mem a = m.kernel.mem a) {p : PcbId}
    (hreq : request L a m e = some (p, .V)) (hin : phase (some p) = .inside)
    (heff : Effect L m e k) : waiters k a = (waiters m.kernel a).tail := by
  have hzero : m.kernel.mem a = 0 := by
    rcases h.word with ⟨hv, _⟩ | ⟨_, hout⟩
    · exact hv
    · rw [hout] at hin
      cases hin
  rcases semAt_effect ha hb h.binary hword heff with ⟨hnone, _⟩ | ⟨p', o, hreq', _, _, hsem⟩
  · rw [hreq] at hnone
    cases hnone
  · rw [hreq, Option.some.injEq, Prod.mk.injEq] at hreq'
    rcases hreq' with ⟨rfl, rfl⟩
    have hne : (semAt m.kernel a).value ≠ SemOp.V.stop := by
      change (m.kernel.mem a).toInt ≠ _
      rw [hzero]
      decide
    have hq : waiters k a = ((semAt m.kernel a).op .V p).sem.queue := congrArg Sem.queue hsem
    rw [hq]
    cases hw : waiters m.kernel a with
    | nil =>
        rw [Sem.op_nil hne hw]
        exact hw
    | cons t ts =>
        rw [Sem.op_cons hne hw]
        rfl

end Runs

/-- In every run in which processes guard a section with a word, at most one of
    them is inside, and none once one was killed there. Those who wait are in the
    queue of the word, and they wait only while somebody is inside. Leaving the
    section does not wait and lets the longest waiting one in. -/
theorem mutual_exclusion {L : Layout} {b : Boot} {a : Word}
    (ha : ∀ i, i < SEMAPHORES_NUM → a ≠ L.semAddr i) {es : List Event} {m : Machine}
    {phase : Option PcbId → Phase} (h : (sections L b a).Run es (m, phase)) :
    (∀ x y, phase x = .inside → phase y = .inside → x = y) ∧
    (∀ q, phase (some q) = .waiting ↔ q ∈ waiters m.kernel a) ∧
    (m.kernel.mem a = 0 ∧ (∃ x, phase x = .inside) ∨
      m.kernel.mem a = 1 ∧ ∀ x, phase x = .out) ∧
    (∀ q, phase (some q) ≠ .out → q ∉ m.kernel.procq .pcbFree) ∧
    ∀ e p k, e.Ok L m → e.mem a = m.kernel.mem a → request L a m e = some (p, .V) →
      phase (some p) = .inside → (m.outcome L e).next = some k →
      waiters k a = (waiters m.kernel a).tail ∧ p ∉ waiters k a := by
  rcases guards_run ha h with ⟨hwf, hg⟩
  refine ⟨hg.mutex.one, hg.waiting, hg.word, hg.live, fun e p k hok hword hreq hin hk => ?_⟩
  have htail := guards_release ha hwf.between hg hword hreq hin (effect_of_next hwf hok hk).1
  refine ⟨htail, fun hpw => ?_⟩
  rw [htail] at hpw
  have hwaits := (hg.waiting p).mpr (List.mem_of_mem_tail hpw)
  rw [hin] at hwaits
  cases hwaits

/-- The first process enters a section that nobody is in. -/
theorem mutual_exclusion_sample : ∃ es m phase,
    (sections sampleLayout sampleBoot 0x20004000).Run es (m, phase) ∧
    phase (some 19) = .inside ∧ ∀ x, phase x = .inside → x = some 19 := by
  have hstart : (Machine.start sampleLayout sampleBoot).any (fun m₀ =>
      let m := m₀.poke (Function.update m₀.kernel.mem 0x20004000 1)
      let e := Event.quiet m (callHw PASSEREN 0x20004000 0 0, .ignore)
      decide (waiters m₀.kernel 0x20004000 = [] ∧ e.Ok sampleLayout m ∧
        request sampleLayout 0x20004000 m e = some (19, .P)) &&
      (m.next sampleLayout e).any (fun m' => decide (19 ∉ waiters m'.kernel 0x20004000))) =
        true := by
    decide +kernel
  rw [Option.any_eq_true] at hstart
  rcases hstart with ⟨m₀, hm₀, hall⟩
  rw [Bool.and_eq_true, decide_eq_true_iff, Option.any_eq_true] at hall
  rcases hall with ⟨⟨hnil, hok, hreq⟩, m', hm', hin⟩
  have hinit : (sections sampleLayout sampleBoot 0x20004000).Run []
      (m₀.poke (Function.update m₀.kernel.mem 0x20004000 1), fun _ => .out) := by
    refine System.Run.init ⟨⟨[], m₀, _, System.Run.init (init_of_start hm₀), fun i hi => ?_, rfl,
      Function.update_self _ _ _, hnil⟩, rfl⟩
    have hne : ∀ i, i < SEMAPHORES_NUM → sampleLayout.semAddr i ≠ 0x20004000 := by
      decide
    exact Function.update_of_ne (hne i hi) _ _
  generalize m₀.poke (Function.update m₀.kernel.mem 0x20004000 1) = m at hok hreq hm' hinit
  have hword : (Event.quiet m (callHw PASSEREN 0x20004000 0 0, .ignore)).mem = m.kernel.mem := rfl
  generalize Event.quiet m (callHw PASSEREN 0x20004000 0 0, .ignore) = e at hok hreq hm' hword
  have hrun : (sections sampleLayout sampleBoot 0x20004000).Run [e]
      (m', stand sampleLayout 0x20004000 m e m' (fun _ => .out)) := by
    refine System.Run.step hinit
      ⟨⟨⟨step_iff_next.mpr ⟨hok, hm'⟩, congrFun hword _⟩, rfl⟩, fun p o hpo => ?_⟩
    rw [hreq, Option.some.injEq, Prod.mk.injEq] at hpo
    rw [← hpo.2]
    rfl
  have hphase : stand sampleLayout 0x20004000 m e m' (fun _ => .out) (some 19) = .inside := by
    simp only [stand, hreq, Function.update_self, if_neg (of_decide_eq_true hin)]
  exact ⟨_, _, _, hrun, hphase, fun x hx => (mutual_exclusion (by decide) hrun).1 x _ hx hphase⟩

end Pandos
