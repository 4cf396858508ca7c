import Pandos.Lib.BinarySemaphore
import Pandos.Theory.Replay

/-!
# Binary Semaphores of Processes

A word that processes use as a semaphore, watched over a run in which it is
changed by `PASSEREN` and `VERHOGEN` only. The book of the watcher is written
from what can be seen of each exception: the operation the caller asked for,
who stands in the queue of the word before and after, and who was killed.

## Main definitions

* `watched`: The runs in which a word starts as a semaphore nobody waits for.
* `request`: The operation on the watched word an exception is about.
* `note`: The entries one exception makes in the book.
* `Watching`: The invariant of the watcher.

## Theorems

* `watching_effect`: The entries keep the book sound, whatever the exception does.
* `binary_semaphore_sound`: In every run the book is sound and names the waiters.
-/

namespace Pandos

/-- A process wrote memory. -/
def Machine.poke (m : Machine) (mem : Word → Word) : Machine :=
  { m with kernel := { m.kernel with mem := mem } }

/-- The runs that start in a reachable state in which a process gave the word
    `a` the value `v₀`, nobody waits on it, and processes leave it alone from then
    on, except through system calls. -/
def watched (L : Layout) (b : Boot) (a v₀ : Word) : System Machine Event where
  init m := ∃ es m₀ mem, (nucleus L b).Run es m₀ ∧
    (∀ i, i < SEMAPHORES_NUM → mem (L.semAddr i) = m₀.kernel.mem (L.semAddr i)) ∧
    m = m₀.poke mem ∧ mem a = v₀ ∧ waiters m₀.kernel a = []
  step m e m' := (nucleus L b).step m e m' ∧ e.mem a = m.kernel.mem a

/-- The operation on the word `a` the exception is a system call for, with its
    caller. -/
def request (L : Layout) (a : Word) (m : Machine) (e : Event) : Option (PcbId × SemOp) :=
  match asked L m e, m.kernel.activeProcess with
  | some (o, c), some p => if c = a then some (p, o) else none
  | _, _ => none

/-- The entries of one exception: whoever left the queue of the word finished
    if it is still alive, and a new operation waits if its caller is queued. -/
def note (L : Layout) (a : Word) (m : Machine) (e : Event) (m' : Machine) (l : Book PcbId) :
    Book PcbId :=
  let l := l.depart (fun q => decide (q ∈ waiters m'.kernel a))
    (fun q => decide (q ∉ m'.kernel.procq .pcbFree))
  match request L a m e with
  | none => l
  | some (p, o) => l.issue p o (decide (p ∈ waiters m'.kernel a))

/-- The book of the watcher is sound and names the waiters of the word. -/
structure Watching (a v₀ : Word) (m : Machine) (l : Book PcbId) : Prop where
  sound : Sound v₀.toInt (m.kernel.mem a).toInt l
  who : l.waiting.map Wait.who = waiters m.kernel a

theorem who_depart (l : Book PcbId) (stays alive : PcbId → Bool) :
    (l.depart stays alive).waiting.map Wait.who = (l.waiting.map Wait.who).filter stays := by
  simp only [Book.depart, List.filter_map]
  rfl

theorem mem_who {l : Book PcbId} {ps : List PcbId} (h : l.waiting.map Wait.who = ps)
    {w : Wait PcbId} (hw : w ∈ l.waiting) : w.who ∈ ps :=
  h ▸ List.mem_map_of_mem hw

/-! ## What is asked for -/

section Request

variable {L : Layout} {a : Word} {m : Machine} {e : Event}

/-- Outside of the semaphores of the nucleus, operations happen on request
    only. -/
theorem Why.requested {op : SemOp} {c : Word} {bus : List (Word × Word)} (h : Why L m e op c bus)
    (ha : ∀ i, i < SEMAPHORES_NUM → a ≠ L.semAddr i) :
    c = a → ∃ p, m.kernel.activeProcess = some p ∧ request L a m e = some (p, op) := by
  rintro rfl
  rcases h.asked with ⟨p, hp, hask⟩ | ⟨_, u, hu⟩
  · exact ⟨p, hp, by simp only [request, hask, hp, if_true]⟩
  · exact absurd hu (ha u (unit_lt u))

/-- An operation on another word is no request for the watched one. -/
theorem Why.unrequested {op : SemOp} {c : Word} {bus : List (Word × Word)} (h : Why L m e op c bus)
    (hca : c ≠ a) : request L a m e = none := by
  rcases h.asked with ⟨p, hp, hask⟩ | ⟨hask, _⟩
  · simp only [request, hask, hp, if_neg hca]
  · simp only [request, hask]

theorem request_none (h : asked L m e = none) : request L a m e = none := by
  simp only [request, h]

end Request

/-! ## One exception -/

section Entries

variable {L : Layout} {a v₀ : Word} {m m' : Machine} {e : Event} {l : Book PcbId}

/-- The queue of the word lost members that were killed, if any. -/
theorem watching_filter (h : Watching a v₀ m l) (hreq : request L a m e = none)
    (hmem : m'.kernel.mem a = m.kernel.mem a) {g : PcbId → Bool}
    (hwait : waiters m'.kernel a = (waiters m.kernel a).filter (fun q => !g q))
    (hdead : ∀ q, g q = true → q ∈ m'.kernel.procq .pcbFree) :
    Watching a v₀ m' (note L a m e m' l) := by
  simp only [note, hreq]
  constructor
  · rw [hmem]
    refine sound_kill h.sound (fun w hw hs => ?_)
    have hwho := mem_who h.who hw
    rw [decide_eq_false_iff_not, hwait, List.mem_filter, not_and] at hs
    have hgone := hs hwho
    rw [Bool.not_eq_true, Bool.not_eq_false'] at hgone
    exact decide_eq_false (not_not_intro (hdead _ hgone))
  · rw [who_depart, h.who, hwait]
    refine List.filter_congr (fun q hq => ?_)
    rw [Bool.eq_iff_iff, decide_eq_true_iff, List.mem_filter]
    exact and_iff_right hq

/-- Nothing happened to the queue of the word. -/
theorem watching_same (h : Watching a v₀ m l) (hreq : request L a m e = none)
    (hmem : m'.kernel.mem a = m.kernel.mem a) (hwait : waiters m'.kernel a = waiters m.kernel a) :
    Watching a v₀ m' (note L a m e m' l) := by
  refine watching_filter h hreq hmem (g := fun _ => false) ?_ (fun q hq => ?_)
  · rw [hwait]
    exact (List.filter_eq_self.mpr (fun _ _ => rfl)).symm
  · exact absurd hq Bool.false_ne_true

/-- The caller was queued. -/
theorem watching_block (h : Watching a v₀ m l) {p : PcbId} {o : SemOp}
    (hreq : request L a m e = some (p, o)) (hv : (m.kernel.mem a).toInt = o.stop)
    (hmem : m'.kernel.mem a = m.kernel.mem a)
    (hwait : waiters m'.kernel a = waiters m.kernel a ++ [p]) :
    Watching a v₀ m' (note L a m e m' l) := by
  have hp : decide (p ∈ waiters m'.kernel a) = true := by
    rw [hwait]
    exact decide_eq_true (List.mem_append_right _ (List.mem_singleton_self p))
  simp only [note, hreq, hp]
  constructor
  · rw [hmem]
    refine sound_block (sound_kill h.sound (fun w hw hs => ?_)) p hv
    rw [decide_eq_false_iff_not, hwait] at hs
    exact absurd (List.mem_append_left _ (mem_who h.who hw)) hs
  · simp only [Book.issue, if_true, List.map_append, List.map_cons, List.map_nil]
    rw [who_depart, h.who, hwait]
    congr 1
    rw [List.filter_eq_self]
    exact fun q hq => decide_eq_true (List.mem_append_left _ hq)

/-- The longest waiter was released. -/
theorem watching_wake (h : Watching a v₀ m l) {p t : PcbId} {ts : List PcbId} {o : SemOp}
    (hreq : request L a m e = some (p, o)) (hv : (m.kernel.mem a).toInt ≠ o.stop)
    (hmem : m'.kernel.mem a = m.kernel.mem a) (ht : waiters m.kernel a = t :: ts)
    (hwait : waiters m'.kernel a = ts) (hnd : (waiters m.kernel a).Nodup)
    (halive : t ∉ m'.kernel.procq .pcbFree) (hp : p ∉ waiters m.kernel a) :
    Watching a v₀ m' (note L a m e m' l) := by
  have hp' : decide (p ∈ waiters m'.kernel a) = false := by
    rw [hwait]
    rw [ht] at hp
    exact decide_eq_false (fun hc => hp (List.mem_cons_of_mem t hc))
  simp only [note, hreq, hp']
  have hwho := h.who
  rw [ht] at hwho hnd
  rcases List.map_eq_cons_iff.mp hwho with ⟨w, ws, hw, hwt, hws⟩
  constructor
  · rw [hmem]
    refine sound_wake h.sound p hv hw ?_ ?_ (fun u hu => ?_)
    · rw [hwait, hwt]
      exact decide_eq_false (List.nodup_cons.mp hnd).1
    · rw [hwt]
      exact decide_eq_true halive
    · rw [hwait, ← hws]
      exact decide_eq_true (List.mem_map_of_mem hu)
  · simp only [Book.issue, Bool.false_eq_true, if_false]
    rw [who_depart, h.who, ht, hwait, List.filter_cons,
      if_neg (by rw [decide_eq_true_iff]; exact (List.nodup_cons.mp hnd).1), List.filter_eq_self]
    exact fun q hq => decide_eq_true hq

/-- The operation changed the value. -/
theorem watching_change (h : Watching a v₀ m l) {p : PcbId} {o : SemOp}
    (hreq : request L a m e = some (p, o)) (hv : (m.kernel.mem a).toInt ≠ o.stop)
    (hmem : (m'.kernel.mem a).toInt = (m.kernel.mem a).toInt + o.delta)
    (hn : waiters m.kernel a = []) (hwait : waiters m'.kernel a = []) :
    Watching a v₀ m' (note L a m e m' l) := by
  have hp : decide (p ∈ waiters m'.kernel a) = false := by
    rw [hwait]
    exact decide_eq_false List.not_mem_nil
  simp only [note, hreq, hp]
  have hwho := h.who
  rw [hn, List.map_eq_nil_iff] at hwho
  constructor
  · rw [hmem]
    refine sound_pass (sound_kill h.sound (fun w hw _ => ?_)) p hv ?_
    · rw [hwho] at hw
      exact absurd hw List.not_mem_nil
    · simp only [Book.depart, hwho, List.filter_nil]
  · simp only [Book.issue, Bool.false_eq_true, if_false]
    rw [who_depart, h.who, hn, hwait]
    rfl

end Entries

/-- The machine word of a value that stops an operation. -/
theorem stop_iff_bound (v : Word) (o : SemOp) :
    v.toInt = o.stop ↔ v = o.bound := by
  have h0 : v.toInt = 0 ↔ v = 0 := ⟨fun h => BitVec.eq_of_toInt_eq h, fun h => h ▸ rfl⟩
  have h1 : v.toInt = 1 ↔ v = 1 := ⟨fun h => BitVec.eq_of_toInt_eq h, fun h => h ▸ rfl⟩
  cases o with
  | P => exact h0
  | V => exact h1

theorem toInt_next {v : Word} (hv : v.toInt = 0 ∨ v.toInt = 1) {o : SemOp} (hb : v ≠ o.bound) :
    (o.next v).toInt = v.toInt + o.delta := by
  have hne : v.toInt ≠ o.stop := fun h => hb ((stop_iff_bound v o).mp h)
  cases o with
  | P =>
      have h1 : v = 1 := BitVec.eq_of_toInt_eq (hv.resolve_left hne)
      rw [h1]
      rfl
  | V =>
      have h0 : v = 0 := BitVec.eq_of_toInt_eq (hv.resolve_right hne)
      rw [h0]
      rfl

/-- Whatever an exception does, the entries it makes keep the book sound. -/
theorem watching_effect {L : Layout} {a v₀ : Word} (ha : ∀ i, i < SEMAPHORES_NUM → a ≠ L.semAddr i)
    {m : Machine} {e : Event} {l : Book PcbId} (hb : Between m.kernel) (h : Watching a v₀ m l)
    (hword : e.mem a = m.kernel.mem a) {k : Kernel} (heff : Effect L m e k) :
    Watching a v₀ (m.after e k) (note L a m e (m.after e k) l) := by
  have hbin := h.sound.binary
  have hasl := hb.at_.wf.asl
  cases heff with
  | still hask _ hwait hmem =>
      exact watching_same h (request_none hask) ((congrFun hmem a).trans hword) (hwait a)
  | create hask _ hwait hmem =>
      exact watching_same h (request_none hask) ((congrFun hmem a).trans hword) (hwait a)
  | @kill t ks hask _ _ hfree hwait hmem =>
      -- The killed leave the queue, and their waits the record.
      refine watching_filter h (request_none hask) ((congrFun hmem a).trans hword)
        (g := fun q => decide (q ∈ ks)) ?_ (fun q hq => ?_)
      · rw [show waiters (m.after e k).kernel a = _ from hwait a]
        exact List.filter_congr (fun q _ => by rw [decide_not])
      · change q ∈ k.procq .pcbFree
        rw [hfree]
        exact List.mem_append_left _ (of_decide_eq_true hq)
  | @block op c bus p why hp hv _ hwait hmem =>
      by_cases hca : c = a
      · rcases why.requested ha hca with ⟨p', hp', hreq⟩
        rw [hp, Option.some.injEq] at hp'
        subst hp' hca
        rw [hword] at hv
        refine watching_block h hreq ((stop_iff_bound _ op).mpr hv)
          ((congrFun hmem c).trans hword) ?_
        exact (hwait c).trans (if_pos rfl)
      · refine watching_same h (why.unrequested hca) ((congrFun hmem a).trans hword) ?_
        exact (hwait a).trans (if_neg (fun hc => hca hc.symm))
  | @wake op c bus t ts why ht hv hfree hwait hmem =>
      by_cases hca : c = a
      · rcases why.requested ha hca with ⟨p, hp, hreq⟩
        subst hca
        rw [hword] at hv
        -- Whoever is released is alive, because it stood in the queue.
        have htm : t ∈ waiters m.kernel c := ht ▸ List.mem_cons_self
        refine watching_wake h hreq (fun hs => hv ((stop_iff_bound _ op).mp hs))
          ((congrFun hmem c).trans hword) ht ?_ (waiters_nodup hasl c) ?_ (fun hpw => ?_)
        · exact (hwait c).trans (if_pos rfl)
        · change t ∉ k.procq .pcbFree
          rw [hfree]
          exact not_free_of_mem_waiters hasl htm
        · have hnull := hb.at_.null (Option.mem_toFinset.mpr hp)
          exact ((nowhere_iff hasl p).mp hnull).2.2.2 c hpw
      · refine watching_same h (why.unrequested hca) ((congrFun hmem a).trans hword) ?_
        exact (hwait a).trans (if_neg (fun hc => hca hc.symm))
  | @change op c bus why hn hv _ hwait hmem =>
      by_cases hca : c = a
      · rcases why.requested ha hca with ⟨p, hp, hreq⟩
        subst hca
        rw [hword] at hv
        refine watching_change h hreq (fun hs => hv ((stop_iff_bound _ op).mp hs)) ?_ hn
          ((hwait c).trans hn)
        rw [← toInt_next hbin hv, ← hword]
        exact congrArg BitVec.toInt ((congrFun hmem c).trans (if_pos rfl))
      · refine watching_same h (why.unrequested hca) ?_ (hwait a)
        refine (congrFun hmem a).trans (Eq.trans (if_neg (fun hc => hca hc.symm)) hword)
  | drain hc _ _ _ hwait hmem =>
      -- A tick drains only the semaphore of the interval timer.
      have hne : a ≠ getTimerSemaphore L := ha _ (Nat.lt_succ_self 48)
      refine watching_same h (request_none (asked_other ?_)) ?_ ?_
      · rw [hc]
        exact ExcClass.noConfusion
      · exact (congrFun hmem a).trans (Eq.trans (if_neg hne) hword)
      · exact (hwait a).trans (if_neg hne)

/-! ## Runs -/

/-- Writing words that are no semaphores of the nucleus keeps the invariant. -/
theorem machineWf_poke {L : Layout} {m : Machine} (h : MachineWf L m) {mem : Word → Word}
    (hmem : ∀ i, i < SEMAPHORES_NUM → mem (L.semAddr i) = m.kernel.mem (L.semAddr i)) :
    MachineWf L (m.poke mem) := by
  have hsame : Same m.kernel (m.poke mem).kernel :=
    ⟨rfl, rfl, rfl, rfl, rfl, rfl, fun _ => rfl, fun _ => rfl, fun _ => rfl, fun _ => rfl⟩
  refine ⟨⟨h.between.at_.of_same hsame, h.between.yield⟩, ?_, fun u => ?_, fun u hv => ?_, h.owner⟩
  · change mem (L.semAddr _) = 0 ∨ mem (L.semAddr _) = 1
    rw [hmem (SEMAPHORES_NUM - 1) (Nat.lt_succ_self 48)]
    exact h.timer
  · change mem (L.semAddr u) = 0 ∨ mem (L.semAddr u) = 1
    rw [hmem _ (unit_lt u)]
    exact h.device u
  · change mem (L.semAddr u) = 1 at hv
    rw [hmem _ (unit_lt u)] at hv
    exact h.raised u hv

/-- For every run in which a word outside the nucleus starts as a semaphore
    with the value zero or one and is changed by the two system calls only, the
    book of the watcher is sound and names the waiters in the order of the
    queue. -/
theorem binary_semaphore_sound {L : Layout} {b : Boot} {a v₀ : Word}
    (ha : ∀ i, i < SEMAPHORES_NUM → a ≠ L.semAddr i) (hv : v₀ = 0 ∨ v₀ = 1) {es : List Event}
    {m : Machine} {l : Book PcbId}
    (h : ((watched L b a v₀).observed (fun _ => Book.empty) (note L a)).Run es (m, l)) :
    Sound v₀.toInt (m.kernel.mem a).toInt l ∧ l.waiting.map Wait.who = waiters m.kernel a := by
  have hinv : MachineWf L m ∧ Watching a v₀ m l := by
    refine System.run_invariant (P := fun s => MachineWf L s.1 ∧ Watching a v₀ s.1 s.2)
      (fun s hs => ?_) (fun es s e s' _ hs hstep => ?_) h
    · rcases hs with ⟨⟨es₀, m₀, mem, hrun, hmem, hm, hval, hnil⟩, hl⟩
      rw [hm, hl]
      refine ⟨machineWf_poke (machineWf_run hrun) hmem, ?_, hnil.symm⟩
      change Sound v₀.toInt (mem a).toInt Book.empty
      rw [hval]
      refine sound_empty ?_
      rcases hv with rfl | rfl
      · exact Or.inl rfl
      · exact Or.inr rfl
    · rcases hstep with ⟨⟨⟨hok, k, hk, hm⟩, hword⟩, hl⟩
      rw [hl, hm]
      exact ⟨machineWf_after hs.1 hok hk, watching_effect ha hs.1.between hs.2 hword
        (effect_of_next hs.1 hok hk).1⟩
  exact ⟨hinv.2.sound, hinv.2.who⟩

/-- A process waits on a word that nobody used before. -/
theorem binary_semaphore_sound_sample : ∃ es m l,
    ((watched sampleLayout sampleBoot 0x20004000 0).observed (fun _ => Book.empty)
      (note sampleLayout 0x20004000)).Run es (m, l) ∧
    waiters m.kernel 0x20004000 = [19] ∧ Sound 0 (m.kernel.mem 0x20004000).toInt l := by
  have hstart : (Machine.start sampleLayout sampleBoot).all (fun m =>
      decide (m.kernel.mem 0x20004000 = 0 ∧ waiters m.kernel 0x20004000 = [])) = true := by
    decide +kernel
  have hrun : ∃ es m, (watched sampleLayout sampleBoot 0x20004000 0).Run es m ∧
      waiters m.kernel 0x20004000 = [19] := by
    refine exists_run_of (L := sampleLayout) (b := sampleBoot) (fun m hm => ?_)
      [(callHw CREATEPROCESS 0x20002000 0 0x20003000, .ignore),
        (callHw PASSEREN 0x20004000 0 0, .ignore)] (fun x _ m m' hok hn => ?_) _
      (by decide +kernel)
    · rw [hm, Option.all_some, decide_eq_true_iff] at hstart
      exact ⟨[], m, m.kernel.mem, System.Run.init (init_of_start hm), fun _ _ => rfl, rfl, hstart⟩
    · exact ⟨step_iff_next.mpr ⟨hok, hn⟩, rfl⟩
  rcases hrun with ⟨es, m, hrun, hwait⟩
  rcases System.run_observed (fun _ => Book.empty) (note sampleLayout 0x20004000) hrun with ⟨l, hl⟩
  exact ⟨es, m, l, hl, hwait, (binary_semaphore_sound (by decide) (Or.inl rfl) hl).1⟩

end Pandos
