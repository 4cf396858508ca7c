import Pandos.Theory.SupportSemaphores

/-!
# Commands to Flash Devices

Who waits for which flash device, and with which command. U-procs give commands
inside the guarded section only, so at most one of them waits for a device at
any time. The other user of the devices is `test`, which reads the header of a
device before the U-proc it belongs to exists; nobody else uses the device by
then, because frames are owned by U-procs that were created.

## Main definitions

* `pending`: The command a process waits for.
* `Pc.victimAsid`: The owner of the frame a U-proc is about to evict.
* `issues`: The device a process is about to give a command to.
* `Queued`: The invariant of the queues of the devices.

## Theorems

* `device_idle`: Nobody waits for a device that gets a command.
* `queued_step`, `queued_run`: The invariant holds in every run.
-/

namespace Pandos

section FlashQueues

variable {n : Nat}

open SupportLevel

/-- The command U-proc `i` waits for at a place of its code, and the device. -/
def Pc.request (S : Platform n) (i : Fin n) : Pc n → Option (Fin n × Request n)
  | .writing _ v asid k =>
    some (asid, Request.write (some i) k (some (pageAddr S.swapPoolAddr v.frame)))
  | .reading _ v =>
    some (i, Request.read (some i) v.pIndex (some (pageAddr S.swapPoolAddr v.frame)))
  | _ => none

/-- The command `test` waits for, and the device. -/
def TestPc.request : TestPc n → Option (Fin n × Request n)
  | .heading i _ => some (i, Request.read none 0 none)
  | _ => none

/-- The command a process waits for, and the device. -/
def pending (S : Platform n) (s : SupportLevel n) : Party n → Option (Fin n × Request n)
  | none => s.test.request
  | some i => (s.pc i).request S i

/-- The owner of the frame a U-proc is about to evict, according to its copy of
    the entry of the swap pool table. -/
def Pc.victimAsid : Pc n → Option (Fin n)
  | .evict _ _ swap => swap.swAsid
  | .write _ _ asid _ => some asid
  | .writing _ _ asid _ => some asid
  | _ => none

/-- The device a process is about to give a command to. -/
def issues (s : SupportLevel n) : Party n → Option (Fin n)
  | none =>
    match s.test with
    | .header i _ => some i
    | _ => none
  | some i =>
    match s.pc i with
    | .write _ _ asid _ => some asid
    | .read _ _ => (s.current i).supAsid
    | _ => none

/-- The invariant of the queues: they hold the commands processes wait for, at
    most one for each device, and frames are owned by U-procs that were
    created. -/
structure Queued (S : Platform n) (s : SupportLevel n) : Prop where
  known : ∀ dev r, r ∈ (s.flash dev).queue → pending S s r.who = some (dev, r)
  listed : ∀ p dev r, pending S s p = some (dev, r) → r ∈ (s.flash dev).queue
  short : ∀ dev, (s.flash dev).queue.length ≤ 1
  owners : ∀ f a, (s.swapPoolTable f).swAsid = some a → (s.pc a).life ≠ .unborn
  victims : ∀ i a, (s.pc i).victimAsid = some a → (s.pc a).life ≠ .unborn

theorem queued_start {S : Platform n} {s : SupportLevel n} (h : (supportLevel S).init s) :
    Queued S s := by
  rcases h with ⟨free, _, rfl⟩
  refine ⟨fun dev r hr => absurd hr List.not_mem_nil, fun p dev r hp => ?_,
    fun dev => Nat.zero_le _, fun f a ha => (by cases ha), fun i a ha => (by cases ha)⟩
  cases p with
  | none => cases hp
  | some i => cases hp

variable {S : Platform n} {s s' : SupportLevel n} {i : Fin n}

theorem pending_who {p : Party n} {dev : Fin n} {r : Request n}
    (h : pending S s p = some (dev, r)) : r.who = p := by
  cases p with
  | none =>
      simp only [pending] at h
      cases ht : s.test with
      | heading i t =>
          rw [ht] at h
          cases h
          rfl
      | _ =>
          rw [ht] at h
          cases h
  | some i =>
      simp only [pending] at h
      cases hpc : s.pc i with
      | writing f v asid k =>
          rw [hpc] at h
          cases h
          rfl
      | reading f v =>
          rw [hpc] at h
          cases h
          rfl
      | _ =>
          rw [hpc] at h
          cases h

/-- A U-proc that waits for a device is inside the section, and the device is
    its own or the one of the owner of its victim. -/
theorem pending_uproc {dev : Fin n} {r : Request n}
    (h : pending S s (some i) = some (dev, r)) :
    s.phases i = .inside ∧ ((s.pc i).victimAsid = some dev ∨ dev = i) ∧
      issues s (some i) = none ∧ (s.pc i).life = .holding := by
  simp only [pending] at h
  simp only [phases, issues]
  cases hpc : s.pc i with
  | writing f v asid k =>
      rw [hpc] at h
      cases h
      exact ⟨rfl, Or.inl rfl, rfl, rfl⟩
  | reading f v =>
      rw [hpc] at h
      cases h
      exact ⟨rfl, Or.inr rfl, rfl, rfl⟩
  | _ =>
      rw [hpc] at h
      cases h

theorem pending_test {dev : Fin n} {r : Request n} (h : pending S s none = some (dev, r)) :
    s.test.created ≤ dev.val ∧ issues s none = none := by
  simp only [pending] at h
  simp only [issues]
  cases ht : s.test with
  | heading i t =>
      rw [ht] at h
      cases h
      exact ⟨Nat.le_refl _, rfl⟩
  | _ =>
      rw [ht] at h
      cases h

/-- A U-proc that gives a command is inside the section, and the device belongs
    to a U-proc that was created. -/
theorem issues_uproc (ho : Allotted s) (hq : Queued S s) {dev : Fin n}
    (h : issues s (some i) = some dev) :
    s.phases i = .inside ∧ (s.pc dev).life ≠ .unborn := by
  simp only [issues] at h
  simp only [phases]
  cases hpc : s.pc i with
  | write f v asid k =>
      rw [hpc] at h
      cases h
      exact ⟨rfl, hq.victims i dev (by rw [hpc]; rfl)⟩
  | read f v =>
      rw [hpc] at h
      have hdev : dev = i := ho.own (by rw [hpc]; rfl) h
      rw [hdev, hpc]
      exact ⟨rfl, by simp only [Pc.life, ne_eq, reduceCtorEq, not_false_eq_true]⟩
  | _ =>
      rw [hpc] at h
      cases h

theorem issues_test {dev : Fin n} (h : issues s none = some dev) :
    s.test.created ≤ dev.val := by
  simp only [issues] at h
  cases ht : s.test with
  | header i t =>
      rw [ht] at h
      cases h
      exact Nat.le_refl _
  | _ =>
      rw [ht] at h
      cases h

/-- Nobody waits for a device when somebody gives a command to it. Two U-procs
    would both be inside the section, and `test` uses a device only as long as
    its U-proc has not been created. -/
theorem device_idle (ho : Allotted s) (hg : Guarded s) (hq : Queued S s) {p : Party n} {dev : Fin n}
    (h : issues s p = some dev) : (s.flash dev).queue = [] := by
  rw [List.eq_nil_iff_forall_not_mem]
  intro r hr
  have hr := hq.known dev r hr
  -- Whoever gave the waiting command is `test` or a U-proc, and so is the new one.
  cases hw : r.who with
  | none =>
      rw [hw] at hr
      rcases pending_test hr with ⟨hunborn, hnone⟩
      cases p with
      | none =>
          rw [hnone] at h
          cases h
      -- A device `test` reads from belongs to a U-proc that was not created yet.
      | some i => exact (issues_uproc ho hq h).2 ((ho.born dev).mpr hunborn)
  | some j =>
      rw [hw] at hr
      rcases pending_uproc hr with ⟨hin, hdev, hnone, hlife⟩
      cases p with
      | none =>
          have hunborn := (ho.born dev).mpr (issues_test h)
          rcases hdev with hdev | rfl
          · exact hq.victims j dev hdev hunborn
          · rw [hlife] at hunborn
            cases hunborn
      -- Both U-procs are inside the section, so they are the same one.
      | some i =>
          rw [hg.mutex.one i j (issues_uproc ho hq h).1 hin, hnone] at h
          cases h

/-- A command somebody waits for is the only one at its device. -/
theorem Queued.alone (hq : Queued S s) {p : Party n} {dev : Fin n} {r : Request n}
    (h : pending S s p = some (dev, r)) : (s.flash dev).queue = [r] := by
  have hmem := hq.listed p dev r h
  have hshort := hq.short dev
  cases hqueue : (s.flash dev).queue with
  | nil =>
      rw [hqueue] at hmem
      exact absurd hmem List.not_mem_nil
  | cons u rest =>
      rw [hqueue, List.length_cons] at hshort
      have hrest : rest = [] := List.length_eq_zero_iff.mp (by omega)
      rw [hqueue, hrest, List.mem_singleton] at hmem
      rw [hrest, hmem]

/-! ## Steps -/

/-- A step that gives no command and ends none. -/
theorem Queued.congr (hq : Queued S s) (hk : Retained s s')
    (hflash : ∀ d, (s'.flash d).queue = (s.flash d).queue)
    (hpend : ∀ p, pending S s' p = pending S s p)
    (howners : ∀ f a, (s'.swapPoolTable f).swAsid = some a →
      (s.swapPoolTable f).swAsid = some a ∨ (s.pc a).life ≠ .unborn)
    (hvictims : ∀ j a, (s'.pc j).victimAsid = some a →
      (s.pc j).victimAsid = some a ∨ (s.pc a).life ≠ .unborn) : Queued S s' := by
  refine ⟨fun dev r hr => ?_, fun p dev r hp => ?_, fun dev => ?_, fun f a ha => ?_,
    fun j a ha => ?_⟩
  · rw [hpend]
    rw [hflash] at hr
    exact hq.known dev r hr
  · rw [hflash]
    rw [hpend] at hp
    exact hq.listed p dev r hp
  · rw [hflash]
    exact hq.short dev
  · -- Owners were created, and nobody is unborn again.
    exact hk.born ((howners f a ha).elim (hq.owners f a) id)
  · exact hk.born ((hvictims j a ha).elim (hq.victims j a) id)

/-- Somebody gives a command to a device nobody waits for. -/
theorem queued_doio (hq : Queued S s) (hk : Retained s s') {p : Party n} {dev : Fin n}
    {r : Request n} (hnil : (s.flash dev).queue = []) (hnone : pending S s p = none)
    (hp : pending S s' p = some (dev, r))
    (hflash : ∀ d, (s'.flash d).queue = if d = dev then [r] else (s.flash d).queue)
    (hpend : ∀ q, q ≠ p → pending S s' q = pending S s q)
    (howners : s'.swapPoolTable = s.swapPoolTable)
    (hvictims : ∀ j a, (s'.pc j).victimAsid = some a → (s.pc j).victimAsid = some a) :
    Queued S s' := by
  refine ⟨fun d u hu => ?_, fun q d u hqu => ?_, fun d => ?_, fun f a ha => ?_, fun j a ha => ?_⟩
  · -- The queue of the device holds the new command only.
    rw [hflash] at hu
    by_cases hd : d = dev
    · rw [if_pos hd, List.mem_singleton] at hu
      rw [hu, hd, pending_who hp]
      exact hp
    · rw [if_neg hd] at hu
      have hknown := hq.known d u hu
      rw [hpend _ (fun hc => by rw [hc, hnone] at hknown; cases hknown)]
      exact hknown
  · -- A command that was listed before is at another device.
    rw [hflash]
    by_cases hqp : q = p
    · rw [hqp, hp] at hqu
      cases hqu
      rw [if_pos rfl]
      exact List.mem_singleton_self _
    · rw [hpend q hqp] at hqu
      have hmem := hq.listed q d u hqu
      rw [if_neg (fun hc => by rw [hc, hnil] at hmem; exact List.not_mem_nil hmem)]
      exact hmem
  · rw [hflash]
    by_cases hd : d = dev
    · rw [if_pos hd]
      exact Nat.le_refl _
    · rw [if_neg hd]
      exact hq.short d
  · rw [howners] at ha
    exact hk.born (hq.owners f a ha)
  · exact hk.born (hq.victims j a (hvictims j a ha))

/-- A U-proc gives a command and waits for its end. -/
theorem queued_issue (ho : Allotted s) (hg : Guarded s) (hq : Queued S s) {c : Pc n} {dev : Fin n}
    {r : Request n} (hk : Retained s ((s.doio dev r).setPc i c))
    (hissues : issues s (some i) = some dev) (hnone : (s.pc i).request S i = none)
    (hp : c.request S i = some (dev, r))
    (hvictim : ∀ a, c.victimAsid = some a → (s.pc i).victimAsid = some a) :
    Queued S ((s.doio dev r).setPc i c) := by
  have hnil : (s.flash dev).queue = [] := device_idle ho hg hq hissues
  refine queued_doio (p := some i) (r := r) hq hk hnil hnone ?_ (fun d => ?_) (fun q hqp => ?_) rfl
    (fun j a ha => ?_)
  · simp only [pending, setPc, Function.update_self]
    exact hp
  · by_cases hd : d = dev
    · simp only [setPc, doio, hd, Function.update_self, if_true, hnil, List.nil_append]
    · simp only [setPc, doio, Function.update_of_ne hd, if_neg hd]
  · cases q with
    | none => rfl
    | some j =>
        have hj : j ≠ i := fun hc => hqp (congrArg some hc)
        simp only [pending, setPc, doio, Function.update_of_ne hj]
  · by_cases hj : j = i
    · simp only [hj, setPc, Function.update_self] at ha
      rw [hj]
      exact hvictim a ha
    · simp only [setPc, doio, Function.update_of_ne hj] at ha
      exact ha

/-- The command at the head of a queue is over. -/
theorem queued_done (hq : Queued S s) (hk : Retained s s') {dev : Fin n} {r : Request n}
    {rest : List (Request n)} (hqueue : (s.flash dev).queue = r :: rest)
    (hnone : pending S s' r.who = none)
    (hflash : ∀ d, (s'.flash d).queue = if d = dev then rest else (s.flash d).queue)
    (hpend : ∀ p, p ≠ r.who → pending S s' p = pending S s p)
    (howners : s'.swapPoolTable = s.swapPoolTable)
    (hvictims : ∀ j a, (s'.pc j).victimAsid = some a → (s.pc j).victimAsid = some a) :
    Queued S s' := by
  have hr := hq.known dev r (hqueue ▸ List.mem_cons_self)
  have hrest : rest = [] := (List.cons.inj (hqueue.symm.trans (hq.alone hr))).2
  refine ⟨fun d u hu => ?_, fun p d u hp => ?_, fun d => ?_, fun f a ha => ?_, fun j a ha => ?_⟩
  · rw [hflash] at hu
    by_cases hd : d = dev
    · rw [if_pos hd, hrest] at hu
      exact absurd hu List.not_mem_nil
    · rw [if_neg hd] at hu
      have hknown := hq.known d u hu
      -- The two commands stand at different devices.
      rw [hpend _ (fun hc => hd ?_)]
      · exact hknown
      · rw [hc, hr] at hknown
        cases hknown
        rfl
  · have hpr : p ≠ r.who := fun hc => by
      rw [hc, hnone] at hp
      cases hp
    rw [hpend p hpr] at hp
    have hmem := hq.listed p d u hp
    rw [hflash, if_neg (fun hc => hpr ?_)]
    · exact hmem
    · rw [hc, hqueue, hrest, List.mem_singleton] at hmem
      rw [← hmem, pending_who hp]
  · rw [hflash]
    by_cases hd : d = dev
    · rw [if_pos hd, hrest]
      exact Nat.zero_le _
    · rw [if_neg hd]
      exact hq.short d
  · rw [howners] at ha
    exact hk.born (hq.owners f a ha)
  · exact hk.born (hq.victims j a (hvictims j a ha))

/-- A U-proc moves on between two places at which it waits for no device. -/
theorem queued_move (hq : Queued S s) (hk : Retained s s') {pc : Pc n}
    (hpc : s'.pc = Function.update s.pc i pc) (hreq : pc.request S i = (s.pc i).request S i)
    (hvictim : ∀ a, pc.victimAsid = some a →
      (s.pc i).victimAsid = some a ∨ (s.pc a).life ≠ .unborn)
    (htest : s'.test = s.test) (hflash : s'.flash = s.flash)
    (howners : ∀ f a, (s'.swapPoolTable f).swAsid = some a →
      (s.swapPoolTable f).swAsid = some a ∨ (s.pc a).life ≠ .unborn) : Queued S s' := by
  refine hq.congr hk (fun d => by rw [hflash]) (fun p => ?_) howners (fun j a ha => ?_)
  · -- Only one U-proc moves, and it waits for no device before or after.
    cases p with
    | none => rw [pending, pending, htest]
    | some j =>
        rw [pending, pending, hpc]
        exact moves_update (R := fun j pc => pc.request S j = (s.pc j).request S j) hreq
          (fun _ => rfl) j
  · rw [hpc] at ha
    exact moves_update (R := fun j pc => ∀ a, pc.victimAsid = some a →
      (s.pc j).victimAsid = some a ∨ (s.pc a).life ≠ .unborn) hvictim (fun _ _ => Or.inl) j a ha

/-- Nobody moves who waits for a device. -/
theorem queued_same (hq : Queued S s) (hk : Retained s s')
    (hreq : ∀ j, (s'.pc j).request S j = (s.pc j).request S j)
    (hvictim : ∀ j, (s'.pc j).victimAsid = (s.pc j).victimAsid)
    (htest : s'.test.request = s.test.request) (hflash : s'.flash = s.flash)
    (howners : s'.swapPoolTable = s.swapPoolTable) : Queued S s' := by
  refine hq.congr hk (fun d => by rw [hflash]) (fun p => ?_) (fun f a ha => Or.inl ?_)
    (fun j a ha => Or.inl ?_)
  · cases p with
    | none => exact htest
    | some j => exact hreq j
  · rw [← howners]
    exact ha
  · rw [← hvictim]
    exact ha

theorem Pc.resumed_request (pc : Pc n) (j : Fin n) : pc.resumed.request S j = pc.request S j := by
  cases pc <;> rfl

theorem Pc.resumed_victimAsid (pc : Pc n) : pc.resumed.victimAsid = pc.victimAsid := by
  cases pc <;> rfl

theorem TestPc.resumed_request (t : TestPc n) : t.resumed.request = t.request := by
  cases t <;> rfl

theorem Pc.finished_request (pc : Pc n) (ok : Bool) (j : Fin n) :
    (pc.finished ok).request S j = none := by
  cases pc <;> cases ok <;> rfl

theorem Pc.finished_victimAsid (pc : Pc n) (ok : Bool) {a : Fin n}
    (h : (pc.finished ok).victimAsid = some a) : pc.victimAsid = some a := by
  cases pc with
  | writing f v asid k =>
      cases ok with
      | true => cases h
      | false => cases h
  | reading f v =>
      cases ok with
      | true => cases h
      | false => cases h
  | _ => exact h

theorem Goes.request {pc : Pc n} (h : Goes s i pc) :
    pc.request S i = none ∧ (s.pc i).request S i = none := by
  cases h with
  | modification h => rw [h]; exact ⟨rfl, rfl⟩
  | missing h => rw [h]; exact ⟨rfl, rfl⟩
  | occupied h => rw [h]; exact ⟨rfl, rfl⟩
  | unoccupied h => rw [h]; exact ⟨rfl, rfl⟩
  | evict h => rw [h]; exact ⟨rfl, rfl⟩
  | read h => rw [h]; exact ⟨rfl, rfl⟩
  | nobody h => rw [h]; exact ⟨rfl, rfl⟩
  | nameless h =>
      rcases h with h | h
      · rw [h]
        exact ⟨rfl, rfl⟩
      · rw [h]
        exact ⟨rfl, rfl⟩
  | clean h => rw [h]; exact ⟨rfl, rfl⟩
  | mark h => rw [h]; exact ⟨rfl, rfl⟩
  | kept h => rw [h]; exact ⟨rfl, rfl⟩
  | owned h => rw [h]; exact ⟨rfl, rfl⟩
  | marked h => rw [h]; exact ⟨rfl, rfl⟩
  | die h => rw [h]; exact ⟨rfl, rfl⟩

/-- The only branch of `Goes` that looks at an owner takes it from the swap pool
    table. -/
theorem Goes.victim {pc : Pc n} (h : Goes s i pc) {a : Fin n} (ha : pc.victimAsid = some a) :
    ∃ f, (s.swapPoolTable f).swAsid = some a := by
  cases h with
  | @evict f frame _ _ _ => exact ⟨frame, ha⟩
  | _ => cases ha

theorem Unlocks.request {pc blocked next : Pc n} (h : Unlocks pc blocked next) (j : Fin n) :
    (blocked.request S j = pc.request S j ∧ next.request S j = pc.request S j) ∧
      blocked.victimAsid = pc.victimAsid ∧ next.victimAsid = pc.victimAsid := by
  cases h with
  | release f => exact ⟨⟨rfl, rfl⟩, rfl, rfl⟩
  | clean asid => exact ⟨⟨rfl, rfl⟩, rfl, rfl⟩

/-- An operation on `sem_swap_pool_table` moves nobody who waits for a device. -/
theorem queued_swapPoolOp (hq : Queued S s) {o : SemOp} {blocked next : Pc n}
    (hk : Retained s (s.swapPoolOp o i blocked next))
    (hb : blocked.request S i = (s.pc i).request S i ∧ next.request S i = (s.pc i).request S i)
    (hv : blocked.victimAsid = (s.pc i).victimAsid ∧ next.victimAsid = (s.pc i).victimAsid) :
    Queued S (s.swapPoolOp o i blocked next) := by
  have hrequest := swapPoolOp_moves (s := s) (o := o)
    (R := fun j pc => pc.request S j = (s.pc j).request S j) hb.1 hb.2
    (fun j => Pc.resumed_request _ j) (fun _ => rfl)
  have hvictim := swapPoolOp_moves (s := s) (o := o)
    (R := fun j pc => pc.victimAsid = (s.pc j).victimAsid) hv.1 hv.2
    (fun j => Pc.resumed_victimAsid _) (fun _ => rfl)
  rw [swapPoolOp_eq] at hk hrequest hvictim ⊢
  exact queued_same hq hk hrequest hvictim rfl rfl rfl

/-- The process that waits for the command at the head of a queue looks at its
    status, and waits for nothing then. -/
theorem queued_complete (hq : Queued S s) {dev : Fin n} {r : Request n} {rest : List (Request n)}
    {ok : Bool} {s₁ : SupportLevel n} {data : Page} (hqueue : (s.flash dev).queue = r :: rest)
    (h₁ : s₁ = if ok then s.transfer dev r else s)
    (hk : Retained s ({ s₁ with
      flash := Function.update s₁.flash dev { s₁.flash dev with queue := rest } }.finish r.who ok
        data)) :
    Queued S ({ s₁ with
      flash := Function.update s₁.flash dev { s₁.flash dev with queue := rest } }.finish r.who ok
        data) := by
  have hr := hq.known dev r (hqueue ▸ List.mem_cons_self)
  rcases transfer_eq h₁ with ⟨ram, blocks, rfl⟩
  have hflash : ∀ d, ((Function.update (fun d => { s.flash d with blocks := blocks d }) dev
      { queue := rest, blocks := blocks dev } : Fin n → Flash n) d).queue =
      if d = dev then rest else (s.flash d).queue := fun d => by
    by_cases hd : d = dev
    · rw [hd, Function.update_self, if_pos rfl]
    · rw [Function.update_of_ne hd, if_neg hd]
  cases hw : r.who with
  | some i =>
      rw [hw] at hk
      refine queued_done hq hk hqueue ?_ hflash (fun p hp => ?_) rfl (fun j a ha => ?_)
      · rw [hw, pending]
        simp only [finish, setPc, Function.update_self]
        exact Pc.finished_request _ _ _
      · cases p with
        | none => rfl
        | some j =>
            have hj : j ≠ i := fun hc => hp (hw ▸ congrArg some hc)
            simp only [pending, finish, setPc, Function.update_of_ne hj]
      · simp only [finish, setPc] at ha
        exact moves_update (R := fun j pc => ∀ a, pc.victimAsid = some a →
          (s.pc j).victimAsid = some a) (fun _ => Pc.finished_victimAsid _ _) (fun _ _ => id) j a ha
  | none =>
      rw [hw] at hr
      simp only [pending] at hr
      -- Only a read of a header can be over.
      cases htest : s.test with
      | heading i t =>
          rw [hw] at hk
          simp only [finish, htest] at hk ⊢
          have hothers : ∀ p, p ≠ r.who → ∃ j, p = some j := fun p hp => by
            cases p with
            | none => exact absurd hw.symm hp
            | some j => exact ⟨j, rfl⟩
          cases ok with
          | true =>
              rw [if_pos rfl] at hk ⊢
              refine queued_done hq hk hqueue (by rw [hw]; rfl) hflash (fun p hp => ?_) rfl
                (fun j a ha => ha)
              rcases hothers p hp with ⟨j, rfl⟩
              rfl
          | false =>
              rw [if_neg Bool.false_ne_true] at hk ⊢
              refine queued_done hq hk hqueue (by rw [hw]; rfl) hflash (fun p hp => ?_) rfl
                (fun j a ha => ha)
              rcases hothers p hp with ⟨j, rfl⟩
              rfl
      | _ =>
          rw [htest] at hr
          cases hr

/-- Every step keeps the invariant. -/
theorem queued_step {e : UEvent n} (ho : Allotted s) (hg : Guarded s) (hq : Queued S s)
    (hstep : UStep S s e s') : Queued S s' := by
  have hk : Retained s s' := retained_step ho hstep
  -- The pages of frames nobody touched keep their owners.
  have hown : ∀ f a, (s.swapPoolTable f).swAsid = some a →
      (s.swapPoolTable f).swAsid = some a ∨ (s.pc a).life ≠ .unborn := fun _ _ => Or.inl
  cases hstep with
  | panic => exact queued_same hq hk (fun _ => rfl) (fun _ => rfl) rfl rfl rfl
  | quit hpc =>
      exact queued_move hq hk rfl (by rw [hpc]; rfl) (fun a ha => by cases ha) rfl rfl hown
  | refill => exact queued_same hq hk (fun _ => rfl) (fun _ => rfl) rfl rfl rfl
  | fault hpc =>
      exact queued_move hq hk rfl (by rw [hpc]; rfl) (fun a ha => by cases ha) rfl rfl hown
  | access => exact queued_same hq hk (fun _ => rfl) (fun _ => rfl) rfl rfl rfl
  | goes h =>
      refine queued_move hq hk rfl (h.request.1.trans h.request.2.symm) (fun a ha => ?_)
        rfl rfl hown
      rcases h.victim ha with ⟨f, hf⟩
      exact Or.inr (hq.owners f a hf)
  | lock hpc =>
      refine queued_swapPoolOp hq hk ?_ ?_
      · rw [hpc]
        exact ⟨rfl, rfl⟩
      · rw [hpc]
        exact ⟨rfl, rfl⟩
  | take hpc =>
      exact queued_move hq hk rfl (by rw [hpc]; rfl) (fun a ha => by cases ha) rfl rfl hown
  | fifo hpc =>
      exact queued_move hq hk rfl (by rw [hpc]; rfl) (fun a ha => by cases ha) rfl rfl hown
  | evict hpc ha _ _ h₁ =>
      subst h₁
      refine queued_move hq hk rfl (by rw [hpc]; rfl) (fun a hb => Or.inl ?_) rfl rfl hown
      rw [hpc]
      exact ha.trans hb
  | @write i f v asid k hpc =>
      refine queued_issue ho hg hq (c := .writing f v asid k)
        (r := Request.write (some i) k (some (pageAddr S.swapPoolAddr v.frame))) hk ?_ ?_ rfl ?_
      · simp only [issues, hpc]
      · rw [hpc]
        rfl
      · rw [hpc]
        exact fun a ha => ha
  | @read i f v asid hpc hasid =>
      have hai : asid = i := ho.own (by rw [hpc]; rfl) hasid
      subst hai
      refine queued_issue ho hg hq (c := .reading f v)
        (r := Request.read (some asid) v.pIndex (some (pageAddr S.swapPoolAddr v.frame))) hk
        ?_ ?_ rfl (fun a ha => by cases ha)
      · simp only [issues, hpc, hasid]
      · rw [hpc]
        rfl
  -- The owner of the frame changes from the victim to the U-proc itself.
  | @commit i f v asid index hpc hasid =>
      have hai : asid = i := ho.own (by rw [hpc]; rfl) hasid
      refine queued_move hq hk rfl (by rw [hpc]; rfl) (fun a ha => by cases ha) rfl rfl ?_
      intro g a ha
      by_cases hf : g = v.frame
      · -- The frame belongs to the U-proc itself from now on.
        simp only [hf, setPc, Function.update_self, Option.some.injEq] at ha
        rw [← ha, hai, hpc]
        exact Or.inr (by simp only [Pc.life, ne_eq, reduceCtorEq, not_false_eq_true])
      · simp only [setPc, Function.update_of_ne hf] at ha
        exact Or.inl ha
  | @unlock i _ _ hu =>
      have hr := hu.request (S := S) i
      exact queued_swapPoolOp hq hk hr.1 hr.2
  | drop hpc =>
      exact queued_move hq hk rfl (by rw [hpc]; rfl) (fun a ha => by cases ha) rfl rfl hown
  | @unmark i asid index hpc =>
      refine queued_move hq hk rfl (by rw [hpc]; rfl) (fun a ha => by cases ha) rfl rfl ?_
      intro f a ha
      by_cases hf : f = index
      · simp only [hf, setPc, Function.update_self, reduceCtorEq] at ha
      · simp only [setPc, Function.update_of_ne hf] at ha
        exact Or.inl ha
  | free hpc =>
      exact queued_move hq hk rfl (by rw [hpc]; rfl) (fun a ha => by cases ha) rfl rfl hown
  | @post i hpc =>
      have hrequest := masterSemaphoreV_moves (s := s) (i := i)
        (R := fun j pc => pc.request S j = (s.pc j).request S j) (by rw [hpc]; rfl)
        (by rw [hpc]; rfl) (fun j => Pc.resumed_request _ j) (fun _ => rfl)
      have hvictim := masterSemaphoreV_moves (s := s) (i := i)
        (R := fun j pc => pc.victimAsid = (s.pc j).victimAsid) (by rw [hpc]; rfl)
        (by rw [hpc]; rfl) (fun j => Pc.resumed_victimAsid _) (fun _ => rfl)
      rw [masterSemaphoreV_eq] at hk hrequest hvictim ⊢
      refine queued_same hq hk hrequest hvictim ?_ rfl rfl
      simp only []
      split
      · exact TestPc.resumed_request _
      · rfl
  | complete hqueue h₁ => exact queued_complete hq hqueue h₁ hk
  | alloc htest =>
      exact queued_same hq hk (fun _ => rfl) (fun _ => rfl) (by rw [htest]; rfl) rfl rfl
  | created htest =>
      exact queued_same hq hk (fun _ => rfl) (fun _ => rfl) (by rw [htest]; rfl) rfl rfl
  | @header i t htest =>
      have hnil := device_idle ho hg hq (show issues s none = some i by simp only [issues, htest])
      have hp : pending S { s.readFlash none i 0 none with test := .heading i t } none =
          some (i, Request.read none 0 none) := rfl
      refine queued_doio hq hk hnil (by rw [pending, htest]; rfl) hp ?_ ?_ rfl (fun _ _ ha => ha)
      · intro d
        by_cases hd : d = i
        · simp only [readFlash, doio, hd, Function.update_self, if_true, hnil, List.nil_append]
        · simp only [readFlash, doio, Function.update_of_ne hd, if_neg hd]
      · intro q hqp
        cases q with
        | none => exact absurd rfl hqp
        | some j => rfl
  | fill htest =>
      exact queued_same hq hk (fun _ => rfl) (fun _ => rfl) (by rw [htest]; rfl) rfl rfl
  -- The new U-proc waits for nothing.
  | @create i t htest =>
      have hpc : s.pc i = .unborn := ho.fresh (by rw [htest]; rfl)
      refine hq.congr hk (fun _ => rfl) (fun p => ?_) (fun _ _ => Or.inl) (fun j a ha => ?_)
      · cases p with
        | none =>
            simp only [pending, htest]
            rfl
        | some j =>
            simp only [pending, setPc]
            exact moves_update (R := fun j pc => pc.request S j = (s.pc j).request S j)
              (by rw [hpc]; rfl) (fun _ => rfl) j
      · simp only [setPc] at ha
        exact moves_update (R := fun j pc => ∀ a, pc.victimAsid = some a →
          (s.pc j).victimAsid = some a ∨ (s.pc a).life ≠ .unborn) (fun _ hc => by cases hc)
          (fun _ _ => Or.inl) j a ha
  | @wait k htest hi =>
      have hrequest := masterSemaphoreP_moves (s := s) (k := k)
        (R := fun j pc => pc.request S j = (s.pc j).request S j)
        (fun j => Pc.resumed_request _ j) (fun _ => rfl)
      have hvictim := masterSemaphoreP_moves (s := s) (k := k)
        (R := fun j pc => pc.victimAsid = (s.pc j).victimAsid)
        (fun j => Pc.resumed_victimAsid _) (fun _ => rfl)
      rw [masterSemaphoreP_eq] at hk hrequest hvictim ⊢
      refine queued_same hq hk hrequest hvictim ?_ rfl rfl
      simp only [htest]
      split
      · rfl
      · rfl
  | halt => exact queued_same hq hk (fun _ => rfl) (fun _ => rfl) rfl rfl rfl

theorem queued_run {es : List (UEvent n)} (h : (supportLevel S).Run es s) : Queued S s :=
  System.run_invariant (fun _ => queued_start)
    (fun _ _ _ _ hrun hi hs =>
      queued_step (allotted_run hrun) (guarded_run hrun) hi (ustep_of_next hs).2) h

end FlashQueues

end Pandos
