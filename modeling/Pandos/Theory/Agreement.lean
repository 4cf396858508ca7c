import Pandos.Theory.Sweep
import Pandos.Theory.TlbEntries

/-!
# Agreement of the Tables of the Pager

The page tables, the swap pool table and the TLB agree as long as every frame a
U-proc uses was unoccupied or its own. `support_tlb` marks an entry of the page
table of the U-proc that faulted, whoever the frame belongs to, so the entry of
a victim of somebody else would stay valid.

A frame whose owner reads a page into it is between two pages: the entry of the
old one is marked, and the entry of the new one is not written yet. If the
operation on the device fails, the frame stays like that until `sys_terminate`
gives it up. A U-proc that has begun to give up its frames is no longer alive,
because somebody else may take one of them before it is through.

## Main definitions

* `Pc.hold`, `Pc.alive`, `Pc.owns`: A U-proc whose frames are its own.
* `Pc.fault`, `Pc.loading`, `Pc.victim`: What a U-proc is about to do.
* `Benign`: Steps that use no frame of somebody else, and break off no load into
  an occupied frame.
* `Settled`: What holds of a U-proc at its place in the code.
* `Agree`: The invariant.

## Theorems

* `agree_start`: The tables agree at the beginning.
* `agree_move`, `agree_same`: They agree after steps that leave them alone.
-/

namespace Pandos

section Agreement

variable {n : Nat}

open SupportLevel

/-! ## Places of the code -/

/-- What a U-proc does about its frames. The frame it is about to give up is its
    own. -/
inductive Hold
  | nothing
  | keeps
  | tests
  | gives (frame : Nat)

def Pc.hold : Pc n → Hold
  | .unborn => .nothing
  | .mark _ _ => .tests
  | .unmark _ index => .gives index
  | .free => .nothing
  | .post => .nothing
  | .posting => .nothing
  | .exit => .nothing
  | .dead => .nothing
  | _ => .keeps

/-- A U-proc that exists and has not begun to give up its frames. -/
def Pc.alive (pc : Pc n) : Bool :=
  match pc.hold with
  | .keeps => true
  | _ => false

/-- A U-proc that exists and has not given up all of its frames. -/
def Pc.owns (pc : Pc n) : Bool :=
  match pc.hold with
  | .nothing => false
  | _ => true

/-- The page fault a U-proc handles and has not served yet. -/
def Pc.fault : Pc n → Option Fault
  | .cause f => some f
  | .pass f => some f
  | .passing f => some f
  | .take f => some f
  | .pick f _ => some f
  | .copy f _ => some f
  | .evict f _ _ => some f
  | .write f _ _ _ => some f
  | .writing f _ _ _ => some f
  | .read f _ => some f
  | .reading f _ => some f
  | .commit f _ => some f
  | _ => none

/-- The frame a U-proc is about to fill. Its old page is not in use any more. -/
def Pc.loading : Pc n → Option Nat
  | .write _ v _ _ => some v.frame
  | .writing _ v _ _ => some v.frame
  | .read _ v => some v.frame
  | .reading _ v => some v.frame
  | .commit _ v => some v.frame
  | _ => none

/-- The page a U-proc is about to write to a device, and its frame. -/
def Pc.victim : Pc n → Option (Fin n × Nat × Nat)
  | .write _ v asid k => some (asid, k, v.frame)
  | .writing _ v asid k => some (asid, k, v.frame)
  | _ => none

/-- An entry of the page table of a U-proc. -/
def SupportLevel.entry (s : SupportLevel n) (i : Fin n) (j : Nat) : PteEntry :=
  (s.current i).supPrivatePageTable j

/-- The frame a step decides to use, and its U-proc. -/
def picks (s : SupportLevel n) : UEvent n → Option (Fin n × Nat)
  | .step i =>
    match s.pc i with
    | .copy _ frame => some (i, frame)
    | _ => none
  | _ => none

/-- The frame into which a failing flash operation breaks off a load. -/
def breaks (s : SupportLevel n) : UEvent n → Option Nat
  | .flash dev false =>
    (s.flash dev).queue.head?.bind (fun r => r.who.bind (fun i => (s.pc i).loading))
  | _ => none

/-- A step that uses no frame of somebody else, and breaks off no load into a
    frame that is occupied. -/
def Benign (s : SupportLevel n) (e : UEvent n) : Prop :=
  (∀ p ∈ picks s e, (s.swapPoolTable p.2).swAsid = none ∨
    (s.swapPoolTable p.2).swAsid = some p.1) ∧
  ∀ frame ∈ breaks s e, (s.swapPoolTable frame).swAsid = none

instance (s : SupportLevel n) (e : UEvent n) : Decidable (Benign s e) :=
  inferInstanceAs (Decidable (_ ∧ _))

/-! ## The invariant -/

/-- What holds of U-proc `i` at `pc`. The page that is missing is not valid, the
    copy of the swap pool table is up to date and names the U-proc itself, and
    the frame it fills is unoccupied, or holds a page of its own that has been
    marked. -/
structure Settled (s : SupportLevel n) (i : Fin n) (pc : Pc n) : Prop where
  missing : ∀ f j, pc.fault = some f → entryhiToIndex f.entryHi = .ok j →
    (s.entry i j).pteEntryLo &&& VALIDON = 0
  copy : ∀ f v swap, pc = .evict f v swap →
    swap = s.swapPoolTable v.frame ∧ swap.swAsid = some i
  spare : ∀ frame, pc.loading = some frame → (s.swapPoolTable frame).swAsid = none ∨
    ((s.swapPoolTable frame).swAsid = some i ∧
      ∃ k, (s.swapPoolTable frame).swPte = some (s.support i, k) ∧ (s.entry i k).pteEntryLo = 0)
  victim : ∀ asid k frame, pc.victim = some (asid, k, frame) → asid = i ∧
    (s.swapPoolTable frame).swAsid = some i ∧
    (s.swapPoolTable frame).swPte = some (s.support i, k) ∧ (s.entry i k).pteEntryLo = 0

/-- The tables of the pager agree. -/
structure Agree (S : Platform n) (s : SupportLevel n) : Prop where
  owner : ∀ f a, (s.swapPoolTable f).swAsid = some a → (s.pc a).owns = true ∧ f < POOLSIZE n
  frame : ∀ f a, (s.swapPoolTable f).swAsid = some a →
    ∃ j, j ≤ 31 ∧ vpnToIndex (s.swapPoolTable f).swPageNo = .ok j ∧
      (s.swapPoolTable f).swPte = some (s.support a, j) ∧
      ((s.entry a j).pteEntryLo = resident (pageAddr S.swapPoolAddr f) ∨
        ((s.entry a j).pteEntryLo = 0 ∧ (s.pc a).loading = some f))
  entry : ∀ a j, (s.pc a).alive = true → j ≤ 31 → (s.entry a j).pteEntryLo &&& VALIDON ≠ 0 →
    ∃ f, (s.swapPoolTable f).swAsid = some a ∧
      (s.swapPoolTable f).swPte = some (s.support a, j)
  tlb : ∀ slot a j, slot < S.tlbSize → (s.pc a).alive = true → j ≤ 31 →
    (s.tlb slot).pteEntryHi = tableHi a j → (s.tlb slot).pteEntryLo = (s.entry a j).pteEntryLo
  once : Once S s.tlb
  known : ∀ slot a j, slot < S.tlbSize → j ≤ 31 → (s.tlb slot).pteEntryHi = tableHi a j →
    (s.pc a).life ≠ .unborn
  fresh : ∀ a t, s.test = .create a t → ∀ j, j ≤ 31 →
    ((s.supportTable t).supPrivatePageTable j).pteEntryLo &&& VALIDON = 0
  gives : ∀ i f, (s.pc i).hold = .gives f → (s.swapPoolTable f).swAsid = some i
  places : ∀ i, Settled s i (s.pc i)

variable {S : Platform n} {s s' : SupportLevel n} {i : Fin n}

theorem Pc.owns_of_alive {pc : Pc n} (h : pc.alive = true) : pc.owns = true := by
  unfold Pc.alive at h
  unfold Pc.owns
  cases hh : pc.hold with
  | nothing =>
      rw [hh] at h
      cases h
  | _ => rfl

theorem Pc.alive_of_hold {pc pc' : Pc n} (h : pc'.hold = pc.hold) (ha : pc'.alive = true) :
    pc.alive = true := by
  unfold Pc.alive at ha ⊢
  rwa [← h]

theorem Pc.owns_of_hold {pc pc' : Pc n} (h : pc'.hold = pc.hold) (ha : pc.owns = true) :
    pc'.owns = true := by
  unfold Pc.owns at ha ⊢
  rwa [h]

theorem Pc.holding_of_owns {pc : Pc n} (h : pc.owns = true) : pc.life = .holding := by
  cases pc with
  | unborn => cases h
  | free => cases h
  | post => cases h
  | posting => cases h
  | exit => cases h
  | dead => cases h
  | _ => rfl

theorem Pc.holding_of_alive {pc : Pc n} (h : pc.alive = true) : pc.life = .holding :=
  Pc.holding_of_owns (Pc.owns_of_alive h)

theorem Pc.alive_of_fault {pc : Pc n} {f : Fault} (h : pc.fault = some f) : pc.alive = true := by
  cases pc with
  | unborn => cases h
  | mark => cases h
  | unmark => cases h
  | free => cases h
  | post => cases h
  | posting => cases h
  | exit => cases h
  | dead => cases h
  | _ => rfl

/-- A U-proc that fills a frame handles a fault. -/
theorem Pc.fault_of_loading {pc : Pc n} {frame : Nat} (h : pc.loading = some frame) :
    ∃ f, pc.fault = some f := by
  cases pc with
  | write f => exact ⟨f, rfl⟩
  | writing f => exact ⟨f, rfl⟩
  | read f => exact ⟨f, rfl⟩
  | reading f => exact ⟨f, rfl⟩
  | commit f => exact ⟨f, rfl⟩
  | _ => cases h

theorem Pc.loading_of_victim {pc : Pc n} {asid : Fin n} {k frame : Nat}
    (h : pc.victim = some (asid, k, frame)) : pc.loading = some frame := by
  cases pc with
  | write f v asid k => cases h; rfl
  | writing f v asid k => cases h; rfl
  | _ => cases h

/-- Filling a frame and copying the swap pool table happen inside the section. -/
theorem Pc.inside_of_loading {pc : Pc n} {frame : Nat} (h : pc.loading = some frame) (b : Bool) :
    pc.phase b = .inside := by
  cases pc with
  | write => rfl
  | writing => rfl
  | read => rfl
  | reading => rfl
  | commit => rfl
  | _ => cases h

/-- Nothing is demanded of a U-proc that handles no fault. -/
theorem Settled.calm {pc : Pc n} (h : pc.fault = none) : Settled s i pc := by
  -- Whoever fills a frame handles a fault, and so does whoever has a copy.
  have hload : ∀ frame, pc.loading ≠ some frame := fun frame hc => by
    rcases Pc.fault_of_loading hc with ⟨f, hf⟩
    rw [h] at hf
    cases hf
  refine ⟨fun f j hf => ?_, fun f v swap hc => ?_, fun frame hc => absurd hc (hload frame),
    fun asid k frame hc => absurd (Pc.loading_of_victim hc) (hload frame)⟩
  · rw [h] at hf
    cases hf
  · rw [hc] at h
    cases h

/-- What is demanded of a U-proc concerns its own entries and frames. -/
theorem Settled.congr {pc : Pc n} (h : Settled s i pc) (hsupport : s'.support i = s.support i)
    (hentry : ∀ j, (s'.entry i j).pteEntryLo = (s.entry i j).pteEntryLo)
    (hcopy : ∀ f v swap, pc = .evict f v swap → s'.swapPoolTable v.frame = s.swapPoolTable v.frame)
    (hswap : ∀ frame, pc.loading = some frame → s'.swapPoolTable frame = s.swapPoolTable frame) :
    Settled s' i pc := by
  refine ⟨fun f j hf hj => ?_, fun f v swap hpc => ?_, fun frame hl => ?_,
    fun asid k frame hv => ?_⟩
  · rw [hentry]
    exact h.missing f j hf hj
  · rw [hcopy f v swap hpc]
    exact h.copy f v swap hpc
  · simp only [hswap frame hl, hsupport, hentry]
    exact h.spare frame hl
  · simp only [hswap frame (Pc.loading_of_victim hv), hsupport, hentry]
    exact h.victim asid k frame hv

/-- A U-proc goes on to a place at which no more is demanded of it. -/
structure Relaxes (pc pc' : Pc n) : Prop where
  alive : pc'.alive = true → pc.alive = true
  owns : pc.owns = true → pc'.owns = true
  gives : ∀ f, pc'.hold = .gives f → pc.hold = .gives f
  fault : ∀ f, pc'.fault = some f → pc.fault = some f
  loading : ∀ frame, pc'.loading = some frame → pc.loading = some frame
  victim : ∀ x, pc'.victim = some x → pc.victim = some x
  copy : ∀ f v swap, pc' = .evict f v swap → pc = .evict f v swap

theorem Relaxes.refl (pc : Pc n) : Relaxes pc pc :=
  ⟨id, id, fun _ => id, fun _ => id, fun _ => id, fun _ => id, fun _ _ _ => id⟩

theorem Settled.relaxes {pc pc' : Pc n} (h : Settled s i pc) (hf : Relaxes pc pc') :
    Settled s i pc' :=
  ⟨fun f j hc hj => h.missing f j (hf.fault f hc) hj,
    fun f v swap hc => h.copy f v swap (hf.copy f v swap hc),
    fun frame hc => h.spare frame (hf.loading frame hc),
    fun asid k frame hc => h.victim asid k frame (hf.victim _ hc)⟩

/-- U-proc `i` may go on to `pc`. A frame it was filling is full, or unoccupied. -/
structure Goal (s : SupportLevel n) (i : Fin n) (pc : Pc n) : Prop where
  alive : pc.alive = true → (s.pc i).alive = true
  owner : ∀ f, (s.swapPoolTable f).swAsid = some i → pc.owns = true
  gives : ∀ f, pc.hold = .gives f → (s.swapPoolTable f).swAsid = some i
  kept : ∀ frame, (s.pc i).loading = some frame → pc.loading = some frame ∨
    (s.swapPoolTable frame).swAsid ≠ some i
  settled : Settled s i pc

theorem Goal.refl (h : Agree S s) (i : Fin n) : Goal s i (s.pc i) :=
  ⟨id, fun f hf => (h.owner f i hf).1, h.gives i, fun _ hl => Or.inl hl, h.places i⟩

theorem Goal.relaxes (h : Agree S s) {pc : Pc n} (hf : Relaxes (s.pc i) pc)
    (hkept : ∀ frame, (s.pc i).loading = some frame → pc.loading = some frame ∨
      (s.swapPoolTable frame).swAsid ≠ some i) : Goal s i pc :=
  ⟨hf.alive, fun f hc => hf.owns (h.owner f i hc).1,
    fun f hc => h.gives i f (hf.gives f hc), hkept, (h.places i).relaxes hf⟩

theorem Pc.resumed_relaxes (pc : Pc n) : Relaxes pc pc.resumed := by
  cases pc with
  | passing f =>
      exact ⟨id, id, fun _ hc => (by cases hc), fun _ => id, fun _ => id, fun _ => id,
        fun _ _ _ hc => by cases hc⟩
  | releasing f =>
      exact ⟨id, id, fun _ hc => (by cases hc), fun _ => id, fun _ => id, fun _ => id,
        fun _ _ _ hc => by cases hc⟩
  | cleaning asid =>
      exact ⟨fun _ => rfl, fun _ => rfl, fun _ hc => (by cases hc), fun _ => id, fun _ => id,
        fun _ => id, fun _ _ _ hc => by cases hc⟩
  | posting =>
      exact ⟨id, id, fun _ hc => (by cases hc), fun _ => id, fun _ => id, fun _ => id,
        fun _ _ _ hc => by cases hc⟩
  | _ => exact Relaxes.refl _

theorem Pc.resumed_loading (pc : Pc n) : pc.resumed.loading = pc.loading := by
  cases pc <;> rfl

theorem Goal.resumed (h : Agree S s) (i : Fin n) : Goal s i (s.pc i).resumed :=
  Goal.relaxes h (Pc.resumed_relaxes _) (fun _ hl => Or.inl ((Pc.resumed_loading _).trans hl))

/-- U-procs and `test` move on, and the tables stay as they are. -/
theorem Agree.congr (h : Agree S s) (hk : Retained s s') (hpc : ∀ j, Goal s j (s'.pc j))
    (hsupport : s'.support = s.support)
    (htable : ∀ t, (s'.supportTable t).supPrivatePageTable =
      (s.supportTable t).supPrivatePageTable)
    (hswap : s'.swapPoolTable = s.swapPoolTable) (htlb : s'.tlb = s.tlb)
    (htest : ∀ i t, s'.test = .create i t → s.test = .create i t) : Agree S s' := by
  -- The page tables and who has them are what they were.
  have hentry : ∀ j k, s'.entry j k = s.entry j k := fun j k => by
    rw [SupportLevel.entry, SupportLevel.entry, current, current, hsupport, htable]
  refine ⟨fun f a ha => ?_, fun f a ha => ?_, fun a j ha hj hv => ?_,
    fun slot a j hs ha hj hhi => ?_,
    htlb ▸ h.once, fun slot a j hs hj hhi => ?_, fun a t ht j hj => ?_,
    fun j f hc => hswap ▸ (hpc j).gives f hc, fun j => ?_⟩
  · rw [hswap] at ha
    exact ⟨(hpc a).owner f ha, (h.owner f a ha).2⟩
  · rw [hswap] at ha ⊢
    rcases h.frame f a ha with ⟨j, hj, hx, hp, hres⟩
    refine ⟨j, hj, hx, hsupport ▸ hp, ?_⟩
    rw [hentry]
    -- A frame that is being filled stays so, or was unoccupied.
    exact hres.imp_right (fun hl => ⟨hl.1, ((hpc a).kept f hl.2).resolve_right (fun hc => hc ha)⟩)
  · rw [hentry] at hv
    rw [hswap, hsupport]
    exact h.entry a j ((hpc a).alive ha) hj hv
  · rw [hentry, htlb]
    rw [htlb] at hhi
    exact h.tlb slot a j hs ((hpc a).alive ha) hj hhi
  · -- A U-proc that was created is not unborn again.
    rw [htlb] at hhi
    exact hk.born (h.known slot a j hs hj hhi)
  · rw [htable]
    exact h.fresh a t (htest a t ht) j hj
  · exact (hpc j).settled.congr (congrFun hsupport j) (fun k => by rw [hentry])
      (fun _ v _ _ => by rw [hswap]) (fun _ _ => by rw [hswap])

/-- One U-proc moves on. -/
theorem agree_move (h : Agree S s) (hk : Retained s s') {pc : Pc n}
    (hpc : s'.pc = Function.update s.pc i pc) (hi : Goal s i pc)
    (hsupport : s'.support = s.support) (htable : s'.supportTable = s.supportTable)
    (hswap : s'.swapPoolTable = s.swapPoolTable) (htlb : s'.tlb = s.tlb)
    (htest : s'.test = s.test) : Agree S s' := by
  refine h.congr hk (fun j => ?_) hsupport (fun t => by rw [htable]) hswap htlb
    (fun j t ht => htest ▸ ht)
  rw [hpc]
  exact moves_update (R := Goal s) hi (Goal.refl h) j

/-- Nobody moves. -/
theorem agree_same (h : Agree S s) (hk : Retained s s') (hpc : s'.pc = s.pc)
    (hsupport : s'.support = s.support)
    (htable : ∀ t, (s'.supportTable t).supPrivatePageTable =
      (s.supportTable t).supPrivatePageTable)
    (hswap : s'.swapPoolTable = s.swapPoolTable) (htlb : s'.tlb = s.tlb)
    (htest : ∀ i t, s'.test = .create i t → s.test = .create i t) : Agree S s' := by
  refine h.congr hk (fun j => ?_) hsupport htable hswap htlb htest
  rw [hpc]
  exact Goal.refl h j

theorem agree_start (hn : n < 64) (h : (supportLevel S).init s) : Agree S s := by
  rcases h with ⟨free, _, rfl⟩
  -- An entry of the TLB that was never written is the one of no page.
  have hzero : ∀ (a : Fin n) j, (0 : Word) ≠ tableHi a j :=
    fun a j hc => tableHi_ne_zero hn a j hc.symm
  exact ⟨fun f a ha => (by cases ha), fun f a ha => (by cases ha), fun a j ha => (by cases ha),
    fun slot a j _ ha => (by cases ha), fun slot slot' a j _ _ _ hhi => absurd hhi (hzero a j),
    fun slot a j _ _ hhi => absurd hhi (hzero a j), fun a t ht => (by cases ht),
    fun i f hc => (by cases hc), fun i => Settled.calm rfl⟩

end Agreement

end Pandos
