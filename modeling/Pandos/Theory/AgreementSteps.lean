import Pandos.Theory.Agreement

/-!
# Steps that Keep the Tables in Agreement

The two blocks of `support_tlb` that run with interrupts off each write one
entry of a page table and the entry of the TLB for the same page. The first one
takes a page out of its frame, the second one puts a page into the frame.

## Main definitions

* `Rewrites`: A step writes one page table entry, and the TLB with it.
* `Evicts`, `Commits`: What the two blocks do.

## Theorems

* `agree_evict`, `agree_commit`: The two blocks keep the agreement.
* `agree_unmark`: A U-proc that terminates gives up one of its frames.
* `agree_step`, `agree_run`: So does every run of benign steps.
-/

namespace Pandos

section AgreementSteps

variable {n : Nat}

open SupportLevel

variable {S : Platform n} {s s' : SupportLevel n} {i : Fin n}

/-! ## Writing an entry -/

/-- U-procs do not share page tables. -/
theorem entry_setTable (ho : Allotted s) (hi : (s.pc i).life = .holding) {a : Fin n}
    (ha : (s.pc a).life = .holding) (k : Nat) (lo : Word) (j : Nat) :
    ((s.setTable (s.support i) (Function.update (s.current i).supPrivatePageTable k
      { (s.current i).supPrivatePageTable k with pteEntryLo := lo })).entry a j).pteEntryLo =
      if a = i ∧ j = k then lo else (s.entry a j).pteEntryLo := by
  by_cases hai : a = i
  · subst hai
    simp only [SupportLevel.entry, current, SupportLevel.setTable, Function.update_self, true_and]
    by_cases hj : j = k
    · rw [hj, Function.update_self, if_pos rfl]
    · rw [Function.update_of_ne hj, if_neg hj]
  · -- Another U-proc has another structure.
    have hne : s.support a ≠ s.support i := fun hc => hai (ho.inj a i ha hi hc)
    rw [if_neg (fun hc => hai hc.1)]
    simp only [SupportLevel.entry, current, SupportLevel.setTable, Function.update_of_ne hne]

/-- A step of U-proc `i` writes the entry of page `k` of its page table, and puts
    the entry into the TLB if the page is there. -/
structure Rewrites (S : Platform n) (s s' : SupportLevel n) (i : Fin n) (k : Nat) (lo : Word) :
    Prop where
  index : k ≤ 31
  alive : ∀ a, (s'.pc a).alive = (s.pc a).alive
  owns : ∀ a, (s'.pc a).owns = (s.pc a).owns
  support : s'.support = s.support
  entry : ∀ a j, (s.pc a).life = .holding →
    (s'.entry a j).pteEntryLo = if a = i ∧ j = k then lo else (s.entry a j).pteEntryLo
  tlb : s'.tlb = updateTlb S.tlbSize s.tlb { pteEntryHi := tableHi i k, pteEntryLo := lo }
  test : s'.test = s.test
  fresh : ∀ a t, s.test = .create a t → s'.supportTable t = s.supportTable t

/-- The entries of the TLB follow the page tables. -/
theorem Rewrites.agree (hn : n < 64) (hal : S.Aligned) (hm : Mapped (pageWord S) s)
    (h : Agree S s) {k : Nat} {lo : Word} (hr : Rewrites S s s' i k lo) (hk : Retained s s')
    (howner : ∀ f a, (s'.swapPoolTable f).swAsid = some a →
      (s.pc a).owns = true ∧ f < POOLSIZE n)
    (hframe : ∀ f a, (s'.swapPoolTable f).swAsid = some a →
      ∃ j, j ≤ 31 ∧ vpnToIndex (s'.swapPoolTable f).swPageNo = .ok j ∧
        (s'.swapPoolTable f).swPte = some (s.support a, j) ∧
        ((s'.entry a j).pteEntryLo = resident (pageAddr S.swapPoolAddr f) ∨
          ((s'.entry a j).pteEntryLo = 0 ∧ (s'.pc a).loading = some f)))
    (hentry : ∀ a j, (s.pc a).alive = true → j ≤ 31 →
      (s'.entry a j).pteEntryLo &&& VALIDON ≠ 0 →
      ∃ f, (s'.swapPoolTable f).swAsid = some a ∧
        (s'.swapPoolTable f).swPte = some (s.support a, j))
    (hgives : ∀ a f, (s'.pc a).hold = .gives f → (s'.swapPoolTable f).swAsid = some a)
    (hplaces : ∀ a, Settled s' a (s'.pc a)) : Agree S s' := by
  -- At most one slot has the page, and it is updated.
  have htlb : ∀ slot, slot < S.tlbSize → s'.tlb slot =
      if (s.tlb slot).pteEntryHi = tableHi i k
      then { pteEntryHi := tableHi i k, pteEntryLo := lo } else s.tlb slot := fun slot hs => by
    rw [hr.tlb]
    exact updateTlb_eq hn hal hm.tlb h.once hr.index rfl hs
  have hhi : ∀ slot, slot < S.tlbSize → (s'.tlb slot).pteEntryHi = (s.tlb slot).pteEntryHi :=
    fun slot hs => by
      rw [hr.tlb]
      exact updateTlb_hi hn hal hm.tlb h.once hr.index rfl hs
  refine ⟨fun f a ha => ?_, fun f a ha => ?_, fun a j ha hj hv => ?_,
    fun slot a j hs ha hj hp => ?_, fun slot slot' a j hs hs' hj hp hp' => ?_,
    fun slot a j hs hj hp => ?_, fun a t ht j hj => ?_, hgives, hplaces⟩
  · rw [hr.owns]
    exact howner f a ha
  · rw [hr.support]
    exact hframe f a ha
  · rw [hr.alive] at ha
    rw [hr.support]
    exact hentry a j ha hj hv
  · rw [hr.alive] at ha
    rw [hhi slot hs] at hp
    rw [htlb slot hs, hr.entry a j (Pc.holding_of_alive ha)]
    by_cases haj : a = i ∧ j = k
    · rw [if_pos haj, if_pos (by rw [hp, haj.1, haj.2])]
    · -- The slot holds another page.
      rw [if_neg haj, if_neg (fun hc => haj (tableHi_inj hn hj hr.index (hp.symm.trans hc)))]
      exact h.tlb slot a j hs ha hj hp
  · -- No slot changes its page.
    rw [hhi slot hs] at hp
    rw [hhi slot' hs'] at hp'
    exact h.once slot slot' a j hs hs' hj hp hp'
  · rw [hhi slot hs] at hp
    exact hk.born (h.known slot a j hs hj hp)
  · rw [hr.test] at ht
    rw [hr.fresh a t ht]
    exact h.fresh a t ht j hj

/-- The U-procs outside the section fill no frame and have copied nothing. -/
theorem outside_of_inside (hg : Guarded s) (hi : s.phases i = .inside) {j : Fin n} (hj : j ≠ i) :
    (∀ f v swap, s.pc j ≠ .evict f v swap) ∧ ∀ frame, (s.pc j).loading ≠ some frame := by
  have hout : s.phases j ≠ .inside := fun hc => hj (hg.mutex.one j i hc hi)
  refine ⟨fun f v swap hc => hout ?_, fun frame hc => hout (Pc.inside_of_loading hc _)⟩
  rw [phases, hc]
  rfl

/-- What is demanded of the other U-procs is not affected. -/
theorem Rewrites.others (hg : Guarded s) (h : Agree S s) {k : Nat} {lo : Word}
    (hr : Rewrites S s s' i k lo) (hi : s.phases i = .inside) {j : Fin n} (hj : j ≠ i)
    (hpc : s'.pc j = s.pc j) : Settled s' j (s'.pc j) := by
  rw [hpc]
  rcases outside_of_inside hg hi hj with ⟨hcopy, hload⟩
  -- Another U-proc may handle a fault, but outside the section.
  cases hf : (s.pc j).fault with
  | none => exact Settled.calm hf
  | some f =>
      refine (h.places j).congr (congrFun hr.support j) (fun p => ?_)
        (fun f v swap hc => absurd hc (hcopy f v swap)) (fun frame hc => absurd hc (hload frame))
      rw [hr.entry j p (Pc.holding_of_alive (Pc.alive_of_fault hf)), if_neg (fun hc => hj hc.1)]

/-! ## The two blocks with interrupts off -/

/-- The first block takes page `k` of U-proc `i` out of the frame of the victim. -/
structure Evicts (S : Platform n) (s s' : SupportLevel n) (i : Fin n) (f : Fault) (v : Victim)
    (k : Nat) : Prop where
  rewrites : Rewrites S s s' i k 0
  owner : (s.swapPoolTable v.frame).swAsid = some i
  pointer : (s.swapPoolTable v.frame).swPte = some (s.support i, k)
  page : (s.entry i k).pteEntryLo = resident (pageAddr S.swapPoolAddr v.frame)
  pc : s'.pc = Function.update s.pc i (.write f v i k)
  swap : s'.swapPoolTable = s.swapPoolTable
  ram : s'.ram = s.ram
  flash : s'.flash = s.flash

/-- The first block, for a frame of the U-proc itself. -/
theorem evicts_of_evict (hn : n < 64) (ho : Allotted s) (hm : Mapped (pageWord S) s) (h : Agree S s)
    {f : Fault} {v : Victim} {swap : Swap n} {asid t : Fin n} {k kIndex : Nat}
    (hpc : s.pc i = .evict f v swap) (ha : swap.swAsid = some asid) (hp : swap.swPte = some (t, k))
    (hx : entryhiToIndex ((s.supportTable t).supPrivatePageTable k).pteEntryHi = .ok kIndex)
    {s₁ : SupportLevel n} (h₁ : s₁ = s.setTable (s.support i)
      (markPageNotValid (s.current i).supPrivatePageTable kIndex))
    (hs' : s' = { s₁ with
      tlb := updateTlb S.tlbSize s.tlb
        ((s₁.supportTable t).supPrivatePageTable k) }.setPc i (.write f v asid kIndex)) :
    Evicts S s s' i f v k := by
  have hi : (s.pc i).life = .holding := by
    rw [hpc]
    rfl
  rcases (h.places i).copy f v swap hpc with ⟨hswap, hown⟩
  have hasid : asid = i := Option.some.inj (ha.symm.trans hown)
  have hocc : (s.swapPoolTable v.frame).swAsid = some i := hswap ▸ hown
  rcases h.frame v.frame i hocc with ⟨j, hj, hpage, hptr, hres⟩
  -- The pointer of the copy is the one of the table, which leads to an own page.
  have hptr' := hptr
  rw [← hswap, hp] at hptr
  cases hptr
  have hhi : ((s.supportTable (s.support i)).supPrivatePageTable k).pteEntryHi = tableHi i k :=
    (hm.tables i hi k hj).1
  -- The index computed from the entry is the one of the entry.
  have hkIndex : kIndex = k := by
    rw [hhi, entryhiToIndex_tableHi hn i hj, Except.ok.injEq] at hx
    exact hx.symm
  subst hasid hkIndex
  have hpcs : s'.pc = Function.update s.pc asid (.write f v asid kIndex) := by
    rw [hs', h₁]
    rfl
  refine ⟨⟨hj, fun a => ?_, fun a => ?_, by rw [hs', h₁]; rfl, fun a b hab => ?_, ?_,
    by rw [hs', h₁]; rfl, fun a u hu => ?_⟩, hocc, hptr', ?_, hpcs, by rw [hs', h₁]; rfl,
    by rw [hs', h₁]; rfl, by rw [hs', h₁]; rfl⟩
  · rw [hpcs]
    by_cases haa : a = asid
    · rw [haa, Function.update_self, hpc]
      rfl
    · rw [Function.update_of_ne haa]
  · rw [hpcs]
    by_cases haa : a = asid
    · rw [haa, Function.update_self, hpc]
      rfl
    · rw [Function.update_of_ne haa]
  · rw [← entry_setTable ho hi hab, ← markPageNotValid_eq, hs', h₁]
    rfl
  · rw [hs', h₁]
    simp only [setPc, current, SupportLevel.setTable, Function.update_self, markPageNotValid_eq,
      hhi]
  · have hne := (ho.spare a u (by rw [hu]; rfl)).2.1 asid hi
    rw [hs', h₁]
    exact Function.update_of_ne hne.symm _ _
  · -- The page of the victim is in the frame, because nothing is being loaded yet.
    rw [hpc] at hres
    exact hres.resolve_right (fun hc => by cases hc.2)

/-- Taking a page out of its frame keeps the agreement. -/
theorem agree_evict (hn : n < 64) (hal : S.Aligned) (hg : Guarded s) (hm : Mapped (pageWord S) s)
    (h : Agree S s) {f : Fault} {v : Victim} {swap : Swap n} {k : Nat}
    (hpc : s.pc i = .evict f v swap) (he : Evicts S s s' i f v k) (hkept : Retained s s') :
    Agree S s' := by
  have hr := he.rewrites
  have halive : (s.pc i).alive = true := by
    rw [hpc]
    rfl
  have hinside : s.phases i = .inside := by
    rw [phases, hpc]
    rfl
  have hself : s'.pc i = .write f v i k := by
    rw [he.pc, Function.update_self]
  have hsame := he.swap
  refine hr.agree hn hal hm h hkept (fun g a hga => h.owner g a (hsame ▸ hga)) (fun g a hga => ?_)
    (fun a b hab hb hv => ?_) (fun a g hu => ?_) (fun a => ?_)
  · rw [hsame] at hga ⊢
    rcases h.frame g a hga with ⟨b, hb, hbx, hbp, hbres⟩
    refine ⟨b, hb, hbx, hbp, ?_⟩
    rw [hr.entry a b (Pc.holding_of_owns (h.owner g a hga).1)]
    by_cases haa : a = i
    · subst haa
      rw [hpc] at hbres
      have hbres := hbres.resolve_right (fun hc => by cases hc.2)
      by_cases hbk : b = k
      · -- The page is in one frame only.
        subst hbk
        have hgv : g = v.frame := resident_pageAddr_inj hn hal (h.owner g a hga).2
          (h.owner v.frame a he.owner).2 (hbres.symm.trans he.page)
        rw [if_pos ⟨rfl, rfl⟩, hself, hgv]
        exact Or.inr ⟨rfl, rfl⟩
      · rw [if_neg (fun hc => hbk hc.2)]
        exact Or.inl hbres
    · rw [if_neg (fun hc => haa hc.1), he.pc, Function.update_of_ne haa]
      exact hbres
  · -- A page that is valid afterwards is another one, whose frame did not change.
    rw [hr.entry a b (Pc.holding_of_alive hab)] at hv
    split at hv
    · exact absurd BitVec.zero_and hv
    · rw [hsame]
      exact h.entry a b hab hb hv
  · rw [hsame]
    by_cases haa : a = i
    · rw [haa, hself] at hu
      cases hu
    · rw [he.pc, Function.update_of_ne haa] at hu
      exact h.gives a g hu
  · by_cases haa : a = i
    · subst haa
      rw [hself]
      have hzero : (s'.entry a k).pteEntryLo = 0 := by
        rw [hr.entry a k (Pc.holding_of_alive halive), if_pos ⟨rfl, rfl⟩]
      have hvictim : (s'.swapPoolTable v.frame).swPte = some (s'.support a, k) := by
        rw [hsame, hr.support]
        exact he.pointer
      refine ⟨fun f' p hf hp' => ?_, fun _ _ _ hc => (by cases hc), fun frame hc => ?_,
        fun b q frame hc => ?_⟩
      · cases hf
        rw [hr.entry a p (Pc.holding_of_alive halive)]
        split
        · exact BitVec.zero_and
        · exact (h.places a).missing f p (by rw [hpc]; rfl) hp'
      · -- The frame is filled next, and still points to the entry that was cleared.
        cases hc
        exact Or.inr ⟨hsame ▸ he.owner, k, hvictim, hzero⟩
      · cases hc
        exact ⟨rfl, hsame ▸ he.owner, hvictim, hzero⟩
    · exact hr.others hg h hinside haa (by rw [he.pc, Function.update_of_ne haa])

/-- The second block puts the missing page of U-proc `i` into the frame. -/
structure Commits (S : Platform n) (s s' : SupportLevel n) (i : Fin n) (f : Fault) (v : Victim) :
    Prop where
  serves : v.Serves n f
  rewrites : Rewrites S s s' i v.pIndex (resident (pageAddr S.swapPoolAddr v.frame))
  pc : s'.pc = Function.update s.pc i (.release f)
  swap : s'.swapPoolTable = Function.update s.swapPoolTable v.frame
    { swAsid := some i, swPageNo := v.pVpn, swPte := some (s.support i, v.pIndex) }
  ram : s'.ram = s.ram
  flash : s'.flash = s.flash

theorem commits_of_commit (ho : Allotted s) (hm : Mapped (pageWord S) s) {f : Fault} {v : Victim}
    {asid : Fin n} {index : Nat} (hpc : s.pc i = .commit f v)
    (ha : (s.current i).supAsid = some asid) (hx : vpnToIndex v.pVpn = .ok index)
    {table : PageTable} (ht : table = updatePageTable (s.current i).supPrivatePageTable v.pIndex
      (pageAddr S.swapPoolAddr v.frame))
    (hs' : s' = { s.setTable (s.support i) table with
      swapPoolTable := Function.update s.swapPoolTable v.frame
        { swAsid := some asid, swPageNo := v.pVpn, swPte := some (s.support i, index) }
      tlb := updateTlb S.tlbSize s.tlb (table v.pIndex) }.setPc i (.release f)) :
    Commits S s s' i f v := by
  have hi : (s.pc i).life = .holding := by
    rw [hpc]
    rfl
  have hserves : v.Serves n f := hm.place hpc
  have hasid : asid = i := ho.own hi ha
  have hindex : index = v.pIndex := Except.ok.inj (hx.symm.trans hserves.index)
  subst hasid hindex
  have hle : v.pIndex ≤ 31 := index_le hserves.located
  have hpcs : s'.pc = Function.update s.pc asid (.release f) := by
    rw [hs']
    rfl
  refine ⟨hserves, ⟨hle, fun a => ?_, fun a => ?_, by rw [hs']; rfl, fun a b hab => ?_, ?_,
    by rw [hs']; rfl, fun a u hu => ?_⟩, hpcs, by rw [hs']; rfl, by rw [hs']; rfl,
    by rw [hs']; rfl⟩
  · rw [hpcs]
    by_cases haa : a = asid
    · rw [haa, Function.update_self, hpc]
      rfl
    · rw [Function.update_of_ne haa]
  · rw [hpcs]
    by_cases haa : a = asid
    · rw [haa, Function.update_self, hpc]
      rfl
    · rw [Function.update_of_ne haa]
  · rw [← entry_setTable ho hi hab, hs', ht]
    rfl
  · have hhi : ((s.current asid).supPrivatePageTable v.pIndex).pteEntryHi =
        tableHi asid v.pIndex := (hm.tables asid hi v.pIndex hle).1
    rw [hs', ht]
    simp only [setPc, updatePageTable, Function.update_self, hhi]
    rfl
  · have hne := (ho.spare a u (by rw [hu]; rfl)).2.1 asid hi
    rw [hs']
    exact Function.update_of_ne hne.symm _ _

/-- Putting a page into a frame keeps the agreement. -/
theorem agree_commit (hn : n < 64) (hal : S.Aligned) (hg : Guarded s) (hm : Mapped (pageWord S) s)
    (h : Agree S s) {f : Fault} {v : Victim} (hpc : s.pc i = .commit f v)
    (hc : Commits S s s' i f v) (hkept : Retained s s') : Agree S s' := by
  have hr := hc.rewrites
  have halive : (s.pc i).alive = true := by
    rw [hpc]
    rfl
  have hinside : s.phases i = .inside := by
    rw [phases, hpc]
    rfl
  have hmissing : (s.entry i v.pIndex).pteEntryLo &&& VALIDON = 0 :=
    (h.places i).missing f v.pIndex (by rw [hpc]; rfl) hc.serves.located
  have hspare := (h.places i).spare v.frame (by rw [hpc]; rfl)
  have hvalid : ∀ g, g < POOLSIZE n → resident (pageAddr S.swapPoolAddr g) &&& VALIDON ≠ 0 :=
    fun g hg => (resident_bits (pageAddr_aligned hn hal hg)).1
  have hframe : s'.swapPoolTable v.frame =
      { swAsid := some i, swPageNo := v.pVpn, swPte := some (s.support i, v.pIndex) } := by
    rw [hc.swap, Function.update_self]
  have hother : ∀ g, g ≠ v.frame → s'.swapPoolTable g = s.swapPoolTable g := fun g hgv => by
    rw [hc.swap, Function.update_of_ne hgv]
  refine hr.agree hn hal hm h hkept (fun g a hga => ?_) (fun g a hga => ?_)
    (fun a b hab hb hv => ?_) (fun a g hu => ?_) (fun a => ?_)
  · by_cases hgv : g = v.frame
    · rw [hgv, hframe, Option.some.injEq] at hga
      rw [← hga, hgv]
      exact ⟨Pc.owns_of_alive halive, hc.serves.frame⟩
    · rw [hother g hgv] at hga
      exact h.owner g a hga
  · by_cases hgv : g = v.frame
    · rw [hgv, hframe] at hga ⊢
      cases hga
      refine ⟨v.pIndex, hr.index, hc.serves.index, rfl, Or.inl ?_⟩
      rw [hr.entry i v.pIndex (Pc.holding_of_alive halive), if_pos ⟨rfl, rfl⟩]
    · rw [hother g hgv] at hga ⊢
      rcases h.frame g a hga with ⟨b, hb, hbx, hbp, hbres⟩
      refine ⟨b, hb, hbx, hbp, ?_⟩
      rw [hr.entry a b (Pc.holding_of_owns (h.owner g a hga).1)]
      by_cases haa : a = i
      · subst haa
        rw [hpc] at hbres
        -- The frame that is being filled is another one.
        have hres := hbres.resolve_right (fun hl => hgv (Option.some.inj hl.2).symm)
        rw [if_neg (fun hb' => ?_)]
        · exact Or.inl hres
        · rw [hb'.2] at hres
          rw [hres] at hmissing
          exact hvalid g (h.owner g a hga).2 hmissing
      · rw [if_neg (fun hb' => haa hb'.1), hc.pc, Function.update_of_ne haa]
        exact hbres
  · rw [hr.entry a b (Pc.holding_of_alive hab)] at hv
    by_cases hab' : a = i ∧ b = v.pIndex
    · -- The page that was missing is in the frame.
      refine ⟨v.frame, ?_, ?_⟩
      · rw [hframe, hab'.1]
      · rw [hframe, hab'.1, hab'.2]
    · rw [if_neg hab'] at hv
      rcases h.entry a b hab hb hv with ⟨g, hga, hgp⟩
      by_cases hgv : g = v.frame
      · -- The old page of the frame is not valid any more.
        rw [hgv] at hga hgp
        rcases hspare with hnone | ⟨hown, k, hkp, hzero⟩
        · rw [hnone] at hga
          cases hga
        · rw [hown] at hga
          cases hga
          rw [hkp] at hgp
          cases hgp
          rw [hzero] at hv
          exact absurd BitVec.zero_and hv
      · refine ⟨g, ?_, ?_⟩
        · rw [hother g hgv]
          exact hga
        · rw [hother g hgv]
          exact hgp
  · by_cases haa : a = i
    · rw [haa, hc.pc, Function.update_self] at hu
      cases hu
    · -- The frame is not one of somebody who gives it up.
      rw [hc.pc, Function.update_of_ne haa] at hu
      have hown := h.gives a g hu
      rw [hother g (fun hgv => ?_)]
      · exact hown
      · rw [hgv] at hown
        rcases hspare with hnone | ⟨hi, _⟩
        · rw [hnone] at hown
          cases hown
        · exact haa (Option.some.inj (hown.symm.trans hi))
  · by_cases haa : a = i
    · rw [haa, hc.pc, Function.update_self]
      exact Settled.calm rfl
    · exact hr.others hg h hinside haa (by rw [hc.pc, Function.update_of_ne haa])

/-! ## The other writers -/

/-- `tlb_refill_handler` copies an entry of the page table into the TLB. -/
theorem agree_refill (hn : n < 64) (hal : S.Aligned) (hm : Mapped (pageWord S) s) (h : Agree S s)
    {addr : Word} {slot : Nat} {pte : PteEntry} (hpc : s.pc i = .user)
    (hl : s.lookup S i addr = none)
    (he : tlbRefillEntry (s.current i).supPrivatePageTable (entryHiOf i addr) = .ok pte) :
    Agree S { s with tlb := addRandomInTlb s.tlb slot pte } := by
  rcases refill_entry he with ⟨j, hj, rfl⟩
  have hle : j ≤ 31 := index_le hj
  have hpage : pageOf addr = some j := by
    rw [← toOption_eq_some, entryhiToIndex_entryHiOf hn] at hj
    exact hj
  have hhi : ((s.current i).supPrivatePageTable j).pteEntryHi = tableHi i j :=
    (hm.tables i (by rw [hpc]; rfl) j hle).1
  -- The page was not in the TLB, so it gets there once.
  have hmiss : ∀ k, k < S.tlbSize → (s.tlb k).pteEntryHi ≠ tableHi i j :=
    fun k hk => lookup_none hn hal hm.tlb hpage hl hk
  have hself : addRandomInTlb s.tlb slot ((s.current i).supPrivatePageTable j) slot = s.entry i j :=
    Function.update_self _ _ _
  have hother : ∀ k, k ≠ slot →
      addRandomInTlb s.tlb slot ((s.current i).supPrivatePageTable j) k = s.tlb k :=
    fun k hk => Function.update_of_ne hk _ _
  refine ⟨h.owner, h.frame, h.entry, fun k a b hk hab hb hp => ?_,
    fun k k' a b hk hk' hb hp hp' => ?_, fun k a b hk hb hp => ?_, h.fresh, h.gives,
    fun j => (h.places j).congr rfl (fun _ => rfl) (fun _ _ _ _ => rfl) (fun _ _ => rfl)⟩
  · by_cases hks : k = slot
    · simp only [hks, hself] at hp ⊢
      rcases tableHi_inj hn hle hb (hhi.symm.trans hp) with ⟨rfl, rfl⟩
      rfl
    · simp only [hother k hks] at hp ⊢
      exact h.tlb k a b hk hab hb hp
  · by_cases hks : k = slot
    · by_cases hks' : k' = slot
      · rw [hks, hks']
      · simp only [hks, hself] at hp
        simp only [hother k' hks'] at hp'
        rcases tableHi_inj hn hle hb (hhi.symm.trans hp) with ⟨rfl, rfl⟩
        exact absurd hp' (hmiss k' hk')
    · by_cases hks' : k' = slot
      · simp only [hks', hself] at hp'
        simp only [hother k hks] at hp
        rcases tableHi_inj hn hle hb (hhi.symm.trans hp') with ⟨rfl, rfl⟩
        exact absurd hp (hmiss k hk)
      · simp only [hother k hks] at hp
        simp only [hother k' hks'] at hp'
        exact h.once k k' a b hk hk' hb hp hp'
  · by_cases hks : k = slot
    · simp only [hks, hself] at hp
      rcases tableHi_inj hn hle hb (hhi.symm.trans hp) with ⟨rfl, rfl⟩
      simp only [hpc, Pc.life, ne_eq, reduceCtorEq, not_false_eq_true]
    · simp only [hother k hks] at hp
      exact h.known k a b hk hb hp

/-- `sys_terminate` gives up one frame of the U-proc. -/
theorem agree_unmark (h : Agree S s) {asid : Fin n} {index : Nat}
    (hpc : s.pc i = .unmark asid index)
    (hk : Retained s ({ s with
      swapPoolTable := Function.update s.swapPoolTable index
        { s.swapPoolTable index with swAsid := none } }.setPc i (.mark asid (index + 1)))) :
    Agree S ({ s with
      swapPoolTable := Function.update s.swapPoolTable index
        { s.swapPoolTable index with swAsid := none } }.setPc i (.mark asid (index + 1))) := by
  have hown := h.gives i index (by rw [hpc]; rfl)
  have hpcs : ∀ a, a ≠ i → Function.update s.pc i (.mark asid (index + 1)) a = s.pc a :=
    fun a ha => Function.update_of_ne ha _ _
  -- The frames of the others stay as they are.
  have hkeep : ∀ f, (s.swapPoolTable f).swAsid ≠ some i →
      Function.update s.swapPoolTable index { s.swapPoolTable index with swAsid := none } f =
        s.swapPoolTable f := fun f hf =>
    Function.update_of_ne (fun hc => hf (by rw [hc]; exact hown)) _ _
  have hmark : ∀ f a, (Function.update s.swapPoolTable index
      { s.swapPoolTable index with swAsid := none } f).swAsid = some a → f ≠ index :=
    fun f a ha hc => by
      rw [hc, Function.update_self] at ha
      cases ha
  have halive : ∀ a, (Function.update s.pc i (.mark asid (index + 1)) a).alive = true →
      a ≠ i ∧ (s.pc a).alive = true := fun a ha => by
    by_cases hai : a = i
    · rw [hai, Function.update_self] at ha
      cases ha
    · rw [hpcs a hai] at ha
      exact ⟨hai, ha⟩
  refine ⟨fun f a ha => ?_, fun f a ha => ?_, fun a j ha hj hv => ?_,
    fun slot a j hs ha hj hhi => h.tlb slot a j hs (halive a ha).2 hj hhi, h.once,
    fun slot a j hs hj hhi => hk.born (h.known slot a j hs hj hhi), h.fresh,
    fun j f hu => ?_, fun j => ?_⟩
  · have hf := hmark f a ha
    simp only [setPc, Function.update_of_ne hf] at ha ⊢
    refine ⟨?_, (h.owner f a ha).2⟩
    by_cases hai : a = i
    · rw [hai, Function.update_self]
      rfl
    · rw [hpcs a hai]
      exact (h.owner f a ha).1
  · have hf := hmark f a ha
    simp only [setPc, Function.update_of_ne hf] at ha ⊢
    rcases h.frame f a ha with ⟨j, hj, hx, hp, hres⟩
    refine ⟨j, hj, hx, hp, hres.imp_right (fun hl => ⟨hl.1, ?_⟩)⟩
    -- Who gives up its frames fills none of them.
    by_cases hai : a = i
    · rw [hai, hpc] at hl
      cases hl.2
    · rw [hpcs a hai]
      exact hl.2
  · -- Only the U-proc itself loses a frame, and it is not alive any more.
    rcases halive a ha with ⟨hai, hal⟩
    rcases h.entry a j hal hj hv with ⟨f, hfa, hfp⟩
    have hf := hkeep f (fun hc => hai (Option.some.inj (hfa.symm.trans hc)))
    refine ⟨f, ?_, ?_⟩
    · simp only [setPc, hf]
      exact hfa
    · simp only [setPc, hf]
      exact hfp
  · by_cases hji : j = i
    · simp only [setPc, hji, Function.update_self] at hu
      cases hu
    · simp only [setPc, hpcs j hji] at hu ⊢
      have hj := h.gives j f hu
      rw [hkeep f (fun hc => hji (Option.some.inj (hj.symm.trans hc)))]
      exact hj
  · by_cases hji : j = i
    · simp only [setPc, hji, Function.update_self]
      exact Settled.calm rfl
    · simp only [setPc, hpcs j hji]
      refine (h.places j).congr rfl (fun _ => rfl) (fun f v swap hc => hkeep _ (fun hf => ?_))
        (fun frame hc => ?_)
      · rcases (h.places j).copy f v swap hc with ⟨rfl, hown'⟩
        exact hji (Option.some.inj (hown'.symm.trans hf))
      · refine hkeep _ (fun hf => ?_)
        rcases (h.places j).spare frame hc with hnone | ⟨hown', _⟩
        · rw [hnone] at hf
          cases hf
        · exact hji (Option.some.inj (hown'.symm.trans hf))

/-- `test` fills in a page table. -/
theorem agree_fill (ho : Allotted s) (h : Agree S s) {t : Fin n} {data : Page}
    (htest : s.test = .fill i t data) (batons : Fin n → Bool) :
    Agree S { s.setTable t (initPageTable i data) with
      swapPoolBatons := batons
      test := .create i t } := by
  have hspare := ho.spare i t (by rw [htest]; rfl)
  -- The structure at hand is with no U-proc that exists.
  have hentry : ∀ a j, (s.pc a).life = .holding →
      (s.setTable t (initPageTable i data)).entry a j = s.entry a j := fun a j ha => by
    simp only [SupportLevel.entry, current, SupportLevel.setTable,
      Function.update_of_ne (hspare.2.1 a ha)]
  refine ⟨h.owner, fun f a ha => ?_, fun a j ha hj hv => ?_, fun slot a j hs ha hj hhi => ?_,
    h.once, h.known, fun a u hu j hj => ?_, h.gives, fun j => ?_⟩
  · have hframe := h.frame f a ha
    simp only [← hentry a _ (Pc.holding_of_owns (h.owner f a ha).1)] at hframe
    exact hframe
  · refine h.entry a j ha hj ?_
    rw [← hentry a j (Pc.holding_of_alive ha)]
    exact hv
  · have hlo := h.tlb slot a j hs ha hj hhi
    rw [← hentry a j (Pc.holding_of_alive ha)] at hlo
    exact hlo
  · cases hu
    simp only [SupportLevel.setTable, Function.update_self]
    rcases initPageTable_invalid (i := i) data j with hlo | hlo
    · rw [hlo]
      exact BitVec.zero_and
    · rw [hlo]
      rfl
  · cases hf : (s.pc j).fault with
    | none => exact Settled.calm hf
    | some f =>
        refine (h.places j).congr rfl (fun k => ?_) (fun _ _ _ _ => rfl) (fun _ _ => rfl)
        rw [← hentry j k (Pc.holding_of_alive (Pc.alive_of_fault hf))]
        rfl

/-- `test` creates a U-proc, none of whose pages is in a frame. -/
theorem agree_create (ho : Allotted s) (h : Agree S s) {t : Fin n} (htest : s.test = .create i t)
    (hk : Retained s { s.setPc i .user with
      support := Function.update s.support i t
      test := .alloc (i.val + 1) }) :
    Agree S { s.setPc i .user with
      support := Function.update s.support i t
      test := .alloc (i.val + 1) } := by
  have hfresh : s.pc i = .unborn := ho.fresh (by rw [htest]; rfl)
  have hpcs : ∀ a, a ≠ i → Function.update s.pc i Pc.user a = s.pc a :=
    fun a ha => Function.update_of_ne ha _ _
  have hsup : ∀ a, a ≠ i → Function.update s.support i t a = s.support a :=
    fun a ha => Function.update_of_ne ha _ _
  -- Nobody knows the U-proc yet.
  have hne : ∀ a, (s.pc a).owns = true → a ≠ i := fun a ha hc => by
    rw [hc, hfresh] at ha
    cases ha
  refine ⟨fun f a ha => ?_, fun f a ha => ?_, fun a j ha hj hv => ?_,
    fun slot a j hs ha hj hhi => ?_, h.once,
    fun slot a j hs hj hhi => hk.born (h.known slot a j hs hj hhi), fun a u hu => (by cases hu),
    fun j f hu => ?_, fun j => ?_⟩
  · have hown := h.owner f a ha
    simp only [setPc, hpcs a (hne a hown.1)]
    exact hown
  · have hai := hne a (h.owner f a ha).1
    simp only [SupportLevel.entry, current, setPc, hpcs a hai, hsup a hai]
    exact h.frame f a ha
  · -- The pages of the new U-proc are all invalid.
    by_cases hai : a = i
    · simp only [hai, SupportLevel.entry, current, setPc, Function.update_self] at hv
      exact absurd (h.fresh i t htest j hj) hv
    · simp only [setPc, hpcs a hai] at ha
      simp only [SupportLevel.entry, current, setPc, hsup a hai] at hv ⊢
      exact h.entry a j ha hj hv
  · by_cases hai : a = i
    · exact absurd (by rw [hai, hfresh]; rfl) (h.known slot a j hs hj hhi)
    · simp only [setPc, hpcs a hai] at ha
      simp only [SupportLevel.entry, current, setPc, hsup a hai]
      exact h.tlb slot a j hs ha hj hhi
  · by_cases hji : j = i
    · simp only [setPc, hji, Function.update_self] at hu
      cases hu
    · simp only [setPc, hpcs j hji] at hu
      exact h.gives j f hu
  · by_cases hji : j = i
    · simp only [setPc, hji, Function.update_self]
      exact Settled.calm rfl
    · simp only [setPc, hpcs j hji]
      refine (h.places j).congr (hsup j hji) (fun k => ?_) (fun _ _ _ _ => rfl) (fun _ _ => rfl)
      simp only [SupportLevel.entry, current, hsup j hji]

/-! ## Moving on -/

/-- Going on to a place at which no fault is handled. -/
theorem Relaxes.calm {pc pc' : Pc n} (hhold : pc'.hold = pc.hold) (hfault : pc'.fault = none) :
    Relaxes pc pc' := by
  have hload : ∀ frame, pc'.loading ≠ some frame := fun frame hc => by
    rcases Pc.fault_of_loading hc with ⟨f, hf⟩
    rw [hfault] at hf
    cases hf
  refine ⟨Pc.alive_of_hold hhold, Pc.owns_of_hold hhold, fun f => hhold.symm.trans, fun f hf => ?_,
    fun frame hc => absurd hc (hload frame), fun x hx => ?_, fun f v swap hc => ?_⟩
  · rw [hfault] at hf
    cases hf
  · rcases x with ⟨asid, k, frame⟩
    exact absurd (Pc.loading_of_victim hx) (hload frame)
  · rw [hc] at hfault
    cases hfault

/-- Going on with the same fault, to a place at which no frame is filled. -/
theorem Relaxes.search {pc pc' : Pc n} (hhold : pc'.hold = pc.hold)
    (hfault : pc'.fault = pc.fault) (hload : pc'.loading = none) (hcopied : pc'.copied = false) :
    Relaxes pc pc' := by
  refine ⟨Pc.alive_of_hold hhold, Pc.owns_of_hold hhold, fun f => hhold.symm.trans,
    fun f hf => hfault ▸ hf, fun frame hc => ?_, fun x hx => ?_, fun f v swap hc => ?_⟩
  · rw [hload] at hc
    cases hc
  · rcases x with ⟨asid, k, frame⟩
    rw [Pc.loading_of_victim hx] at hload
    cases hload
  · rw [hc] at hcopied
    cases hcopied

/-- A U-proc that fills no frame goes on. -/
theorem Goal.idle (h : Agree S s) {pc pc' : Pc n} (hpc : s.pc i = pc) (hload : pc.loading = none)
    (hf : Relaxes pc pc') : Goal s i pc' := by
  subst hpc
  refine Goal.relaxes h hf (fun frame hl => ?_)
  rw [hload] at hl
  cases hl

/-- A U-proc that fills no frame gives up its frames, or some of them. -/
theorem Goal.leaves {pc pc' : Pc n} (hpc : s.pc i = pc) (hload : pc.loading = none)
    (halive : pc'.alive = false) (hfault : pc'.fault = none)
    (howner : ∀ f, (s.swapPoolTable f).swAsid = some i → pc'.owns = true)
    (hgives : ∀ f, pc'.hold = .gives f → (s.swapPoolTable f).swAsid = some i) : Goal s i pc' := by
  refine ⟨fun hc => ?_, howner, hgives, fun frame hl => ?_, Settled.calm hfault⟩
  · rw [halive] at hc
    cases hc
  · rw [hpc, hload] at hl
    cases hl

/-- The branches that only move a U-proc on, if they are benign. -/
theorem Goes.goal (ho : Allotted s) (hw : Swept s) (h : Agree S s) (hb : Benign s (.step i))
    {pc : Pc n} (hg : Goes s i pc) : Goal s i pc := by
  cases hg with
  | modification hpc => exact Goal.idle h hpc rfl (Relaxes.calm rfl rfl)
  | missing hpc => exact Goal.idle h hpc rfl (Relaxes.search rfl rfl rfl rfl)
  | occupied hpc => exact Goal.idle h hpc rfl (Relaxes.search rfl rfl rfl rfl)
  | unoccupied hpc => exact Goal.idle h hpc rfl (Relaxes.search rfl rfl rfl rfl)
  | @evict f frame pVpn pIndex hpc hv hx hocc =>
      -- The frame is occupied, so it is the one of the U-proc.
      have hown : (s.swapPoolTable frame).swAsid = some i := by
        refine (hb.1 (i, frame) ?_).resolve_left (fun hc => ?_)
        · simp only [picks, hpc]
          rfl
        · rw [checkFrameOccupied, hc] at hocc
          cases hocc
      refine ⟨fun _ => (by rw [hpc]; rfl), fun _ _ => rfl, fun g hc => (by cases hc),
        fun g hl => ?_, fun f' j hf hj => ?_, fun f' v swap hc => ?_, fun g hc => (by cases hc),
        fun asid k g hc => (by cases hc)⟩
      · rw [hpc] at hl
        cases hl
      · exact (h.places i).missing f' j (by rw [hpc]; exact hf) hj
      · cases hc
        exact ⟨rfl, hown⟩
  | @read f frame pVpn pIndex hpc hv hx hocc =>
      refine ⟨fun _ => (by rw [hpc]; rfl), fun _ _ => rfl, fun g hc => (by cases hc),
        fun g hl => ?_, fun f' j hf hj => ?_, fun f' v swap hc => (by cases hc), fun g hc => ?_,
        fun asid k g hc => (by cases hc)⟩
      · rw [hpc] at hl
        cases hl
      · exact (h.places i).missing f' j (by rw [hpc]; exact hf) hj
      · cases hc
        exact Or.inl (Option.not_isSome_iff_eq_none.mp (ne_true_of_eq_false hocc))
  | nobody hpc => exact Goal.idle h hpc rfl (Relaxes.calm rfl rfl)
  | @nameless f v hpc ha =>
      -- A U-proc has an ASID.
      have hlife : (s.pc i).life = .holding := by
        rcases hpc with hpc | hpc
        · rw [hpc]
          rfl
        · rw [hpc]
          rfl
      rw [ho.asid i hlife] at ha
      cases ha
  | clean hpc => exact Goal.idle h hpc rfl (Relaxes.calm rfl rfl)
  | mark hpc =>
      exact Goal.leaves hpc rfl rfl rfl (fun _ _ => rfl) (fun _ hc => by cases hc)
  | kept hpc =>
      exact Goal.leaves hpc rfl rfl rfl (fun _ _ => rfl) (fun _ hc => by cases hc)
  | @owned asid index hpc hx hown =>
      have hai : asid = i := (hw.places i).named asid (by rw [hpc]; rfl)
      refine Goal.leaves hpc rfl rfl rfl (fun _ _ => rfl) (fun g hc => ?_)
      cases hc
      rw [hown, hai]
  | @marked asid index hpc hx =>
      -- All frames are below the loop counter.
      have hi := hw.places i
      rw [hpc] at hi
      exact Goal.leaves hpc rfl rfl rfl
        (fun g hg => absurd (Nat.lt_of_le_of_lt (hi.owner g hg).2 (hw.pool g i hg)) hx)
        (fun _ hc => by cases hc)
  | die hpc => exact Goal.idle h hpc rfl (Relaxes.calm rfl rfl)

/-- An operation on `sem_swap_pool_table`. -/
theorem agree_swapPoolOp (h : Agree S s) {o : SemOp} {blocked next : Pc n}
    (hk : Retained s (s.swapPoolOp o i blocked next)) (hb : Goal s i blocked)
    (hnext : Goal s i next) :
    Agree S (s.swapPoolOp o i blocked next) := by
  have hmoves := swapPoolOp_moves (o := o) (R := Goal s) hb hnext (Goal.resumed h) (Goal.refl h)
  rw [swapPoolOp_eq] at hk hmoves ⊢
  exact h.congr hk hmoves rfl (fun _ => rfl) rfl rfl (fun _ _ ht => ht)

theorem Unlocks.goal (h : Agree S s) {blocked next : Pc n} (hu : Unlocks (s.pc i) blocked next) :
    Goal s i blocked ∧ Goal s i next := by
  generalize hpc : s.pc i = pc at hu
  cases hu with
  | release f =>
      exact ⟨Goal.idle h hpc rfl (Relaxes.calm rfl rfl), Goal.idle h hpc rfl (Relaxes.calm rfl rfl)⟩
  | clean asid =>
      exact ⟨Goal.idle h hpc rfl (Relaxes.calm rfl rfl),
        Goal.leaves hpc rfl rfl rfl (fun _ _ => rfl) (fun _ hc => by cases hc)⟩

/-- An access the TLB refuses is one to a page that is not valid. -/
theorem refused_invalid {a : Access} {e : PteEntry} {code : Word} (h : a.refused e = some code)
    (hdirty : e.pteEntryLo &&& VALIDON ≠ 0 → e.pteEntryLo &&& DIRTYON ≠ 0) :
    e.pteEntryLo &&& VALIDON = 0 := by
  by_contra hv
  cases a with
  | load =>
      simp only [Access.refused, if_neg hv, reduceCtorEq] at h
  | store mask w =>
      simp only [Access.refused, if_neg hv, if_neg (hdirty hv), reduceCtorEq] at h

/-- The page of a fault is not valid. -/
theorem goal_fault (hn : n < 64) (hal : S.Aligned) (hm : Mapped (pageWord S) s) (h : Agree S s)
    {addr cause : Word} {a : Access} {e : PteEntry} {code : Word} (hpc : s.pc i = .user)
    (hl : s.lookup S i addr = some e) (hr : a.refused e = some code) :
    Goal s i (.cause { cause := cause, entryHi := entryHiOf i addr }) := by
  refine ⟨fun _ => (by rw [hpc]; rfl), fun _ _ => rfl, fun g hc => (by cases hc), fun g hc => ?_,
    fun f j hf hj => ?_, fun f v swap hc => (by cases hc), fun g hc => (by cases hc),
    fun asid k g hc => (by cases hc)⟩
  · rw [hpc] at hc
    cases hc
  · cases hf
    have hpage : pageOf addr = some j := by
      rw [← toOption_eq_some, entryhiToIndex_entryHiOf hn] at hj
      exact hj
    -- The entry found is the copy of the one in the page table.
    rcases lookup_some hn hal hm.tlb hpage hl with ⟨slot, hs, rfl, hhi⟩
    have hword := cached_of_hi hn (hm.tlb slot) (pageOf_le hpage) hhi
    rw [← h.tlb slot i j hs (by rw [hpc]; rfl) (pageOf_le hpage) hhi]
    exact refused_invalid hr (fun hv => (pageWord_valid hn hal hword hv).1)

/-- Looking at the status of a flash operation demands nothing new. -/
theorem Pc.finished_relaxes (pc : Pc n) (b : Bool) : Relaxes pc (pc.finished b) := by
  cases pc with
  | writing f v asid k =>
      cases b with
      | true =>
          exact ⟨id, id, fun _ => id, fun _ => id, fun _ => id, fun _ hc => (by cases hc),
            fun _ _ _ hc => (by cases hc)⟩
      | false => exact Relaxes.calm rfl rfl
  | reading f v =>
      cases b with
      | true =>
          exact ⟨id, id, fun _ => id, fun _ => id, fun _ => id, fun _ hc => (by cases hc),
            fun _ _ _ hc => (by cases hc)⟩
      | false => exact Relaxes.calm rfl rfl
  | _ => exact Relaxes.refl _

theorem Pc.finished_loading (pc : Pc n) : (pc.finished true).loading = pc.loading := by
  cases pc <;> rfl

/-- A failing operation breaks off the load of the U-proc that waits for it. -/
theorem breaks_eq (hq : Queued S s) {dev : Fin n} {r : Request n}
    (hreq : (s.pc i).request S i = some (dev, r)) :
    breaks s (.flash dev false) = (s.pc i).loading := by
  have halone : (s.flash dev).queue = [r] := hq.alone (p := some i) hreq
  have hwho : r.who = some i := pending_who (p := some i) hreq
  simp only [breaks, halone, List.head?_cons, Option.bind_some, hwho]

/-- The end of a command to a flash device. -/
theorem agree_ends (hq : Queued S s) (h : Agree S s) {dev : Fin n} {b : Bool}
    (hb : Benign s (.flash dev b)) (hk : Retained s s') (hends : Ends S s dev b s') :
    Agree S s' := by
  cases hends with
  | @uproc i r _ s₁ hreq h₁ =>
      rcases transfer_eq h₁ with ⟨ram, blocks, rfl⟩
      refine agree_move (i := i) h hk rfl ?_ rfl rfl rfl rfl rfl
      refine Goal.relaxes h (Pc.finished_relaxes _ b) (fun g hl => ?_)
      -- A load that fails gives its frame up, so the frame has to be unoccupied.
      cases b with
      | true => exact Or.inl ((Pc.finished_loading _).trans hl)
      | false =>
          have hnone : (s.swapPoolTable g).swAsid = none :=
            hb.2 g ((breaks_eq hq hreq).trans hl)
          rw [hnone]
          exact Or.inr (fun hc => by cases hc)
  | header => exact agree_same h hk rfl rfl (fun _ => rfl) rfl rfl (fun _ _ ht => by cases ht)
  | failed => exact agree_same h hk rfl rfl (fun _ => rfl) rfl rfl (fun _ _ ht => by cases ht)

/-- Every benign step keeps the tables in agreement. -/
theorem agree_step (hn : n < 64) (hal : S.Aligned) {e : UEvent n} (ho : Allotted s) (hg : Guarded s)
    (hq : Queued S s) (hm : Mapped (pageWord S) s) (hw : Swept s) (h : Agree S s) (hb : Benign s e)
    (hstep : UStep S s e s') : Agree S s' := by
  have hk : Retained s s' := retained_step ho hstep
  cases hstep with
  | quit hpc =>
      exact agree_move h hk rfl (Goal.idle h hpc rfl (Relaxes.calm rfl rfl)) rfl rfl rfl rfl rfl
  | refill hpc ha hl he => exact agree_refill hn hal hm h hpc hl he
  | fault hpc ha hl hr =>
      exact agree_move h hk rfl (goal_fault hn hal hm h hpc hl hr) rfl rfl rfl rfl rfl
  | goes hgo => exact agree_move h hk rfl (hgo.goal ho hw h hb) rfl rfl rfl rfl rfl
  | lock hpc =>
      exact agree_swapPoolOp h hk (Goal.idle h hpc rfl (Relaxes.search rfl rfl rfl rfl))
        (Goal.idle h hpc rfl (Relaxes.search rfl rfl rfl rfl))
  | take hpc =>
      exact agree_move h hk rfl (Goal.idle h hpc rfl (Relaxes.search rfl rfl rfl rfl))
        rfl rfl rfl rfl rfl
  | fifo hpc =>
      exact agree_move h hk rfl (Goal.idle h hpc rfl (Relaxes.search rfl rfl rfl rfl))
        rfl rfl rfl rfl rfl
  | evict hpc ha hp hx h₁ =>
      exact agree_evict hn hal hg hm h hpc (evicts_of_evict hn ho hm h hpc ha hp hx h₁ rfl) hk
  | write hpc =>
      refine agree_move h hk rfl (Goal.relaxes h ?_ (fun g hl => Or.inl ?_)) rfl rfl rfl rfl rfl
      · rw [hpc]
        exact ⟨id, id, fun _ => id, fun _ => id, fun _ => id, fun _ => id,
          fun _ _ _ hc => (by cases hc)⟩
      · rw [hpc] at hl
        exact hl
  | read hpc =>
      refine agree_move h hk rfl (Goal.relaxes h ?_ (fun g hl => Or.inl ?_)) rfl rfl rfl rfl rfl
      · rw [hpc]
        exact ⟨id, id, fun _ => id, fun _ => id, fun _ => id, fun _ => id,
          fun _ _ _ hc => (by cases hc)⟩
      · rw [hpc] at hl
        exact hl
  | commit hpc ha hx ht =>
      exact agree_commit hn hal hg hm h hpc (commits_of_commit ho hm hpc ha hx ht rfl) hk
  | unlock hu => exact agree_swapPoolOp h hk (hu.goal h).1 (hu.goal h).2
  | drop hpc =>
      exact agree_move h hk rfl (Goal.idle h hpc rfl (Relaxes.calm rfl rfl)) rfl rfl rfl rfl rfl
  | unmark hpc => exact agree_unmark h hpc hk
  | free hpc =>
      exact agree_move h hk rfl (Goal.idle h hpc rfl (Relaxes.calm rfl rfl)) rfl rfl rfl rfl rfl
  | @post i hpc =>
      have hmoves := masterSemaphoreV_moves (i := i) (R := Goal s)
        (Goal.idle h hpc rfl (Relaxes.calm rfl rfl)) (Goal.idle h hpc rfl (Relaxes.calm rfl rfl))
        (Goal.resumed h) (Goal.refl h)
      have htest := fun j t =>
        masterSemaphoreV_test (s := s) (i := i) (t := .create j t) (fun _ hc => by cases hc)
      rw [masterSemaphoreV_eq] at hk hmoves htest ⊢
      exact h.congr hk hmoves rfl (fun _ => rfl) rfl rfl htest
  | complete hqueue h₁ => exact agree_ends hq h hb hk (ends_of_queue hq hqueue h₁)
  | @alloc i t ts htest =>
      refine agree_same h hk rfl rfl (fun u => ?_) rfl rfl (fun _ _ hc => by cases hc)
      by_cases hu : u = t
      · simp only [hu, Function.update_self]
      · simp only [Function.update_of_ne hu]
  | created => exact agree_same h hk rfl rfl (fun _ => rfl) rfl rfl (fun _ _ hc => by cases hc)
  | header => exact agree_same h hk rfl rfl (fun _ => rfl) rfl rfl (fun _ _ hc => by cases hc)
  | fill htest => exact agree_fill ho h htest _
  | create htest => exact agree_create ho h htest hk
  | @wait k htest =>
      have hmoves := masterSemaphoreP_moves (k := k) (R := Goal s) (Goal.resumed h) (Goal.refl h)
      have hnone := fun j t =>
        masterSemaphoreP_test (s := s) (i := k) (t := .create j t) (fun _ hc => by cases hc)
          (fun _ hc => by cases hc)
      rw [masterSemaphoreP_eq] at hk hmoves hnone ⊢
      exact h.congr hk hmoves rfl (fun _ => rfl) rfl rfl (fun j t ht => absurd ht (hnone j t))
  | _ => exact agree_same h hk rfl rfl (fun _ => rfl) rfl rfl (fun _ _ ht => ht)

/-- The runs whose steps are all benign. -/
abbrev benignRuns (S : Platform n) : System (SupportLevel n) (UEvent n) :=
  (supportLevel S).restrict Benign

theorem mapped_benign (hn : n < 64) {es : List (UEvent n)} (h : (benignRuns S).Run es s) :
    Mapped (pageWord S) s := by
  refine mapped_run hn admits_pageWord
    (fun s i f v hm _ hpc => Or.inr (Or.inr ⟨v.frame, ?_, rfl⟩)) h
  have hplace := hm.place hpc
  exact hplace.frame

theorem agree_run (hn : n < 64) (hal : S.Aligned) {es : List (UEvent n)}
    (h : (benignRuns S).Run es s) : Agree S s := by
  have hstart : ∀ s, (benignRuns S).init s → Agree S s := fun s hi => agree_start (S := S) hn hi
  refine System.run_invariant hstart (fun es s e s' hrun hi hs => ?_) h
  have hbase := System.run_of_restrict hrun
  exact agree_step hn hal (allotted_run hbase) (guarded_run hbase) (queued_run hbase)
    (mapped_benign hn hrun) (swept_run hbase) hi hs.2 (ustep_of_next hs.1).2

end AgreementSteps

end Pandos
