import Pandos.Lib.Paging
import Pandos.Theory.AgreementSteps

/-!
# Contents of Pages

Where the contents of a page are: in a frame as long as its entry is valid, and
on the way to the device as long as the U-proc writes it back, and otherwise on
the device. The pages of all U-procs make up a paged store over their devices,
and in runs of benign steps no frame is used for two pages.

## Main definitions

* `SupportLevel.place`, `pages`: The paged store.
* `storeFlat`: A memory without paging that watches a run.
* `Mirrors`: The paged store holds what the watching memory holds.

## Theorems

* `pages_exclusive`: No frame is used for two pages.
* `mirrors_step`, `mirrors_run`: Every run of benign steps keeps the contents of
  the pages.
-/

namespace Pandos

section Contents

variable {n : Nat}

open SupportLevel

/-- The frame the contents of a page are in. A page that is being written back
    is in its old frame. -/
def SupportLevel.place (S : Platform n) (s : SupportLevel n) (k : Fin n × Nat) : Option Word :=
  if (s.pc k.1).alive = true ∧ k.2 ≤ 31 then
    if (s.entry k.1 k.2).pteEntryLo &&& VALIDON ≠ 0 then some (PteEntry.frame (s.entry k.1 k.2))
    else ((s.pc k.1).victim.filter (fun x => x.2.1 = k.2)).map
      (fun x => pageAddr S.swapPoolAddr x.2.2)
  else none

/-- The pages of all U-procs. -/
def pages (S : Platform n) (s : SupportLevel n) : Paged (Fin n × Nat) Word Page :=
  { place := s.place S
    frames := s.ram
    backing := fun k => (s.flash k.1).blocks k.2 }

variable {S : Platform n} {s s' : SupportLevel n} {i : Fin n}

theorem place_dead {a : Fin n} (j : Nat) (h : (s.pc a).alive = false) :
    s.place S (a, j) = none := by
  unfold SupportLevel.place
  rw [if_neg (fun hc => by rw [h] at hc; cases hc.1)]

theorem place_valid {a : Fin n} {j : Nat} (ha : (s.pc a).alive = true) (hj : j ≤ 31)
    (hv : (s.entry a j).pteEntryLo &&& VALIDON ≠ 0) :
    s.place S (a, j) = some (PteEntry.frame (s.entry a j)) := by
  unfold SupportLevel.place
  rw [if_pos ⟨ha, hj⟩, if_pos hv]

theorem place_invalid {a : Fin n} {j : Nat} (ha : (s.pc a).alive = true) (hj : j ≤ 31)
    (hv : (s.entry a j).pteEntryLo &&& VALIDON = 0) :
    s.place S (a, j) = ((s.pc a).victim.filter (fun x => x.2.1 = j)).map
      (fun x => pageAddr S.swapPoolAddr x.2.2) := by
  unfold SupportLevel.place
  rw [if_pos ⟨ha, hj⟩, if_neg (fun hc => hc hv)]

/-- The place of a page depends on the entry of the page, and on what its U-proc
    is about to write back. -/
theorem place_congr {a : Fin n} {j : Nat} (halive : (s'.pc a).alive = (s.pc a).alive)
    (hvictim : (s'.pc a).victim = (s.pc a).victim)
    (hentry : (s.pc a).alive = true → (s'.entry a j).pteEntryLo = (s.entry a j).pteEntryLo) :
    s'.place S (a, j) = s.place S (a, j) := by
  cases ha : (s.pc a).alive with
  | false => rw [place_dead j ha, place_dead j (halive.trans ha)]
  | true =>
      simp only [SupportLevel.place, halive, hvictim, hentry ha, PteEntry.frame]

/-- A page that is somewhere is in a frame of its U-proc. -/
theorem frame_of_place (hn : n < 64) (hal : S.Aligned) (h : Agree S s) {a : Fin n} {j : Nat}
    {w : Word} (hp : s.place S (a, j) = some w) :
    ∃ f, f < POOLSIZE n ∧ w = pageAddr S.swapPoolAddr f ∧ (s.swapPoolTable f).swAsid = some a ∧
      (s.swapPoolTable f).swPte = some (s.support a, j) := by
  cases ha : (s.pc a).alive with
  | false =>
      rw [place_dead j ha] at hp
      cases hp
  | true =>
      by_cases hj : j ≤ 31
      · by_cases hv : (s.entry a j).pteEntryLo &&& VALIDON = 0
        · rw [place_invalid ha hj hv, Option.map_eq_some_iff] at hp
          -- The page is being written back, from a frame of its U-proc.
          rcases hp with ⟨⟨asid, k, frame⟩, hvictim, rfl⟩
          rw [Option.filter_eq_some_iff] at hvictim
          have hkj : k = j := of_decide_eq_true hvictim.2
          rcases (h.places a).victim asid k frame hvictim.1 with ⟨_, hown, hptr, _⟩
          exact ⟨frame, (h.owner frame a hown).2, rfl, hown, hkj ▸ hptr⟩
        · rw [place_valid ha hj hv, Option.some.injEq] at hp
          -- The page is valid, and its entry agrees with the frame that points to it.
          rcases h.entry a j ha hj hv with ⟨f, hfa, hfp⟩
          have hlt := (h.owner f a hfa).2
          rcases h.frame f a hfa with ⟨k, _, _, hkp, hres⟩
          rw [hfp] at hkp
          cases hkp
          have hlo := hres.resolve_right (fun hc => hv (by rw [hc.1]; exact BitVec.zero_and))
          exact ⟨f, hlt, hp.symm.trans (frame_of_resident hn hal hlt hlo), hfa, hfp⟩
      · unfold SupportLevel.place at hp
        rw [if_neg (fun hc => hj hc.2)] at hp
        cases hp

/-- No frame is used for two pages. -/
theorem pages_exclusive (hn : n < 64) (hal : S.Aligned) (h : Agree S s) :
    (pages S s).Exclusive := by
  rintro ⟨a, j⟩ ⟨b, k⟩ w ha hb
  rcases frame_of_place hn hal h ha with ⟨f, hf, hwf, hfa, hfp⟩
  rcases frame_of_place hn hal h hb with ⟨g, hg, hwg, hgb, hgp⟩
  have hfg : f = g := pageAddr_inj hn hf hg (hwf.symm.trans hwg)
  subst hfg
  -- A frame has one owner and points to one entry.
  rw [hfa] at hgb
  cases hgb
  rw [hfp] at hgp
  cases hgp
  rfl

/-- The frame a U-proc is about to fill is used for no page, once the old one has
    been written back. -/
theorem spare_frame (hn : n < 64) (hal : S.Aligned) (hm : Mapped (pageWord S) s) (h : Agree S s)
    {f : Fault} {v : Victim}
    (hpc : s.pc i = .read f v ∨ s.pc i = .reading f v ∨ s.pc i = .commit f v)
    (k : Fin n × Nat) : s.place S k ≠ some (pageAddr S.swapPoolAddr v.frame) := by
  rcases k with ⟨a, j⟩
  intro hc
  have hload : (s.pc i).loading = some v.frame ∧ (s.pc i).victim = none ∧ v.Serves n f := by
    have hsane := hm.places i
    rcases hpc with hpc | hpc | hpc
    · rw [hpc] at hsane ⊢
      exact ⟨rfl, rfl, hsane⟩
    · rw [hpc] at hsane ⊢
      exact ⟨rfl, rfl, hsane⟩
    · rw [hpc] at hsane ⊢
      exact ⟨rfl, rfl, hsane⟩
  rcases frame_of_place hn hal h hc with ⟨g, hg, hw, hga, hgp⟩
  -- A page in that frame would be the one the frame pointed to before.
  have hgv : g = v.frame := pageAddr_inj hn hg hload.2.2.frame hw.symm
  subst hgv
  rcases (h.places i).spare v.frame hload.1 with hnone | ⟨hown, k, hkp, hzero⟩
  · rw [hnone] at hga
    cases hga
  · rw [hown] at hga
    cases hga
    rw [hkp] at hgp
    cases hgp
    -- The old page is marked, and nobody writes it back any more.
    rcases Pc.fault_of_loading hload.1 with ⟨_, hfault⟩
    have halive : (s.pc i).alive = true := Pc.alive_of_fault hfault
    by_cases hj : j ≤ 31
    · rw [place_invalid halive hj (by rw [hzero]; exact BitVec.zero_and), hload.2.1] at hc
      cases hc
    · unfold SupportLevel.place at hc
      rw [if_neg (fun hc' => hj hc'.2)] at hc
      cases hc

/-! ## The flat memory -/

/-- A memory of each U-proc, word by word, that performs the stores of a run. -/
def storeFlat (S : Platform n) (s : SupportLevel n) (e : UEvent n) (_ : SupportLevel n)
    (flat : Fin n → Nat → Page) : Fin n → Nat → Page :=
  match e with
  | .touch i addr a _ _ =>
    match s.lookup S i addr, pageOf addr with
    | some pte, some j =>
      if a.refused pte = none then
        Function.update flat i (Function.update (flat i) j
          (Function.update (flat i j) (offset addr) (a.result (flat i j (offset addr)))))
      else flat
    | _, _ => flat
  | _ => flat

/-- The pages of the U-procs hold what the flat memory holds, and the page a
    U-proc is about to commit is in its frame. -/
structure Mirrors (S : Platform n) (s : SupportLevel n) (flat : Fin n → Nat → Page) : Prop where
  view : ∀ a j, (s.pc a).life = .unborn ∨ (s.pc a).alive = true → j ≤ 31 →
    (pages S s).view (a, j) = flat a j
  loaded : ∀ i f v, s.pc i = .commit f v →
    s.ram (pageAddr S.swapPoolAddr v.frame) = (s.flash i).blocks v.pIndex

variable {flat : Fin n → Nat → Page}

theorem mirrors_start (h : (supportLevel S).init s) : Mirrors S s S.blocks := by
  rcases h with ⟨free, _, rfl⟩
  refine ⟨fun a j _ _ => ?_, fun i f v hpc => by cases hpc⟩
  -- All pages are on their devices.
  have hplace : (pages S (start S free)).place (a, j) = none :=
    place_dead (S := S) (s := start S free) (a := a) j rfl
  rw [Paged.view_unplaced hplace]
  rfl

/-- A step that leaves all contents where they are. -/
theorem Mirrors.congr (h : Mirrors S s flat)
    (hpc : ∀ a, ((s'.pc a).life = .unborn ∨ (s'.pc a).alive = true) →
      (s.pc a).life = .unborn ∨ (s.pc a).alive = true)
    (hplace : ∀ a j, ((s'.pc a).life = .unborn ∨ (s'.pc a).alive = true) →
      s'.place S (a, j) = s.place S (a, j))
    (hcommit : ∀ i f v, s'.pc i = .commit f v → s.pc i = .commit f v)
    (hram : s'.ram = s.ram) (hblocks : ∀ d, (s'.flash d).blocks = (s.flash d).blocks) :
    Mirrors S s' flat := by
  refine ⟨fun a j ha hj => ?_, fun j f v hj => ?_⟩
  · rw [← h.view a j (hpc a ha) hj]
    refine Paged.view_congr (hplace a j ha) (fun w _ => by rw [pages, pages, hram]) (fun _ => ?_)
    simp only [pages, hblocks]
  · rw [hram, hblocks]
    exact h.loaded j f v (hcommit j f v hj)

/-- A U-proc goes on without any change of contents. -/
structure Still (pc pc' : Pc n) : Prop where
  life : pc'.life = .unborn → pc.life = .unborn
  alive : pc'.alive = true → pc.alive = true
  victim : pc'.alive = true → pc'.victim = pc.victim
  commit : ∀ f v, pc' = .commit f v → pc = .commit f v

theorem Still.refl (pc : Pc n) : Still pc pc :=
  ⟨id, id, fun _ => rfl, fun _ _ => id⟩

theorem Pc.resumed_still (pc : Pc n) : Still pc pc.resumed := by
  cases pc with
  | passing f => exact ⟨fun hc => (by cases hc), id, fun _ => rfl, fun _ _ hc => (by cases hc)⟩
  | releasing f => exact ⟨fun hc => (by cases hc), id, fun _ => rfl, fun _ _ hc => (by cases hc)⟩
  | cleaning asid =>
      exact ⟨fun hc => (by cases hc), fun _ => rfl, fun _ => rfl, fun _ _ hc => (by cases hc)⟩
  | posting => exact ⟨fun hc => (by cases hc), id, fun _ => rfl, fun _ _ hc => (by cases hc)⟩
  | _ => exact Still.refl _

/-- U-procs and `test` move on, and no contents move. -/
theorem mirrors_still (h : Mirrors S s flat) (hpc : ∀ j, Still (s.pc j) (s'.pc j))
    (hentry : ∀ a j, (s.pc a).alive = true →
      (s'.entry a j).pteEntryLo = (s.entry a j).pteEntryLo)
    (hram : s'.ram = s.ram) (hblocks : ∀ d, (s'.flash d).blocks = (s.flash d).blocks) :
    Mirrors S s' flat := by
  refine h.congr (fun a ha => ha.imp (hpc a).life (hpc a).alive) (fun a j ha => ?_)
    (fun j f v hj => (hpc j).commit f v hj) hram hblocks
  rcases ha with hunborn | halive
  · -- A U-proc that does not exist has no pages in frames.
    have hdead : ∀ {pc : Pc n}, pc.life = .unborn → pc.alive = false := fun hl => by
      rw [Pc.eq_unborn hl]
      rfl
    rw [place_dead j (hdead hunborn), place_dead j (hdead ((hpc a).life hunborn))]
  · exact place_congr (halive.trans ((hpc a).alive halive).symm) ((hpc a).victim halive)
      (hentry a j)

/-- One U-proc moves on. -/
theorem mirrors_move (h : Mirrors S s flat) {pc : Pc n} (hpc : s'.pc = Function.update s.pc i pc)
    (hi : Still (s.pc i) pc) (hsupport : s'.support = s.support)
    (htable : s'.supportTable = s.supportTable) (hram : s'.ram = s.ram)
    (hblocks : ∀ d, (s'.flash d).blocks = (s.flash d).blocks) : Mirrors S s' flat := by
  refine mirrors_still h (fun j => ?_) (fun a j _ => ?_) hram hblocks
  · rw [hpc]
    exact moves_update (R := fun j => Still (s.pc j)) hi (fun _ => Still.refl _) j
  · rw [SupportLevel.entry, SupportLevel.entry, current, current, hsupport, htable]

/-- One U-proc moves on while a page changes its place. -/
theorem mirrors_moved (h : Mirrors S s flat) {pc : Pc n} (hpc : s'.pc = Function.update s.pc i pc)
    (halive : (s.pc i).alive = true) (hview : (pages S s').view = (pages S s).view)
    (hself : ∀ f v, pc = .commit f v →
      s'.ram (pageAddr S.swapPoolAddr v.frame) = (s'.flash i).blocks v.pIndex)
    (hothers : ∀ a f v, a ≠ i → s.pc a = .commit f v →
      s'.ram (pageAddr S.swapPoolAddr v.frame) = (s'.flash a).blocks v.pIndex) :
    Mirrors S s' flat := by
  refine ⟨fun a j ha hj => ?_, fun a f v ha => ?_⟩
  · rw [hview]
    refine h.view a j ?_ hj
    by_cases hai : a = i
    · rw [hai]
      exact Or.inr halive
    · rw [hpc, Function.update_of_ne hai] at ha
      exact ha
  · by_cases hai : a = i
    · rw [hai, hpc, Function.update_self] at ha
      rw [hai]
      exact hself f v ha
    · rw [hpc, Function.update_of_ne hai] at ha
      exact hothers a f v hai ha

/-! ## Accesses -/

/-- An access the TLB does not refuse goes to the frame of the page. -/
theorem place_of_access (hn : n < 64) (hal : S.Aligned) (hm : Mapped (pageWord S) s)
    (h : Agree S s) (hpc : s.pc i = .user) {addr : Word} {a : Access} {e : PteEntry}
    (hl : s.lookup S i addr = some e) (hr : a.refused e = none) :
    ∃ j, j ≤ 31 ∧ pageOf addr = some j ∧ s.place S (i, j) = some (PteEntry.frame e) := by
  have hv : e.pteEntryLo &&& VALIDON ≠ 0 := fun hc => by
    cases a with
    | load => simp only [Access.refused, if_pos hc, reduceCtorEq] at hr
    | store mask w => simp only [Access.refused, if_pos hc, reduceCtorEq] at hr
  rcases found_slot hl with ⟨slot, hs, rfl, hans⟩
  -- The entry comes from the page table, so it is the one of the page.
  rcases hm.tlb slot with hzero | ⟨b, j, hj, hhi, _⟩
  · rw [hzero] at hv
    exact absurd BitVec.zero_and hv
  · have hvpn := vpn_of_answers hn hans
    rw [hhi] at hvpn
    have hpage : pageOf addr = some j := (pageOf_congr hvpn).symm.trans (pageOf_tableHi hn b hj)
    rw [answers_iff_page hn hal (hm.tlb slot) hpage] at hans
    have halive : (s.pc i).alive = true := by
      rw [hpc]
      rfl
    have hlo := h.tlb slot i j hs halive hj hans
    refine ⟨j, hj, hpage, ?_⟩
    rw [place_valid halive hj (hlo ▸ hv), PteEntry.frame, PteEntry.frame, hlo]

/-- A store changes the page in its frame as it changes the flat memory. -/
theorem mirrors_access (hn : n < 64) (hal : S.Aligned) (hm : Mapped (pageWord S) s)
    (h : Agree S s) (hf : Mirrors S s flat) (hpc : s.pc i = .user) {addr cause : Word}
    {a : Access} {slot : Nat} {e : PteEntry} (hl : s.lookup S i addr = some e)
    (hr : a.refused e = none)
    (hs' : s' = { s with
      ram := Function.update s.ram (PteEntry.frame e)
        (Function.update (s.ram (PteEntry.frame e)) (offset addr)
          (a.result (s.word (PteEntry.frame e) addr))) }) :
    Mirrors S s' (storeFlat S s (.touch i addr a cause slot) s' flat) := by
  rcases place_of_access hn hal hm h hpc hl hr with ⟨j, hj, hpage, hplace⟩
  have hnote : storeFlat S s (.touch i addr a cause slot) s' flat =
      Function.update flat i (Function.update (flat i) j
        (Function.update (flat i j) (offset addr) (a.result (flat i j (offset addr))))) := by
    simp only [storeFlat, hl, hpage, if_pos hr]
  -- The frame held what the flat memory holds for the page.
  have hold : s.ram (PteEntry.frame e) = flat i j := by
    rw [← hf.view i j (Or.inr (by rw [hpc]; rfl)) hj]
    exact (Paged.view_placed (p := pages S s) hplace).symm
  -- No other page is in the frame, so the views change alike.
  have hview : (pages S s').view = Function.update (pages S s).view (i, j)
      (Function.update (flat i j) (offset addr) (a.result (flat i j (offset addr)))) := by
    refine Paged.view_write (pages_exclusive hn hal h) hplace _ (by rw [hs']; rfl) ?_
      (by rw [hs']; rfl)
    rw [hs', ← hold]
    rfl
  rw [hnote]
  refine ⟨fun b k hb hk => ?_, fun p f v hp => ?_⟩
  · have hb' : (s.pc b).life = .unborn ∨ (s.pc b).alive = true := by
      rw [hs'] at hb
      exact hb
    rw [hview]
    by_cases hbi : b = i
    · subst hbi
      rw [Function.update_self]
      by_cases hkj : k = j
      · rw [hkj, Function.update_self, Function.update_self]
      · rw [Function.update_of_ne hkj,
          Function.update_of_ne (fun hc => hkj (Prod.mk.inj hc).2)]
        exact hf.view b k hb' hk
    · rw [Function.update_of_ne hbi, Function.update_of_ne (fun hc => hbi (Prod.mk.inj hc).1)]
      exact hf.view b k hb' hk
  · -- The frame of a page that is about to be committed belongs to no page yet.
    have hp' : s.pc p = .commit f v := by
      rw [hs'] at hp
      exact hp
    have hne : pageAddr S.swapPoolAddr v.frame ≠ PteEntry.frame e := fun hc =>
      spare_frame hn hal hm h (Or.inr (Or.inr hp')) (i, j) (hc ▸ hplace)
    rw [hs']
    simp only [Function.update_of_ne hne]
    exact hf.loaded p f v hp'

/-! ## Moving pages -/

/-- The first block with interrupts off moves no contents: the page it takes out
    of the page table stays in its frame until it has been written. -/
theorem mirrors_evict (hn : n < 64) (hal : S.Aligned) (h : Agree S s) (hf : Mirrors S s flat)
    {f : Fault} {v : Victim} {swap : Swap n} {k : Nat} (hpc : s.pc i = .evict f v swap)
    (he : Evicts S s s' i f v k) : Mirrors S s' flat := by
  have hr := he.rewrites
  have halive : (s.pc i).alive = true := by
    rw [hpc]
    rfl
  have hvictim : (s.pc i).victim = none := by
    rw [hpc]
    rfl
  have hself : s'.pc i = .write f v i k := by
    rw [he.pc, Function.update_self]
  have hlt := (h.owner _ i he.owner).2
  have hlife : ∀ a, ((s'.pc a).life = .unborn ∨ (s'.pc a).alive = true) →
      (s.pc a).life = .unborn ∨ (s.pc a).alive = true := fun a ha => by
    by_cases hai : a = i
    · rw [hai]
      exact Or.inr halive
    · rw [he.pc, Function.update_of_ne hai] at ha
      exact ha
  refine hf.congr hlife (fun a j _ => ?_) (fun a f' v' ha => ?_) he.ram (fun d => by rw [he.flash])
  · by_cases hai : a = i
    · subst hai
      have halive' : (s'.pc a).alive = true := (hr.alive a).trans halive
      by_cases hj : j ≤ 31
      · have hlo := hr.entry a j (Pc.holding_of_alive halive)
        by_cases hjk : j = k
        · -- Page `k` is the one to be written back, still from its frame.
          subst hjk
          rw [if_pos ⟨rfl, rfl⟩] at hlo
          have hv : (s.entry a j).pteEntryLo &&& VALIDON ≠ 0 := by
            rw [he.page]
            exact (resident_bits (pageAddr_aligned hn hal hlt)).1
          rw [place_valid halive hj hv, frame_of_resident hn hal hlt he.page,
            place_invalid halive' hj (by rw [hlo]; exact BitVec.zero_and), hself]
          simp only [Pc.victim, Option.filter, decide_true, if_true, Option.map_some]
        · rw [if_neg (fun hc => hjk hc.2)] at hlo
          -- The other pages are where they were.
          by_cases hv : (s.entry a j).pteEntryLo &&& VALIDON = 0
          · rw [place_invalid halive hj hv, place_invalid halive' hj (hlo ▸ hv), hvictim, hself]
            simp only [Pc.victim, Option.filter, decide_eq_false (fun hc => hjk (Eq.symm hc)),
              Bool.false_eq_true, if_false]
          · rw [place_valid halive hj hv, place_valid halive' hj (hlo ▸ hv), PteEntry.frame,
              PteEntry.frame, hlo]
      · unfold SupportLevel.place
        rw [if_neg (fun hc => hj hc.2), if_neg (fun hc => hj hc.2)]
    · refine place_congr (hr.alive a) (by rw [he.pc, Function.update_of_ne hai]) (fun ha => ?_)
      rw [hr.entry a j (Pc.holding_of_alive ha), if_neg (fun hc => hai hc.1)]
  · by_cases hai : a = i
    · rw [hai, hself] at ha
      cases ha
    · rw [he.pc, Function.update_of_ne hai] at ha
      exact ha

/-- The second block with interrupts off gives the page its frame. -/
theorem mirrors_commit (hn : n < 64) (hal : S.Aligned) (h : Agree S s) (hf : Mirrors S s flat)
    {f : Fault} {v : Victim} (hpc : s.pc i = .commit f v) (hc : Commits S s s' i f v) :
    Mirrors S s' flat := by
  have hr := hc.rewrites
  have hlt := hc.serves.frame
  have halive : (s.pc i).alive = true := by
    rw [hpc]
    rfl
  have hmissing : (s.entry i v.pIndex).pteEntryLo &&& VALIDON = 0 :=
    (h.places i).missing f v.pIndex (by rw [hpc]; rfl) hc.serves.located
  have hpcs : ∀ a, a ≠ i → s'.pc a = s.pc a := fun a ha => by
    rw [hc.pc, Function.update_of_ne ha]
  have hself : s'.pc i = .release f := by
    rw [hc.pc, Function.update_self]
  -- The missing page was on its device.
  have hnone : s.place S (i, v.pIndex) = none := by
    rw [place_invalid halive hr.index hmissing, hpc]
    rfl
  -- Now it is in the frame, and the others are where they were.
  have hplace : s'.place S = Function.update (s.place S) (i, v.pIndex)
      (some (pageAddr S.swapPoolAddr v.frame)) := by
    funext ⟨a, j⟩
    by_cases hai : a = i
    · subst hai
      by_cases hj : j = v.pIndex
      · subst hj
        have hlo := hr.entry a v.pIndex (Pc.holding_of_alive halive)
        rw [if_pos ⟨rfl, rfl⟩] at hlo
        have hv : (s'.entry a v.pIndex).pteEntryLo &&& VALIDON ≠ 0 := by
          rw [hlo]
          exact (resident_bits (pageAddr_aligned hn hal hlt)).1
        rw [Function.update_self, place_valid ((hr.alive a).trans halive) hr.index hv,
          frame_of_resident hn hal hlt hlo]
      · rw [Function.update_of_ne (fun hc' => hj (Prod.mk.inj hc').2)]
        refine place_congr (hr.alive a) (by rw [hself, hpc]; rfl) (fun ha => ?_)
        rw [hr.entry a j (Pc.holding_of_alive ha), if_neg (fun hc' => hj hc'.2)]
    · rw [Function.update_of_ne (fun hc' => hai (Prod.mk.inj hc').1)]
      refine place_congr (hr.alive a) (by rw [hpcs a hai]) (fun ha => ?_)
      rw [hr.entry a j (Pc.holding_of_alive ha), if_neg (fun hc' => hai hc'.1)]
  have hview : (pages S s').view = (pages S s).view :=
    Paged.view_fill (p := pages S s) hnone (hf.loaded i f v hpc) hplace hc.ram
      (by simp only [pages, hc.flash])
  refine mirrors_moved hf hc.pc halive hview (fun _ _ hc' => by cases hc')
    (fun a f' v' _ ha => ?_)
  rw [hc.ram, hc.flash]
  exact hf.loaded a f' v' ha

/-- The page a U-proc replaces is on its device, and gives up its frame. -/
theorem mirrors_written (hg : Guarded s) (h : Agree S s) (hf : Mirrors S s flat) {f : Fault}
    {v : Victim} {asid : Fin n} {k : Nat} (hpc : s.pc i = .writing f v asid k) (hk : k ≤ 31)
    (hpc' : s'.pc = Function.update s.pc i (.read f v)) (hentry : s'.entry = s.entry)
    (hram : s'.ram = s.ram)
    (hblocks : ∀ d, (s'.flash d).blocks = if d = asid
      then Function.update (s.flash asid).blocks k (s.ram (pageAddr S.swapPoolAddr v.frame))
      else (s.flash d).blocks) : Mirrors S s' flat := by
  rcases (h.places i).victim asid k v.frame (by rw [hpc]; rfl) with ⟨rfl, _, _, hzero⟩
  have halive : (s.pc asid).alive = true := by
    rw [hpc]
    rfl
  have hself : s'.pc asid = .read f v := by
    rw [hpc', Function.update_self]
  have hpcs : ∀ a, a ≠ asid → s'.pc a = s.pc a := fun a ha => by
    rw [hpc', Function.update_of_ne ha]
  have halive' : (s'.pc asid).alive = true := by
    rw [hself]
    rfl
  -- The victim was in its frame until its block was written.
  have hold : s.place S (asid, k) = some (pageAddr S.swapPoolAddr v.frame) := by
    rw [place_invalid halive hk (by rw [hzero]; exact BitVec.zero_and), hpc]
    simp only [Pc.victim, Option.filter, decide_true, if_true, Option.map_some]
  have hplace : s'.place S = Function.update (s.place S) (asid, k) none := by
    funext ⟨a, j⟩
    by_cases hai : a = asid
    · subst hai
      by_cases hj : j ≤ 31
      · by_cases hv : (s.entry a j).pteEntryLo &&& VALIDON = 0
        · rw [place_invalid halive' hj (by rw [hentry]; exact hv), hself]
          by_cases hjk : j = k
          · rw [hjk, Function.update_self]
            rfl
          · -- Only page `k` was being written.
            rw [Function.update_of_ne (fun hc => hjk (Prod.mk.inj hc).2),
              place_invalid halive hj hv, hpc]
            simp only [Pc.victim, Option.filter, decide_eq_false (fun hc => hjk (Eq.symm hc)),
              Bool.false_eq_true, if_false]
        · have hjk : j ≠ k := fun hc => hv (by rw [hc, hzero]; exact BitVec.zero_and)
          rw [Function.update_of_ne (fun hc => hjk (Prod.mk.inj hc).2), place_valid halive hj hv,
            place_valid halive' hj (by rw [hentry]; exact hv), hentry]
      · have hjk : j ≠ k := fun hc => hj (hc ▸ hk)
        rw [Function.update_of_ne (fun hc => hjk (Prod.mk.inj hc).2)]
        unfold SupportLevel.place
        rw [if_neg (fun hc => hj hc.2), if_neg (fun hc => hj hc.2)]
    · rw [Function.update_of_ne (fun hc => hai (Prod.mk.inj hc).1)]
      exact place_congr (by rw [hpcs a hai]) (by rw [hpcs a hai]) (fun _ => by rw [hentry])
  have hview : (pages S s').view = (pages S s).view := by
    refine Paged.view_flush (p := pages S s) hold hplace hram ?_
    funext ⟨a, j⟩
    simp only [pages, hblocks]
    by_cases hai : a = asid
    · subst hai
      rw [if_pos rfl]
      by_cases hjk : j = k
      · rw [hjk, Function.update_self, Function.update_self]
      · rw [Function.update_of_ne hjk, Function.update_of_ne (fun hc => hjk (Prod.mk.inj hc).2)]
    · rw [if_neg hai, Function.update_of_ne (fun hc => hai (Prod.mk.inj hc).1)]
  refine mirrors_moved hf hpc' halive hview (fun _ _ hc => by cases hc)
    (fun a f' v' hai ha => ?_)
  -- Nobody else is inside the section.
  have hinside : s.phases asid = .inside := by
    rw [phases, hpc]
    rfl
  exact absurd (by rw [ha]; rfl) ((outside_of_inside hg hinside hai).2 v'.frame)

/-- The missing page is in the frame. -/
theorem mirrors_read (hn : n < 64) (hal : S.Aligned) (hg : Guarded s) (hm : Mapped (pageWord S) s)
    (h : Agree S s) (hf : Mirrors S s flat) {f : Fault} {v : Victim}
    (hpc : s.pc i = .reading f v) (hpc' : s'.pc = Function.update s.pc i (.commit f v))
    (hentry : s'.entry = s.entry)
    (hram : s'.ram = Function.update s.ram (pageAddr S.swapPoolAddr v.frame)
      ((s.flash i).blocks v.pIndex))
    (hblocks : ∀ d, (s'.flash d).blocks = (s.flash d).blocks) : Mirrors S s' flat := by
  have hself : s'.pc i = .commit f v := by
    rw [hpc', Function.update_self]
  have hpcs : ∀ a, a ≠ i → s'.pc a = s.pc a := fun a ha => by
    rw [hpc', Function.update_of_ne ha]
  -- The page is not valid yet, so no page changes its place.
  have hplace : s'.place S = s.place S := by
    funext ⟨a, j⟩
    by_cases hai : a = i
    · subst hai
      exact place_congr (by rw [hself, hpc]; rfl) (by rw [hself, hpc]; rfl)
        (fun _ => by rw [hentry])
    · exact place_congr (by rw [hpcs a hai]) (by rw [hpcs a hai]) (fun _ => by rw [hentry])
  have hview : (pages S s').view = (pages S s).view :=
    Paged.view_spare (p := pages S s) (spare_frame hn hal hm h (Or.inr (Or.inl hpc))) hplace hram
      (by simp only [pages, hblocks])
  refine mirrors_moved hf hpc' (by rw [hpc]; rfl) hview (fun f' v' hc => ?_)
    (fun a f' v' hai ha => ?_)
  · cases hc
    rw [hram, Function.update_self, hblocks]
  · have hinside : s.phases i = .inside := by
      rw [phases, hpc]
      rfl
    exact absurd (by rw [ha]; rfl) ((outside_of_inside hg hinside hai).2 v'.frame)

/-- The end of a command to a flash device. -/
theorem mirrors_ends (hn : n < 64) (hal : S.Aligned) (hg : Guarded s) (hq : Queued S s)
    (hm : Mapped (pageWord S) s) (h : Agree S s) (hf : Mirrors S s flat) {dev : Fin n} {b : Bool}
    (hb : Benign s (.flash dev b)) (hends : Ends S s dev b s') : Mirrors S s' flat := by
  cases hends with
  | @uproc i r _ s₁ hreq h₁ =>
      have hbreak : ∀ g, b = false → (s.pc i).loading = some g →
          (s.swapPoolTable g).swAsid = none := fun g hb' hl => by
        subst hb'
        exact hb.2 g ((breaks_eq hq hreq).trans hl)
      have hsane := hm.places i
      -- Only two places of the code wait for a device.
      cases hpc : s.pc i with
      | writing f v asid k =>
          rw [hpc] at hreq hsane hbreak
          cases hreq
          cases b with
          | true =>
              rw [if_pos rfl, transfer_write _ (by have hk := hsane.2; omega)] at h₁
              subst h₁
              refine mirrors_written hg h hf hpc hsane.2 rfl rfl rfl (fun d => ?_)
              simp only [setPc, emptied_blocks]
              by_cases hd : d = dev
              · rw [if_pos hd, hd, Function.update_self]
              · rw [if_neg hd, Function.update_of_ne hd]
          | false =>
              -- The page of an occupied frame would be lost.
              have hown := ((h.places i).victim dev k v.frame (by rw [hpc]; rfl)).2.1
              rw [hbreak v.frame rfl rfl] at hown
              cases hown
      | reading f v =>
          rw [hpc] at hreq hsane
          cases hreq
          cases b with
          | true =>
              have hle : v.pIndex ≤ 31 := index_le hsane.located
              rw [if_pos rfl, transfer_read _ (by omega)] at h₁
              subst h₁
              exact mirrors_read hn hal hg hm h hf hpc rfl rfl rfl (emptied_blocks _ _)
          | false =>
              rw [if_neg Bool.false_ne_true] at h₁
              subst h₁
              refine mirrors_move hf rfl ?_ rfl rfl rfl (emptied_blocks _ _)
              rw [hpc]
              exact ⟨fun hc => (by cases hc), fun _ => rfl, fun _ => rfl,
                fun _ _ hc => (by cases hc)⟩
      | _ =>
          rw [hpc] at hreq
          cases hreq
  | header =>
      exact mirrors_still hf (fun _ => Still.refl _) (fun _ _ _ => rfl) rfl (emptied_blocks _ _)
  | failed =>
      exact mirrors_still hf (fun _ => Still.refl _) (fun _ _ _ => rfl) rfl (emptied_blocks _ _)

/-! ## Steps -/

/-- Going on between places at which nothing is written back or committed. -/
theorem Still.idle {pc pc' : Pc n} (hlife : pc'.life = .holding) (halive : pc.alive = true)
    (hvictim : pc'.victim = pc.victim) (hcommit : ∀ f v, pc' ≠ .commit f v) : Still pc pc' := by
  refine ⟨fun hc => ?_, fun _ => halive, fun _ => hvictim, fun f v hc => absurd hc (hcommit f v)⟩
  rw [hlife] at hc
  cases hc

/-- A U-proc gives up its frames, or has done so. -/
theorem Still.over {pc pc' : Pc n} (hlife : pc'.life ≠ .unborn) (halive : pc'.alive = false) :
    Still pc pc' := by
  refine ⟨fun hc => absurd hc hlife, fun hc => ?_, fun hc => ?_, fun f v hc => ?_⟩
  · rw [halive] at hc
    cases hc
  · rw [halive] at hc
    cases hc
  · rw [hc] at halive
    cases halive

/-- The branches that only move a U-proc on. -/
theorem Goes.still {pc : Pc n} (hg : Goes s i pc) : Still (s.pc i) pc := by
  cases hg with
  | modification hpc => rw [hpc]; exact Still.idle rfl rfl rfl (fun _ _ hc => by cases hc)
  | missing hpc => rw [hpc]; exact Still.idle rfl rfl rfl (fun _ _ hc => by cases hc)
  | occupied hpc => rw [hpc]; exact Still.idle rfl rfl rfl (fun _ _ hc => by cases hc)
  | unoccupied hpc => rw [hpc]; exact Still.idle rfl rfl rfl (fun _ _ hc => by cases hc)
  | evict hpc => rw [hpc]; exact Still.idle rfl rfl rfl (fun _ _ hc => by cases hc)
  | read hpc => rw [hpc]; exact Still.idle rfl rfl rfl (fun _ _ hc => by cases hc)
  | nobody hpc => rw [hpc]; exact Still.idle rfl rfl rfl (fun _ _ hc => by cases hc)
  | nameless hpc =>
      rcases hpc with hpc | hpc
      · rw [hpc]
        exact Still.idle rfl rfl rfl (fun _ _ hc => by cases hc)
      · rw [hpc]
        exact Still.idle rfl rfl rfl (fun _ _ hc => by cases hc)
  | clean hpc => rw [hpc]; exact Still.idle rfl rfl rfl (fun _ _ hc => by cases hc)
  | mark => exact Still.over (fun hc => by cases hc) rfl
  | kept => exact Still.over (fun hc => by cases hc) rfl
  | owned => exact Still.over (fun hc => by cases hc) rfl
  | marked => exact Still.over (fun hc => by cases hc) rfl
  | die => exact Still.over (fun hc => by cases hc) rfl

/-- An operation on `sem_swap_pool_table`. -/
theorem mirrors_swapPoolOp (hf : Mirrors S s flat) {o : SemOp} {blocked next : Pc n}
    (hb : Still (s.pc i) blocked) (hnext : Still (s.pc i) next) :
    Mirrors S (s.swapPoolOp o i blocked next) flat := by
  have hmoves := swapPoolOp_moves (o := o) (R := fun j pc => Still (s.pc j) pc) hb hnext
    (fun _ => Pc.resumed_still _) (fun _ => Still.refl _)
  rw [swapPoolOp_eq] at hmoves ⊢
  exact mirrors_still hf hmoves (fun _ _ _ => rfl) rfl (fun _ => rfl)

theorem Unlocks.still {pc blocked next : Pc n} (hu : Unlocks pc blocked next) :
    Still pc blocked ∧ Still pc next := by
  cases hu with
  | release f =>
      exact ⟨Still.idle rfl rfl rfl (fun _ _ hc => by cases hc),
        Still.idle rfl rfl rfl (fun _ _ hc => by cases hc)⟩
  | clean asid =>
      exact ⟨Still.idle rfl rfl rfl (fun _ _ hc => by cases hc),
        Still.over (fun hc => by cases hc) rfl⟩

/-- `test` creates a U-proc, whose pages are all on its device. -/
theorem mirrors_create (ho : Allotted s) (h : Agree S s) (hf : Mirrors S s flat) {t : Fin n}
    (htest : s.test = .create i t) :
    Mirrors S { s.setPc i .user with
      support := Function.update s.support i t
      test := .alloc (i.val + 1) } flat := by
  have hfresh : s.pc i = .unborn := ho.fresh (by rw [htest]; rfl)
  have hpcs : ∀ a, a ≠ i → Function.update s.pc i Pc.user a = s.pc a :=
    fun a ha => Function.update_of_ne ha _ _
  refine hf.congr (fun a ha => ?_) (fun a j ha => ?_) (fun a f v ha => ?_) rfl (fun _ => rfl)
  · by_cases hai : a = i
    · rw [hai, hfresh]
      exact Or.inl rfl
    · simp only [setPc, hpcs a hai] at ha
      exact ha
  · by_cases hai : a = i
    · subst hai
      rw [place_dead (s := s) j (by rw [hfresh]; rfl)]
      by_cases hj : j ≤ 31
      · -- None of its entries is valid.
        refine (place_invalid ?_ hj ?_).trans ?_
        · simp only [setPc, Function.update_self]
          rfl
        · simp only [SupportLevel.entry, current, setPc, Function.update_self]
          exact h.fresh a t htest j hj
        · simp only [setPc, Function.update_self]
          rfl
      · unfold SupportLevel.place
        rw [if_neg (fun hc => hj hc.2)]
    · refine place_congr (by simp only [setPc, hpcs a hai]) (by simp only [setPc, hpcs a hai])
        (fun _ => ?_)
      simp only [SupportLevel.entry, current, Function.update_of_ne hai]
      rfl
  · by_cases hai : a = i
    · simp only [setPc, hai, Function.update_self] at ha
      cases ha
    · simp only [setPc, hpcs a hai] at ha
      exact ha

/-- Nothing but a performed access changes the flat memory. -/
theorem storeFlat_of_none {addr cause : Word} {a : Access} {slot : Nat}
    (h : s.lookup S i addr = none) :
    storeFlat S s (.touch i addr a cause slot) s' flat = flat := by
  simp only [storeFlat, h]

theorem storeFlat_of_refused {addr cause : Word} {a : Access} {slot : Nat} {e : PteEntry}
    {code : Word} (h : s.lookup S i addr = some e) (hr : a.refused e = some code) :
    storeFlat S s (.touch i addr a cause slot) s' flat = flat := by
  simp only [storeFlat, h]
  split
  · rename_i pte j hpte hj
    rw [if_neg (fun hc => by rw [← Option.some.inj hpte, hr] at hc; cases hc)]
  · rfl

theorem storeFlat_of_low {addr cause : Word} {a : Access} {slot : Nat} (h : addr < KUSEG) :
    storeFlat S s (.touch i addr a cause slot) s' flat = flat := by
  have hnone : pageOf addr = none := by
    rw [BitVec.lt_def, show KUSEG.toNat = 0x80000000 from rfl] at h
    unfold pageOf
    rw [if_neg (by omega), if_neg (by omega)]
  simp only [storeFlat, hnone]
  split
  · rename_i hc
    cases hc
  · rfl

/-- Every benign step does to the pages what it does to the flat memory. -/
theorem mirrors_step (hn : n < 64) (hal : S.Aligned) {e : UEvent n} (ho : Allotted s)
    (hg : Guarded s) (hq : Queued S s) (hm : Mapped (pageWord S) s) (h : Agree S s)
    (hf : Mirrors S s flat) (hb : Benign s e) (hstep : UStep S s e s') :
    Mirrors S s' (storeFlat S s e s' flat) := by
  cases hstep with
  | @panic e msg hp =>
      have hsame : storeFlat S s e (s.panic msg) flat = flat := by
        cases hp with
        | refill _ _ hl => exact storeFlat_of_none hl
        | _ => rfl
      rw [hsame]
      exact mirrors_still hf (fun _ => Still.refl _) (fun _ _ _ => rfl) rfl (fun _ => rfl)
  | @quit e i hpc he =>
      have hsame : storeFlat S s e (s.setPc i .trap) flat = flat := by
        rcases he with rfl | ⟨addr, a, cause, slot, rfl, hlow⟩
        · rfl
        · exact storeFlat_of_low hlow
      rw [hsame]
      refine mirrors_move hf rfl ?_ rfl rfl rfl (fun _ => rfl)
      rw [hpc]
      exact Still.idle rfl rfl rfl (fun _ _ hc => by cases hc)
  | refill hpc ha hl =>
      rw [storeFlat_of_none hl]
      exact mirrors_still hf (fun _ => Still.refl _) (fun _ _ _ => rfl) rfl (fun _ => rfl)
  | fault hpc ha hl hr =>
      rw [storeFlat_of_refused hl hr]
      refine mirrors_move hf rfl ?_ rfl rfl rfl (fun _ => rfl)
      rw [hpc]
      exact Still.idle rfl rfl rfl (fun _ _ hc => by cases hc)
  | access hpc ha hl hr => exact mirrors_access hn hal hm h hf hpc hl hr rfl
  | goes hgo => exact mirrors_move hf rfl hgo.still rfl rfl rfl (fun _ => rfl)
  | lock hpc =>
      refine mirrors_swapPoolOp hf ?_ ?_
      · rw [hpc]
        exact Still.idle rfl rfl rfl (fun _ _ hc => by cases hc)
      · rw [hpc]
        exact Still.idle rfl rfl rfl (fun _ _ hc => by cases hc)
  | take hpc =>
      refine mirrors_move hf rfl ?_ rfl rfl rfl (fun _ => rfl)
      rw [hpc]
      exact Still.idle rfl rfl rfl (fun _ _ hc => by cases hc)
  | fifo hpc =>
      refine mirrors_move hf rfl ?_ rfl rfl rfl (fun _ => rfl)
      rw [hpc]
      exact Still.idle rfl rfl rfl (fun _ _ hc => by cases hc)
  | evict hpc ha hp hx h₁ =>
      exact mirrors_evict hn hal h hf hpc (evicts_of_evict hn ho hm h hpc ha hp hx h₁ rfl)
  | write hpc =>
      refine mirrors_move hf rfl ?_ rfl rfl rfl (doio_blocks s _ _)
      rw [hpc]
      exact Still.idle rfl rfl rfl (fun _ _ hc => by cases hc)
  | read hpc =>
      refine mirrors_move hf rfl ?_ rfl rfl rfl (doio_blocks s _ _)
      rw [hpc]
      exact Still.idle rfl rfl rfl (fun _ _ hc => by cases hc)
  | commit hpc ha hx ht =>
      exact mirrors_commit hn hal h hf hpc (commits_of_commit ho hm hpc ha hx ht rfl)
  | unlock hu => exact mirrors_swapPoolOp hf hu.still.1 hu.still.2
  | drop hpc =>
      refine mirrors_move hf rfl ?_ rfl rfl rfl (fun _ => rfl)
      rw [hpc]
      exact Still.idle rfl rfl rfl (fun _ _ hc => by cases hc)
  | unmark =>
      exact mirrors_move hf rfl (Still.over (fun hc => by cases hc) rfl) rfl rfl rfl (fun _ => rfl)
  | free =>
      exact mirrors_move hf rfl (Still.over (fun hc => by cases hc) rfl) rfl rfl rfl (fun _ => rfl)
  | @post i hpc =>
      have hmoves := masterSemaphoreV_moves (i := i) (R := fun j pc => Still (s.pc j) pc)
        (Still.over (fun hc => by cases hc) rfl) (Still.over (fun hc => by cases hc) rfl)
        (fun _ => Pc.resumed_still _) (fun _ => Still.refl _)
      rw [masterSemaphoreV_eq] at hmoves ⊢
      exact mirrors_still hf hmoves (fun _ _ _ => rfl) rfl (fun _ => rfl)
  | complete hqueue h₁ => exact mirrors_ends hn hal hg hq hm h hf hb (ends_of_queue hq hqueue h₁)
  | @alloc i t ts htest =>
      refine mirrors_still hf (fun _ => Still.refl _) (fun a j _ => ?_) rfl (fun _ => rfl)
      simp only [SupportLevel.entry, current]
      by_cases hat : s.support a = t
      · simp only [hat, Function.update_self]
      · simp only [Function.update_of_ne hat]
  | created => exact mirrors_still hf (fun _ => Still.refl _) (fun _ _ _ => rfl) rfl (fun _ => rfl)
  | header =>
      exact mirrors_still hf (fun _ => Still.refl _) (fun _ _ _ => rfl) rfl (doio_blocks s _ _)
  -- The structure at hand is with no U-proc that exists.
  | @fill i t data htest =>
      have hspare := ho.spare i t (by rw [htest]; rfl)
      refine mirrors_still hf (fun _ => Still.refl _) (fun a j ha => ?_) rfl (fun _ => rfl)
      simp only [SupportLevel.entry, current, SupportLevel.setTable,
        Function.update_of_ne (hspare.2.1 a (Pc.holding_of_alive ha))]
  | create htest => exact mirrors_create ho h hf htest
  | @wait k htest =>
      have hmoves := masterSemaphoreP_moves (k := k) (R := fun j pc => Still (s.pc j) pc)
        (fun _ => Pc.resumed_still _) (fun _ => Still.refl _)
      rw [masterSemaphoreP_eq] at hmoves ⊢
      exact mirrors_still hf hmoves (fun _ _ _ => rfl) rfl (fun _ => rfl)
  | halt => exact mirrors_still hf (fun _ => Still.refl _) (fun _ _ _ => rfl) rfl (fun _ => rfl)

/-- The runs of benign steps, watched by the flat memory. -/
abbrev watchedRuns (S : Platform n) :
    System (SupportLevel n × (Fin n → Nat → Page)) (UEvent n) :=
  (benignRuns S).observed (fun _ => S.blocks) (storeFlat S)

theorem mirrors_run (hn : n < 64) (hal : S.Aligned) {es : List (UEvent n)}
    (h : (watchedRuns S).Run es (s, flat)) : Mirrors S s flat := by
  have hstart : ∀ x, (watchedRuns S).init x → Mirrors S x.1 x.2 := fun x hx => by
    rw [hx.2]
    exact mirrors_start (S := S) hx.1
  refine System.run_invariant (P := fun x => Mirrors S x.1 x.2) hstart
    (fun es x e x' hrun hx hs => ?_) h
  have hbenign := System.run_of_observed hrun
  have hbase := System.run_of_restrict hbenign
  rw [hs.2]
  exact mirrors_step hn hal (allotted_run hbase) (guarded_run hbase) (queued_run hbase)
    (mapped_benign hn hbenign) (agree_run hn hal hbenign) hx hs.1.2 (ustep_of_next hs.1.1).2

end Contents

end Pandos
