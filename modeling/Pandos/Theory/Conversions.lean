import Pandos.Theory.Numbers

/-!
# Conversions

A format cut into conversions: literal characters and directives with their
arguments. The loop of `__pandos_printf` emits them one after the other and
stops at the first one for which the writer takes nothing.

Every conversion has a text, which `listWriter` is given. A writer that fills
its target up to some capacity gets the same text, as much of it as fits. Its
counts are those of the text, with the exception of `%b`: `__bin` returns the
length of its buffer whatever the writer says.

## Main definitions

* `Conversion`, `conversions`: A format cut into its conversions.
* `dangling`: A format that ends in the middle of a directive.
* `emit`, `emitAll`: What the loop does with conversions.
* `Conversion.text`: The text of a conversion.
* `expansion`, `emitted`: The text of all conversions, and of those before the
  first empty one.

## Theorems

* `printfLoop_eq`: The loop emits the conversions of the format.
* `emit_fills`: A conversion at a writer that takes what fits.
* `emitAll_text`: The text of all conversions.
-/

namespace Pandos

open Buffers

/-! ## Formats -/

/-- A literal character, or a directive with its argument. -/
inductive Conversion
  | literal (c : Byte)
  | string (s : CString)
  | char (c : Byte)
  | decimal (i : Word)
  | pointer (p : Word)
  | nil
  | binary (i : Word)
  | percent
  | unknown (c : Byte)

/-- The directive a character stands for, and the arguments behind it. -/
def directive (L : Layout) (c : Byte) (varg : VaList) : Conversion × VaList :=
  if c = chr 's' then (.string (varg.string 0), varg.next)
  else if c = chr 'c' then (.char ((varg.word 0).setWidth 8), varg.next)
  else if c = chr 'd' then (.decimal (varg.word 0), varg.next)
  else if c = chr 'p' then
    (if varg.word 0 ≠ L.null then .pointer (varg.word 0) else .nil, varg.next)
  else if c = chr 'b' then (.binary (varg.word 0), varg.next)
  else if c = chr '%' then (.percent, varg)
  else (.unknown c, varg)

/-- The conversions of a format. A percent sign at its end makes a directive of
    the terminator. -/
def conversions (L : Layout) : List Byte → VaList → List Conversion
  | [], _ => []
  | c :: fmt, varg =>
    if c = chr '%' then
      match fmt with
      | [] => [.unknown 0]
      | d :: fmt => (directive L d varg).1 :: conversions L fmt (directive L d varg).2
    else .literal c :: conversions L fmt varg

/-- The format ends in a percent sign that starts a directive. -/
def dangling : List Byte → Bool
  | [] => false
  | c :: fmt =>
    if c = chr '%' then
      match fmt with
      | [] => true
      | _ :: fmt => dangling fmt
    else dangling fmt

/-! A literal character in front of a format. -/

theorem conversions_literal (L : Layout) {c : Byte} (hc : c ≠ chr '%') (fmt : List Byte)
    (varg : VaList) :
    conversions L (c :: fmt) varg = .literal c :: conversions L fmt varg := by
  cases fmt <;> exact if_neg hc

theorem dangling_literal {c : Byte} (hc : c ≠ chr '%') (fmt : List Byte) :
    dangling (c :: fmt) = dangling fmt := by
  cases fmt <;> exact if_neg hc

/-! ## Emission -/

section Emission

variable {σ : Type} {w : Writer σ}

/-! The arrays the directives pass to the writer are short. -/

theorem single_short (c : Byte) : [c].length < 2 ^ 32 := by
  rw [List.length_singleton]
  decide

theorem unknown_short (c : Byte) : [chr '%', c].length < 2 ^ 32 := by
  rw [List.length_cons, List.length_singleton]
  decide

theorem percent_short : [chr '%'].length < 2 ^ 32 := single_short (chr '%')

theorem hex_short : [chr '0', chr 'x'].length < 2 ^ 32 := by decide

theorem nil_short : [chr '(', chr 'n', chr 'i', chr 'l', chr ')'].length < 2 ^ 32 := by decide

/-- What the loop does with a conversion. -/
def emit (w : Writer σ) (target : σ) : Conversion → σ × Word
  | .literal c => w target (CString.ofArray [c] (single_short c)) 1
  | .string s => w target s 0
  | .char c => w target (CString.ofArray [c] (single_short c)) 1
  | .decimal i => itoa w target i 10
  | .pointer p =>
    let x := w target (CString.ofArray [chr '0', chr 'x'] hex_short) 2
    let r := itoa w x.1 p 16
    (r.1, x.2 + r.2)
  | .nil => w target (CString.ofArray [chr '(', chr 'n', chr 'i', chr 'l', chr ')'] nil_short) 5
  | .binary i => bin w target i
  | .percent => w target (CString.ofArray [chr '%'] percent_short) 1
  | .unknown c => w target (CString.ofArray [chr '%', c] (unknown_short c)) 2

theorem printfDirective_eq (L : Layout) (target : σ) (c : Byte) (varg : VaList) :
    printfDirective L w target c varg =
      ((emit w target (directive L c varg).1).1, (emit w target (directive L c varg).1).2,
        (directive L c varg).2) := by
  unfold printfDirective directive
  split_ifs <;> rfl

theorem printfLoop_literal (L : Layout) {c : Byte} (hc : c ≠ chr '%') (hzero : c ≠ 0)
    (fmt : List Byte) (varg : VaList) (target : σ) (wr : Word) :
    printfLoop L w (c :: fmt) varg target wr =
      if (emit w target (.literal c)).2 = 0 then
        some (c :: fmt, (emit w target (.literal c)).1, wr)
      else printfLoop L w fmt varg (emit w target (.literal c)).1
        (wr + (emit w target (.literal c)).2) := by
  cases fmt <;> exact (if_neg hzero).trans (if_neg hc)

/-- Conversions are emitted up to the first one that counts for nothing; the
    flag tells whether there was one. -/
def emitAll (w : Writer σ) : List Conversion → σ → Word → σ × Word × Bool
  | [], target, wr => (target, wr, false)
  | c :: cs, target, wr =>
    if (emit w target c).2 = 0 then ((emit w target c).1, wr, true)
    else emitAll w cs (emit w target c).1 (wr + (emit w target c).2)

/-- The loop of `__pandos_printf` emits the conversions of the format. It leaves
    the format if it is done with a percent sign at the end. -/
theorem printfLoop_eq (L : Layout) (fmt : List Byte) (hfmt : ∀ c ∈ fmt, c ≠ 0) (varg : VaList)
    (target : σ) (wr : Word) :
    let r := emitAll w (conversions L fmt varg) target wr
    if r.2.2 then ∃ rest, printfLoop L w (fmt ++ [0]) varg target wr = some (rest, r.1, r.2.1) ∧
      (dangling fmt = false → rest.head? ≠ some 0)
    else printfLoop L w (fmt ++ [0]) varg target wr =
      if dangling fmt then none else some ([0], r.1, r.2.1) := by
  have hpercent : chr '%' ≠ 0 := by decide
  induction fmt, varg using conversions.induct L generalizing target wr with
  | case1 varg =>
      simp only [conversions, emitAll, List.nil_append, printfLoop, if_true, dangling,
        Bool.false_eq_true, if_false]
  | case2 varg =>
      -- The terminator is taken for a directive, and the loop goes on behind it.
      have hdir : directive L 0 varg = (.unknown 0, varg) := rfl
      simp only [conversions, if_true, emitAll, List.singleton_append, printfLoop, hpercent,
        if_false, printfDirective_eq, hdir, dangling]
      by_cases hstop : (emit w target (.unknown 0)).2 = 0
      · simp only [if_pos hstop, if_true, Bool.true_eq_false, false_implies, and_true]
        exact ⟨_, rfl⟩
      · simp only [if_neg hstop, Bool.false_eq_true, if_false]
  | case3 varg d fmt ih =>
      have hd : d ≠ 0 := hfmt d (List.mem_cons_of_mem _ List.mem_cons_self)
      have hrest : ∀ c ∈ fmt, c ≠ 0 := fun c hc =>
        hfmt c (List.mem_cons_of_mem _ (List.mem_cons_of_mem _ hc))
      simp only [conversions, if_true, emitAll, List.cons_append, printfLoop, hpercent, if_false,
        printfDirective_eq, dangling]
      by_cases hstop : (emit w target (directive L d varg).1).2 = 0
      · simp only [if_pos hstop, if_true]
        refine ⟨_, rfl, fun _ => ?_⟩
        rw [List.head?_cons]
        exact fun hc => hd (Option.some.inj hc)
      · simp only [if_neg hstop]
        exact ih hrest _ _
  | case4 c fmt varg hc ih =>
      have hzero : c ≠ 0 := hfmt c List.mem_cons_self
      have hrest : ∀ d ∈ fmt, d ≠ 0 := fun d hd => hfmt d (List.mem_cons_of_mem _ hd)
      rw [conversions_literal L hc, dangling_literal hc, List.cons_append,
        printfLoop_literal L hc hzero]
      simp only [emitAll]
      by_cases hstop : (emit w target (.literal c)).2 = 0
      · simp only [if_pos hstop, if_true]
        refine ⟨_, rfl, fun _ => ?_⟩
        rw [List.head?_cons]
        exact fun hc => hzero (Option.some.inj hc)
      · simp only [if_neg hstop]
        exact ih hrest _ _

end Emission

/-! ## Texts -/

section Texts

variable {σ : Type} {w : Writer σ} {K : ℕ∞} {R : σ → List Byte → Prop} {s : σ} {out : List Byte}

/-- The text of a conversion. -/
def Conversion.text : Conversion → List Byte
  | .literal c => if c = 0 then [] else [c]
  | .string s => s.chars
  | .char c => if c = 0 then [] else [c]
  | .decimal i => itoaText i 10
  | .pointer p => [chr '0', chr 'x'] ++ itoaText p 16
  | .nil => [chr '(', chr 'n', chr 'i', chr 'l', chr ')']
  | .binary i => (List.range LEN).map (binDigit i)
  | .percent => [chr '%']
  | .unknown c => if c = 0 then [chr '%'] else [chr '%', c]

/-- A conversion that is rendered by `__bin`. -/
def Conversion.isBinary : Conversion → Bool
  | .binary _ => true
  | _ => false

/-- What a conversion counts for behind a text of a given length. -/
def Conversion.count (K : ℕ∞) (a : Nat) (c : Conversion) : Nat :=
  if c.isBinary then LEN else fit K a c.text.length

theorem binDigit_ne_zero (i : Word) (p : Nat) : binDigit i p ≠ 0 := by
  unfold binDigit
  split <;> decide

theorem binary_text_length (i : Word) : (Conversion.binary i).text.length = LEN := by
  unfold Conversion.text
  rw [List.length_map, List.length_range]

/-- A conversion at a writer that takes what fits. -/
theorem emit_fills (hw : w.Fills K R) (h : R s out) (c : Conversion) :
    R (emit w s c).1 (out ++ c.text) ∧
      (emit w s c).2 = BitVec.ofNat 32 (c.count K out.length) := by
  unfold Conversion.count
  cases c with
  | literal c => exact write_char hw h c _
  | string t => exact ⟨hw.text s out t 0 (Or.inl rfl) h, hw.count s out t 0 (Or.inl rfl) h⟩
  | char c => exact write_char hw h c _
  | decimal i => exact itoa_fills hw i 10 h
  | pointer p =>
      rcases write_array hw h (a := [chr '0', chr 'x']) (n := 2) (by decide) (by decide)
        (by decide) with ⟨hx, hxcount⟩
      rcases itoa_fills hw p 16 hx with ⟨hp, hpcount⟩
      rw [List.append_assoc] at hp
      refine ⟨hp, ?_⟩
      simp only [emit, Conversion.text, Conversion.isBinary, Bool.false_eq_true, if_false]
      rw [hxcount, hpcount, List.length_append, List.length_append, fit_add, BitVec.ofNat_add]
  | nil => exact write_array hw h (by decide) (by decide) (by decide)
  | binary i =>
      refine ⟨(write_array hw h (by simp [LEN]) ?_ ?_).1, rfl⟩
      · intro c hc
        rcases List.mem_map.mp hc with ⟨p, -, rfl⟩
        exact binDigit_ne_zero i p
      · rw [List.length_map, List.length_range]
        decide
  | percent => exact write_array hw h (by decide) (by decide) (by decide)
  | unknown c =>
      by_cases hc : c = 0
      · subst hc
        exact write_array hw h (a := [chr '%']) (n := 2) (by decide) (by decide) (by decide)
      · have hn : ∀ d ∈ [chr '%', c], d ≠ 0 := by
          intro d hd
          rcases List.mem_cons.mp hd with rfl | hd
          · decide
          · rw [List.mem_singleton.mp hd]
            exact hc
        have harray := write_array hw h (n := 2) (by simp) hn (Nat.le_refl 2)
        simp only [emit, Conversion.text, Conversion.isBinary, if_neg hc, Bool.false_eq_true,
          if_false]
        exact harray

theorem text_length_lt (c : Conversion) : c.text.length < 2 ^ 32 := by
  -- Every text but the one of a string is short.
  have hshort : ∀ {a : List Byte} (n : Nat), a.length ≤ n → n ≤ 40 → a.length < 2 ^ 32 := by
    intro a n ha hn
    omega
  cases c with
  | literal c => exact hshort 1 (by simp only [Conversion.text]; split <;> simp) (by decide)
  | string t => exact t.bounded
  | char c => exact hshort 1 (by simp only [Conversion.text]; split <;> simp) (by decide)
  | decimal i =>
      have hten : 2 ≤ (10 : Word).toNat := by decide
      exact hshort 33 (itoaText_length_le hten (by decide) i) (by decide)
  | pointer p =>
      refine hshort 35 ?_ (by decide)
      have hsixteen : 2 ≤ (16 : Word).toNat := by decide
      have h := itoaText_length_le hsixteen (by decide) p
      unfold Conversion.text
      rw [List.length_append]
      exact Nat.add_le_add_left h 2
  | nil => decide
  | binary i => exact hshort 32 (Nat.le_of_eq (binary_text_length i)) (by decide)
  | percent => decide
  | unknown c => exact hshort 2 (by simp only [Conversion.text]; split <;> simp) (by decide)

theorem count_lt (K : ℕ∞) (a : Nat) (c : Conversion) : c.count K a < 2 ^ 32 := by
  unfold Conversion.count
  split
  · decide
  · exact lt_of_le_of_lt (fit_le K a _) (text_length_lt c)

theorem binary_text_ne_nil {c : Conversion} (h : c.isBinary = true) : c.text ≠ [] := by
  cases c with
  | binary i =>
      refine List.ne_nil_of_length_pos ?_
      rw [binary_text_length]
      decide
  | _ => cases h

/-- A conversion counts for nothing if its text is empty or does not fit. -/
theorem count_eq_zero {a : Nat} {c : Conversion} (h : c.count K a = 0) :
    c.text = [] ∨ K ≤ a := by
  unfold Conversion.count at h
  by_cases hb : c.isBinary = true
  · rw [if_pos hb] at h
    exact absurd h (by decide)
  · rw [if_neg hb] at h
    exact (fit_eq_zero_iff.mp h).imp_left List.length_eq_zero_iff.mp

/-- `__bin` counts its characters, whether they fit or not. -/
theorem emit_binary_ne_zero {c : Conversion} (h : c.isBinary = true) (w : Writer σ) (s : σ) :
    (emit w s c).2 ≠ 0 := by
  cases c with
  | binary i => exact (by decide : BitVec.ofNat 32 LEN ≠ 0)
  | _ => cases h

/-- When the loop gives up at a conversion. -/
theorem emit_stops_iff (hw : w.Fills K R) (h : R s out) {c : Conversion}
    (hbin : ¬ c.isBinary = true) : (emit w s c).2 = 0 ↔ c.text = [] ∨ K ≤ out.length := by
  rw [(emit_fills hw h c).2, ofNat_eq_zero_iff (count_lt K out.length c)]
  unfold Conversion.count
  rw [if_neg hbin, fit_eq_zero_iff, List.length_eq_zero_iff]

/-- A text that fits is counted in full. -/
theorem count_of_le {a : Nat} {c : Conversion} (h : ((a + c.text.length : ℕ) : ℕ∞) ≤ K) :
    c.count K a = c.text.length := by
  unfold Conversion.count
  by_cases hb : c.isBinary = true
  · rw [if_pos hb]
    cases c with
    | binary i => exact (binary_text_length i).symm
    | _ => cases hb
  · rw [if_neg hb, fit_of_le h]

/-- The text of all conversions. -/
def expansion (cs : List Conversion) : List Byte := cs.flatMap Conversion.text

/-- The text of the conversions before the first empty one. -/
def emitted : List Conversion → List Byte
  | [] => []
  | c :: cs => if c.text = [] then [] else c.text ++ emitted cs

/-- A conversion with an empty text is followed by such conversions only. -/
def Complete (cs : List Conversion) : Prop :=
  ∀ before c after, cs = before ++ c :: after → c.text = [] → ∀ d ∈ after, d.text = []

theorem emitted_length_le (cs : List Conversion) : (emitted cs).length ≤ (expansion cs).length := by
  induction cs with
  | nil => exact Nat.le_refl _
  | cons c cs ih =>
      have hexp : expansion (c :: cs) = c.text ++ expansion cs := List.flatMap_cons
      unfold emitted
      rw [hexp, List.length_append]
      split
      · exact Nat.zero_le _
      · rw [List.length_append]
        omega

theorem Complete.tail {c : Conversion} {cs : List Conversion} (h : Complete (c :: cs)) :
    Complete cs := by
  intro before d after hcs
  exact h (c :: before) d after (by rw [hcs]; rfl)

theorem expansion_eq_nil {cs : List Conversion} : expansion cs = [] ↔ ∀ d ∈ cs, d.text = [] :=
  List.flatMap_eq_nil_iff

/-- Nothing is dropped exactly when only empty texts follow an empty text. -/
theorem emitted_length_iff (cs : List Conversion) :
    (emitted cs).length = (expansion cs).length ↔ Complete cs := by
  induction cs with
  | nil =>
      refine ⟨fun _ before c after h => ?_, fun _ => rfl⟩
      exact absurd h (List.append_ne_nil_of_right_ne_nil _ (List.cons_ne_nil _ _)).symm
  | cons c cs ih =>
      have hexp : expansion (c :: cs) = c.text ++ expansion cs := List.flatMap_cons
      unfold emitted
      rw [hexp, List.length_append]
      by_cases hc : c.text = []
      · rw [if_pos hc, hc, List.length_nil, Nat.zero_add]
        refine ⟨fun h => ?_, fun h => ?_⟩
        · have hnil := expansion_eq_nil.mp (List.eq_nil_of_length_eq_zero h.symm)
          intro before d after hcs _ e he
          refine hnil e ?_
          cases before with
          | nil =>
              rw [(List.cons.inj hcs).2]
              exact he
          | cons b before =>
              rw [(List.cons.inj hcs).2]
              exact List.mem_append_right _ (List.mem_cons_of_mem _ he)
        · have hnil := expansion_eq_nil.mpr (h [] c cs rfl hc)
          rw [hnil]
          rfl
      · rw [if_neg hc, List.length_append, Nat.add_left_cancel_iff, ih]
        refine ⟨fun h => ?_, Complete.tail⟩
        intro before d after hcs hd
        cases before with
        | nil =>
            rw [List.nil_append] at hcs
            exact absurd ((List.cons.inj hcs).1 ▸ hd) hc
        | cons b before => exact h before d after (List.cons.inj hcs).2 hd

/-- All conversions at a writer that takes what fits. -/
theorem emitAll_text (hw : w.Fills K R) (h : R s out) (cs : List Conversion) (wr : Word) :
    R (emitAll w cs s wr).1 (out ++ emitted cs) := by
  induction cs generalizing s out wr with
  | nil =>
      rw [emitted, List.append_nil]
      exact h
  | cons c cs ih =>
      rcases emit_fills hw h c with ⟨htext, hcount⟩
      unfold emitAll emitted
      by_cases hstop : (emit w s c).2 = 0
      · rw [if_pos hstop]
        rw [hcount, ofNat_eq_zero_iff (count_lt K _ c)] at hstop
        by_cases hc : c.text = []
        · rw [if_pos hc, ← hc]
          exact htext
        · -- The target is full, so the rest of the text changes nothing.
          have hfull := (count_eq_zero hstop).resolve_left hc
          rw [if_neg hc, ← List.append_assoc]
          refine hw.full _ _ _ htext (hfull.trans ?_)
          rw [List.length_append]
          exact Nat.cast_le.mpr (Nat.le_add_right _ _)
      · rw [if_neg hstop]
        by_cases hc : c.text = []
        · exact absurd hcount (fun hzero => hstop (by
            rw [hzero]
            unfold Conversion.count
            rw [if_neg (fun hb => binary_text_ne_nil hb hc), hc, List.length_nil, fit_zero]
            rfl))
        · rw [if_neg hc, ← List.append_assoc]
          exact ih htext _

/-- All conversions at a writer that has room for them. -/
theorem emitAll_count (hw : w.Fills K R) (h : R s out) (cs : List Conversion) (wr : Word)
    (hroom : ((out.length + (emitted cs).length : ℕ) : ℕ∞) ≤ K) :
    (emitAll w cs s wr).2.1 = wr + BitVec.ofNat 32 (emitted cs).length := by
  induction cs generalizing s out wr with
  | nil => exact (BitVec.add_zero wr).symm
  | cons c cs ih =>
      rcases emit_fills hw h c with ⟨htext, hcount⟩
      unfold emitAll
      unfold emitted at hroom ⊢
      by_cases hc : c.text = []
      · have hzero : c.count K out.length = 0 := by
          rw [count_of_le (by
            rw [if_pos hc] at hroom
            rw [hc]
            exact hroom), hc, List.length_nil]
        have hstop : (emit w s c).2 = 0 := by
          rw [hcount, hzero]
          rfl
        rw [if_pos hstop, if_pos hc]
        exact (BitVec.add_zero wr).symm
      · rw [if_neg hc, List.length_append, ← Nat.add_assoc] at hroom
        have hfits : c.count K out.length = c.text.length :=
          count_of_le (le_trans (Nat.cast_le.mpr (Nat.le_add_right _ _)) hroom)
        have hgo : (emit w s c).2 ≠ 0 := by
          rw [hcount, hfits]
          exact fun hz => hc (List.eq_nil_of_length_eq_zero
            ((ofNat_eq_zero_iff (text_length_lt c)).mp hz))
        rw [if_neg hgo, if_neg hc, ih htext _ (by rw [List.length_append]; exact hroom), hcount,
          hfits, List.length_append, BitVec.ofNat_add, BitVec.add_assoc]

/-- `__pandos_printf` on a format that does not end in a percent sign. -/
theorem pandosPrintf_eq (L : Layout) (w : Writer σ) (s : σ) (fmt : CString) (varg : VaList)
    (hd : dangling fmt.chars = false) :
    pandosPrintf L w s fmt varg =
      let r := emitAll w (conversions L fmt.chars varg) s 0
      if r.2.2 then some ((w r.1 cEnd 1).1, r.2.1 + (w r.1 cEnd 1).2) else some (r.1, r.2.1) := by
  have hloop := printfLoop_eq L fmt.chars fmt.nonzero varg s (w := w) 0
  simp only at hloop ⊢
  unfold pandosPrintf
  by_cases hstop : (emitAll w (conversions L fmt.chars varg) s 0).2.2 = true
  · rw [if_pos hstop] at hloop
    rcases hloop with ⟨rest, hrest, hhead⟩
    rw [hrest, if_pos hstop]
    simp only [if_pos (hhead hd)]
  · rw [if_neg hstop, hd] at hloop
    rw [hloop, if_neg hstop]
    rfl

/-- `__pandos_printf` at a writer that has room for what it emits. -/
theorem pandosPrintf_fills (hw : w.Fills K R) (h : R s out) (L : Layout) (fmt : CString)
    (varg : VaList) (hd : dangling fmt.chars = false)
    (hroom : ((out.length + (emitted (conversions L fmt.chars varg)).length : ℕ) : ℕ∞) ≤ K) :
    ∃ s', pandosPrintf L w s fmt varg =
        some (s', BitVec.ofNat 32 (emitted (conversions L fmt.chars varg)).length) ∧
      R s' (out ++ emitted (conversions L fmt.chars varg)) := by
  have htext := emitAll_text hw h (conversions L fmt.chars varg) 0
  have hcount := emitAll_count hw h (conversions L fmt.chars varg) 0 hroom
  have hzero : ∀ x : Word, 0 + x = x := BitVec.zero_add
  rw [hzero] at hcount
  rcases write_end hw htext with ⟨hend, hendcount⟩
  rw [pandosPrintf_eq L w s fmt varg hd]
  simp only
  split
  · refine ⟨_, congrArg some (Prod.ext rfl ?_), hend⟩
    change _ + _ = _
    rw [hendcount, hcount]
    exact BitVec.add_zero _
  · exact ⟨_, congrArg some (Prod.ext rfl hcount), htext⟩

end Texts

/-! ## Samples -/

/-- A string of at most 100 characters. -/
def cstring (s : String) : CString :=
  CString.ofArray ((s.toList.map chr).take 100) (by
    rw [List.length_take]
    omega)

/-- Arguments that all are the same word and point to the same string. -/
def sameArgs (w : Word) (s : String) : VaList where
  word _ := w
  string _ := cstring s

end Pandos
