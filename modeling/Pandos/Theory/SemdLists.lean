import Mathlib.Data.List.Find
import Pandos.Asl
import Pandos.Theory.Lists
import Pandos.Theory.Pointers

/-!
# Lists of Semaphore Descriptors

What `find_semd` finds in a list of descriptors: the first one whose key
`key_cmp` cannot tell from the wanted one. On the target this is the search of
the kernel.

## Main definitions

* `DescriptorList`: A list of descriptors in memory.

## Theorems

* `find?_eq_find?_iff`: When a search with a weaker test finds the same.
* `findSemd_eq`: What `find_semd` returns.
* `findSemd_kernel`: On the target it returns what the kernel's search returns.
-/

namespace Pandos

/-! ## Searches -/

section Searches

variable {α : Type*} {weak strong : α → Bool} {l : List α}

/-- A search with a weaker test finds the same unless something that passes the
    weaker test only stands before everything that passes the other. -/
theorem find?_eq_find?_iff (h : ∀ a, strong a = true → weak a = true) :
    l.find? weak = l.find? strong ↔
      ∀ before a after, l = before ++ a :: after → weak a = true → strong a = false →
        ∃ b ∈ before, strong b = true := by
  induction l with
  | nil =>
      refine iff_of_true rfl (fun before a after hl => ?_)
      exact absurd hl.symm (List.append_ne_nil_of_right_ne_nil _ (List.cons_ne_nil _ _))
  | cons x l ih =>
      cases hs : strong x with
      | true =>
          -- Both searches stop here, and everything else comes behind.
          rw [List.find?_cons_of_pos (h x hs), List.find?_cons_of_pos hs]
          refine iff_of_true rfl (fun before a after hl hw hn => ?_)
          cases before with
          | nil =>
              rw [← (List.cons.inj hl).1, hs] at hn
              cases hn
          | cons y before =>
              rw [← (List.cons.inj hl).1]
              exact ⟨x, List.mem_cons_self, hs⟩
      | false =>
          have hstrong : (x :: l).find? strong = l.find? strong :=
            List.find?_cons_of_neg (by rw [hs]; exact Bool.false_ne_true)
          rw [hstrong]
          cases hw : weak x with
          | true =>
              rw [List.find?_cons_of_pos hw]
              refine iff_of_false (fun hc => ?_) (fun hc => ?_)
              · -- What the other search finds passes its test.
                rw [List.find?_some hc.symm] at hs
                cases hs
              · rcases hc [] x l rfl hw hs with ⟨b, hb, -⟩
                cases hb
          | false =>
              have hweak : (x :: l).find? weak = l.find? weak :=
                List.find?_cons_of_neg (by rw [hw]; exact Bool.false_ne_true)
              rw [hweak, ih]
              constructor
              · intro hc before a after hl ha hn
                cases before with
                | nil =>
                    rw [← (List.cons.inj hl).1, hw] at ha
                    cases ha
                | cons y before =>
                    rcases hc before a after (List.cons.inj hl).2 ha hn with ⟨b, hb, hbs⟩
                    exact ⟨b, List.mem_cons_of_mem y hb, hbs⟩
              · intro hc before a after hl ha hn
                rcases hc (x :: before) a after (congrArg (x :: ·) hl) ha hn with ⟨b, hb, hbs⟩
                rcases List.mem_cons.mp hb with rfl | hb
                · rw [hs] at hbs
                  cases hbs
                · exact ⟨b, hb, hbs⟩

end Searches

/-! ## Descriptors -/

/-- A list of descriptors in memory: a sentinel and the fields `s_link` of the
    descriptors behind it. -/
structure DescriptorList (w : Nat) (ι δ : Type) extends SemdHeap w ι δ where
  head : ι
  semds : List δ
  ring : links.Ring (.head head) (semds.map .sLink)

section Descriptors

variable {w : Nat} {ι δ : Type} [DecidableEq ι] [DecidableEq δ] {L : DescriptorList w ι δ}
  {semAddr : IntPtr w} {rounds : Nat}

open SemdHeap

omit [DecidableEq ι] [DecidableEq δ] in
theorem head_not_mem (L : DescriptorList w ι δ) : SemdCell.head L.head ∉ L.semds.map .sLink := by
  intro h
  rcases List.mem_map.mp h with ⟨d, -, hd⟩
  cases hd

omit [DecidableEq ι] [DecidableEq δ] in
theorem keyCmp_dummy (m : SemdHeap w ι δ) (semAddr : IntPtr w) (d : δ) :
    m.keyCmp semAddr (some .dummy) (some (.sLink d)) =
      some ((semAddr.sub (m.sKey d)).signExtend 32) := rfl

/-- `find_semd` finds the first descriptor whose key it cannot tell from the
    wanted one. -/
theorem findSemd_eq (hne : semAddr.addr ≠ L.null) (hr : L.semds.length < rounds) :
    L.findSemd rounds (some (.head L.head)) semAddr =
      some (L.semds.find? (fun d => decide (semAddr.Alias (L.sKey d)))) := by
  have hmatch : ∀ d, (!(L.keyCmp semAddr (some .dummy) (some (.sLink d)) != some 0)) =
      decide (semAddr.Alias (L.sKey d)) := by
    intro d
    rw [keyCmp_dummy, Bool.eq_iff_iff, Bool.not_eq_true', bne_eq_false_iff_eq, Option.some.injEq,
      narrow_sub_eq_zero_iff, decide_eq_true_iff]
  unfold SemdHeap.findSemd
  simp only [if_neg hne]
  rw [Links.listSearch_ring L.ring (head_not_mem L) (by rwa [List.length_map]), List.find?_map]
  simp only [Function.comp_def, hmatch]
  cases L.semds.find? (fun d => decide (semAddr.Alias (L.sKey d))) <;> rfl

theorem findSemd_null (hnull : semAddr.addr = L.null) (rounds : Nat) :
    L.findSemd rounds (some (.head L.head)) semAddr = some none := by
  unfold SemdHeap.findSemd
  simp only [if_pos hnull]

/-- On the target the search is the one of the kernel, which keeps the keys of
    each list. -/
theorem findSemd_kernel {k : Kernel} {L : DescriptorList 32 SemdList SemdId} {a : IntPtr 32}
    (hsemds : L.semds = k.slink L.head) (hkeys : ∀ d ∈ L.semds, (L.sKey d).addr = k.sKey d)
    (hne : a.addr ≠ L.null) (hr : L.semds.length < rounds) :
    L.findSemd rounds (some (.head L.head)) a = some (findSemd k L.head (some a.addr)) := by
  have hcmp : ∀ d ∈ L.semds, decide (a.Alias (L.sKey d)) = (keyCmp a.addr (k.sKey d) == 0) := by
    intro d hd
    have hnarrow : (a.sub (L.sKey d)).signExtend 32 = Pandos.keyCmp a.addr (k.sKey d) := by
      rw [BitVec.signExtend_eq, ← hkeys d hd]
      rfl
    rw [Bool.eq_iff_iff, decide_eq_true_iff, beq_iff_eq, ← narrow_sub_eq_zero_iff, hnarrow]
  rw [findSemd_eq hne hr]
  unfold findSemd
  rw [← hsemds]
  exact congrArg some (List.find?_congr hcmp)

end Descriptors

end Pandos
