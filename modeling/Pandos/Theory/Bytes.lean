import Pandos.Lib.Buffers
import Pandos.SupportSyscall
import Pandos.Theory.Addresses

/-!
# Bytes of a U-proc

The pages of a U-proc hold words, and its strings are made of bytes. `byteAt` is
the memory of a U-proc byte by byte, and nothing where it has no page. Two
addresses with the same page, the same word and the same place in the word are
the same, so the store of a byte changes `byteAt` at its own address only.

The text and the stack are far apart. A string that lies in pages throughout is
therefore short, and its addresses do not wrap around.

## Main definitions

* `byteAt`: The byte at an address.
* `Spells`: A string stands at an address.
* `Covers`: A string lies in pages throughout.

## Theorems

* `byteOf_store`: The bytes of a word after the store of a byte.
* `byteAt_store`: The bytes of a U-proc after the store of a byte.
* `covers_length`: How long a string can be.
-/

namespace Pandos

open SupportLevel Buffers

/-! ## Bytes of a word -/

theorem byteShift_eq (addr : Word) : byteShift addr = 8 * (addr.toNat % 4) := by
  have hmask : (3 : Word).toNat = 2 ^ 2 - 1 := by decide
  rw [byteShift, BitVec.toNat_and, hmask, Nat.and_two_pow_sub_one_eq_mod]

theorem byteShift_le (addr : Word) : byteShift addr ≤ 24 := by
  rw [byteShift_eq]
  have hlt := Nat.mod_lt addr.toNat (show 0 < 4 by decide)
  omega

theorem offset_eq (addr : Word) : offset addr = addr.toNat % 4096 / 4 := by
  have hmask : (0xFFF : Word).toNat = 2 ^ 12 - 1 := by decide
  rw [offset, BitVec.toNat_ushiftRight, BitVec.toNat_and, hmask, Nat.and_two_pow_sub_one_eq_mod,
    Nat.shiftRight_eq_div_pow]

theorem byteOf_bit (addr word : Word) {i : Nat} (hi : i < 8) :
    (byteOf addr word).getLsbD i = word.getLsbD (byteShift addr + i) := by
  rw [byteOf, BitVec.getLsbD_setWidth, BitVec.getLsbD_ushiftRight, decide_eq_true hi,
    Bool.true_and]

theorem mask_bit {k : Nat} (hk : k < 32) (s : Nat) :
    ((0xFF : Word) <<< s).getLsbD k = (decide (s ≤ k) && decide (k - s < 8)) := by
  have hmask : (0xFF : Word).getLsbD (k - s) = decide (k - s < 8) := by
    rw [BitVec.getLsbD, show (0xFF : Word).toNat = 2 ^ 8 - 1 by decide,
      Nat.testBit_two_pow_sub_one]
  rw [BitVec.getLsbD_shiftLeft, hmask, decide_eq_true hk, Bool.true_and, ← decide_not]
  simp only [Nat.not_lt]

/-- The bytes of a word after the store of a byte. -/
theorem byteOf_store (addr addr' old : Word) (c : BitVec 8) :
    byteOf addr' ((storeByte addr c).result old) =
      if addr'.toNat % 4 = addr.toNat % 4 then c else byteOf addr' old := by
  refine BitVec.eq_of_getLsbD_eq (fun i hi => ?_)
  have hle := byteShift_le addr'
  have hk : byteShift addr' + i < 32 := by omega
  rw [byteOf_bit _ _ hi, storeByte, Access.result, BitVec.getLsbD_or, BitVec.getLsbD_and,
    BitVec.getLsbD_and, BitVec.getLsbD_not, mask_bit hk, decide_eq_true hk, Bool.true_and]
  by_cases hsame : addr'.toNat % 4 = addr.toNat % 4
  · -- All bits of the byte are in the mask.
    have hshift : byteShift addr' = byteShift addr := by
      rw [byteShift_eq, byteShift_eq, hsame]
    rw [if_pos hsame, hshift, decide_eq_true (by omega), decide_eq_true (by omega),
      BitVec.getLsbD_shiftLeft, Nat.add_sub_cancel_left, BitVec.getLsbD_setWidth,
      decide_eq_true (hshift ▸ hk), decide_eq_true (show i < 32 by omega),
      decide_eq_false (by omega)]
    simp only [Bool.and_self, Bool.not_true, Bool.and_false, Bool.false_or, Bool.not_false,
      Bool.true_and, Bool.and_true]
  · -- None of them is.
    rw [if_neg hsame, byteOf_bit _ _ hi]
    have hout : (decide (byteShift addr ≤ byteShift addr' + i) &&
        decide (byteShift addr' + i - byteShift addr < 8)) = false := by
      rw [Bool.and_eq_false_iff, decide_eq_false_iff_not, decide_eq_false_iff_not]
      rw [byteShift_eq, byteShift_eq]
      omega
    rw [hout]
    simp only [Bool.not_false, Bool.and_true, Bool.and_false, Bool.or_false]

/-! ## Bytes of a memory -/

/-- The byte at an address of a U-proc. -/
def byteAt (mem : Nat → Page) (addr : Word) : Option (BitVec 8) :=
  (pageOf addr).map (fun j => byteOf addr (mem j (offset addr)))

/-- A string stands at an address. -/
def Spells (mem : Nat → Page) (p : Word) (cs : List (BitVec 8)) : Prop :=
  ∀ k, k < cs.length → byteAt mem (p + BitVec.ofNat 32 k) = cs[k]?

/-- A string lies in pages throughout. -/
def Covers (p : Word) (len : Nat) : Prop :=
  ∀ k, k < len → (pageOf (p + BitVec.ofNat 32 k)).isSome = true

theorem pageOf_bounds {addr : Word} {j : Nat} (h : pageOf addr = some j) :
    (addr.toNat / 4096 = 0xBFFFF ∧ j = 31) ∨ (addr.toNat / 4096 = 0x80000 + j ∧ j < 31) := by
  unfold pageOf at h
  split at h
  · exact Or.inl ⟨by assumption, (Option.some.inj h).symm⟩
  · split at h
    · rename_i hb
      have hj := Option.some.inj h
      exact Or.inr ⟨by omega, by omega⟩
    · cases h

/-- An address is made of its page, its word and its place there. -/
theorem addr_eq {addr addr' : Word} (hpage : pageOf addr' = pageOf addr)
    (hsome : (pageOf addr).isSome = true) (hoffset : offset addr' = offset addr)
    (hplace : addr'.toNat % 4 = addr.toNat % 4) : addr' = addr := by
  rw [Option.isSome_iff_exists] at hsome
  rcases hsome with ⟨j, hj⟩
  rw [hj] at hpage
  have hb := pageOf_bounds hj
  have hb' := pageOf_bounds hpage
  rw [offset_eq, offset_eq] at hoffset
  refine BitVec.eq_of_toNat_eq ?_
  omega

/-- The bytes of a U-proc after the store of a byte. -/
theorem byteAt_store {mem : Nat → Page} {addr : Word} {j : Nat} (h : pageOf addr = some j)
    (c : BitVec 8) :
    byteAt (Function.update mem j (Function.update (mem j) (offset addr)
      ((storeByte addr c).result (mem j (offset addr))))) =
    Function.update (byteAt mem) addr (some c) := by
  funext addr'
  by_cases hsame : addr' = addr
  · rw [hsame, Function.update_self, byteAt, h, Option.map_some, Function.update_self,
      Function.update_self, byteOf_store, if_pos rfl]
  · rw [Function.update_of_ne hsame, byteAt, byteAt]
    cases hj : pageOf addr' with
    | none => rfl
    | some j' =>
        rw [Option.map_some, Option.map_some]
        by_cases hpage : j' = j
        · subst hpage
          rw [Function.update_self]
          by_cases hoffset : offset addr' = offset addr
          · -- The same word, so another place in it.
            have hplace : ¬ addr'.toNat % 4 = addr.toNat % 4 := fun hc =>
              hsame (addr_eq (hj.trans h.symm) (by rw [h]; rfl) hoffset hc)
            rw [hoffset, Function.update_self, byteOf_store, if_neg hplace]
          · rw [Function.update_of_ne hoffset]
        · rw [Function.update_of_ne hpage]

/-- The memory of a U-proc has an end. -/
theorem pageOf_lt {addr : Word} {j : Nat} (h : pageOf addr = some j) :
    addr.toNat < 0xC0000000 := by
  have hb := pageOf_bounds h
  omega

/-- How long a string can be. -/
theorem covers_length {p : Word} {len : Nat} (h : Covers p len) : len ≤ 31 * 4096 := by
  by_contra hlong
  -- The byte behind the text or behind the stack would be in a page.
  have hend : ∀ k, k < len → k < 2 ^ 20 → ∃ j, pageOf (p + BitVec.ofNat 32 k) = some j ∧
      (p + BitVec.ofNat 32 k).toNat = (p.toNat + k) % 2 ^ 32 := by
    intro k hk hsmall
    have hs := h k hk
    rw [Option.isSome_iff_exists] at hs
    rcases hs with ⟨j, hj⟩
    refine ⟨j, hj, ?_⟩
    rw [BitVec.toNat_add, BitVec.toNat_ofNat, Nat.mod_eq_of_lt (a := k) (by omega)]
  rcases hend 0 (by omega) (by omega) with ⟨j, hj, h0⟩
  have hp := p.isLt
  rcases pageOf_bounds hj with ⟨hb, _⟩ | ⟨hb, hj31⟩
  · rcases hend (0xC0000000 - p.toNat) (by omega) (by omega) with ⟨j', hj', h1⟩
    have hb' := pageOf_bounds hj'
    omega
  · rcases hend (0x8001F000 - p.toNat) (by omega) (by omega) with ⟨j', hj', h1⟩
    have hb' := pageOf_bounds hj'
    omega

/-- A string that was stored in the memory of a U-proc stands there. -/
theorem spells_of_stored {mem mem' : Nat → Page} {p : Word} {cs : List (BitVec 8)}
    (h : byteAt mem' = stored (byteAt mem) p.toNat (cs.map some))
    (hc : p.toNat + cs.length < 2 ^ 32) : Spells mem' p cs := by
  intro k hk
  have hto : (p + BitVec.ofNat 32 k).toNat = p.toNat + k := by
    rw [BitVec.toNat_add, BitVec.toNat_ofNat, Nat.mod_eq_of_lt (a := k) (by omega),
      Nat.mod_eq_of_lt (by omega)]
  rw [h, stored_inside hto (by rw [List.length_map]; exact hk), List.getElem_map,
    List.getElem?_eq_getElem hk]

end Pandos
