import Mathlib.Data.Nat.ModEq
import Pandos.SemdHeap

/-!
# Differences of Pointers

The difference of two pointers counts the `int`s between them, and `key_cmp`
keeps its last 32 bits. They are zero if the addresses agree in their last 34
bits. For pointers of 32 bits there is nothing else to agree in.

## Main definitions

* `IntPtr.Alias`: `key_cmp` cannot tell two pointers apart.

## Theorems

* `narrow_sub_eq_zero_iff`: When the narrowed difference is zero.
* `alias_iff_eq`: Short pointers are told apart.
-/

namespace Pandos

section Pointers

variable {w : Nat} {p q : IntPtr w}

/-- Two addresses agree in their last 34 bits. -/
def IntPtr.Alias (p q : IntPtr w) : Prop := p.addr.toNat ≡ q.addr.toNat [MOD 2 ^ 34]

instance (p q : IntPtr w) : Decidable (p.Alias q) := inferInstanceAs (Decidable (_ ≡ _ [MOD _]))

theorem IntPtr.ext_toNat (h : p.addr.toNat = q.addr.toNat) : p = q := by
  cases p
  cases q
  cases BitVec.eq_of_toNat_eq h
  rfl

/-- Addresses that are not longer agree if they are equal. -/
theorem alias_iff_eq (hw : w ≤ 34) : p.Alias q ↔ p = q := by
  refine ⟨fun h => IntPtr.ext_toNat ?_, fun h => h ▸ Nat.ModEq.refl _⟩
  have hle : 2 ^ w ≤ 2 ^ 34 := Nat.pow_le_pow_right (by decide) hw
  exact Nat.ModEq.eq_of_lt_of_lt h (lt_of_lt_of_le p.addr.isLt hle)
    (lt_of_lt_of_le q.addr.isLt hle)

/-- A difference of addresses is right up to a multiple of the address space. -/
theorem toNat_sub_or {a b : BitVec w} : (a - b).toNat + b.toNat = a.toNat ∨
    (a - b).toNat + b.toNat = a.toNat + 2 ^ w := by
  have ha := a.isLt
  have hb := b.isLt
  rw [BitVec.toNat_sub]
  by_cases h : b.toNat ≤ a.toNat
  · left
    have hsplit : 2 ^ w - b.toNat + a.toNat = (a.toNat - b.toNat) + 2 ^ w := by omega
    rw [hsplit, Nat.add_mod_right, Nat.mod_eq_of_lt (by omega)]
    omega
  · right
    rw [Nat.mod_eq_of_lt (by omega)]
    omega

theorem toInt_sub_dvd_iff (p q : IntPtr w) :
    (2 ^ 34 : Int) ∣ (p.addr - q.addr).toInt ↔ p.Alias q := by
  have hp := p.addr.isLt
  have hq := q.addr.isLt
  have hlt := (p.addr - q.addr).isLt
  have hsub := toNat_sub_or (a := p.addr) (b := q.addr)
  have hint := BitVec.toInt_eq_toNat_cond (p.addr - q.addr)
  unfold IntPtr.Alias Nat.ModEq
  by_cases hw : w ≤ 34
  · -- The difference is too small to be a multiple unless it is zero.
    have hle : 2 ^ w ≤ 2 ^ 34 := Nat.pow_le_pow_right (by decide) hw
    generalize 2 ^ w = size at *
    rw [hint]
    split <;> omega
  · -- The size of the address space is a multiple itself.
    have hdvd : 2 ^ 34 ∣ 2 ^ w := Nat.pow_dvd_pow 2 (by omega)
    generalize 2 ^ w = size at *
    rw [hint]
    split <;> omega

/-- Pointers to `int`s are a whole number of `int`s apart. -/
theorem four_dvd_toInt_sub (p q : IntPtr w) : (4 : Int) ∣ (p.addr - q.addr).toInt := by
  have hp := p.aligned
  have hq := q.aligned
  have hplt := p.addr.isLt
  have hqlt := q.addr.isLt
  have hsub := toNat_sub_or (a := p.addr) (b := q.addr)
  have hint := BitVec.toInt_eq_toNat_cond (p.addr - q.addr)
  have hsize : 2 ^ w ≤ 4 ∨ 4 ∣ 2 ^ w := by
    rcases Nat.le_total w 2 with hw | hw
    · exact Or.inl (Nat.pow_le_pow_right (by decide) hw)
    · exact Or.inr (Nat.pow_dvd_pow 2 hw)
  generalize 2 ^ w = size at *
  rw [hint]
  split <;> omega

theorem toInt_sub (p q : IntPtr w) : (p.sub q).toInt = (p.addr - q.addr).toInt / 4 := by
  rw [IntPtr.sub, BitVec.toInt_sshiftRight, Int.shiftRight_eq_div_pow]
  rfl

/-- The narrowed difference of two pointers is zero if it is a multiple of
    `2 ^ 32`, that is, of `2 ^ 34` bytes. -/
theorem narrow_sub_eq_zero_iff (p q : IntPtr w) : (p.sub q).signExtend 32 = 0 ↔ p.Alias q := by
  have hdvd := four_dvd_toInt_sub p q
  have hzero : (p.sub q).signExtend 32 = 0 ↔ (2 ^ 32 : Int) ∣ (p.sub q).toInt := by
    have hnat : (0 : Word).toNat = 0 := rfl
    rw [← BitVec.toNat_inj, BitVec.signExtend, BitVec.toNat_ofInt, hnat]
    omega
  rw [hzero, toInt_sub, ← toInt_sub_dvd_iff]
  omega

end Pointers

end Pandos
