import Pandos.Writers

/-!
# Formatted Output

`__itoa`, `__bin` and `__pandos_printf` of `os/src/util.c`, and the two entry
points that write into a string buffer.

An `int` and an `unsigned` are words; the operations on them are the signed and
the unsigned ones of the source. A conversion reads past the arguments of its
call only if the format asks for more than there are, so the arguments are a
stream.

A pointer into the format is what is left of it, the NUL included. Reading
through a pointer behind the NUL is what `none` stands for.

## Main definitions

* `pandosPow`, `itoa`, `bin`: Numbers.
* `VaList`: The variable arguments.
* `pandosPrintf`: The interpreter of formats.
* `nitoa`, `pandosSnprintf`: Into a string buffer.
-/

namespace Pandos

def LEN : Nat := 32
def SIGNED_BASE : Word := 10

/-- `pandos_pow`. -/
def pandosPow (base : Word) (exp : Nat) : Word :=
  if exp = 0 then 1
  else
    let tmp := pandosPow base (exp / 2)
    (if exp % 2 = 0 then 1 else base) * tmp * tmp
termination_by exp

/-- Signed division by a base takes a magnitude to the quotient of the
    magnitudes. -/
theorem natAbs_sdiv {base : Word} (hbase : 2 ≤ base.toInt) (cpy : Word) :
    (cpy.sdiv base).toInt.natAbs = cpy.toInt.natAbs / base.toInt.natAbs := by
  have hne : base ≠ -1#32 := by
    intro h
    rw [h] at hbase
    exact absurd hbase (by decide)
  rw [BitVec.toInt_sdiv_of_ne_or_ne _ _ (Or.inr hne), Int.natAbs_tdiv]
  rfl

/-- The loop of `__itoa` that counts digits, by signed division. The source
    does not leave it when the base is below two. -/
def digitCount (base cpy : Word) : Nat :=
  if h : cpy ≠ 0 ∧ 2 ≤ base.toInt then digitCount base (cpy.sdiv base) + 1 else 0
termination_by cpy.toInt.natAbs
decreasing_by
  rw [natAbs_sdiv h.2]
  have hcpy : cpy.toInt ≠ 0 := fun hc => h.1 (BitVec.eq_of_toInt_eq hc)
  exact Nat.div_lt_self (by omega) (by omega)

/-- The character of a digit. -/
def digitChar (r : Word) : Byte :=
  (if 9 < r.toInt then (chr 'a').setWidth 32 + r - 10 else (chr '0').setWidth 32 + r).setWidth 8

/-- The loop of `__itoa` that writes digits, by unsigned division. It stops
    when the writer takes nothing. -/
def itoaDigits {σ : Type} (writer : Writer σ) (base : Word) :
    Nat → Word → Word → Word → σ → Word → σ × Word
  | 0, _, _, _, target, wrote => (target, wrote)
  | digits + 1, unsignedI, exp, wr, target, wrote =>
    if wr = 0 then (target, wrote)
    else
      let digit := CString.ofArray [digitChar (unsignedI / exp)] (by simp)
      let r := writer target digit 1
      itoaDigits writer base digits (unsignedI % exp) (exp.sdiv base) r.2 r.1 (wrote + r.2)

/-- `__itoa`. -/
def itoa {σ : Type} (writer : Writer σ) (target : σ) (i base : Word) : σ × Word :=
  let r := if base = SIGNED_BASE ∧ i.toInt < 0 then writer target cNeg 1 else (target, 0)
  let i := if base = SIGNED_BASE ∧ i.toInt < 0 then -i else i
  let digits := if i = 0 then digitCount base i + 1 else digitCount base i
  let r :=
    if i ≠ 0 then itoaDigits writer base digits i (pandosPow base (digits - 1)) 1 r.1 r.2
    else
      let z := writer r.1 (CString.ofArray [chr '0'] (by decide)) 1
      (z.1, r.2 + z.2)
  let e := writer r.1 cEnd 1
  (e.1, r.2 + e.2)

/-- The digit `__bin` finds at a position of its buffer. -/
def binDigit (i : Word) (p : Nat) : Byte :=
  if i.sshiftRight (LEN - p - 1) &&& ~~~((~~~(0 : Word)) <<< 1) ≠ 0 then chr '1' else chr '0'

/-- `__bin`. -/
def bin {σ : Type} (writer : Writer σ) (target : σ) (i : Word) : σ × Word :=
  let buffer := CString.ofArray ((List.range LEN).map (binDigit i)) (by simp [LEN])
  ((writer target buffer (BitVec.ofNat 32 LEN)).1, BitVec.ofNat 32 LEN)

/-- The variable arguments of a call (`va_list`): each of them as a word, and
    the string it points to where it is used as a pointer. -/
structure VaList where
  word : Nat → Word
  string : Nat → CString

/-- The arguments behind the first one. -/
def VaList.next (varg : VaList) : VaList where
  word n := varg.word (n + 1)
  string n := varg.string (n + 1)

/-- The `switch` of `__pandos_printf` on the character behind a percent sign. -/
def printfDirective {σ : Type} (L : Layout) (writer : Writer σ) (target : σ) (c : Byte)
    (varg : VaList) : σ × Word × VaList :=
  if c = chr 's' then
    let r := writer target (varg.string 0) 0
    (r.1, r.2, varg.next)
  else if c = chr 'c' then
    let r := writer target (CString.ofArray [(varg.word 0).setWidth 8] (by simp)) 1
    (r.1, r.2, varg.next)
  else if c = chr 'd' then
    let r := itoa writer target (varg.word 0) 10
    (r.1, r.2, varg.next)
  else if c = chr 'p' then
    if varg.word 0 ≠ L.null then
      let x := writer target (CString.ofArray [chr '0', chr 'x'] (by decide)) 2
      let r := itoa writer x.1 (varg.word 0) 16
      (r.1, x.2 + r.2, varg.next)
    else
      let nil := CString.ofArray [chr '(', chr 'n', chr 'i', chr 'l', chr ')'] (by decide)
      let r := writer target nil 5
      (r.1, r.2, varg.next)
  else if c = chr 'b' then
    let r := bin writer target (varg.word 0)
    (r.1, r.2, varg.next)
  else if c = chr '%' then
    let r := writer target (CString.ofArray [chr '%'] (by decide)) 1
    (r.1, r.2, varg)
  else
    let r := writer target (CString.ofArray [chr '%', c] (by simp)) 2
    (r.1, r.2, varg)

/-- The loop of `__pandos_printf`: what is left of the format when the loop
    ends, the target and the count. The count of the last step is added unless
    it is zero, which ends the loop. -/
def printfLoop {σ : Type} (L : Layout) (writer : Writer σ) :
    List Byte → VaList → σ → Word → Option (List Byte × σ × Word)
  | [], _, _, _ => none
  | c :: fmt, varg, target, wr =>
    if c = 0 then some (c :: fmt, target, wr)
    else if c = chr '%' then
      match fmt with
      | [] => none
      | d :: fmt =>
        let r := printfDirective L writer target d varg
        if r.2.1 = 0 then some (d :: fmt, r.1, wr)
        else printfLoop L writer fmt r.2.2 r.1 (wr + r.2.1)
    else
      let r := writer target (CString.ofArray [c] (by simp)) 1
      if r.2 = 0 then some (c :: fmt, r.1, wr)
      else printfLoop L writer fmt varg r.1 (wr + r.2)

/-- `__pandos_printf`. -/
def pandosPrintf {σ : Type} (L : Layout) (writer : Writer σ) (target : σ) (fmt : CString)
    (varg : VaList) : Option (σ × Word) :=
  match printfLoop L writer (fmt.chars ++ [0]) varg target 0 with
  | none => none
  | some (fmt, target, wr) =>
    if fmt.head? ≠ some 0 then
      let e := writer target cEnd 1
      some (e.1, wr + e.2)
    else some (target, wr)

/-- `nitoa`, on a buffer with the given bytes. -/
def nitoa (i base : Word) (dest : Word → Byte) (len : Word) : (Word → Byte) × Word :=
  let r := itoa strWriter { str := dest, size := len, wrote := 0 } i base
  (r.1.str, r.2)

/-- `pandos_snprintf`, on a buffer with the given bytes. -/
def pandosSnprintf (L : Layout) (dest : Word → Byte) (len : Word) (fmt : CString)
    (varg : VaList) : Option ((Word → Byte) × Word) :=
  (pandosPrintf L strWriter { str := dest, size := len, wrote := 0 } fmt varg).map
    (fun r => (r.1.str, r.2))

end Pandos
