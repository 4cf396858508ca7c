import Pandos.Arch
import Pandos.Lists

/-!
# Semaphore Descriptors in Memory

The search of `os/src/asl.c` over descriptors and `list_head` cells that point at
each other, for pointers of any width: 32 bits on the target, 64 bits in the
build for the tests. The other modules look at the lists and the keys of the
target only. The address of `NULL` is not the same in both builds either, and may
be one where no `int` can lie.

`find_semd` puts a descriptor with the wanted key on its stack and compares it
with the ones in the list. A sentinel is no descriptor, and reading its key is an
error.

## Main definitions

* `IntPtr`, `IntPtr.sub`: Pointers to `int`s, and their difference.
* `SemdCell`: The `list_head` cells.
* `SemdHeap`: The pointers and the keys.
* `SemdHeap.keyCmp`, `SemdHeap.findSemd`: The search.
-/

namespace Pandos

/-! ## Pointers -/

/-- An `int *` of `w` bits. An `int` is four bytes long and lies at a multiple of
    its size. -/
@[ext]
structure IntPtr (w : Nat) where
  addr : BitVec w
  aligned : addr.toNat % 4 = 0
  deriving DecidableEq

namespace IntPtr

variable {w : Nat}

/-- The difference of two pointers: the number of `int`s between them, a
    `ptrdiff_t`. -/
def sub (p q : IntPtr w) : BitVec w := (p.addr - q.addr).sshiftRight 2

end IntPtr

/-! ## Descriptors -/

/-- The `list_head` cells: the sentinels, the field `s_link` of each descriptor,
    and the one of the descriptor on the stack of `find_semd`. -/
inductive SemdCell (ι δ : Type)
  | head (h : ι)
  | sLink (d : δ)
  | dummy
  deriving DecidableEq

/-- The memory `find_semd` works on, and the address of `NULL` in the build. -/
structure SemdHeap (w : Nat) (ι δ : Type) where
  null : BitVec w
  links : Links (SemdCell ι δ)
  sKey : δ → IntPtr w

namespace SemdHeap

variable {w : Nat} {ι δ : Type} [DecidableEq ι] [DecidableEq δ]

/-- `container_of` for the field `s_link`, of the descriptors outside the
    stack. -/
def containerOf : Option (SemdCell ι δ) → Option δ
  | some (.sLink d) => some d
  | _ => none

/-- The key of the descriptor around a cell. The one on the stack has the key
    `find_semd` looks for. -/
def keyAt (m : SemdHeap w ι δ) (semAddr : IntPtr w) : Option (SemdCell ι δ) → Option (IntPtr w)
  | some (.sLink d) => some (m.sKey d)
  | some .dummy => some semAddr
  | _ => none

/-- `key_cmp`: the difference of the keys, narrowed to an `int`. -/
def keyCmp (m : SemdHeap w ι δ) (semAddr : IntPtr w) (first second : Option (SemdCell ι δ)) :
    Option Word := do
  let p ← m.keyAt semAddr first
  let q ← m.keyAt semAddr second
  return (p.sub q).signExtend 32

/-- `find_semd`. -/
def findSemd (rounds : Nat) (m : SemdHeap w ι δ) (list : Option (SemdCell ι δ))
    (semAddr : IntPtr w) : Option (Option δ) :=
  match list with
  | none => some none
  | some list =>
    if semAddr.addr = m.null then some none
    else do
      let item ← m.links.listSearch rounds (some .dummy) (some list)
        (fun first second => m.keyCmp semAddr first second != some 0)
      return containerOf item

end SemdHeap

end Pandos
