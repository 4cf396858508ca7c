import Mathlib.Logic.Function.Basic

/-!
# Paged Stores

A store whose values lie in a backing store, or in frames some of them have been
brought to. What the store holds is its `view`: the value in the frame, if there
is one, and otherwise the value in the backing store. The operations of a pager
are the ones that move values without changing the view, and a write to a frame
changes the view of one key, as long as no frame is used for two keys.

## Main definitions

* `Paged`: Places, frames and the backing store.
* `Paged.view`: What the store holds.
* `Paged.Exclusive`: No frame is used for two keys.

## Theorems

* `view_write`: Writing to the frame of a key changes the value of this key.
* `view_spare`: Writing to a frame nobody uses changes nothing.
* `view_fill`: Neither does bringing a value to a frame.
* `view_flush`: Neither does writing a value back and giving up its frame.
-/

namespace Pandos

/-- Values in frames over a backing store. -/
structure Paged (κ φ ν : Type*) where
  place : κ → Option φ
  frames : φ → ν
  backing : κ → ν

namespace Paged

variable {κ φ ν : Type*}

/-- What the store holds for a key. -/
def view (p : Paged κ φ ν) (k : κ) : ν :=
  match p.place k with
  | some f => p.frames f
  | none => p.backing k

/-- No frame is used for two keys. -/
def Exclusive (p : Paged κ φ ν) : Prop :=
  ∀ k k' f, p.place k = some f → p.place k' = some f → k = k'

variable {p p' : Paged κ φ ν}

theorem view_placed {k : κ} {f : φ} (h : p.place k = some f) : p.view k = p.frames f := by
  rw [view, h]

theorem view_unplaced {k : κ} (h : p.place k = none) : p.view k = p.backing k := by
  rw [view, h]

/-- The view of a key depends on its place and the value there. -/
theorem view_congr {k : κ} (hplace : p'.place k = p.place k)
    (hframes : ∀ f, p.place k = some f → p'.frames f = p.frames f)
    (hbacking : p.place k = none → p'.backing k = p.backing k) : p'.view k = p.view k := by
  cases h : p.place k with
  | some f => rw [view_placed h, view_placed (hplace.trans h), hframes f h]
  | none => rw [view_unplaced h, view_unplaced (hplace.trans h), hbacking h]

/-- Writing to the frame of a key. -/
theorem view_write [DecidableEq κ] [DecidableEq φ] (hp : p.Exclusive) {k : κ} {f : φ}
    (hk : p.place k = some f) (x : ν) (hplace : p'.place = p.place)
    (hframes : p'.frames = Function.update p.frames f x)
    (hbacking : p'.backing = p.backing) : p'.view = Function.update p.view k x := by
  funext k'
  by_cases hkk : k' = k
  · rw [hkk, Function.update_self, view_placed (hplace ▸ hk), hframes, Function.update_self]
  · rw [Function.update_of_ne hkk]
    refine view_congr (congrFun hplace k') (fun g hg => ?_) (fun _ => by rw [hbacking])
    have hne : g ≠ f := fun hc => hkk (hp k' k f (hc ▸ hg) hk)
    rw [hframes, Function.update_of_ne hne]

/-- Writing to a frame nobody uses. -/
theorem view_spare [DecidableEq φ] {f : φ} {x : ν} (hf : ∀ k, p.place k ≠ some f)
    (hplace : p'.place = p.place) (hframes : p'.frames = Function.update p.frames f x)
    (hbacking : p'.backing = p.backing) : p'.view = p.view := by
  funext k
  refine view_congr (congrFun hplace k) (fun g hg => ?_) (fun _ => by rw [hbacking])
  have hne : g ≠ f := fun hc => hf k (hc ▸ hg)
  rw [hframes, Function.update_of_ne hne]

/-- A value that lies in a frame gets its place there. -/
theorem view_fill [DecidableEq κ] {k : κ} {f : φ} (hk : p.place k = none)
    (hf : p.frames f = p.backing k) (hplace : p'.place = Function.update p.place k (some f))
    (hframes : p'.frames = p.frames) (hbacking : p'.backing = p.backing) : p'.view = p.view := by
  funext k'
  by_cases hkk : k' = k
  · subst hkk
    have hk' : p'.place k' = some f := by
      rw [hplace, Function.update_self]
    rw [view_placed hk', view_unplaced hk, hframes, hf]
  · refine view_congr ?_ (fun g _ => by rw [hframes]) (fun _ => by rw [hbacking])
    rw [hplace, Function.update_of_ne hkk]

/-- A value is written back, and gives up its place. -/
theorem view_flush [DecidableEq κ] {k : κ} {f : φ} (hk : p.place k = some f)
    (hplace : p'.place = Function.update p.place k none) (hframes : p'.frames = p.frames)
    (hbacking : p'.backing = Function.update p.backing k (p.frames f)) : p'.view = p.view := by
  funext k'
  by_cases hkk : k' = k
  · subst hkk
    have hk' : p'.place k' = none := by
      rw [hplace, Function.update_self]
    rw [view_unplaced hk', view_placed hk, hbacking, Function.update_self]
  · refine view_congr ?_ (fun g _ => by rw [hframes]) (fun _ => ?_)
    · rw [hplace, Function.update_of_ne hkk]
    · rw [hbacking, Function.update_of_ne hkk]

end Paged

end Pandos
