import Mathlib.Data.List.Nodup
import Mathlib.Logic.Function.Basic
import Mathlib.Tactic.Common

/-!
# Slots

Places that hold one thing or nothing, read as a list over the places: filling a free place adds one
thing to the list, and clearing a place takes its thing off.
-/

namespace Slots

variable {ι α : Type} {f : ι → Option α} {l : List ι} {a b : ι} {x : α}

/-- What is in the places of `l`. -/
def held (l : List ι) (f : ι → Option α) : List α := l.filterMap f

theorem mem_held : x ∈ held l f ↔ ∃ a ∈ l, f a = some x := List.mem_filterMap

/-- With a free place there is less than there are places. -/
theorem length_held_lt (ha : a ∈ l) (hf : f a = none) : (held l f).length < l.length := by
  induction l with
  | nil => cases ha
  | cons b l ih =>
    rcases List.mem_cons.mp ha with rfl | ha
    · rw [held, List.filterMap_cons_none hf]
      exact Nat.lt_succ_of_le (List.length_filterMap_le f l)
    · grind [held]

theorem length_held_full (h : ∀ a ∈ l, (f a).isSome = true) : (held l f).length = l.length := by
  induction l with
  | nil => rfl
  | cons b l ih =>
    obtain ⟨hb, hl⟩ := List.forall_mem_cons.mp h
    obtain ⟨y, hy⟩ := Option.isSome_iff_exists.mp hb
    rw [held, List.filterMap_cons_some hy, List.length_cons, List.length_cons]
    exact congrArg Nat.succ (ih hl)

/-- When all is held once, a thing is in one place. -/
theorem place_unique (hnodup : (held l f).Nodup) (ha : a ∈ l) (hb : b ∈ l) (hfa : f a = some x)
    (hfb : f b = some x) : a = b := by
  induction l with
  | nil => cases ha
  | cons c l ih =>
    grind [held]

variable [DecidableEq ι]

theorem held_update_of_notMem (ha : a ∉ l) (o : Option α) :
    held l (Function.update f a o) = held l f := by
  apply List.filterMap_congr
  intro b hb
  have hne : b ≠ a := by
    rintro rfl
    exact ha hb
  rw [Function.update_of_ne hne]

/-- **Filling a free place.** -/
theorem held_fill (hnodup : l.Nodup) (ha : a ∈ l) (hf : f a = none) (x : α) :
    (held l (Function.update f a (some x))).Perm (x :: held l f) := by
  obtain ⟨front, back, rfl⟩ := List.append_of_mem ha
  have hnot := (List.nodup_cons.mp (List.nodup_middle.mp hnodup)).1
  rw [List.mem_append, not_or] at hnot
  have hfront := held_update_of_notMem (f := f) hnot.1 (some x)
  have hbehind := held_update_of_notMem (f := f) hnot.2 (some x)
  grind [List.perm_middle, held]

/-- **Clearing a place.** -/
theorem held_clear (hnodup : l.Nodup) (ha : a ∈ l) (hf : f a = some x) :
    (held l f).Perm (x :: held l (Function.update f a none)) := by
  have hfill := held_fill (f := Function.update f a none) hnodup ha (Function.update_self a none f) x
  rw [Function.update_idem, ← hf, Function.update_eq_self] at hfill
  exact hfill

end Slots
