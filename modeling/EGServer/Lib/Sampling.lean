import Mathlib.Data.List.Basic
import Mathlib.Data.List.Nodup
import Mathlib.Data.List.Perm.Basic

/-!
# Drawing from a list

Random choices out of a list, as functions of the numbers that are drawn: selection sampling,
which walks through the list once and keeps each element with the chance that makes every
choice equally likely, and the removal of one element by moving the last one into its place.

What is said here holds for any numbers drawn, so it holds for any generator.
-/

namespace Sampling

variable {α : Type}

/-- The numbers that are left after the first `n`. -/
def skip (draw : Nat → Nat) (n : Nat) : Nat → Nat := fun i => draw (n + i)

/-- A number between `lo` and `hi`, both included, when there is one. -/
def between (draw : Nat → Nat) (lo hi : Nat) : Nat := lo + draw 0 % (hi - lo + 1)

theorem between_le (draw : Nat → Nat) {lo hi : Nat} (h : lo ≤ hi) : between draw lo hi ≤ hi := by
  have hmod : draw 0 % (hi - lo + 1) < hi - lo + 1 := Nat.mod_lt _ (Nat.succ_pos _)
  unfold between
  omega

/-! ## Selection sampling -/

/-- Keeps `n` of the elements; one number is drawn for each element of the list. -/
def select (draw : Nat → Nat) : Nat → List α → List α
  | _, [] => []
  | n, x :: rest =>
    if between draw 1 (rest.length + 1) ≤ n then x :: select (skip draw 1) (n - 1) rest
    else select (skip draw 1) n rest

theorem select_sublist (draw : Nat → Nat) (n : Nat) (l : List α) :
    (select draw n l).Sublist l := by
  induction l generalizing draw n with
  | nil => exact List.Sublist.refl _
  | cons x rest ih =>
    rw [select]
    split
    · exact (ih _ _).cons_cons x
    · exact (ih _ _).cons x

/-- An element is passed over only while more are left than have to be kept, so as many are
kept as were asked for. -/
theorem length_select (draw : Nat → Nat) (n : Nat) (l : List α) :
    (select draw n l).length = min n l.length := by
  induction l generalizing draw n with
  | nil => simp [select]
  | cons x rest ih =>
    have hle := between_le draw (Nat.le_add_left 1 rest.length)
    have hpos : 1 ≤ between draw 1 (rest.length + 1) := Nat.le_add_right _ _
    grind [select]

/-! ## Taking one element out -/

/-- The element at `i` is overwritten by the last one, which is then dropped. -/
def swapPop (l : List α) (i : Nat) : List α :=
  match l.getLast? with
  | none => []
  | some last => (l.set i last).dropLast

theorem set_perm {l : List α} {i : Nat} {a : α} (hi : l[i]? = some a) (b : α) :
    (b :: l).Perm (a :: l.set i b) := by
  induction l generalizing i with
  | nil => simp at hi
  | cons x rest ih =>
    cases i with
    | zero =>
      obtain rfl : x = a := by simpa using hi
      exact List.Perm.swap _ _ _
    | succ i =>
      rw [List.getElem?_cons_succ] at hi
      calc (b :: x :: rest).Perm (x :: b :: rest) := List.Perm.swap _ _ _
        (x :: b :: rest).Perm (x :: a :: rest.set i b) := (ih hi).cons x
        (x :: a :: rest.set i b).Perm (a :: x :: rest.set i b) := List.Perm.swap _ _ _

theorem swapPop_perm {l : List α} {i : Nat} {a : α} (hi : l[i]? = some a) :
    l.Perm (a :: swapPop l i) := by
  rcases List.eq_nil_or_concat l with rfl | ⟨front, last, rfl⟩
  · simp at hi
  · rw [List.concat_eq_append] at hi ⊢
    rw [swapPop, List.getLast?_concat]
    show (front ++ [last]).Perm (a :: ((front ++ [last]).set i last).dropLast)
    by_cases hfront : i < front.length
    · rw [List.getElem?_append_left hfront] at hi
      rw [List.set_append_left _ _ hfront, List.dropLast_concat]
      exact (List.perm_append_singleton last front).trans (set_perm hi last)
    · -- the element is the last one itself
      have hlast : i = front.length := by
        grind
      subst hlast
      obtain rfl : last = a := by simpa using hi
      rw [List.set_append_right _ _ (Nat.le_refl _), Nat.sub_self, List.set_cons_zero,
        List.dropLast_concat]
      exact List.perm_append_singleton last front

end Sampling
