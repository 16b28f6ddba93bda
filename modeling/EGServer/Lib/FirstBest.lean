import Mathlib.Order.Lattice
import Mathlib.Tactic.Common

/-!
# The first of the best

A walk over a list that keeps the best seen so far, and changes it only for a better one: it ends
with the first of the best. With the order turned round it is the first of the least.
-/

namespace FirstBest

variable {α κ : Type} [LinearOrder κ] {key : α → κ} {l : List α} {a b e : α}

/-- `e` is better than what comes before it, and nothing behind it is better. -/
def IsFirstBest (key : α → κ) (l : List α) (e : α) : Prop :=
  ∃ front back, l = front ++ e :: back ∧ (∀ b ∈ front, key b < key e) ∧ ∀ b ∈ back, key b ≤ key e

/-- The walk, with the best so far. -/
def scan (key : α → κ) : α → List α → α
  | a, [] => a
  | a, b :: l => if key a < key b then scan key b l else scan key a l

theorem IsFirstBest.mem (h : IsFirstBest key l e) : e ∈ l := by
  obtain ⟨front, back, rfl, -, -⟩ := h
  exact List.mem_append_right front List.mem_cons_self

theorem IsFirstBest.le (h : IsFirstBest key l e) : ∀ b ∈ l, key b ≤ key e := by
  obtain ⟨front, back, rfl, hfront, hback⟩ := h
  grind

/-- In front of the first best comes one that is worse. -/
theorem IsFirstBest.cons_of_lt (h : IsFirstBest key l e) (hlt : key a < key e) :
    IsFirstBest key (a :: l) e := by
  obtain ⟨front, back, rfl, hfront, hback⟩ := h
  exact ⟨a :: front, back, rfl, List.forall_mem_cons.mpr ⟨hlt, hfront⟩, hback⟩

/-- Behind the first of a list comes one that is no better. -/
theorem IsFirstBest.insert_of_le (h : IsFirstBest key (a :: l) e) (hle : key b ≤ key a) :
    IsFirstBest key (a :: b :: l) e := by
  obtain ⟨front, back, hsplit, hfront, hback⟩ := h
  cases front with
  | nil =>
    obtain ⟨rfl, rfl⟩ := List.cons.inj hsplit
    refine ⟨[], b :: l, rfl, hfront, ?_⟩
    intro c hc
    rcases List.mem_cons.mp hc with rfl | hc
    · exact hle
    · exact hback c hc
  | cons c front =>
    obtain ⟨rfl, rfl⟩ := List.cons.inj hsplit
    obtain ⟨hlt, hfront⟩ := List.forall_mem_cons.mp hfront
    refine ⟨a :: b :: front, back, rfl, ?_, hback⟩
    exact List.forall_mem_cons.mpr ⟨hlt, List.forall_mem_cons.mpr ⟨lt_of_le_of_lt hle hlt, hfront⟩⟩

/-- **The walk ends with the first of the best.** -/
theorem scan_isFirstBest (key : α → κ) (a : α) (l : List α) :
    IsFirstBest key (a :: l) (scan key a l) := by
  induction l generalizing a with
  | nil =>
    refine ⟨[], [], rfl, ?_, ?_⟩ <;> exact fun _ hin => by cases hin
  | cons b l ih =>
    rw [scan]
    split
    · next hlt => exact (ih b).cons_of_lt (lt_of_lt_of_le hlt ((ih b).le b List.mem_cons_self))
    · next hle => exact (ih a).insert_of_le (not_lt.mp hle)

/-- There is one first best. -/
theorem IsFirstBest.eq (h : IsFirstBest key l e) (h' : IsFirstBest key l a) : a = e := by
  obtain ⟨front, back, hl, hfront, hback⟩ := h
  obtain ⟨front', back', hl', hfront', hback'⟩ := h'
  rcases List.append_eq_append_iff.mp (hl.symm.trans hl') with ⟨mid, rfl, hmid⟩ | ⟨mid, rfl, hmid⟩
  · cases mid with
    | nil => exact (List.cons.inj hmid).1.symm
    | cons c mid =>
      grind
  · cases mid with
    | nil => exact (List.cons.inj hmid).1
    | cons c mid =>
      grind

end FirstBest
