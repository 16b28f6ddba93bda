import Mathlib.Data.List.Rotate
import Mathlib.Tactic.Common

/-!
# Taking turns

Members of a list take turns: after `a` it is the turn of the first one behind `a` that qualifies,
going round the list and ending with `a` itself. As long as the same ones qualify, so many turns as
qualify are a rotation of them, and each has had one turn.
-/

namespace TurnOrder

variable {α : Type} [DecidableEq α] {l : List α} {p : α → Bool} {a b : α}

/-- The members in the order of their turns after `a`; a list that `a` is not in starts over. -/
def behind (l : List α) (a : α) : List α := l.drop (l.idxOf a + 1) ++ l.take (l.idxOf a + 1)

/-- Whose turn it is after `a`. -/
def next (p : α → Bool) (l : List α) (a : α) : Option α := (behind l a).find? p

/-- The turns one after another; without anyone who qualifies it stays the turn of the same. -/
def turns (p : α → Bool) (l : List α) : Nat → α → List α
  | 0, _ => []
  | n + 1, a => (next p l a).getD a :: turns p l n ((next p l a).getD a)

/-! ## The order -/

theorem behind_of_notMem (h : a ∉ l) : behind l a = l := by
  have hle : l.length ≤ l.idxOf a + 1 := by
    rw [List.idxOf_of_notMem h]
    exact Nat.le_succ _
  rw [behind, List.drop_of_length_le hle, List.take_of_length_le hle, List.nil_append]

theorem behind_append {front back : List α} (h : a ∉ front) :
    behind (front ++ a :: back) a = back ++ front ++ [a] := by
  have hidx : (front ++ a :: back).idxOf a = front.length := by
    rw [List.idxOf_append_of_notMem h, List.idxOf_cons_self, Nat.add_zero]
  have hsplit : front ++ a :: back = (front ++ [a]) ++ back := by
    rw [List.append_assoc]
    rfl
  grind [behind]

theorem mem_behind (l : List α) (a b : α) : b ∈ behind l a ↔ b ∈ l := by
  rw [behind, List.mem_append, Or.comm, ← List.mem_append, List.take_append_drop]

theorem next_eq_none : next p l a = none ↔ ∀ b ∈ l, p b = false := by
  rw [next, List.find?_eq_none]
  simp only [mem_behind, Bool.not_eq_true]

theorem next_eq_some (h : next p l a = some b) : b ∈ l ∧ p b = true :=
  ⟨(mem_behind l a b).mp (List.mem_of_find?_eq_some h), List.find?_some h⟩

omit [DecidableEq α] in
/-- In a list without repetitions, `a` is in neither part around it. -/
theorem notMem_parts {front back : List α} (h : (front ++ a :: back).Nodup) :
    a ∉ front ∧ a ∉ back := by
  grind

/-- The first who qualifies behind `a`. -/
theorem next_append {front back : List α} (hnodup : (front ++ a :: back).Nodup) :
    next p (front ++ a :: back) a = (back ++ front ++ [a]).find? p := by
  rw [next, behind_append (notMem_parts hnodup).1]

/-- Only where nobody else qualifies, `a` has two turns running. -/
theorem next_self (hnodup : l.Nodup) (h : next p l a = some a) : ∀ b ∈ l, p b = true → b = a := by
  obtain ⟨front, back, rfl⟩ := List.append_of_mem (next_eq_some h).1
  obtain ⟨hfront, hback⟩ := notMem_parts hnodup
  intro b hb hp
  by_contra hne
  have hin : b ∈ back ++ front := by
    grind
  obtain ⟨c, hc⟩ := Option.isSome_iff_exists.mp (List.find?_isSome.mpr ⟨b, hin, hp⟩)
  grind [next_append]

/-! ## Those who qualify -/

omit [DecidableEq α] in
/-- A rotation that ends with `a` starts behind it. -/
theorem split_of_isRotated {F R : List α} (h : R ++ [a] ~r F) :
    ∃ front back, F = front ++ a :: back ∧ R = back ++ front := by
  obtain ⟨n, hn⟩ := h.symm
  rw [List.rotate_eq_drop_append_take_mod] at hn
  have hF := List.take_append_drop (n % F.length) F
  generalize F.take (n % F.length) = front at hn hF
  generalize F.drop (n % F.length) = back at hn hF
  rcases List.eq_nil_or_concat front with rfl | ⟨front, b, rfl⟩
  · rw [List.append_nil] at hn
    rw [List.nil_append] at hF
    exact ⟨R, [], hF.symm.trans hn, rfl⟩
  · rw [List.concat_eq_append, ← List.append_assoc] at hn
    obtain ⟨hR, hb⟩ := List.append_inj' hn rfl
    grind

/-- Behind one who qualifies the turn goes on among those who do. -/
theorem next_of_filter (hnodup : l.Nodup) {front back : List α}
    (h : l.filter p = front ++ a :: back) : next p l a = (back ++ front ++ [a]).head? := by
  obtain ⟨l₁, l₂, rfl, hl₁, hl₂⟩ := List.filter_eq_append_iff.mp h
  obtain ⟨l₃, l₄, rfl, hl₃, hp, hl₄⟩ := List.filter_eq_cons_iff.mp hl₂
  have hsplit : l₁ ++ (l₃ ++ a :: l₄) = (l₁ ++ l₃) ++ a :: l₄ := (List.append_assoc ..).symm
  grind [next_append]

/-- **Turns go round**: from a rotation that ends with the one who had the last turn, the next
turns are that rotation from its start. -/
theorem turns_of_isRotated (hnodup : l.Nodup) (X Y : List α)
    (h : X ++ Y ~r l.filter p) (hlast : (X ++ Y).getLast? = some a) :
    turns p l X.length a = X := by
  induction X generalizing Y a with
  | nil => rfl
  | cons x X ih =>
    obtain ⟨R, hR⟩ := List.getLast?_eq_some_iff.mp hlast
    obtain ⟨front, back, hfilter, rfl⟩ := split_of_isRotated (hR ▸ h)
    have hnext : next p l a = some x := by
      rw [next_of_filter hnodup hfilter, ← hR]
      rfl
    have hrest : X ++ (Y ++ [x]) ~r l.filter p := by
      refine List.IsRotated.trans ?_ h
      rw [← List.append_assoc]
      exact List.isRotated_append
    rw [List.length_cons, turns, hnext, Option.getD_some]
    refine congrArg (x :: ·) (ih (Y ++ [x]) hrest ?_)
    rw [← List.append_assoc, List.getLast?_concat]

/-- **Fairness.** Whoever had the turn before, so many turns as members qualify are a rotation of
those who qualify. -/
theorem turns_isRotated (hnodup : l.Nodup) (p : α → Bool) (a : α) :
    turns p l (l.filter p).length a ~r l.filter p := by
  cases hnext : next p l a with
  | none =>
    have hnone : l.filter p = [] :=
      List.filter_eq_nil_iff.mpr fun b hb => by
        rw [next_eq_none.mp hnext b hb]
        exact Bool.false_ne_true
    rw [hnone]
    exact List.IsRotated.refl []
  | some b =>
    obtain ⟨hmem, hp⟩ := next_eq_some hnext
    obtain ⟨front, back, hfilter⟩ := List.append_of_mem (List.mem_filter.mpr ⟨hmem, hp⟩)
    have hrotated : (back ++ front) ++ [b] ~r l.filter p := by
      grind [List.isRotated_append]
    have hlength : (l.filter p).length = (back ++ front).length + 1 := by
      rw [← hrotated.perm.length_eq, List.length_append]
      rfl
    have hrun := turns_of_isRotated hnodup (back ++ front) [b] hrotated
      List.getLast?_concat
    rw [hlength, turns, hnext, Option.getD_some, hrun]
    exact List.IsRotated.trans (List.isRotated_append (l := [b])) hrotated

end TurnOrder
