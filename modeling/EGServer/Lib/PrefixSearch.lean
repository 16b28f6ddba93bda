import Mathlib.Data.List.Lex
import Mathlib.Order.RelClasses
import Mathlib.Tactic

/-!
# Searching for a prefix in a sorted list

Records sorted by a key that is a list, in the lexicographic order. The records whose key starts
with a given prefix are contiguous, they begin at the lower bound of the prefix, and the one
whose key is the prefix itself is the first of them. A record is inserted at its place.
-/

namespace PrefixSearch

variable {α κ : Type} [LinearOrder κ]

theorem cons_le_cons_iff {x y : κ} {a b : List κ} :
    x :: a ≤ y :: b ↔ x < y ∨ x = y ∧ a ≤ b := by
  rw [le_iff_lt_or_eq, List.cons_lt_cons_iff, le_iff_lt_or_eq, List.cons.injEq]
  grind

/-- A prefix is not greater. -/
theorem le_of_isPrefix {t a : List κ} (h : t <+: a) : t ≤ a := by
  induction t generalizing a with
  | nil => exact not_lt.mp (List.not_lt_nil a)
  | cons x t ih =>
    cases a with
    | nil => exact absurd (List.prefix_nil.mp h) (List.cons_ne_nil x t)
    | cons y a =>
      obtain ⟨rfl, htail⟩ := List.cons_prefix_cons.mp h
      exact cons_le_cons_iff.mpr (Or.inr ⟨rfl, ih htail⟩)

/-- What lies between a prefix and a list that starts with it starts with it too. -/
theorem isPrefix_of_between {t a b : List κ} (hta : t ≤ a) (hab : a ≤ b) (h : t <+: b) :
    t <+: a := by
  induction t generalizing a b with
  | nil => exact List.nil_prefix
  | cons x t ih =>
    cases b with
    | nil => exact absurd (List.prefix_nil.mp h) (List.cons_ne_nil x t)
    | cons z b =>
      obtain ⟨rfl, htail⟩ := List.cons_prefix_cons.mp h
      cases a with
      | nil =>
        rw [← not_lt] at hta
        exact absurd (List.nil_lt_cons x t) hta
      | cons y a =>
        rw [cons_le_cons_iff] at hta hab
        grind

variable {key : α → List κ} {t : List κ} {l : List α}

/-- Sorted by the key, no two keys being equal. -/
def Sorted (key : α → List κ) (l : List α) : Prop := l.Pairwise fun a b => key a < key b

/-- Where the records that are less than the prefix have been left behind, those that start
with it come first. -/
theorem filter_eq_takeWhile (hl : Sorted key l) (ht : ∀ a ∈ l, t ≤ key a) :
    (l.filter fun a => decide (t <+: key a)) = l.takeWhile fun a => decide (t <+: key a) := by
  induction l with
  | nil => rfl
  | cons a l ih =>
    obtain ⟨hhead, htail⟩ := List.pairwise_cons.mp hl
    have hrest := ih htail fun b hb => ht b (List.mem_cons_of_mem _ hb)
    by_cases ha : t <+: key a
    · grind [List.takeWhile_cons_of_pos]
    · -- a later record would make this one start with the prefix as well
      rw [List.filter_cons_of_neg (by simpa using ha), List.takeWhile_cons_of_neg (by simpa using ha)]
      apply List.filter_eq_nil_iff.mpr
      intro b hb hpre
      apply ha
      exact isPrefix_of_between (ht a List.mem_cons_self) (hhead b hb).le (by simpa using hpre)

/-- **The search.** From the lower bound of the prefix on, up to the first record that does
not start with it. -/
theorem filter_eq (hl : Sorted key l) : (l.filter fun a => decide (t <+: key a)) =
    (l.dropWhile fun a => decide (key a < t)).takeWhile fun a => decide (t <+: key a) := by
  induction l with
  | nil => rfl
  | cons a l ih =>
    obtain ⟨hhead, htail⟩ := List.pairwise_cons.mp hl
    by_cases ha : key a < t
    · have hnot : ¬ t <+: key a := by
        intro hpre
        exact absurd ha (not_lt.mpr (le_of_isPrefix hpre))
      rw [List.filter_cons_of_neg (by simpa using hnot), List.dropWhile_cons_of_pos (by simpa using ha)]
      exact ih htail
    · rw [List.dropWhile_cons_of_neg (by simpa using ha)]
      apply filter_eq_takeWhile hl
      grind

/-- Among records that start with the prefix, the one that is the prefix is the first. -/
theorem eq_head_of_key_eq {a b : α} {rest : List α} (hl : Sorted key (a :: rest))
    (hpre : t <+: key a) (hb : b ∈ a :: rest) (hkey : key b = t) : b = a := by
  rcases List.mem_cons.mp hb with rfl | hb
  · rfl
  · have hlt := (List.pairwise_cons.mp hl).1 b hb
    rw [hkey] at hlt
    exact absurd hlt (not_lt.mpr (le_of_isPrefix hpre))

/-- The sorted records have different keys. -/
theorem eq_of_key_eq {a b : α} (hl : Sorted key l) (ha : a ∈ l) (hb : b ∈ l)
    (h : key a = key b) : a = b := by
  have hnodup : (l.map key).Nodup := List.pairwise_map.mpr (hl.imp fun h => ne_of_lt h)
  exact List.inj_on_of_nodup_map hnodup ha hb h

/-! ## Inserting -/

/-- A new record at its place, or a change to the record that is there already. -/
def upsert (before : α → α → Bool) (new : α) (change : α → α) : List α → List α
  | [] => [new]
  | a :: l =>
    if before a new then a :: upsert before new change l
    else if before new a then new :: a :: l
    else change a :: l

section

variable {before : α → α → Bool} {new : α} {change : α → α}
  (hbefore : ∀ a b, before a b = true ↔ key a < key b)

include hbefore

/-- **The records after an insertion**: the others, and the new one or the changed one. -/
theorem mem_upsert {b : α} (hl : Sorted key l) : b ∈ upsert before new change l ↔
    b ∈ l ∧ key b ≠ key new ∨ b = new ∧ (∀ a ∈ l, key a ≠ key new) ∨
      ∃ a ∈ l, key a = key new ∧ b = change a := by
  induction l with
  | nil => simp [upsert]
  | cons a l ih =>
    obtain ⟨hhead, htail⟩ := List.pairwise_cons.mp hl
    rw [upsert]
    by_cases hlt : key a < key new
    · have hne : key a ≠ key new := ne_of_lt hlt
      rw [if_pos ((hbefore a new).mpr hlt), List.mem_cons, ih htail]
      grind
    · rw [if_neg fun h => hlt ((hbefore a new).mp h)]
      by_cases hgt : key new < key a
      · -- all that follow are greater as well
        grind
      · grind

theorem Sorted.upsert (hl : Sorted key l) (hchange : ∀ a, key (change a) = key a) :
    Sorted key (upsert before new change l) := by
  induction l with
  | nil => exact List.pairwise_singleton _ new
  | cons a l ih =>
    obtain ⟨hhead, htail⟩ := List.pairwise_cons.mp hl
    rw [PrefixSearch.upsert]
    split
    · rename_i hlt
      refine List.pairwise_cons.mpr ⟨?_, ih htail⟩
      intro b hb
      rcases (mem_upsert hbefore htail).mp hb with ⟨hb, -⟩ | ⟨rfl, -⟩ | ⟨c, hc, -, rfl⟩
      · exact hhead b hb
      · exact (hbefore a b).mp hlt
      · rw [hchange]
        exact hhead c hc
    · split
      · rename_i hgt
        refine List.pairwise_cons.mpr ⟨?_, hl⟩
        grind
      · refine List.pairwise_cons.mpr ⟨?_, htail⟩
        intro b hb
        rw [hchange]
        exact hhead b hb

end

end PrefixSearch
