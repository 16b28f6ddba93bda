import Mathlib.Algebra.BigOperators.Group.Finset.Basic
import Mathlib.Algebra.Order.BigOperators.Group.Finset
import Mathlib.Data.Finset.Card
import Mathlib.Data.Fintype.Basic

/-!
# Assignments under capacities

Every agent of a finite set is given one task it is able to do, and no task is given to
more agents than its capacity. An assignment of a set is one of each of its subsets, and a
set that fills every capacity satisfies the counting conditions of Hall's theorem: enough
agents for each set of tasks. Those conditions are what a search may prune by.
-/

namespace Assignment

variable {ι ρ : Type} [DecidableEq ρ]

/-- `f` gives every agent of `s` a task it can do, within the capacities. -/
structure Assigns (able : ι → ρ → Prop) (cap : ρ → ℕ) (s : Finset ι) (f : ι → ρ) : Prop where
  able : ∀ i ∈ s, able i (f i)
  fits : ∀ k, (s.filter (f · = k)).card ≤ cap k

/-- The agents of `s` can be assigned. -/
def Assignable (able : ι → ρ → Prop) (cap : ρ → ℕ) (s : Finset ι) : Prop :=
  ∃ f, Assigns able cap s f

variable {able able' : ι → ρ → Prop} {cap : ρ → ℕ} {s t : Finset ι} {f : ι → ρ}

theorem Assigns.subset (h : Assigns able cap s f) (hts : t ⊆ s) : Assigns able cap t f where
  able i hi := h.able i (hts hi)
  fits k := (Finset.card_le_card (Finset.filter_subset_filter _ hts)).trans (h.fits k)

/-- **Downward closure.** Fewer agents are easier to assign. -/
theorem Assignable.subset (h : Assignable able cap s) (hts : t ⊆ s) : Assignable able cap t := by
  obtain ⟨f, hf⟩ := h
  exact ⟨f, hf.subset hts⟩

/-- Only the abilities of the agents at hand matter. -/
theorem Assigns.congr (h : Assigns able cap s f) (hab : ∀ i ∈ s, able i (f i) → able' i (f i)) :
    Assigns able' cap s f where
  able i hi := hab i hi (h.able i hi)
  fits := h.fits

variable [Fintype ρ]

theorem card_eq_sum_fibres (s : Finset ι) (f : ι → ρ) :
    s.card = ∑ k, (s.filter (f · = k)).card :=
  Finset.card_eq_sum_card_fiberwise fun _ _ => Finset.mem_univ _

theorem Assigns.card_le (h : Assigns able cap s f) : s.card ≤ ∑ k, cap k := by
  rw [card_eq_sum_fibres s f]
  exact Finset.sum_le_sum fun k _ => h.fits k

/-- A set as large as all capacities together fills each of them. -/
theorem Assigns.fills (h : Assigns able cap s f) (hs : s.card = ∑ k, cap k) (k : ρ) :
    (s.filter (f · = k)).card = cap k := by
  have hsum : ∑ k, (s.filter (f · = k)).card = ∑ k, cap k := by
    rw [← card_eq_sum_fibres s f, hs]
  exact (Finset.sum_eq_sum_iff_of_le fun k _ => h.fits k).mp hsum k (Finset.mem_univ k)

/-- **Hall's condition.** The agents able to do one of the tasks of `R` are at least as many
as `R` needs. -/
theorem Assigns.hall [∀ i k, Decidable (able i k)] (h : Assigns able cap s f)
    (hs : s.card = ∑ k, cap k) (R : Finset ρ) :
    ∑ k ∈ R, cap k ≤ (s.filter fun i => ∃ k ∈ R, able i k).card := by
  calc ∑ k ∈ R, cap k = ∑ k ∈ R, (s.filter (f · = k)).card :=
        Finset.sum_congr rfl fun k _ => (h.fills hs k).symm
    _ = (s.filter (f · ∈ R)).card := by
        rw [Finset.card_eq_sum_card_fiberwise (f := f) (t := R) (s := s.filter (f · ∈ R))]
        · refine Finset.sum_congr rfl fun k hk => ?_
          congr 1
          grind
        · intro i hi
          exact (Finset.mem_filter.mp hi).2
    _ ≤ (s.filter fun i => ∃ k ∈ R, able i k).card := by
        apply Finset.card_le_card
        intro i hi
        rw [Finset.mem_filter] at hi ⊢
        exact ⟨hi.1, f i, hi.2, h.able i hi.1⟩

end Assignment
