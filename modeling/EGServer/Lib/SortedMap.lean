import Mathlib.Data.List.Basic
import Mathlib.Data.List.Nodup
import Mathlib.Data.List.TakeWhile

/-!
# Sorted maps

A `std::map` is the list of its nodes, each a key and a value, in the order of the map's
comparator. `lowerBound` cuts the list where the iterator of that name stands: at the first node
whose key is not before the key looked for.
-/

/-- The comparator of a `std::map`: a strict total order. -/
structure IsComparator {κ : Type} (before : κ → κ → Bool) : Prop where
  irrefl : ∀ a, before a a = false
  trans : ∀ {a b c}, before a b = true → before b c = true → before a c = true
  eq_of_not_before : ∀ {a b}, before a b = false → before b a = false → a = b

namespace SortedMap

variable {κ α : Type} {before : κ → κ → Bool} {key : κ} {value : α} {l rest : List (κ × α)}
  {node : κ × α}

def Sorted (before : κ → κ → Bool) (l : List (κ × α)) : Prop :=
  l.Pairwise fun a b => before a.1 b.1 = true

/-- The nodes before `lower_bound(key)`, and those from it on. -/
def lowerBound (before : κ → κ → Bool) (l : List (κ × α)) (key : κ) :
    List (κ × α) × List (κ × α) :=
  (l.takeWhile (before ·.1 key), l.dropWhile (before ·.1 key))

theorem lowerBound_append (before : κ → κ → Bool) (l : List (κ × α)) (key : κ) :
    (lowerBound before l key).1 ++ (lowerBound before l key).2 = l :=
  List.takeWhile_append_dropWhile

theorem Sorted.sublist {l' : List (κ × α)} (h : Sorted before l) (hl : l'.Sublist l) :
    Sorted before l' :=
  List.Pairwise.sublist hl h

/-- Values do not matter for the order. -/
theorem Sorted.of_keys {l' : List (κ × α)} (h : Sorted before l)
    (hl : l'.map Prod.fst = l.map Prod.fst) : Sorted before l' := by
  unfold Sorted at h ⊢
  have hmap : (l.map Prod.fst).Pairwise fun a b => before a b = true :=
    List.pairwise_map.mpr h
  rw [← hl] at hmap
  exact List.pairwise_map.mp hmap

theorem before_of_mem_lowerBound (h : node ∈ (lowerBound before l key).1) :
    before node.1 key = true := by
  have hall := List.all_takeWhile (p := (before ·.1 key)) (l := l)
  rw [List.all_eq_true] at hall
  exact hall node h

theorem not_before_of_lowerBound (h : (lowerBound before l key).2 = node :: rest) :
    before node.1 key = false := by
  unfold lowerBound at h
  induction l with
  | nil => cases h
  | cons a l ih =>
    grind [List.dropWhile_cons]

/-- The node at the lower bound has the key, unless the key is before it. -/
theorem eq_of_lowerBound (hb : IsComparator before)
    (h : (lowerBound before l key).2 = node :: rest) (hk : before key node.1 = false) :
    node.1 = key :=
  hb.eq_of_not_before (not_before_of_lowerBound h) hk

/-- A new node goes to the lower bound of its key. -/
theorem Sorted.insert (hb : IsComparator before) (h : Sorted before l) (key : κ) (value : α)
    (hk : ∀ node rest, (lowerBound before l key).2 = node :: rest → before key node.1 = true) :
    Sorted before ((lowerBound before l key).1 ++ (key, value) :: (lowerBound before l key).2) := by
  have hl := lowerBound_append before l key
  have hs : Sorted before ((lowerBound before l key).1 ++ (lowerBound before l key).2) := by
    rw [hl]
    exact h
  obtain ⟨h₁, h₂, h₁₂⟩ := List.pairwise_append.mp hs
  apply List.pairwise_append.mpr
  refine ⟨h₁, List.pairwise_cons.mpr ⟨?_, h₂⟩, ?_⟩
  · intro b hmem
    show before key b.1 = true
    cases hfrom : (lowerBound before l key).2 with
    | nil =>
      rw [hfrom] at hmem
      cases hmem
    | cons node rest =>
      have hnode := hk node rest hfrom
      rw [hfrom] at hmem h₂
      cases hmem with
      | head => exact hnode
      | tail _ hrest => exact hb.trans hnode ((List.pairwise_cons.mp h₂).1 b hrest)
  · intro a ha b hmem
    grind [before_of_mem_lowerBound]

end SortedMap
