import Mathlib.Data.List.Sort
import Mathlib.Order.Basic

/-!
# A multimap as a stable queue

`std::multimap` keeps its pairs in the order of their keys and inserts a pair behind those with an
equal key. `Files l m` says that `m` is what results from a list `l` of pairs inserted one after
another, without the insertions: `m` is sorted, and the pairs of one key stand in it as in `l`. So a
multimap is a queue of what has been inserted, ordered by key and then by time of insertion.
-/

variable {K V W : Type} [LinearOrder K]

/-- `std::multimap<K, V>` -/
structure Multimap (K V : Type) [LinearOrder K] where
  toList : List (K × V)
  sorted : toList.Pairwise fun a b => a.1 ≤ b.1

/-- Insertion at the upper bound. -/
def insertUpper (e : K × V) : List (K × V) → List (K × V)
  | [] => [e]
  | a :: l => if e.1 < a.1 then e :: a :: l else a :: insertUpper e l

theorem insertUpper_perm (e : K × V) (l : List (K × V)) : (insertUpper e l).Perm (e :: l) := by
  induction l with
  | nil => exact .refl _
  | cons a l ih =>
    rw [insertUpper]
    split
    · exact .refl _
    · exact (ih.cons a).trans (.swap e a l)

theorem insertUpper_sorted (e : K × V) {l : List (K × V)} (h : l.Pairwise fun a b => a.1 ≤ b.1) :
    (insertUpper e l).Pairwise fun a b => a.1 ≤ b.1 := by
  induction l with
  | nil => exact List.pairwise_singleton _ _
  | cons a l ih =>
    obtain ⟨ha, hl⟩ := List.pairwise_cons.mp h
    rw [insertUpper]
    split
    · grind
    · rename_i hle
      refine List.pairwise_cons.mpr ⟨?_, ih hl⟩
      intro b hb
      rcases List.mem_cons.mp ((insertUpper_perm e l).mem_iff.mp hb) with rfl | hb
      · exact not_lt.mp hle
      · exact ha b hb

/-- A pair goes behind everything up to its key. -/
theorem insertUpper_append {e : K × V} {a b : List (K × V)} (h : ∀ x ∈ a, x.1 ≤ e.1) :
    insertUpper e (a ++ b) = a ++ insertUpper e b := by
  induction a with
  | nil => rfl
  | cons x a ih =>
    rw [List.cons_append, insertUpper, if_neg (not_lt.mpr (h x List.mem_cons_self)),
      ih fun y hy => h y (List.mem_cons_of_mem _ hy), List.cons_append]

theorem map_insertUpper (f : K × V → K × W) (hf : ∀ e, (f e).1 = e.1) (e : K × V)
    (l : List (K × V)) : (insertUpper e l).map f = insertUpper (f e) (l.map f) := by
  induction l with
  | nil => rfl
  | cons a l ih =>
    rw [insertUpper, List.map_cons, insertUpper, hf, hf]
    split
    · rfl
    · rw [List.map_cons, ih]

theorem filter_insertUpper_of_not {p : K × V → Bool} {e : K × V} (he : p e = false)
    (l : List (K × V)) : (insertUpper e l).filter p = l.filter p := by
  have hneg (l : List (K × V)) : (e :: l).filter p = l.filter p :=
    List.filter_cons_of_neg (by rw [he]; decide)
  induction l with
  | nil => exact hneg []
  | cons a l ih =>
    rw [insertUpper]
    split
    · exact hneg (a :: l)
    · rw [List.filter_cons, List.filter_cons, ih]

/-- Among the pairs of its key, a pair is inserted last. -/
theorem filter_insertUpper (e : K × V) {l : List (K × V)} (h : l.Pairwise fun a b => a.1 ≤ b.1)
    (k : K) : (insertUpper e l).filter (·.1 = k) = (l ++ [e]).filter (·.1 = k) := by
  induction l with
  | nil => rfl
  | cons a l ih =>
    obtain ⟨ha, hl⟩ := List.pairwise_cons.mp h
    rw [insertUpper]
    split
    · rename_i hlt
      -- nothing behind `e` has its key
      have hnone (hk : e.1 = k) : (a :: l).filter (·.1 = k) = [] := by
        rw [List.filter_eq_nil_iff]
        grind
      grind
    · grind

/-- `m` holds what was inserted in the order of `l`, as a multimap orders it. -/
structure Files (l m : List (K × V)) : Prop where
  sorted : m.Pairwise fun a b => a.1 ≤ b.1
  stable : ∀ k, m.filter (·.1 = k) = l.filter (·.1 = k)

namespace Files

variable {l l' m m' a : List (K × V)}

theorem nil : Files ([] : List (K × V)) [] := ⟨.nil, fun _ => rfl⟩

/-- A sorted list with the pairs of each key in a given order is the only one. -/
theorem unique (h : Files l m) (h' : Files l m') : m = m' := by
  obtain ⟨hm, hkey⟩ := h
  obtain ⟨hm', hkey'⟩ := h'
  have hfilter (k : K) : m.filter (·.1 = k) = m'.filter (·.1 = k) := by rw [hkey, hkey']
  clear hkey hkey'
  induction m generalizing m' with
  | nil =>
    cases m' with
    | nil => rfl
    | cons b m' =>
      have hb := hfilter b.1
      rw [List.filter_nil, List.filter_cons_of_pos (by simp)] at hb
      cases hb
  | cons x m ih =>
    cases m' with
    | nil =>
      have hx := hfilter x.1
      rw [List.filter_nil, List.filter_cons_of_pos (by simp)] at hx
      cases hx
    | cons y m' =>
      obtain ⟨hx, htail⟩ := List.pairwise_cons.mp hm
      obtain ⟨hy, htail'⟩ := List.pairwise_cons.mp hm'
      -- both heads have the least key
      have hmem (z : K × V) : z ∈ x :: m ↔ z ∈ y :: m' := by
        have hz := congrArg (z ∈ ·) (hfilter z.1)
        simpa using hz
      have hxy : x.1 = y.1 := by
        grind
      have hhead := hfilter x.1
      rw [List.filter_cons_of_pos (by simp), List.filter_cons_of_pos (by simpa using hxy.symm)]
        at hhead
      obtain ⟨rfl, -⟩ := List.cons.inj hhead
      congr 1
      refine ih htail htail' ?_
      intro k
      have hk := hfilter k
      grind

/-- Only the order among the pairs of each key matters in `l`. -/
theorem congr (h : Files l m) (hl : ∀ k, l.filter (·.1 = k) = l'.filter (·.1 = k)) :
    Files l' m := ⟨h.sorted, fun k => (h.stable k).trans (hl k)⟩

theorem of_sorted (h : m.Pairwise fun a b => a.1 ≤ b.1) : Files m m := ⟨h, fun _ => rfl⟩

theorem mem_iff (h : Files l m) (e : K × V) : e ∈ m ↔ e ∈ l := by
  have he := congrArg (e ∈ ·) (h.stable e.1)
  simpa using he

theorem insert (h : Files l m) (e : K × V) : Files (l ++ [e]) (insertUpper e m) := by
  refine ⟨insertUpper_sorted e h.sorted, ?_⟩
  intro k
  rw [filter_insertUpper e h.sorted, List.filter_append, h.stable, ← List.filter_append]

/-- A range inserted one after another. -/
theorem insertAll (h : Files l m) (es : List (K × V)) :
    Files (l ++ es) (es.foldl (fun m e => insertUpper e m) m) := by
  induction es generalizing l m with
  | nil =>
    rw [List.append_nil]
    exact h
  | cons e es ih =>
    rw [List.append_cons]
    exact ih (h.insert e)

theorem filter (h : Files l m) (p : K × V → Bool) : Files (l.filter p) (m.filter p) := by
  refine ⟨h.sorted.filter p, ?_⟩
  intro k
  rw [List.filter_filter, List.filter_filter]
  have hcomm (x : List (K × V)) : x.filter (fun a => decide (a.1 = k) && p a) =
      (x.filter (·.1 = k)).filter p := by
    rw [List.filter_filter]
    congr 1
    funext a
    rw [Bool.and_comm]
  rw [hcomm, hcomm, h.stable]

/-- All keys moved alike. -/
theorem mapKey (h : Files l m) {f : K → K} (hf : StrictMono f) :
    Files (l.map fun e => (f e.1, e.2)) (m.map fun e => (f e.1, e.2)) := by
  refine ⟨?_, ?_⟩
  · rw [List.pairwise_map]
    exact h.sorted.imp fun hab => hf.monotone hab
  · intro k
    rw [List.filter_map, List.filter_map]
    -- the pairs of key `k` are those of one key before, or none
    by_cases hk : ∃ j, f j = k
    · obtain ⟨j, rfl⟩ := hk
      have hcomp : ((fun e : K × V => decide (e.1 = f j)) ∘ fun e : K × V => (f e.1, e.2)) =
          fun e : K × V => decide (e.1 = j) := by
        funext e
        simp only [Function.comp_apply, hf.injective.eq_iff]
      rw [hcomp, h.stable]
    · have hcomp : ((fun e : K × V => decide (e.1 = k)) ∘ fun e : K × V => (f e.1, e.2)) =
          fun _ => false := by
        funext e
        exact decide_eq_false fun he => hk ⟨e.1, he⟩
      rw [hcomp, List.filter_false, List.filter_false]

/-- The values read differently. -/
theorem mapValue (h : Files l m) (g : V → W) :
    Files (l.map fun e => (e.1, g e.2)) (m.map fun e => (e.1, g e.2)) := by
  refine ⟨?_, ?_⟩
  · rw [List.pairwise_map]
    exact h.sorted
  · intro k
    rw [List.filter_map, List.filter_map]
    exact congrArg (List.map fun e : K × V => (e.1, g e.2)) (h.stable k)

theorem perm [DecidableEq V] (h : Files l m) : m.Perm l := by
  rw [List.perm_iff_count]
  intro e
  have he := congrArg (List.count e) (h.stable e.1)
  rwa [List.count_filter (by simp), List.count_filter (by simp)] at he

/-- A pair taken out. -/
theorem erase [DecidableEq V] (h : Files l m) (e : K × V) : Files (l.erase e) (m.erase e) := by
  refine ⟨h.sorted.sublist List.erase_sublist, ?_⟩
  intro k
  rw [← List.erase_filter, ← List.erase_filter, h.stable]

/-- The first pair taken out. -/
theorem tail [DecidableEq V] {e : K × V} (h : Files l (e :: m)) : Files (l.erase e) m := by
  have herase := h.erase e
  rwa [List.erase_cons_head] at herase

/-- The first pairs taken out. -/
theorem drop [DecidableEq V] (h : Files l (a ++ m)) : Files (l.diff a) m := by
  induction a generalizing l with
  | nil =>
    rw [List.diff_nil]
    exact h
  | cons e a ih =>
    rw [List.diff_cons]
    exact ih h.tail

end Files

/-- The pairs of `l` in the order of their keys, those of one key as in `l`. -/
def stableOrder (l : List (K × V)) : List (K × V) := l.mergeSort fun a b => a.1 ≤ b.1

theorem files_stableOrder [DecidableEq V] (l : List (K × V)) : Files l (stableOrder l) := by
  have hle : ∀ a b c : K × V, decide (a.1 ≤ b.1) = true → decide (b.1 ≤ c.1) = true →
      decide (a.1 ≤ c.1) = true := by
    intro a b c hab hbc
    exact decide_eq_true ((of_decide_eq_true hab).trans (of_decide_eq_true hbc))
  have htotal : ∀ a b : K × V, (decide (a.1 ≤ b.1) || decide (b.1 ≤ a.1)) = true := by
    grind
  refine ⟨?_, ?_⟩
  · exact (List.pairwise_mergeSort hle htotal l).imp fun hab => of_decide_eq_true hab
  · intro k
    have hsub : (l.filter (·.1 = k)).Sublist (stableOrder l) := by
      refine List.sublist_mergeSort hle htotal ?_ List.filter_sublist
      refine List.pairwise_of_forall_mem_list ?_
      grind
    have hfilter := hsub.filter (·.1 = k)
    rw [List.filter_filter] at hfilter
    simp only [Bool.and_self] at hfilter
    refine (hfilter.eq_of_length ?_).symm
    exact ((List.mergeSort_perm l _).filter _).length_eq.symm

theorem Files.eq_stableOrder [DecidableEq V] {l m : List (K × V)} (h : Files l m) :
    m = stableOrder l := h.unique (files_stableOrder l)

/-! ## The operations -/

namespace Multimap

variable (m : Multimap K V)

def empty : Multimap K V := ⟨[], .nil⟩

def insert (key : K) (value : V) : Multimap K V :=
  ⟨insertUpper (key, value) m.toList, insertUpper_sorted _ m.sorted⟩

/-- `insert(first, last)` -/
def insertRange (es : List (K × V)) : Multimap K V := es.foldl (fun m e => m.insert e.1 e.2) m

/-- `erase` of the pair at a position. -/
def eraseAt (i : Nat) : Multimap K V :=
  ⟨m.toList.eraseIdx i, m.sorted.sublist (m.toList.eraseIdx_sublist i)⟩

/-- The loop that erases the pairs with `p` and steps over the others. -/
def eraseIf (p : K × V → Bool) : Multimap K V := ⟨m.toList.filter (!p ·), m.sorted.filter _⟩

@[simp] theorem toList_empty : (empty : Multimap K V).toList = [] := rfl

@[simp] theorem toList_insert (key : K) (value : V) :
    (m.insert key value).toList = insertUpper (key, value) m.toList := rfl

theorem toList_insertRange (es : List (K × V)) :
    (m.insertRange es).toList = es.foldl (fun l e => insertUpper e l) m.toList := by
  induction es generalizing m with
  | nil => rfl
  | cons e es ih => exact ih (m.insert e.1 e.2)

@[simp] theorem toList_eraseAt (i : Nat) : (m.eraseAt i).toList = m.toList.eraseIdx i := rfl

@[simp] theorem toList_eraseIf (p : K × V → Bool) :
    (m.eraseIf p).toList = m.toList.filter (!p ·) := rfl

/-- A sorted range inserted into the empty multimap stays as it is. -/
theorem toList_empty_insertRange {es : List (K × V)} (h : es.Pairwise fun a b => a.1 ≤ b.1) :
    ((empty : Multimap K V).insertRange es).toList = es := by
  rw [toList_insertRange]
  exact (Files.nil.insertAll es).unique (Files.of_sorted h)

end Multimap
