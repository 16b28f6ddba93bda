import Mathlib.Data.Finset.Card
import Mathlib.Data.Set.Basic
import Mathlib.Order.Bounds.Basic
import Mathlib.Tactic

/-!
# Closure under links, by a work list

A finite set of nodes, some of which exist; an existing node has links to nodes that may or may
not exist. The closure of a set of nodes holds the existing ones among them and the existing ones
that are linked from it. The work list computes it whichever node is taken out next.
-/

namespace Worklist

variable {α : Type}

/-- Links between nodes, of which finitely many exist. -/
structure Links (α : Type) where
  of : α → Option (Finset α)
  nodes : Finset α
  mem_nodes : ∀ {a l}, of a = some l → a ∈ nodes

variable (L : Links α)

def Links.Exists (a : α) : Prop := ∃ l, L.of a = some l

/-- It holds the existing nodes of `S` and is closed under links to existing nodes. -/
structure Closed (S C : Set α) : Prop where
  start : ∀ a ∈ S, L.Exists a → a ∈ C
  link : ∀ a ∈ C, ∀ l, L.of a = some l → ∀ b ∈ l, L.Exists b → b ∈ C

/-- The nodes that are reached from `S` through existing nodes. -/
inductive Closure (S : Set α) : α → Prop where
  | start {a : α} (ha : a ∈ S) (hexists : L.Exists a) : Closure S a
  | link {a b : α} {l : Finset α} (ha : Closure S a) (hl : L.of a = some l) (hb : b ∈ l)
      (hexists : L.Exists b) : Closure S b

variable {L}

theorem closed_closure (S : Set α) : Closed L S {a | Closure L S a} :=
  ⟨fun _ ha hexists => .start ha hexists, fun _ ha _ hl _ hb hexists => .link ha hl hb hexists⟩

theorem Closure.mem_of_closed {S C : Set α} (h : Closed L S C) {a : α} (ha : Closure L S a) :
    a ∈ C := by
  induction ha with
  | start ha hexists => exact h.start _ ha hexists
  | link _ hl hb hexists ih => exact h.link _ ih _ hl _ hb hexists

/-- **The closure is the least closed set.** -/
theorem isLeast_closure (S : Set α) : IsLeast {C | Closed L S C} {a | Closure L S a} :=
  ⟨closed_closure S, fun _ hC _ ha => Closure.mem_of_closed hC ha⟩

/-! ## The work list -/

variable [DecidableEq α]

/-- What is still to be looked at, and what has been found; nothing is in both. -/
structure State (α : Type) [DecidableEq α] where
  todo : Finset α
  found : Finset α
  disjoint : Disjoint todo found

/-- Which node of a set is taken out of it next. -/
structure Choice (α : Type) where
  pick : (S : Finset α) → S.Nonempty → α
  mem : ∀ S h, pick S h ∈ S

namespace State

/-- A node that does not exist is dropped. -/
def drop (s : State α) (a : α) : State α where
  todo := s.todo.erase a
  found := s.found
  disjoint := Finset.disjoint_of_subset_left (Finset.erase_subset a s.todo) s.disjoint

/-- An existing node has been found; those of its links that have not are to be looked at. -/
def expand (s : State α) (a : α) (l : Finset α) : State α where
  todo := s.todo.erase a ∪ l.filter (· ∉ insert a s.found)
  found := insert a s.found
  disjoint := by
    rw [Finset.disjoint_left]
    intro b hb
    rcases Finset.mem_union.mp hb with hb | hb
    · obtain ⟨hne, hmem⟩ := Finset.mem_erase.mp hb
      rw [Finset.mem_insert, not_or]
      exact ⟨hne, Finset.disjoint_left.mp s.disjoint hmem⟩
    · exact (Finset.mem_filter.mp hb).2

end State

variable (L)

/-- What has not been found yet. -/
def Links.missing (s : State α) : Nat := (L.nodes \ s.found).card

variable {L}

theorem missing_expand_lt {s : State α} {a : α} {l l' : Finset α} (ha : a ∈ s.todo)
    (hl : L.of a = some l) : L.missing (s.expand a l') < L.missing s := by
  apply Finset.card_lt_card
  constructor
  · apply Finset.sdiff_subset_sdiff (Finset.Subset.refl _)
    exact Finset.subset_insert a s.found
  · intro hsub
    have hmem : a ∈ L.nodes \ s.found :=
      Finset.mem_sdiff.mpr ⟨L.mem_nodes hl, Finset.disjoint_left.mp s.disjoint ha⟩
    exact (Finset.mem_sdiff.mp (hsub hmem)).2 (Finset.mem_insert_self a s.found)

variable (L) in
/-- The loop over the work list. It ends because every round finds a node or shortens the list
without finding one. -/
def run (choice : Choice α) (s : State α) : Finset α :=
  if h : s.todo.Nonempty then
    match _hl : L.of (choice.pick s.todo h) with
    | none => run choice (s.drop (choice.pick s.todo h))
    | some l => run choice (s.expand (choice.pick s.todo h) l)
  else s.found
termination_by (L.missing s, s.todo.card)
decreasing_by
  · exact Prod.Lex.right _ (Finset.card_erase_lt_of_mem (choice.mem s.todo h))
  · exact Prod.Lex.left _ _ (missing_expand_lt (choice.mem s.todo h) _hl)

/-- What carries the loop: everything is in the closure, and the closure is in what is found or
can still be reached. -/
structure Correct (S : Set α) (s : State α) : Prop where
  sound : ∀ a ∈ s.found, Closure L S a
  todo : ∀ a ∈ s.todo, L.Exists a → Closure L S a
  start : ∀ a ∈ S, L.Exists a → a ∈ s.found ∨ a ∈ s.todo
  link : ∀ a ∈ s.found, ∀ l, L.of a = some l → ∀ b ∈ l, L.Exists b → b ∈ s.found ∨ b ∈ s.todo

namespace Correct

variable {S : Set α} {s : State α} {a : α} {l : Finset α}

theorem drop (h : Correct (L := L) S s) (ha : L.of a = none) :
    Correct (L := L) S (s.drop a) := by
  have hne : ∀ b, L.Exists b → b ≠ a := by
    intro b hb hba
    obtain ⟨l, hl⟩ := hb
    rw [hba, ha] at hl
    cases hl
  have hstay : ∀ b, L.Exists b → b ∈ s.found ∨ b ∈ s.todo → b ∈ s.found ∨ b ∈ s.todo.erase a :=
    fun b hb hor => hor.imp_right fun hmem => Finset.mem_erase.mpr ⟨hne b hb, hmem⟩
  refine ⟨h.sound, ?_, ?_, ?_⟩
  · intro b hb
    exact h.todo b (Finset.mem_of_mem_erase hb)
  · intro b hb hexists
    exact hstay b hexists (h.start b hb hexists)
  · intro c hc l hl b hb hexists
    exact hstay b hexists (h.link c hc l hl b hb hexists)

theorem expand (h : Correct (L := L) S s) (ha : a ∈ s.todo) (hl : L.of a = some l) :
    Correct (L := L) S (s.expand a l) := by
  have hclosure : Closure L S a := h.todo a ha ⟨l, hl⟩
  have hstay : ∀ b, b ∈ s.found ∨ b ∈ s.todo →
      b ∈ (s.expand a l).found ∨ b ∈ (s.expand a l).todo := by
    intro b hor
    by_cases hba : b = a
    · exact Or.inl (hba ▸ Finset.mem_insert_self a s.found)
    · rcases hor with hfound | htodo
      · exact Or.inl (Finset.mem_insert_of_mem hfound)
      · exact Or.inr (Finset.mem_union_left _ (Finset.mem_erase.mpr ⟨hba, htodo⟩))
  refine ⟨?_, ?_, ?_, ?_⟩
  · intro b hb
    rcases Finset.mem_insert.mp hb with rfl | hb
    · exact hclosure
    · exact h.sound b hb
  · intro b hb hexists
    rcases Finset.mem_union.mp hb with hb | hb
    · exact h.todo b (Finset.mem_of_mem_erase hb) hexists
    · exact .link hclosure hl (Finset.mem_filter.mp hb).1 hexists
  · intro b hb hexists
    exact hstay b (h.start b hb hexists)
  · intro c hc l' hl' b hb hexists
    rcases Finset.mem_insert.mp hc with rfl | hc
    · -- the links of the node that has just been found
      rw [hl] at hl'
      cases hl'
      by_cases hfound : b ∈ insert c s.found
      · exact Or.inl hfound
      · exact Or.inr (Finset.mem_union_right _ (Finset.mem_filter.mpr ⟨hb, hfound⟩))
    · exact hstay b (h.link c hc l' hl' b hb hexists)

/-- With nothing left to look at, what is found is closed. -/
theorem mem_found (h : Correct (L := L) S s) (hnone : ¬ s.todo.Nonempty) :
    a ∈ s.found ↔ Closure L S a := by
  have hempty := Finset.not_nonempty_iff_eq_empty.mp hnone
  have hfound : ∀ b, b ∈ s.found ∨ b ∈ s.todo → b ∈ s.found := by
    intro b hor
    rw [hempty] at hor
    exact hor.resolve_right (Finset.notMem_empty b)
  have hclosed : Closed L S {b | b ∈ s.found} :=
    ⟨fun b hb hexists => hfound b (h.start b hb hexists),
      fun c hc l hl b hb hexists => hfound b (h.link c hc l hl b hb hexists)⟩
  exact ⟨h.sound a, Closure.mem_of_closed hclosed⟩

end Correct

theorem mem_run (choice : Choice α) {S : Set α} {s : State α} (h : Correct (L := L) S s) {a : α} :
    a ∈ run L choice s ↔ Closure L S a := by
  induction s using run.induct L choice with
  | case1 s hsome hl ih =>
    rw [run, dif_pos hsome]
    split
    · exact ih (h.drop hl)
    · next hl' => rw [hl] at hl'; cases hl'
  | case2 s hsome l hl ih =>
    rw [run, dif_pos hsome]
    split
    · next hl' => rw [hl] at hl'; cases hl'
    · next l' hl' =>
      rw [hl] at hl'
      cases hl'
      exact ih (h.expand (choice.mem s.todo hsome) hl)
  | case3 s hnone =>
    rw [run, dif_neg hnone]
    exact h.mem_found hnone

/-! ## From a set -/

def initial (S : Finset α) : State α := ⟨S, ∅, Finset.disjoint_empty_right S⟩

theorem correct_initial (S : Finset α) : Correct (L := L) (S : Set α) (initial S) :=
  ⟨fun a ha => absurd ha (Finset.notMem_empty a), fun _ ha hexists => .start ha hexists,
    fun _ ha _ => Or.inr ha, fun a ha => absurd ha (Finset.notMem_empty a)⟩

/-- **The work list computes the closure.** -/
theorem mem_run_initial (choice : Choice α) (S : Finset α) {a : α} :
    a ∈ run L choice (initial S) ↔ Closure L (S : Set α) a :=
  mem_run choice (correct_initial S)

/-- It does not matter which node is taken next. -/
theorem run_choice (choice choice' : Choice α) (S : Finset α) :
    run L choice (initial S) = run L choice' (initial S) := by
  ext a
  rw [mem_run_initial, mem_run_initial]

theorem isLeast_run (choice : Choice α) (S : Finset α) :
    IsLeast {C | Closed L (S : Set α) C} (↑(run L choice (initial S)) : Set α) := by
  have heq : (↑(run L choice (initial S)) : Set α) = {a | Closure L (S : Set α) a} := by
    ext a
    rw [Finset.mem_coe, mem_run_initial]
    rfl
  rw [heq]
  exact isLeast_closure (S : Set α)

end Worklist
