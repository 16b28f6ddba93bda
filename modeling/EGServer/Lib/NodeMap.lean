import EGServer.Lib.Table

/-!
# Maps of nodes with an address

A map whose elements stay where they are from their insertion to their erasure, so that
pointers to them can be kept elsewhere: what the elements of `std::unordered_map` are to the
code that takes their addresses. An address is never used twice, so that a pointer to an
element that was erased points to nothing, also after its key was inserted again.
-/

structure Node (κ α : Type) where
  key : κ
  addr : Nat
  value : α

structure NodeMap (κ α : Type) where
  nodes : Table (Node.key : Node κ α → κ)
  /-- The next address. -/
  next : Nat
  fresh : ∀ n ∈ nodes, n.addr < next
  distinct : ∀ m ∈ nodes, ∀ n ∈ nodes, m.addr = n.addr → m = n

namespace NodeMap

variable {κ α : Type}

instance : Membership (Node κ α) (NodeMap κ α) := ⟨fun m n => n ∈ m.nodes⟩

theorem mem_def {m : NodeMap κ α} {n : Node κ α} : n ∈ m ↔ n ∈ m.nodes := Iff.rfl

def empty : NodeMap κ α where
  nodes := ∅
  next := 0
  fresh _ h := absurd h (Table.not_mem_empty _)
  distinct _ h := absurd h (Table.not_mem_empty _)

/-- `clear`; the addresses stay used up. -/
def clear (m : NodeMap κ α) : NodeMap κ α where
  nodes := ∅
  next := m.next
  fresh _ h := absurd h (Table.not_mem_empty _)
  distinct _ h := absurd h (Table.not_mem_empty _)

/-- The element that a pointer points to. -/
def at? (m : NodeMap κ α) (p : Nat) : Option (Node κ α) :=
  m.nodes.rows.find? fun n => decide (n.addr = p)

theorem at?_eq_some {m : NodeMap κ α} {p : Nat} {n : Node κ α} :
    m.at? p = some n ↔ n ∈ m ∧ n.addr = p := by
  constructor
  · intro h
    exact ⟨List.mem_of_find?_eq_some h, by simpa using List.find?_some h⟩
  · rintro ⟨hn, rfl⟩
    cases hf : m.nodes.rows.find? fun k => decide (k.addr = n.addr) with
    | none => exact absurd (decide_eq_true rfl) (List.find?_eq_none.mp hf n hn)
    | some k =>
      have hk : k.addr = n.addr := by simpa using List.find?_some hf
      exact hf.trans (congrArg some (m.distinct k (List.mem_of_find?_eq_some hf) n hn hk))

variable [DecidableEq κ]

def find? (m : NodeMap κ α) (k : κ) : Option (Node κ α) := m.nodes.get? k

theorem find?_eq_some {m : NodeMap κ α} {k : κ} {n : Node κ α} :
    m.find? k = some n ↔ n ∈ m ∧ n.key = k :=
  Table.get?_eq_some

theorem find?_key {m : NodeMap κ α} {n : Node κ α} (h : n ∈ m) : m.find? n.key = some n :=
  Table.get?_key h

/-- `m[k]` on the left of an assignment: the element of the key gets the value, at the address
it has or, where there is none, at a new one. -/
def put (m : NodeMap κ α) (order : Arrangement (Node κ α)) (k : κ) (v : α) : NodeMap κ α :=
  match h : m.nodes.tryEmplace order ⟨k, m.next, v⟩ with
  | some t =>
    { nodes := t
      next := m.next + 1
      fresh := by
        intro n hn
        rcases (Table.mem_tryEmplace h).mp hn with rfl | hn
        · exact Nat.lt_succ_self _
        · exact Nat.lt_succ_of_lt (m.fresh n hn)
      distinct := by
        intro a ha b hb hab
        rcases (Table.mem_tryEmplace h).mp ha with rfl | ha
        · rcases (Table.mem_tryEmplace h).mp hb with rfl | hb
          · rfl
          · exact absurd hab.symm (Nat.ne_of_lt (m.fresh b hb))
        · rcases (Table.mem_tryEmplace h).mp hb with rfl | hb
          · exact absurd hab (Nat.ne_of_lt (m.fresh a ha))
          · exact m.distinct a ha b hb hab }
  | none =>
    { nodes := m.nodes.modify k (fun n => { n with value := v }) fun _ => rfl
      next := m.next
      fresh := by
        intro n hn
        obtain ⟨b, hb, rfl⟩ := Table.mem_modify.mp hn
        split
        · exact m.fresh b hb
        · exact m.fresh b hb
      distinct := by
        intro a ha b hb hab
        obtain ⟨a', ha', rfl⟩ := Table.mem_modify.mp ha
        obtain ⟨b', hb', rfl⟩ := Table.mem_modify.mp hb
        have hsame : a' = b' := by
          apply m.distinct a' ha' b' hb'
          split at hab <;> split at hab <;> exact hab
        rw [hsame] }

section put

variable {m : NodeMap κ α} {order : Arrangement (Node κ α)} {k k' : κ} {v : α} {n : Node κ α}

theorem tryEmplace_eq_none {t : Table (Node.key : Node κ α → κ)} {a : Node κ α} :
    t.tryEmplace order a = none ↔ t.get? a.key ≠ none := by
  unfold Table.tryEmplace
  split
  · next h => simp [h]
  · next h => simp [h]

theorem find?_put_of_none (h : m.find? k = none) :
    (m.put order k v).find? k = some ⟨k, m.next, v⟩ := by
  unfold put
  split
  · next t ht => exact Table.get?_tryEmplace_self ht
  · next ht => exact absurd h (tryEmplace_eq_none.mp ht)

theorem find?_put_of_some (h : m.find? k = some n) :
    (m.put order k v).find? k = some { n with value := v } := by
  unfold put
  split
  · next t ht =>
    have hnone := Table.get?_of_tryEmplace ht
    rw [find?, hnone] at h
    cases h
  · next ht =>
    have hself := Table.get?_modify_self m.nodes k (f := fun n => { n with value := v })
      fun _ => rfl
    refine hself.trans ?_
    rw [← find?, h]
    rfl

theorem find?_put_ne (h : k' ≠ k) : (m.put order k v).find? k' = m.find? k' := by
  unfold put
  split
  · next t ht => exact Table.get?_tryEmplace_ne ht h
  · exact Table.get?_modify_ne m.nodes (f := fun n => { n with value := v }) (fun _ => rfl) h

end put

/-! ## Erasing -/

def erase (m : NodeMap κ α) (k : κ) : NodeMap κ α where
  nodes := m.nodes.erase k
  next := m.next
  fresh n hn := m.fresh n (Table.mem_erase.mp hn).1
  distinct a ha b hb := m.distinct a (Table.mem_erase.mp ha).1 b (Table.mem_erase.mp hb).1

theorem mem_erase {m : NodeMap κ α} {k : κ} {n : Node κ α} :
    n ∈ m.erase k ↔ n ∈ m ∧ n.key ≠ k :=
  Table.mem_erase

end NodeMap
