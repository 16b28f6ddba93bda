import Mathlib.Data.List.Nodup
import Mathlib.Data.List.Basic

/-!
# Pools of ids

Ids are handed out from a counter and taken back: the largest one by counting down, every other
one into a list that is served first. The counter has `size` values, so it wraps at both ends;
`wrapped` remembers whether it ever counted below zero.

What is in use is a set the owner keeps. A pool is sound for it when no id that the pool can
hand out is in the set. Ids may be lost (in use by nobody, but not in the pool either).
-/

structure IdPool where
  maxId : Nat
  freeIds : List Nat
  wrapped : Bool := false

namespace IdPool

variable {size : Nat} {p : IdPool} {used used' : Nat → Prop} {id : Nat}

/-- Takes an id back. -/
def release (size : Nat) (p : IdPool) (id : Nat) : IdPool :=
  if id = p.maxId then
    { p with
      maxId := (p.maxId + size - 1) % size
      wrapped := p.wrapped || p.maxId = 0 }
  else { p with freeIds := p.freeIds ++ [id] }

/-- Hands an id out. -/
def take (size : Nat) (p : IdPool) : Nat × IdPool :=
  match p.freeIds with
  | [] => ((p.maxId + 1) % size, { p with maxId := (p.maxId + 1) % size })
  | id :: rest => (id, { p with freeIds := rest })

/-- The pool and the ids in use do not overlap, and the counter is above both. -/
structure Sound (size : Nat) (p : IdPool) (used : Nat → Prop) : Prop where
  small : p.maxId < size
  range : ∀ id, used id → 0 < id ∧ id ≤ p.maxId
  freeRange : ∀ id ∈ p.freeIds, 0 < id ∧ id ≤ p.maxId
  nodup : p.freeIds.Nodup
  apart : ∀ id ∈ p.freeIds, ¬used id
  notWrapped : p.wrapped = false

/-- The counter does not wrap when `n` more ids are handed out. -/
def Room (size : Nat) (p : IdPool) (n : Nat) : Prop := p.maxId + n < size

theorem Sound.mono (h : Sound size p used) (hsub : ∀ id, used' id → used id) :
    Sound size p used' where
  small := h.small
  range id hid := h.range id (hsub id hid)
  freeRange := h.freeRange
  nodup := h.nodup
  apart id hid hused := h.apart id hid (hsub id hused)
  notWrapped := h.notWrapped

/-! ## Handing out -/

theorem take_of_nil (h : p.freeIds = []) (hroom : Room size p 1) :
    take size p = (p.maxId + 1, { p with maxId := p.maxId + 1 }) := by
  unfold take
  rw [h]
  show ((p.maxId + 1) % size, _) = _
  rw [Nat.mod_eq_of_lt hroom]

theorem take_of_cons {rest : List Nat} (h : p.freeIds = id :: rest) :
    take size p = (id, { p with freeIds := rest }) := by
  unfold take
  rw [h]

/-- **What is handed out is in use by nobody.** -/
theorem Sound.take_unused (h : Sound size p used) (hroom : Room size p 1) :
    ¬used (take size p).1 := by
  cases hfree : p.freeIds with
  | nil =>
    rw [take_of_nil hfree hroom]
    intro hused
    have hle := (h.range _ hused).2
    dsimp only at hle
    omega
  | cons id rest =>
    rw [take_of_cons hfree]
    exact h.apart id (by simp [hfree])

theorem Sound.take (h : Sound size p used) (hroom : Room size p 1) :
    Sound size (take size p).2 fun id => used id ∨ id = (IdPool.take size p).1 := by
  cases hfree : p.freeIds with
  | nil =>
    rw [take_of_nil hfree hroom]
    constructor
    · exact hroom
    · intro id hid
      cases hid with
      | inl hused =>
        have hrange := h.range id hused
        exact ⟨hrange.1, Nat.le_succ_of_le hrange.2⟩
      | inr heq => exact ⟨heq ▸ Nat.succ_pos _, Nat.le_of_eq heq⟩
    · intro id hid
      rw [hfree] at hid
      cases hid
    · exact h.nodup
    · intro id hid
      rw [hfree] at hid
      cases hid
    · exact h.notWrapped
  | cons id rest =>
    have hnodup := h.nodup
    rw [hfree, List.nodup_cons] at hnodup
    have hmem : ∀ x ∈ rest, x ∈ p.freeIds := fun x hx => by simp [hfree, hx]
    rw [take_of_cons hfree]
    constructor
    · exact h.small
    · intro x hx
      cases hx with
      | inl hused => exact h.range x hused
      | inr heq => exact heq ▸ h.freeRange id (by simp [hfree])
    · exact fun x hx => h.freeRange x (hmem x hx)
    · exact hnodup.2
    · intro x hx hused
      cases hused with
      | inl hused => exact h.apart x (hmem x hx) hused
      | inr heq =>
        rw [show x = id from heq] at hx
        exact hnodup.1 hx
    · exact h.notWrapped

theorem take_maxId_le (hroom : Room size p 1) : (take size p).2.maxId ≤ p.maxId + 1 := by
  cases hfree : p.freeIds with
  | nil =>
    have htake := take_of_nil hfree hroom
    exact Nat.le_of_eq (by rw [htake])
  | cons id rest =>
    rw [take_of_cons hfree]
    exact Nat.le_succ _

theorem Room.take {n : Nat} (hroom : Room size p (n + 1)) : Room size (take size p).2 n := by
  grind [Room, take_maxId_le]

/-! ## Taking back -/

/-- **An id in use that is taken back** is in use no longer, and the counter does not wrap. -/
theorem Sound.release (h : Sound size p used) (hid : used id) :
    Sound size (release size p id) fun x => used x ∧ x ≠ id := by
  have hrange := h.range id hid
  have hsmall := h.small
  unfold IdPool.release
  split
  · next heq =>
    have hmax : (p.maxId + size - 1) % size = p.maxId - 1 := by
      have hsub : p.maxId + size - 1 = p.maxId - 1 + size := by omega
      rw [hsub, Nat.add_mod_right]
      exact Nat.mod_eq_of_lt (by omega)
    constructor
    · show (p.maxId + size - 1) % size < size
      omega
    · intro x hx
      show 0 < x ∧ x ≤ (p.maxId + size - 1) % size
      have hx' := h.range x hx.1
      have hne := hx.2
      omega
    · intro x hx
      show 0 < x ∧ x ≤ (p.maxId + size - 1) % size
      -- the id itself was in use, so it is not in the list
      have hne : x ≠ id := fun he => h.apart x hx (he ▸ hid)
      have hx' := h.freeRange x hx
      omega
    · exact h.nodup
    · exact fun x hx hused => h.apart x hx hused.1
    · show (p.wrapped || p.maxId = 0) = false
      rw [h.notWrapped]
      simp only [Bool.false_or, decide_eq_false_iff_not]
      omega
  · next hne =>
    constructor
    · exact h.small
    · exact fun x hx => h.range x hx.1
    · intro x hx
      cases List.mem_append.mp hx with
      | inl hfree => exact h.freeRange x hfree
      | inr hlast => exact List.mem_singleton.mp hlast ▸ hrange
    · rw [List.nodup_append]
      refine ⟨h.nodup, List.nodup_singleton id, fun x hx y hy => ?_⟩
      rw [List.mem_singleton] at hy
      intro heq
      exact h.apart x hx (heq ▸ hy ▸ hid)
    · intro x hx hused
      cases List.mem_append.mp hx with
      | inl hfree => exact h.apart x hfree hused.1
      | inr hlast => exact hused.2 (List.mem_singleton.mp hlast)
    · exact h.notWrapped

/-! ## A pool for ids that are there already -/

/-- The free ids below the largest one in use. -/
def below (maxId : Nat) (isUsed : Nat → Bool) : IdPool where
  maxId := maxId
  freeIds := (List.range' 1 (maxId - 1)).filter fun id => !isUsed id

theorem sound_below {maxId : Nat} {isUsed : Nat → Bool} (hsmall : maxId < size)
    (hrange : ∀ id, used id → 0 < id ∧ id ≤ maxId) (hused : ∀ id, used id → isUsed id = true) :
    Sound size (below maxId isUsed) used := by
  constructor
  · exact hsmall
  · exact hrange
  · intro id hid
    have hmem := List.mem_range'_1.mp (List.mem_of_mem_filter hid)
    show 0 < id ∧ id ≤ maxId
    omega
  · exact List.Nodup.filter _ List.nodup_range'
  · intro id hid hu
    have hfree := (List.mem_filter.mp hid).2
    rw [hused id hu] at hfree
    cases hfree
  · rfl

end IdPool
