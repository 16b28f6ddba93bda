import Mathlib.Data.UInt
import Mathlib.Data.List.Basic
import Mathlib.Tactic.Common

/-!
# Resizing a container at random

`RandomResize` walks through a container once, with one iterator that reads and one, behind it,
that writes what is kept. Both counters of the loop are 32 bits wide while the sizes are not:
`Compacting` is what a turn keeps whatever they start at, and the size of the result is the smaller
of the two as they were cut off.
-/

namespace EGServer.Utilities

/-- `urand`: the answers may be any between the bounds, another one at each call. -/
structure Urand where
  draw : Nat → UInt32 → UInt32 → UInt32
  mem : ∀ call min max, min ≤ max → min ≤ draw call min max ∧ draw call min max ≤ max

/-- The variables of the loop. -/
structure Resizing (α : Type) where
  container : List α
  keepIt : Nat
  curIt : Nat
  elementsToKeep : UInt32
  elementsToProcess : UInt32
  /-- how often `urand` was called -/
  calls : Nat
  /-- `elementsToKeep` was 0 when it was lowered -/
  underflow : Bool

namespace Resizing

variable {α : Type} (urand : Urand) (movedFrom : α → α)

/-- The element is kept; what a move leaves behind is `movedFrom`. An iterator at the end must
not be read: `none`. -/
def keep (s : Resizing α) : Option (Resizing α) := do
  let element ← s.container[s.curIt]?
  return { s with
    container :=
      if s.keepIt ≠ s.curIt then (s.container.set s.curIt (movedFrom element)).set s.keepIt element
      else s.container,
    keepIt := s.keepIt + 1,
    elementsToKeep := s.elementsToKeep - 1,
    underflow := s.underflow || s.elementsToKeep == 0 }

def next (s : Resizing α) : Resizing α :=
  { s with
    curIt := s.curIt + 1,
    elementsToProcess := s.elementsToProcess - 1,
    calls := s.calls + 1 }

/-- One turn of the loop. -/
def turn (s : Resizing α) : Option (Resizing α) := do
  if urand.draw s.calls 1 s.elementsToProcess ≤ s.elementsToKeep then
    return (← s.keep movedFrom).next
  return s.next

/-- `while (elementsToProcess)`, with a bound on the turns. -/
def loop : Nat → Resizing α → Option (Resizing α)
  | 0, s => if s.elementsToProcess = 0 then some s else none
  | turns + 1, s =>
    if s.elementsToProcess = 0 then some s else do loop turns (← s.turn urand movedFrom)

end Resizing

variable {α : Type} (urand : Urand) (movedFrom : α → α)

/-- The state before the loop: the sizes are cut off to 32 bits. -/
def startResizing (container : List α) (requestedSize : Nat) : Resizing α where
  container
  keepIt := 0
  curIt := 0
  elementsToKeep := UInt32.ofNat requestedSize
  elementsToProcess := UInt32.ofNat container.length
  calls := 0
  underflow := false

/-- `RandomResize`: the container afterwards, and whether `elementsToKeep` was lowered below 0. -/
def randomResize (container : List α) (requestedSize : Nat) : Option (List α × Bool) :=
  if container.length ≤ requestedSize then some (container, false)
  else do
    let s := startResizing container requestedSize
    let s ← s.loop urand movedFrom s.elementsToProcess.toNat
    return (s.container.take s.keepIt, s.underflow)

/-! ## A turn of the loop -/

variable {container : List α} {requestedSize keep process : Nat} {s : Resizing α}

/-- **The loop invariant**, for counters that started at `keep` and `process`: the elements kept are
some of those read, the ones to come are untouched, and as many can still be kept as have to be. -/
structure Compacting (container : List α) (keep process : Nat) (s : Resizing α) : Prop where
  behind : s.keepIt ≤ s.curIt
  kept : (s.container.take s.keepIt).Sublist (container.take s.curIt)
  rest : s.container.drop s.curIt = container.drop s.curIt
  length : s.container.length = container.length
  processed : s.curIt + s.elementsToProcess.toNat = process
  keeping : s.keepIt + s.elementsToKeep.toNat = keep
  enough : min keep process ≤ s.keepIt + s.elementsToProcess.toNat
  exact : s.underflow = false

theorem compacting_start (container : List α) (requestedSize : Nat) :
    Compacting container (requestedSize % 2 ^ 32) (container.length % 2 ^ 32)
      (startResizing container requestedSize) where
  behind := Nat.le_refl _
  kept := List.Sublist.refl _
  rest := rfl
  length := rfl
  processed := by simp [startResizing]
  keeping := by simp [startResizing]
  enough := by simp [startResizing]
  exact := rfl

namespace Compacting

theorem toNat_pred {n : UInt32} (h : 1 ≤ n) : (n - 1).toNat = n.toNat - 1 :=
  UInt32.toNat_sub_of_le _ _ h

theorem pass (h : Compacting container keep process s) (hpos : 1 ≤ s.elementsToProcess)
    (hlt : s.elementsToKeep < s.elementsToProcess) : Compacting container keep process s.next := by
  have hpred : s.next.elementsToProcess.toNat = s.elementsToProcess.toNat - 1 := toNat_pred hpos
  have hpos := UInt32.le_iff_toNat_le.mp hpos
  have hlt := UInt32.lt_iff_toNat_lt.mp hlt
  have hone : (1 : UInt32).toNat = 1 := rfl
  have hprocessed := h.processed
  have hkeeping := h.keeping
  have hcur : s.next.curIt = s.curIt + 1 := rfl
  refine ⟨Nat.le_succ_of_le h.behind, ?_, ?_, h.length, ?_, h.keeping, ?_, h.exact⟩
  · exact h.kept.trans (List.take_sublist_take_left (Nat.le_succ _))
  · show s.container.drop (s.curIt + 1) = container.drop (s.curIt + 1)
    rw [← List.drop_drop, h.rest, List.drop_drop]
  · omega
  · show min keep process ≤ s.keepIt + _
    omega

/-- An element that is kept goes behind those kept before. -/
theorem keep_next (h : Compacting container keep process s) (hprocess : process ≤ container.length)
    (hpos : 1 ≤ s.elementsToProcess) (hkeep : 1 ≤ s.elementsToKeep) :
    ∃ s', s.keep movedFrom = some s' ∧ Compacting container keep process s'.next := by
  have hprocessed := h.processed
  have hkeeping := h.keeping
  have henough := h.enough
  have hbehind := h.behind
  have hpos' := UInt32.le_iff_toNat_le.mp hpos
  have hkeep' := UInt32.le_iff_toNat_le.mp hkeep
  have hone : (1 : UInt32).toNat = 1 := rfl
  have hcur : s.curIt < container.length := by omega
  have hcur' : s.curIt < s.container.length := h.length ▸ hcur
  have helement : s.container[s.curIt]? = some container[s.curIt] := by
    have hhead := congrArg List.head? h.rest
    rw [List.head?_drop, List.head?_drop, List.getElem?_eq_getElem hcur] at hhead
    exact hhead
  have hread : s.container[s.curIt] = container[s.curIt] := by
    rw [List.getElem?_eq_getElem hcur'] at helement
    exact Option.some.inj helement
  unfold Resizing.keep
  rw [helement]
  refine ⟨_, rfl, ?_⟩
  have hsuffix : s.container.drop (s.curIt + 1) = container.drop (s.curIt + 1) := by
    rw [← List.drop_drop, h.rest, List.drop_drop]
  have hkept : (s.container.take s.keepIt ++ [container[s.curIt]]).Sublist
      (container.take (s.curIt + 1)) := by
    rw [List.take_succ_eq_append_getElem hcur]
    exact h.kept.append (List.Sublist.refl _)
  refine ⟨Nat.succ_le_succ hbehind, ?_, ?_, ?_, ?_, ?_, ?_, ?_⟩
  · -- the element is written where the writing iterator stands
    show (List.take (s.keepIt + 1) (if _ then _ else _)).Sublist (container.take (s.curIt + 1))
    split
    · next hne =>
      have hlt : s.keepIt < s.curIt := Nat.lt_of_le_of_ne hbehind hne
      rw [List.take_succ_eq_append_getElem (by simp; omega), List.take_set_of_le (Nat.le_refl _),
        List.take_set_of_le hbehind, List.getElem_set_self]
      exact hkept
    · next heq =>
      have heq : s.keepIt = s.curIt := not_not.mp heq
      rw [heq] at hkept ⊢
      rw [List.take_succ_eq_append_getElem hcur', hread]
      exact hkept
  · show List.drop (s.curIt + 1) (if _ then _ else _) = container.drop (s.curIt + 1)
    split
    · rw [List.drop_set_of_lt (by omega), List.drop_set_of_lt (by omega)]
      exact hsuffix
    · exact hsuffix
  · show (if _ then _ else _ : List α).length = container.length
    split
    · rw [List.length_set, List.length_set, h.length]
    · exact h.length
  · show s.curIt + 1 + (s.elementsToProcess - 1).toNat = process
    rw [toNat_pred hpos]
    omega
  · show s.keepIt + 1 + (s.elementsToKeep - 1).toNat = keep
    rw [toNat_pred hkeep]
    omega
  · show min keep process ≤ s.keepIt + 1 + (s.elementsToProcess - 1).toNat
    rw [toNat_pred hpos]
    omega
  · -- the draw is at least 1, so there was something left to keep
    have hzero : s.elementsToKeep ≠ 0 := by
      rintro hzero
      rw [hzero] at hkeep'
      exact absurd hkeep' (by decide)
    show (s.underflow || s.elementsToKeep == 0) = false
    rw [h.exact, beq_false_of_ne hzero]
    rfl

theorem turn (h : Compacting container keep process s) (hprocess : process ≤ container.length)
    (hne : s.elementsToProcess ≠ 0) :
    ∃ s', s.turn urand movedFrom = some s' ∧ Compacting container keep process s' ∧
      s'.elementsToProcess.toNat + 1 = s.elementsToProcess.toNat := by
  have hpos : 1 ≤ s.elementsToProcess := by
    rw [UInt32.le_iff_toNat_le]
    exact Nat.one_le_iff_ne_zero.mpr fun h0 => hne (UInt32.toNat_inj.mp h0)
  have hpos' := UInt32.le_iff_toNat_le.mp hpos
  have hone : (1 : UInt32).toNat = 1 := rfl
  have hpred := toNat_pred hpos
  obtain ⟨hmin, hmax⟩ := urand.mem s.calls 1 s.elementsToProcess hpos
  unfold Resizing.turn
  split
  · next hle =>
    obtain ⟨s', hs', hnext⟩ := h.keep_next movedFrom hprocess hpos (UInt32.le_trans hmin hle)
    refine ⟨s'.next, by rw [hs']; rfl, hnext, ?_⟩
    have hsame : s'.elementsToProcess = s.elementsToProcess := by
      obtain ⟨element, -, heq⟩ := Option.bind_eq_some_iff.mp hs'
      cases heq
      rfl
    show (s'.elementsToProcess - 1).toNat + 1 = _
    rw [hsame, hpred]
    omega
  · next hlt =>
    refine ⟨s.next, rfl, h.pass hpos (UInt32.lt_of_lt_of_le (UInt32.not_le.mp hlt) hmax), ?_⟩
    show (s.elementsToProcess - 1).toNat + 1 = _
    rw [hpred]
    omega

/-- **The whole loop.** -/
theorem loop (hprocess : process ≤ container.length) {turns : Nat}
    (h : Compacting container keep process s) (hturns : s.elementsToProcess.toNat ≤ turns) :
    ∃ s', s.loop urand movedFrom turns = some s' ∧ Compacting container keep process s' ∧
      s'.elementsToProcess = 0 := by
  induction turns generalizing s with
  | zero =>
    have hzero : s.elementsToProcess = 0 := UInt32.toNat_inj.mp (Nat.le_zero.mp hturns)
    exact ⟨s, by rw [Resizing.loop, if_pos hzero], h, hzero⟩
  | succ turns ih =>
    by_cases hzero : s.elementsToProcess = 0
    · exact ⟨s, by rw [Resizing.loop, if_pos hzero], h, hzero⟩
    · obtain ⟨s', hs', h', hlt⟩ := h.turn urand movedFrom hprocess hzero
      obtain ⟨t, ht, hfinal⟩ := ih h' (by omega)
      refine ⟨t, ?_, hfinal⟩
      rw [Resizing.loop, if_neg hzero, hs']
      exact ht

end Compacting

/-! ## The size of the result -/

theorem randomResize_length (hlt : requestedSize < container.length) :
    ∃ kept, randomResize urand movedFrom container requestedSize = some (kept, false) ∧
      kept.Sublist container ∧
      kept.length = min (requestedSize % 2 ^ 32) (container.length % 2 ^ 32) := by
  obtain ⟨s, hs, h, hzero⟩ := (compacting_start container requestedSize).loop
    urand movedFrom (Nat.mod_le _ _) (Nat.le_refl _)
  have hprocessed := h.processed
  have hkeeping := h.keeping
  have henough := h.enough
  have hbehind := h.behind
  have hlength := h.length
  have hmod := Nat.mod_le container.length (2 ^ 32)
  have hnone : s.elementsToProcess.toNat = 0 := by rw [hzero]; rfl
  refine ⟨s.container.take s.keepIt, ?_, h.kept.trans (List.take_sublist _ _), ?_⟩
  · rw [randomResize, if_neg (Nat.not_le.mpr hlt)]
    show (Resizing.loop urand movedFrom _ _).bind _ = _
    rw [hs, ← h.exact]
    rfl
  · rw [List.length_take]
    omega

/-- **`RandomResize` keeps the right number**, an order-preserving part of the container, exactly
when the container is small enough already or the size asked for is no more than what is left of
the container's size in 32 bits. -/
theorem randomResize_exact_iff (urand : Urand) (movedFrom : α → α) (container : List α)
    (requestedSize : Nat) :
    (∃ kept, randomResize urand movedFrom container requestedSize = some (kept, false) ∧
      kept.Sublist container ∧ kept.length = min container.length requestedSize) ↔
    container.length ≤ requestedSize ∨ requestedSize ≤ container.length % 2 ^ 32 := by
  by_cases hle : container.length ≤ requestedSize
  · refine iff_of_true ⟨container, ?_, List.Sublist.refl _, (Nat.min_eq_left hle).symm⟩ (Or.inl hle)
    rw [randomResize, if_pos hle]
  · rw [or_iff_right hle]
    obtain ⟨kept, hkept, hsub, hlength⟩ :=
      randomResize_length urand movedFrom (Nat.not_le.mp hle)
    have hlt := Nat.mod_lt container.length (by decide : 0 < 2 ^ 32)
    constructor
    · rintro ⟨kept', hkept', -, hlength'⟩
      cases hkept.symm.trans hkept'
      have hmod := Nat.mod_le requestedSize (2 ^ 32)
      omega
    · intro hroom
      refine ⟨kept, hkept, hsub, ?_⟩
      rw [hlength, Nat.mod_eq_of_lt (Nat.lt_of_le_of_lt hroom hlt)]
      omega

/-- The smallest answer every time. -/
def smallest : Urand where
  draw _ min _ := min
  mem _ min _ h := ⟨UInt32.le_refl min, h⟩

/-- Of 2 ^ 32 elements one is asked for, and none is left. -/
theorem randomResize_empties :
    randomResize smallest id (List.replicate (2 ^ 32) ()) 1 = some ([], false) ∧
      min (List.replicate (2 ^ 32) ()).length 1 = 1 := by
  have hlength : (List.replicate (2 ^ 32) ()).length = 2 ^ 32 := List.length_replicate
  obtain ⟨kept, hkept, -, hkeptLength⟩ := @randomResize_length _ smallest id
    (List.replicate (2 ^ 32) ()) 1 (by rw [hlength]; decide)
  rw [hlength] at hkeptLength ⊢
  have hnil : kept = [] := List.length_eq_zero_iff.mp (hkeptLength.trans (by decide))
  exact ⟨hnil ▸ hkept, by decide⟩

end EGServer.Utilities
