import EGServer.Items.CountSpec

/-!
# Counting and destroying agree

How many items `DestroyItemCount` takes, which ones, and what that means for a caller that has asked
`HasItemCount` before.
-/

namespace EGServer.Items

namespace Inventory

variable {W W' : Inventory} {entry : Nat} {count remcount : UInt32} {p q : Position}
  {l todo : List Position} {item : ItemInfo}

/-! ## Running totals -/

/-- The stacks that are gone through, up to the one that reaches the count, add up to less than a
`uint32` can hold. -/
def Fits (count : Nat) : List Nat → Nat → Prop
  | [], _ => True
  | c :: sizes, sum => sum + c < 2 ^ 32 ∧ (sum + c < count → Fits count sizes (sum + c))

theorem fits_of_sum_lt {count sum : Nat} {sizes : List Nat} (h : sum + sizes.sum < 2 ^ 32) :
    Fits count sizes sum := by
  induction sizes generalizing sum with
  | nil => exact True.intro
  | cons c sizes ih =>
    rw [List.sum_cons, ← Nat.add_assoc] at h
    exact ⟨Nat.lt_of_le_of_lt (Nat.le_add_right _ _) h, fun _ => ih h⟩

theorem fits_zero {count sum : Nat} {sizes : List Nat} (hsum : sum < count) (hcount : count < 2 ^ 32) :
    Fits count (0 :: sizes) sum ↔ Fits count sizes sum := by
  rw [Fits, Nat.add_zero]
  constructor
  · intro h
    exact h.2 hsum
  · intro h
    exact ⟨hsum.trans hcount, fun _ => h⟩

/-! ## Places that do not disturb each other -/

/-- What is done in the place `p` does not touch the place `q`. -/
def Apart (p q : Position) : Prop := q ≠ p ∧ ¬Inside q p

theorem countIn_destroyItem (h : ∀ q ∈ l, Apart p q) :
    (W.destroyItem p).countIn entry l = W.countIn entry l :=
  countIn_congr fun q hq => getItemByPos_destroyItem_ne (h q hq).1 (h q hq).2

theorem map_countAt_destroyItem (h : ∀ q ∈ l, Apart p q) :
    l.map ((W.destroyItem p).countAt entry) = l.map (W.countAt entry) :=
  List.map_congr_left fun q hq =>
    countAt_congr (getItemByPos_destroyItem_ne (h q hq).1 (h q hq).2)

theorem countIn_setCount (h : ∀ q ∈ l, Apart p q) (c : UInt32) :
    (W.setCount p c).countIn entry l = W.countIn entry l :=
  countIn_congr fun q hq => getItemByPos_setCount_ne (h q hq).1 c

theorem countAt_destroyItem_self (W : Inventory) (p : Position) :
    (W.destroyItem p).countAt entry p = 0 := by
  apply countAt_of_none
  rw [getItemByPos_destroyItem_self]
  rfl

theorem countAt_setCount_self (h : (W.getItemByPos p).filter (isMeant entry) = some item)
    (c : UInt32) : (W.setCount p c).countAt entry p = c.toNat := by
  obtain ⟨hitem, hmeant⟩ := filter_meant h
  have hafter : ((W.setCount p c).getItemByPos p).filter (isMeant entry) =
      some { item with count := c } := by
    rw [getItemByPos_setCount_self hitem c, Option.filter_some]
    exact if_pos hmeant
  exact countAt_of_meant hafter

/-! ## How many are destroyed -/

variable (entry count) in
/-- What is left after a walk, and the running total. -/
def walked (l : List Position) (W : Inventory) (remcount : UInt32) : Inventory × UInt32 :=
  (destroyOver entry count always l W remcount).result

theorem shrinks_walked (l : List Position) (hrem : remcount.toNat < count.toNat) :
    Shrinks entry W (walked entry count l W remcount).1 :=
  shrinks_destroyOver l hrem

theorem countAt_walked (hzero : W.countAt entry p = 0) (hrem : remcount.toNat < count.toNat) :
    (walked entry count l W remcount).1.countAt entry p = 0 :=
  Nat.le_zero.mp (hzero ▸ (shrinks_walked l hrem).countAt_le p)

/-- **A turn of the walk.** Either the place holds nothing that is meant, or the stack ends the walk,
or it is destroyed and the running total grows, if need be past what it can hold. -/
theorem walked_cons (W : Inventory) (hp : ∀ q ∈ todo, Apart p q)
    (hrem : remcount.toNat < count.toNat) :
    (W.countAt entry p = 0 ∧
        walked entry count (p :: todo) W remcount = walked entry count todo W remcount) ∨
      (remcount.toNat + W.countAt entry p < 2 ^ 32 ∧
          count.toNat ≤ remcount.toNat + W.countAt entry p ∧
          (walked entry count (p :: todo) W remcount).2 = count ∧
          (walked entry count (p :: todo) W remcount).1.countAt entry p + count.toNat =
            remcount.toNat + W.countAt entry p ∧
          (walked entry count (p :: todo) W remcount).1.countIn entry todo =
            W.countIn entry todo) ∨
      ∃ sum : UInt32, sum.toNat < count.toNat ∧
        (sum.toNat = remcount.toNat + W.countAt entry p ∨
          sum.toNat + 2 ^ 32 = remcount.toNat + W.countAt entry p) ∧
        walked entry count (p :: todo) W remcount =
          walked entry count todo (W.destroyItem p) sum := by
  unfold walked
  rcases destroyOver_cons p todo W remcount with
    ⟨hnone, heq⟩ | ⟨item, hitem, ⟨hle, hdone, heq⟩ | ⟨hle, hnot, heq⟩ | ⟨hnot, heq⟩⟩
  · rw [heq]
    exact Or.inl ⟨countAt_of_none hnone, rfl⟩
  · -- the stack is destroyed, and that was enough
    rw [heq, countAt_of_meant hitem]
    have hsum : remcount + item.count = count := by
      rw [UInt32.add_comm] at hle
      exact UInt32.le_antisymm hle hdone
    have hsum' := congrArg UInt32.toNat hsum
    by_cases hfits : remcount.toNat + item.count.toNat < 2 ^ 32
    · rw [toNat_add_small hfits] at hsum'
      refine Or.inr (Or.inl ⟨hfits, hsum'.ge, hsum, ?_, countIn_destroyItem hp⟩)
      show (W.destroyItem p).countAt entry p + count.toNat = _
      rw [countAt_destroyItem_self, Nat.zero_add, hsum']
    · have hwrapped := toNat_add_wrapped (Nat.not_lt.mp hfits)
      have hc := item.count.toNat_lt
      omega
  · -- the stack is destroyed, and more is needed
    rw [heq, countAt_of_meant hitem]
    rw [UInt32.le_iff_toNat_le, not_le] at hnot
    refine Or.inr (Or.inr ⟨remcount + item.count, hnot, ?_, rfl⟩)
    grind [toNat_add_wrapped, toNat_add_small]
  · -- a part of the stack is enough
    rw [heq, countAt_of_meant hitem]
    rw [UInt32.le_iff_toNat_le, not_le] at hnot
    by_cases hfits : item.count.toNat + remcount.toNat < 2 ^ 32
    · rw [toNat_add_small hfits] at hnot
      have hleft := toNat_left hrem hnot
      refine Or.inr (Or.inl ⟨by omega, by omega, rfl, ?_, countIn_setCount hp _⟩)
      show (W.setCount p _).countAt entry p + count.toNat = _
      rw [countAt_setCount_self hitem, hleft, Nat.add_comm]
    · have hwrapped := toNat_add_wrapped (Nat.not_lt.mp hfits)
      have hc := item.count.toNat_lt
      omega

/-- **What disappears is what is counted**, if the totals fit. -/
theorem walked_fits (hl : l.Pairwise Apart) (hrem : remcount.toNat < count.toNat)
    (hfits : Fits count.toNat (l.map (W.countAt entry)) remcount.toNat) :
    (walked entry count l W remcount).2.toNat =
        min count.toNat (remcount.toNat + W.countIn entry l) ∧
      (walked entry count l W remcount).1.countIn entry l +
          (walked entry count l W remcount).2.toNat =
        remcount.toNat + W.countIn entry l := by
  induction l generalizing W remcount with
  | nil =>
    show remcount.toNat = min count.toNat (remcount.toNat + 0) ∧
      0 + remcount.toNat = remcount.toNat + 0
    omega
  | cons p todo ih =>
    obtain ⟨hp, htodo⟩ := List.pairwise_cons.mp hl
    rw [countIn_cons, countIn_cons]
    rw [List.map_cons] at hfits
    rcases walked_cons W hp hrem with
      ⟨hzero, heq⟩ | ⟨-, hreached, hcount, hat, hrest⟩ | ⟨sum, hlt, hsum, heq⟩
    · rw [hzero, fits_zero hrem count.toNat_lt] at hfits
      obtain ⟨hmin, hkept⟩ := ih htodo hrem hfits
      rw [heq, countAt_walked hzero hrem, hzero, Nat.zero_add, Nat.zero_add]
      exact ⟨hmin, hkept⟩
    · rw [hcount, hrest]
      omega
    · have hsmall : sum.toNat = remcount.toNat + W.countAt entry p := by
        have h := hfits.1
        omega
      have hfits' := hfits.2 (hsmall ▸ hlt)
      rw [← hsmall, ← map_countAt_destroyItem hp] at hfits'
      obtain ⟨hmin, hkept⟩ := ih htodo hlt hfits'
      rw [countIn_destroyItem hp] at hmin hkept
      rw [heq, countAt_walked (countAt_destroyItem_self W p) hlt]
      omega

theorem walked_le (hl : l.Pairwise Apart) (hrem : remcount.toNat < count.toNat) :
    (walked entry count l W remcount).1.countIn entry l +
        (walked entry count l W remcount).2.toNat ≤
      remcount.toNat + W.countIn entry l := by
  induction l generalizing W remcount with
  | nil =>
    show 0 + remcount.toNat ≤ remcount.toNat + 0
    omega
  | cons p todo ih =>
    obtain ⟨hp, htodo⟩ := List.pairwise_cons.mp hl
    rw [countIn_cons, countIn_cons]
    rcases walked_cons W hp hrem with
      ⟨hzero, heq⟩ | ⟨-, hreached, hcount, hat, hrest⟩ | ⟨sum, hlt, hsum, heq⟩
    · have hle := ih (W := W) htodo hrem
      rw [heq, countAt_walked hzero hrem]
      omega
    · rw [hcount, hrest]
      omega
    · grind [countAt_destroyItem_self, countAt_walked, countIn_destroyItem]

theorem walked_lt (hl : l.Pairwise Apart) (hrem : remcount.toNat < count.toNat)
    (hfits : ¬Fits count.toNat (l.map (W.countAt entry)) remcount.toNat) :
    (walked entry count l W remcount).1.countIn entry l +
        (walked entry count l W remcount).2.toNat <
      remcount.toNat + W.countIn entry l := by
  induction l generalizing W remcount with
  | nil => exact absurd True.intro hfits
  | cons p todo ih =>
    obtain ⟨hp, htodo⟩ := List.pairwise_cons.mp hl
    rw [countIn_cons, countIn_cons]
    rw [List.map_cons] at hfits
    rcases walked_cons W hp hrem with
      ⟨hzero, heq⟩ | ⟨hsmall, hreached, -, -, -⟩ | ⟨sum, hlt, hsum, heq⟩
    · rw [hzero, fits_zero hrem count.toNat_lt] at hfits
      have hless := ih htodo hrem hfits
      rw [heq, countAt_walked hzero hrem, hzero]
      omega
    · exact absurd ⟨hsmall, fun h => absurd h (Nat.not_lt.mpr hreached)⟩ hfits
    · rw [heq, countAt_walked (countAt_destroyItem_self W p) hlt]
      rcases hsum with hsmall | hwrapped
      · have hrest : ¬Fits count.toNat (todo.map ((W.destroyItem p).countAt entry)) sum.toNat := by
          intro h
          rw [map_countAt_destroyItem hp, hsmall] at h
          have hbound := hlt.trans count.toNat_lt
          exact hfits ⟨hsmall ▸ hbound, fun _ => h⟩
        have hless := ih htodo hlt hrest
        rw [countIn_destroyItem hp] at hless
        omega
      · have hle := @walked_le (W.destroyItem p) entry count sum todo htodo hlt
        rw [countIn_destroyItem hp] at hle
        omega

/-! ## What is not destroyed -/

/-- Only what is meant and in one of the places goes, and what is in a bag in one of them that is
gone. -/
def LosesOnly (entry : Nat) (l : List Position) (W W' : Inventory) : Prop :=
  ∀ q, W'.getItemByPos q = W.getItemByPos q ∨
    (q ∈ l ∧ ∃ item, W.getItemByPos q = some item ∧ isMeant entry item = true) ∨
    ∃ p ∈ l, Inside q p ∧ (∃ item, W.getItemByPos p = some item) ∧ W'.getItemByPos p = none

theorem LosesOnly.mono (h : LosesOnly entry l W W') {l' : List Position} (hl : ∀ p ∈ l, p ∈ l') :
    LosesOnly entry l' W W' := by
  intro q
  rcases h q with hsame | ⟨hmem, hmeant⟩ | ⟨p, hmem, hrest⟩
  · exact Or.inl hsame
  · exact Or.inr (Or.inl ⟨hl q hmem, hmeant⟩)
  · exact Or.inr (Or.inr ⟨p, hl p hmem, hrest⟩)

theorem Shrinks.some (h : Shrinks entry W W') (hq : W'.getItemByPos q = some item) :
    ∃ item', W.getItemByPos q = some item' ∧
      (isMeant entry item = true → isMeant entry item' = true) := by
  rcases h q with hnone | ⟨item', hitem', hsame | ⟨hmeant, -⟩⟩
  · rw [hq] at hnone
    cases hnone
  · cases hq.symm.trans hsame
    exact ⟨item, hitem', id⟩
  · exact ⟨item', hitem', fun _ => hmeant⟩

theorem LosesOnly.trans {W'' : Inventory} (h : LosesOnly entry l W W')
    (h' : LosesOnly entry l W' W'') (hs : Shrinks entry W W') (hs' : Shrinks entry W' W'') :
    LosesOnly entry l W W'' := by
  intro q
  rcases h' q with hsame' | ⟨hmem, item, hitem, hmeant⟩ | ⟨p, hmem, hin, ⟨item, hitem⟩, hgone⟩
  · rcases h q with hsame | hmeant | ⟨p, hmem, hin, hitem, hgone⟩
    · exact Or.inl (hsame'.trans hsame)
    · exact Or.inr (Or.inl hmeant)
    · exact Or.inr (Or.inr ⟨p, hmem, hin, hitem, hs'.none hgone⟩)
  · obtain ⟨item', hitem', hmeant'⟩ := hs.some hitem
    exact Or.inr (Or.inl ⟨hmem, item', hitem', hmeant' hmeant⟩)
  · obtain ⟨item', hitem', -⟩ := hs.some hitem
    exact Or.inr (Or.inr ⟨p, hmem, hin, ⟨item', hitem'⟩, hgone⟩)

theorem losesOnly_destroyItem (h : (W.getItemByPos p).filter (isMeant entry) = some item)
    (hp : p ∈ l) : LosesOnly entry l W (W.destroyItem p) := by
  obtain ⟨hitem, hmeant⟩ := filter_meant h
  intro q
  grind [getItemByPos_destroyItem_ne, getItemByPos_destroyItem_self]

theorem losesOnly_setCount (h : (W.getItemByPos p).filter (isMeant entry) = some item)
    (hp : p ∈ l) (c : UInt32) : LosesOnly entry l W (W.setCount p c) := by
  obtain ⟨hitem, hmeant⟩ := filter_meant h
  intro q
  grind [getItemByPos_setCount_ne]

/-- **What else a walk leaves as it was.** -/
theorem losesOnly_walked (hrem : remcount.toNat < count.toNat) :
    LosesOnly entry l W (walked entry count l W remcount).1 := by
  induction l generalizing W remcount with
  | nil =>
    intro q
    exact Or.inl rfl
  | cons p todo ih =>
    unfold walked at *
    rcases destroyOver_cons p todo W remcount with
      ⟨-, heq⟩ | ⟨item, hitem, ⟨-, -, heq⟩ | ⟨-, hnot, heq⟩ | ⟨-, heq⟩⟩
    · rw [heq]
      exact (ih hrem).mono fun _ => List.mem_cons_of_mem p
    · rw [heq]
      exact losesOnly_destroyItem hitem List.mem_cons_self
    · rw [heq]
      rw [UInt32.le_iff_toNat_le, not_le] at hnot
      exact (losesOnly_destroyItem hitem List.mem_cons_self).trans
        ((ih hnot).mono fun _ => List.mem_cons_of_mem p)
        (shrinks_destroyItem W p) (shrinks_destroyOver todo hnot)
    · rw [heq]
      exact losesOnly_setCount hitem List.mem_cons_self _

/-! ## The places of a player -/

theorem mem_mainSlots {first last : Nat} :
    p ∈ mainSlots first last ↔ p.1 = INVENTORY_SLOT_BAG_0 ∧ first ≤ p.2 ∧ p.2 < last := by
  obtain ⟨b, s⟩ := p
  simp only [mainSlots, List.mem_map, List.mem_range'_1, Prod.mk.injEq]
  grind

theorem mem_bagPlaces {bag : Nat} : p ∈ bagPlaces bag ↔ p.1 = bag ∧ p.2 < MAX_BAG_SIZE := by
  obtain ⟨b, s⟩ := p
  simp only [bagPlaces, List.mem_map, List.mem_range, Prod.mk.injEq]
  grind

theorem mem_bags {first last : Nat} :
    p ∈ (List.range' first (last - first)).flatMap bagPlaces ↔
      (first ≤ p.1 ∧ p.1 < last) ∧ p.2 < MAX_BAG_SIZE := by
  simp only [List.mem_flatMap, List.mem_range'_1, mem_bagPlaces]
  grind

theorem apart_of_main {i j : Nat} (h : i ≠ j) :
    Apart (INVENTORY_SLOT_BAG_0, i) (INVENTORY_SLOT_BAG_0, j) := by
  constructor
  · intro heq
    exact h (Prod.mk.inj heq).2.symm
  · rintro ⟨hne, -⟩
    exact hne rfl

theorem apart_of_bag (hp : p.1 ≠ INVENTORY_SLOT_BAG_0) (h : q ≠ p) : Apart p q := by
  refine ⟨h, ?_⟩
  rintro ⟨-, rfl⟩
  exact hp rfl

theorem pairwise_mainSlots (first last : Nat) : (mainSlots first last).Pairwise Apart := by
  grind [apart_of_main, List.pairwise_lt_range', mainSlots]

theorem pairwise_bags {first last : Nat} (hlast : last ≤ 255) :
    ((List.range' first (last - first)).flatMap bagPlaces).Pairwise Apart := by
  rw [List.pairwise_flatMap]
  constructor
  · intro bag hbag
    have hne : bag ≠ INVENTORY_SLOT_BAG_0 := mem_slots_ne hbag hlast
    grind [apart_of_bag, List.pairwise_lt_range, bagPlaces]
  · apply List.Pairwise.imp_of_mem _ List.pairwise_lt_range'
    intro bag bag' hbag _ hlt p hp q hq
    rw [mem_bagPlaces] at hp hq
    have hne : bag ≠ INVENTORY_SLOT_BAG_0 := mem_slots_ne hbag hlast
    apply apart_of_bag (hp.1 ▸ hne)
    rintro rfl
    exact Nat.ne_of_lt hlt (hp.1.symm.trans hq.1)

end Inventory

end EGServer.Items
