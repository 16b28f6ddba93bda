import EGServer.Items.ItemCount

/-!
# What is destroyed

`DestroyItemCount` as one walk over all places of a player, and what it takes: as many items of the
entry as asked, or all there are, and nothing else, as long as the stacks that it goes through add up
to less than a `uint32` can hold. The stack that brings the sum to 2³² is destroyed whole, and the
walk goes on as if it had destroyed less.
-/

namespace EGServer.Items

namespace Inventory

variable {W W' W'' : Inventory} {entry : Nat} {count remcount n : UInt32} {p q : Position}
  {l todo : List Position} {item : ItemInfo}

/-! ## Nothing appears -/

/-- In each place there is nothing any more, or the item that was there, perhaps less of it when it
is one that is meant. -/
def Shrinks (entry : Nat) (W W' : Inventory) : Prop :=
  ∀ q, W'.getItemByPos q = none ∨ ∃ item, W.getItemByPos q = some item ∧
    (W'.getItemByPos q = some item ∨ isMeant entry item = true ∧ ∃ c : UInt32,
      c.toNat ≤ item.count.toNat ∧ W'.getItemByPos q = some { item with count := c })

theorem Shrinks.of_get (h : ∀ q, W'.getItemByPos q = none ∨ W'.getItemByPos q = W.getItemByPos q) :
    Shrinks entry W W' := by
  intro q
  rcases h q with h | h
  · exact Or.inl h
  · cases hq : W.getItemByPos q with
    | none => exact Or.inl (h.trans hq)
    | some item => exact Or.inr ⟨item, rfl, Or.inl (h.trans hq)⟩

theorem Shrinks.refl (W : Inventory) : Shrinks entry W W := .of_get fun _ => Or.inr rfl

theorem Shrinks.trans (h : Shrinks entry W W') (h' : Shrinks entry W' W'') : Shrinks entry W W'' := by
  intro q
  rcases h' q with hnone | ⟨item', hitem', hrest'⟩
  · exact Or.inl hnone
  · rcases h q with hnone | ⟨item, hitem, hrest⟩
    · rw [hnone] at hitem'
      cases hitem'
    · grind

theorem Shrinks.none (h : Shrinks entry W W') (hq : W.getItemByPos q = none) :
    W'.getItemByPos q = none := by
  rcases h q with hnone | ⟨item, hitem, -⟩
  · exact hnone
  · rw [hq] at hitem
    cases hitem

theorem Shrinks.countAt_le (h : Shrinks entry W W') (q : Position) :
    W'.countAt entry q ≤ W.countAt entry q := by
  rcases h q with hnone | ⟨item, hitem, hsame | ⟨hmeant, c, hle, hless⟩⟩
  · rw [countAt_of_none (by rw [hnone]; rfl)]
    exact Nat.zero_le _
  · rw [countAt_congr (hsame.trans hitem.symm)]
  · have hbefore : (W.getItemByPos q).filter (isMeant entry) = some item := by
      rw [hitem, Option.filter_some, if_pos hmeant]
    have hafter : (W'.getItemByPos q).filter (isMeant entry) = some { item with count := c } := by
      rw [hless, Option.filter_some]
      exact if_pos hmeant
    rw [countAt_of_meant hbefore, countAt_of_meant hafter]
    exact hle

theorem shrinks_destroyItem (W : Inventory) (p : Position) : Shrinks entry W (W.destroyItem p) :=
  .of_get fun q => getItemByPos_destroyItem p q

theorem filter_meant (h : (W.getItemByPos p).filter (isMeant entry) = some item) :
    W.getItemByPos p = some item ∧ isMeant entry item = true := by
  obtain ⟨hitem, hmeant⟩ := Option.filter_eq_some_iff.mp h
  exact ⟨hitem, hmeant⟩

theorem shrinks_setCount (h : (W.getItemByPos p).filter (isMeant entry) = some item) {c : UInt32}
    (hc : c.toNat ≤ item.count.toNat) : Shrinks entry W (W.setCount p c) := by
  obtain ⟨hitem, hmeant⟩ := filter_meant h
  intro q
  by_cases hq : q = p
  · subst hq
    exact Or.inr ⟨item, hitem, Or.inr ⟨hmeant, c, hc, getItemByPos_setCount_self hitem c⟩⟩
  · rw [getItemByPos_setCount_ne hq]
    cases W.getItemByPos q with
    | none => exact Or.inl rfl
    | some item' => exact Or.inr ⟨item', rfl, Or.inl rfl⟩

/-! ## The arithmetic of a turn -/

theorem toNat_add_small {a b : UInt32} (h : a.toNat + b.toNat < 2 ^ 32) :
    (a + b).toNat = a.toNat + b.toNat := by
  rw [UInt32.toNat_add, Nat.mod_eq_of_lt h]

theorem toNat_add_wrapped {a b : UInt32} (h : 2 ^ 32 ≤ a.toNat + b.toNat) :
    (a + b).toNat + 2 ^ 32 = a.toNat + b.toNat := by
  have ha := a.toNat_lt
  have hb := b.toNat_lt
  rw [UInt32.toNat_add]
  omega

theorem toNat_left {c : UInt32} (hrem : remcount.toNat < count.toNat)
    (h : count.toNat < c.toNat + remcount.toNat) :
    (c - count + remcount).toNat + count.toNat = c.toNat + remcount.toNat := by
  have hc := c.toNat_lt
  have hcount := count.toNat_lt
  rw [UInt32.toNat_add, UInt32.toNat_sub]
  omega

/-! ## The walk -/

theorem destroyOver_cons (p : Position) (todo : List Position) (W : Inventory) (remcount : UInt32) :
    ((W.getItemByPos p).filter (isMeant entry) = none ∧
        destroyOver entry count always (p :: todo) W remcount =
          destroyOver entry count always todo W remcount) ∨
      ∃ item, (W.getItemByPos p).filter (isMeant entry) = some item ∧
        ((item.count + remcount ≤ count ∧ count ≤ remcount + item.count ∧
            destroyOver entry count always (p :: todo) W remcount =
              .returned (W.destroyItem p) (remcount + item.count)) ∨
          (item.count + remcount ≤ count ∧ ¬count ≤ remcount + item.count ∧
            destroyOver entry count always (p :: todo) W remcount =
              destroyOver entry count always todo (W.destroyItem p) (remcount + item.count)) ∨
          (¬item.count + remcount ≤ count ∧
            destroyOver entry count always (p :: todo) W remcount =
              .returned (W.setCount p (item.count - count + remcount)) count)) := by
  rw [destroyOver]
  cases h : (W.getItemByPos p).filter (isMeant entry) with
  | none => exact Or.inl ⟨rfl, rfl⟩
  | some item =>
    refine Or.inr ⟨item, rfl, ?_⟩
    dsimp only
    by_cases hle : item.count + remcount ≤ count
    · have halways : always W p = true := rfl
      grind
    · rw [if_neg hle]
      exact Or.inr (Or.inr ⟨hle, rfl⟩)

theorem destroyOver_append {mayDestroy : Inventory → Position → Bool} (l l' : List Position)
    (W : Inventory) (remcount : UInt32) :
    destroyOver entry count mayDestroy (l ++ l') W remcount =
      (destroyOver entry count mayDestroy l W remcount).andThen
        (destroyOver entry count mayDestroy l') := by
  induction l generalizing W remcount with
  | nil => rfl
  | cons p l ih =>
    rw [List.cons_append, destroyOver, destroyOver]
    split
    · exact ih W remcount
    · split
      · split
        · split
          · rfl
          · exact ih _ _
        · exact ih W remcount
      · rfl

theorem destroyOver_none {mayDestroy : Inventory → Position → Bool}
    (h : ∀ p ∈ l, W.getItemByPos p = none) (remcount : UInt32) :
    destroyOver entry count mayDestroy l W remcount = .goesOn W remcount := by
  induction l with
  | nil => rfl
  | cons p l ih =>
    obtain ⟨hp, hl⟩ := List.forall_mem_cons.mp h
    rw [destroyOver, hp]
    exact ih hl

/-- **The walk only takes away**, from whatever it starts below the count. -/
theorem shrinks_destroyOver (l : List Position) (hrem : remcount.toNat < count.toNat) :
    Shrinks entry W (destroyOver entry count always l W remcount).result.1 := by
  induction l generalizing W remcount with
  | nil => exact .refl W
  | cons p todo ih =>
    rcases @destroyOver_cons entry count p todo W remcount with
      ⟨-, heq⟩ | ⟨item, hitem, ⟨-, -, heq⟩ | ⟨hle, hnot, heq⟩ | ⟨hnot, heq⟩⟩
    · rw [heq]
      exact ih hrem
    · rw [heq]
      exact shrinks_destroyItem W p
    · rw [heq]
      refine (shrinks_destroyItem W p).trans (ih ?_)
      rwa [UInt32.le_iff_toNat_le, not_le] at hnot
    · rw [heq]
      apply shrinks_setCount hitem
      rw [UInt32.le_iff_toNat_le, not_le] at hnot
      by_cases hfits : item.count.toNat + remcount.toNat < 2 ^ 32
      · rw [toNat_add_small hfits] at hnot
        have hleft := toNat_left hrem hnot
        omega
      · have hwrapped := toNat_add_wrapped (Nat.not_lt.mp hfits)
        have hc := item.count.toNat_lt
        omega

theorem goesOn_lt {remcount' : UInt32} (hrem : remcount.toNat < count.toNat)
    (h : destroyOver entry count always l W remcount = .goesOn W' remcount') :
    remcount'.toNat < count.toNat := by
  induction l generalizing W remcount with
  | nil =>
    cases h
    exact hrem
  | cons p todo ih =>
    rcases @destroyOver_cons entry count p todo W remcount with
      ⟨-, heq⟩ | ⟨item, -, ⟨-, -, heq⟩ | ⟨-, hnot, heq⟩ | ⟨-, heq⟩⟩
    · exact ih hrem (heq.symm.trans h)
    · cases heq.symm.trans h
    · refine ih ?_ (heq.symm.trans h)
      rwa [UInt32.le_iff_toNat_le, not_le] at hnot
    · cases heq.symm.trans h

/-! ## One walk over all places -/

theorem destroyOver_inBag (bag : Nat) (hbag : bag ≠ INVENTORY_SLOT_BAG_0)
    (hrem : remcount.toNat < count.toNat) :
    destroyOver entry count always (W.inBag bag) W remcount =
      destroyOver entry count always (bagPlaces bag) W remcount := by
  unfold inBag
  cases hget : W.getBagByPos bag with
  | none =>
    refine (destroyOver_none ?_ remcount).symm
    intro p hp
    obtain ⟨j, -, rfl⟩ := List.mem_map.mp hp
    rw [getItemByPos, if_neg hbag, hget]
    rfl
  | some b =>
    have hbeyond : ∀ p ∈ ((List.range (MAX_BAG_SIZE - b.getBagSize)).map (b.getBagSize + ·)).map
        (fun j => (bag, j)), W.getItemByPos p = none := by
      intro p hp
      obtain ⟨j, hj, rfl⟩ := List.mem_map.mp hp
      obtain ⟨k, -, rfl⟩ := List.mem_map.mp hj
      rw [getItemByPos, if_neg hbag, hget, Option.bind_some, Item.getItemByPos]
      exact if_neg (Nat.not_lt.mpr (Nat.le_add_right _ _))
    rw [bagPlaces, range_max_eq b, List.map_append, destroyOver_append]
    have hshrinks := @shrinks_destroyOver W entry count remcount
      ((List.range b.getBagSize).map fun j => (bag, j)) hrem
    dsimp only
    cases hwalk : destroyOver entry count always ((List.range b.getBagSize).map fun j => (bag, j)) W
        remcount with
    | returned W' n => rfl
    | goesOn W' n =>
      rw [hwalk] at hshrinks
      exact (destroyOver_none (fun p hp => hshrinks.none (hbeyond p hp)) n).symm

theorem destroyInBags_eq (bags : List Nat) (hbags : ∀ bag ∈ bags, bag ≠ INVENTORY_SLOT_BAG_0)
    (hrem : remcount.toNat < count.toNat) :
    destroyInBags entry count bags W remcount =
      destroyOver entry count always (bags.flatMap bagPlaces) W remcount := by
  induction bags generalizing W remcount with
  | nil => rfl
  | cons bag bags ih =>
    obtain ⟨hbag, hrest⟩ := List.forall_mem_cons.mp hbags
    rw [destroyInBags, destroyOver_inBag bag hbag hrem, List.flatMap_cons, destroyOver_append]
    cases hwalk : destroyOver entry count always (bagPlaces bag) W remcount with
    | returned W' n => rfl
    | goesOn W' n => exact ih hrest (goesOn_lt hrem hwalk)

theorem andThen_congr {next next' : Inventory → UInt32 → Destroyed}
    (hrem : remcount.toNat < count.toNat)
    (h : ∀ W' n, n.toNat < count.toNat → next W' n = next' W' n) :
    (destroyOver entry count always l W remcount).andThen next =
      (destroyOver entry count always l W remcount).andThen next' := by
  cases hwalk : destroyOver entry count always l W remcount with
  | returned W' n => rfl
  | goesOn W' n => exact h W' n (goesOn_lt hrem hwalk)

theorem mem_slots_ne {first last bag : Nat} (h : bag ∈ List.range' first (last - first))
    (hlast : last ≤ 255) : bag ≠ INVENTORY_SLOT_BAG_0 := by
  rw [List.mem_range'_1] at h
  rw [INVENTORY_SLOT_BAG_0]
  omega

/-- **One walk.** -/
theorem destroyItemCount_eq (W : Inventory) (hcount : 0 < count)
    (canUnequip : Inventory → Position → Bool) :
    W.destroyItemCount entry count false canUnequip =
      (destroyOver entry count always storage W 0).result := by
  have hzero : (0 : UInt32).toNat < count.toNat := UInt32.lt_iff_toNat_lt.mp hcount
  have hassoc : ∀ (d : Destroyed) (f g : Inventory → UInt32 → Destroyed),
      (d.andThen f).andThen g = d.andThen fun W n => (f W n).andThen g := by
    intro d f g
    cases d <;> rfl
  have hequip : (fun (W : Inventory) (p : Position) => !false || canUnequip W p) = always := rfl
  unfold destroyItemCount storage
  rw [hequip]
  simp only [hassoc]
  apply congrArg Destroyed.result
  rw [destroyOver_append]
  apply andThen_congr hzero
  intro W n hn
  rw [destroyOver_append]
  apply andThen_congr hn
  intro W n hn
  rw [destroyOver_append, destroyInBags_eq _ (fun bag hbag => mem_slots_ne hbag (by decide)) hn]
  apply andThen_congr hn
  intro W n hn
  rw [destroyOver_append]
  apply andThen_congr hn
  intro W n hn
  rw [destroyOver_append]
  apply andThen_congr hn
  intro W n hn
  exact destroyInBags_eq _ (fun bag hbag => mem_slots_ne hbag (by decide)) hn

end Inventory

end EGServer.Items
