import EGServer.Items.Inventory
import Mathlib.Algebra.BigOperators.Group.List.Basic
import Mathlib.Algebra.Order.BigOperators.Group.List

/-!
# Counting and destroying items

`HasItemCount` walks over a player's items until it has seen enough of an entry, and
`DestroyItemCount` walks over them, in another order, until it has destroyed enough. The walks cover
the same places. The running totals are `uint32`, and neither walk sees one wrap around.

Messages to the client, quest counters and item bonuses are not modelled.
-/

namespace EGServer.Items

namespace Inventory

variable (W : Inventory) (entry : Nat) (count : UInt32)

/-! ## Places -/

/-- The slots of the player from `first` up to `last`. -/
def mainSlots (first last : Nat) : List Position :=
  (List.range' first (last - first)).map fun i => (INVENTORY_SLOT_BAG_0, i)

/-- The slots of the bag in a slot, if there is one. -/
def inBag (bag : Nat) : List Position :=
  match W.getBagByPos bag with
  | none => []
  | some b => (List.range b.getBagSize).map fun j => (bag, j)

/-! ## HasItemCount -/

/-- The item is one of those that are counted. -/
def isMeant (item : ItemInfo) : Bool := decide (item.entry = entry) && !item.isInTrade

/-- A loop of `HasItemCount`; `none` when it returns `true`. -/
def countOver : List Position → UInt32 → Option UInt32
  | [], tempcount => some tempcount
  | p :: todo, tempcount =>
    match (W.getItemByPos p).filter (isMeant entry) with
    | none => countOver todo tempcount
    | some item =>
      if count ≤ tempcount + item.count then none else countOver todo (tempcount + item.count)

/-- The loops over the bags in the slots from `first` up to `last`. -/
def countInBags (first last : Nat) (tempcount : UInt32) : Option UInt32 :=
  W.countOver entry count ((List.range' first (last - first)).flatMap W.inBag) tempcount

def hasItemCount (inBankAlso : Bool) : Bool :=
  let afterBags :=
    ((W.countOver entry count (mainSlots EQUIPMENT_SLOT_START INVENTORY_SLOT_ITEM_END) 0).bind
      (W.countOver entry count (mainSlots KEYRING_SLOT_START CURRENCYTOKEN_SLOT_END))).bind
      (W.countInBags entry count INVENTORY_SLOT_BAG_START INVENTORY_SLOT_BAG_END)
  let afterBank :=
    if inBankAlso then
      (afterBags.bind
        (W.countOver entry count (mainSlots BANK_SLOT_ITEM_START BANK_SLOT_ITEM_END))).bind
        (W.countInBags entry count BANK_SLOT_BAG_START BANK_SLOT_BAG_END)
    else afterBags
  afterBank.isNone

/-! ## DestroyItemCount -/

/-- "Also remove all contained items if the item is a bag." -/
def destroyContents (bag : Nat) : Inventory :=
  (List.range MAX_BAG_SIZE).foldl (fun W i => W.removeAt (bag, i)) W

def destroyItem (p : Position) : Inventory :=
  if (W.getItemByPos p).isSome then
    let W :=
      if p.1 = INVENTORY_SLOT_BAG_0 && (W.getItem p.2).any (·.isNotEmptyBag) then
        W.destroyContents p.2
      else W
    W.removeAt p
  else W

/-- How a loop of `DestroyItemCount` ends. -/
inductive Destroyed where
  | returned (W : Inventory) (n : UInt32)
  | goesOn (W : Inventory) (remcount : UInt32)

def Destroyed.andThen (d : Destroyed) (next : Inventory → UInt32 → Destroyed) : Destroyed :=
  match d with
  | .returned W n => .returned W n
  | .goesOn W remcount => next W remcount

def Destroyed.result : Destroyed → Inventory × UInt32
  | .returned W n => (W, n)
  | .goesOn W remcount => (W, remcount)

/-- A loop of `DestroyItemCount`; `mayDestroy` is what it asks before it destroys an item. -/
def destroyOver (mayDestroy : Inventory → Position → Bool) :
    List Position → Inventory → UInt32 → Destroyed
  | [], W, remcount => .goesOn W remcount
  | p :: todo, W, remcount =>
    match (W.getItemByPos p).filter (isMeant entry) with
    | none => destroyOver mayDestroy todo W remcount
    | some item =>
      if item.count + remcount ≤ count then
        if mayDestroy W p then
          if count ≤ remcount + item.count then
            .returned (W.destroyItem p) (remcount + item.count)
          else destroyOver mayDestroy todo (W.destroyItem p) (remcount + item.count)
        else destroyOver mayDestroy todo W remcount
      else .returned (W.setCount p (item.count - count + remcount)) count

def always (_ : Inventory) (_ : Position) : Bool := true

/-- The loops over the contents of bags. -/
def destroyInBags : List Nat → Inventory → UInt32 → Destroyed
  | [], W, remcount => .goesOn W remcount
  | bag :: bags, W, remcount =>
    (destroyOver entry count always (W.inBag bag) W remcount).andThen (destroyInBags bags)

/-- `canUnequip` answers for `CanUnequipItem`. -/
def destroyItemCount (unequip_check : Bool) (canUnequip : Inventory → Position → Bool) :
    Inventory × UInt32 :=
  -- in inventory
  (((((destroyOver entry count always
    (mainSlots INVENTORY_SLOT_ITEM_START INVENTORY_SLOT_ITEM_END) W 0).andThen
  (destroyOver entry count always (mainSlots KEYRING_SLOT_START CURRENCYTOKEN_SLOT_END))).andThen
  -- in inventory bags
  (destroyInBags entry count (List.range' INVENTORY_SLOT_BAG_START
    (INVENTORY_SLOT_BAG_END - INVENTORY_SLOT_BAG_START)))).andThen
  -- in equipment and bag list
  (destroyOver entry count (fun W p => !unequip_check || canUnequip W p)
    (mainSlots EQUIPMENT_SLOT_START INVENTORY_SLOT_BAG_END))).andThen
  -- in bank
  (destroyOver entry count always (mainSlots BANK_SLOT_ITEM_START BANK_SLOT_ITEM_END))).andThen
  -- in bank bags
  (destroyInBags entry count (List.range' BANK_SLOT_BAG_START
    (BANK_SLOT_BAG_END - BANK_SLOT_BAG_START))) |>.result

/-! ## All places -/

/-- All places a bag can have. -/
def bagPlaces (bag : Nat) : List Position := (List.range MAX_BAG_SIZE).map fun j => (bag, j)

/-- Backpack, keyring and currency, bags, equipment, bank and bank bags. -/
def storage : List Position :=
  mainSlots INVENTORY_SLOT_ITEM_START INVENTORY_SLOT_ITEM_END ++
    (mainSlots KEYRING_SLOT_START CURRENCYTOKEN_SLOT_END ++
      ((List.range' INVENTORY_SLOT_BAG_START
          (INVENTORY_SLOT_BAG_END - INVENTORY_SLOT_BAG_START)).flatMap bagPlaces ++
        (mainSlots EQUIPMENT_SLOT_START INVENTORY_SLOT_BAG_END ++
          (mainSlots BANK_SLOT_ITEM_START BANK_SLOT_ITEM_END ++
            (List.range' BANK_SLOT_BAG_START (BANK_SLOT_BAG_END - BANK_SLOT_BAG_START)).flatMap
              bagPlaces))))

/-- How many of the items that are meant are in a place. -/
def countAt (p : Position) : Nat :=
  (((W.getItemByPos p).filter (isMeant entry)).map (·.count.toNat)).getD 0

def countIn (l : List Position) : Nat := (l.map (W.countAt entry)).sum

/-- The number of items of the entry that are not in trade. -/
def total : Nat := W.countIn entry storage

variable {W W' W'' : Inventory} {entry : Nat} {count remcount n : UInt32} {p q : Position}
  {l todo : List Position} {item : ItemInfo}

theorem countIn_cons : W.countIn entry (p :: l) = W.countAt entry p + W.countIn entry l := by
  rw [countIn, List.map_cons, List.sum_cons, countIn]

theorem countIn_append {l' : List Position} :
    W.countIn entry (l ++ l') = W.countIn entry l + W.countIn entry l' := by
  rw [countIn, List.map_append, List.sum_append, countIn, countIn]

theorem countAt_of_meant (h : (W.getItemByPos p).filter (isMeant entry) = some item) :
    W.countAt entry p = item.count.toNat := by
  rw [countAt, h]
  rfl

theorem countAt_of_none (h : (W.getItemByPos p).filter (isMeant entry) = none) :
    W.countAt entry p = 0 := by
  rw [countAt, h]
  rfl

theorem countAt_congr (h : W'.getItemByPos p = W.getItemByPos p) :
    W'.countAt entry p = W.countAt entry p := by
  rw [countAt, countAt, h]

theorem countIn_congr (h : ∀ p ∈ l, W'.getItemByPos p = W.getItemByPos p) :
    W'.countIn entry l = W.countIn entry l := by
  rw [countIn, countIn]
  exact congrArg List.sum (List.map_congr_left fun p hp => countAt_congr (h p hp))

theorem range_max_eq (b : Item) : List.range MAX_BAG_SIZE =
    List.range b.getBagSize ++
      (List.range (MAX_BAG_SIZE - b.getBagSize)).map (b.getBagSize + ·) := by
  rw [← List.range_add, Nat.add_sub_cancel' b.getBagSize_le]

/-! ## What destroying an item does -/

theorem getItemByPos_removeAt_ne (hne : q ≠ p) (hin : ¬Inside q p) :
    (W.removeAt p).getItemByPos q = W.getItemByPos q := by
  grind [getItemByPos_setInBag_ne, getItemByPos_setItem_ne, removeAt]

theorem getItemByPos_removeAt_self : (W.removeAt p).getItemByPos p = none := by
  obtain ⟨b, s⟩ := p
  unfold removeAt
  split
  · next hb =>
    dsimp only at hb ⊢
    subst hb
    unfold getItemByPos
    rw [if_pos rfl, getItem]
    split
    · show Option.map _ (Function.update W.m_items s none s) = none
      rw [Function.update_self]
      rfl
    · rfl
  · next hb =>
    dsimp only at hb ⊢
    split
    · rw [getItemByPos_setInBag_self W hb]
      cases W.getBagByPos b with
      | none => rfl
      | some c =>
        show (if s < _ then none else none) = none
        split <;> rfl
    · next hbag =>
      unfold getItemByPos
      rw [if_neg hb]
      dsimp only
      cases hget : W.getBagByPos b with
      | none => rfl
      | some c =>
        rw [hget] at hbag
        exact absurd rfl hbag

theorem getItemByPos_removeAt_inside (hin : Inside q p) :
    (W.removeAt p).getItemByPos q = none := by
  obtain ⟨hq, rfl⟩ := hin
  obtain ⟨b, s⟩ := q
  dsimp only at hq
  have hgone : (W.removeAt (INVENTORY_SLOT_BAG_0, b)).getBagByPos b = none := by
    rw [removeAt, if_pos rfl, getBagByPos]
    split
    · next hb =>
      rw [getItem_setItem_self W (isItemSlot_of_isBagSlot hb)]
      rfl
    · rfl
  unfold getItemByPos
  dsimp only
  rw [if_neg hq, hgone]
  rfl

theorem getItemByPos_removeAt (q : Position) :
    (W.removeAt p).getItemByPos q = none ∨ (W.removeAt p).getItemByPos q = W.getItemByPos q := by
  grind [getItemByPos_removeAt_ne, getItemByPos_removeAt_inside, getItemByPos_removeAt_self]

theorem getItemByPos_destroyContents (bag : Nat) (q : Position) :
    ((W.destroyContents bag).getItemByPos q = none ∨
        (W.destroyContents bag).getItemByPos q = W.getItemByPos q) ∧
      (q.1 ≠ bag → bag ≠ INVENTORY_SLOT_BAG_0 →
        (W.destroyContents bag).getItemByPos q = W.getItemByPos q) := by
  unfold destroyContents
  generalize List.range MAX_BAG_SIZE = slots
  induction slots generalizing W with
  | nil => exact ⟨Or.inr rfl, fun _ _ => rfl⟩
  | cons i slots ih =>
    rw [List.foldl_cons]
    obtain ⟨hstep, hother⟩ := @ih (W.removeAt (bag, i))
    constructor
    · rcases hstep with h | h
      · exact Or.inl h
      · rw [h]
        exact getItemByPos_removeAt q
    · intro hq hbag
      rw [hother hq hbag]
      apply getItemByPos_removeAt_ne
      · rintro rfl
        exact hq rfl
      · rintro ⟨-, h⟩
        exact hbag (Prod.mk.inj h).1

theorem getItemByPos_destroyItem_self (p : Position) : (W.destroyItem p).getItemByPos p = none := by
  unfold destroyItem
  split
  · exact getItemByPos_removeAt_self
  · next h => simpa using h

theorem getItemByPos_destroyItem (p q : Position) :
    (W.destroyItem p).getItemByPos q = none ∨
      (W.destroyItem p).getItemByPos q = W.getItemByPos q := by
  unfold destroyItem
  split
  · grind [getItemByPos_removeAt, getItemByPos_destroyContents]
  · exact Or.inr rfl

theorem getItemByPos_destroyItem_ne (hne : q ≠ p) (hin : ¬Inside q p) :
    (W.destroyItem p).getItemByPos q = W.getItemByPos q := by
  unfold destroyItem
  split
  · dsimp only
    split
    · next hbag =>
      rw [getItemByPos_removeAt_ne hne hin]
      rw [Bool.and_eq_true, decide_eq_true_eq] at hbag
      obtain ⟨hp, hany⟩ := hbag
      have hslot : p.2 ≠ INVENTORY_SLOT_BAG_0 := by
        intro h
        rw [h] at hany
        cases hany
      obtain ⟨b, s⟩ := q
      obtain ⟨b', s'⟩ := p
      dsimp only at hp hslot ⊢
      subst hp
      by_cases hb : b = s'
      · subst hb
        exact absurd ⟨hslot, rfl⟩ hin
      · exact (getItemByPos_destroyContents s' (b, s)).2 hb hslot
    · exact getItemByPos_removeAt_ne hne hin
  · rfl

/-! ## What setting a count does -/

theorem getItemByPos_setCount_ne (hne : q ≠ p) (c : UInt32) :
    (W.setCount p c).getItemByPos q = W.getItemByPos q := by
  obtain ⟨b, s⟩ := p
  obtain ⟨b', s'⟩ := q
  unfold setCount
  split
  · next hb =>
    dsimp only at hb ⊢
    subst hb
    unfold getItemByPos
    dsimp only
    split
    · next hb' =>
      have hs : s' ≠ s := by
        rintro rfl
        exact hne (by rw [hb'])
      rw [getItem_setItem_ne W hs]
    · -- a bag keeps its contents when its own count is set
      unfold getBagByPos getItem setItem
      dsimp only
      by_cases hs : b' = s
      · subst hs
        rw [Function.update_self]
        split
        · split
          · cases W.m_items b' with
            | none => rfl
            | some c' =>
              rw [Option.map_some, Option.filter_some, Option.filter_some]
              show Option.bind (if c'.isBag = true then _ else _) _ =
                Option.bind (if c'.isBag = true then _ else _) _
              split <;> rfl
          · rfl
        · rfl
      · rw [Function.update_of_ne hs]
  · exact getItemByPos_setInBag_ne W _ hne

theorem getItemByPos_setCount_self (h : W.getItemByPos p = some item) (c : UInt32) :
    (W.setCount p c).getItemByPos p = some { item with count := c } := by
  obtain ⟨b, s⟩ := p
  unfold setCount
  split
  · next hb =>
    dsimp only at hb ⊢
    subst hb
    unfold getItemByPos getItem at *
    rw [if_pos rfl] at *
    dsimp only at h ⊢
    split at h
    · next hs =>
      rw [if_pos hs]
      show Option.map _ (Function.update W.m_items s _ s) = _
      rw [Function.update_self]
      obtain ⟨item', hitem', rfl⟩ := Option.map_eq_some_iff.mp h
      rw [hitem']
      rfl
    · cases h
  · next hb =>
    dsimp only at hb ⊢
    rw [getItemByPos_setInBag_self W hb, h]
    unfold getItemByPos at h
    rw [if_neg hb] at h
    obtain ⟨bag, hbag, hitem⟩ := Option.bind_eq_some_iff.mp h
    dsimp only at hbag
    rw [hbag, Option.bind_some]
    rw [Item.getItemByPos] at hitem
    split at hitem
    · next hs =>
      rw [if_pos hs]
      rfl
    · cases hitem

end Inventory

end EGServer.Items
