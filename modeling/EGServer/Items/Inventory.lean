import Mathlib.Data.UInt
import Mathlib.Logic.Function.Basic
import Mathlib.Tactic.Common

/-!
# The items of a player

`m_items`, and the bags among them with what they hold. An item is known by its place: a bag and a
slot, where the bag 255 stands for the player. A bag inside a bag is empty, so only the items of
`m_items` have contents.
-/

namespace EGServer.Items

def INVENTORY_SLOT_BAG_0 : Nat := 255
def EQUIPMENT_SLOT_START : Nat := 0
def EQUIPMENT_SLOT_END : Nat := 19
def INVENTORY_SLOT_BAG_START : Nat := 19
def INVENTORY_SLOT_BAG_END : Nat := 23
def INVENTORY_SLOT_ITEM_START : Nat := 23
def INVENTORY_SLOT_ITEM_END : Nat := 39
def BANK_SLOT_ITEM_START : Nat := 39
def BANK_SLOT_ITEM_END : Nat := 67
def BANK_SLOT_BAG_START : Nat := 67
def BANK_SLOT_BAG_END : Nat := 74
def BUYBACK_SLOT_START : Nat := 74
def BUYBACK_SLOT_END : Nat := 86
def KEYRING_SLOT_START : Nat := 86
def KEYRING_SLOT_END : Nat := 118
def CURRENCYTOKEN_SLOT_START : Nat := 118
def CURRENCYTOKEN_SLOT_END : Nat := 150

def MAX_BAG_SIZE : Nat := 36

/-- An item without what it holds. -/
structure ItemInfo where
  entry : Nat
  count : UInt32
  /-- The counter of its `ObjectGuid`. -/
  guid : Nat := 0
  isInTrade : Bool := false
  /-- The item is opened and has been filled with loot. -/
  m_lootGenerated : Bool := false
  /-- `GetBagSize()` of a bag. -/
  bagSize : Option (Fin (MAX_BAG_SIZE + 1)) := none
  deriving DecidableEq

structure Item extends ItemInfo where
  m_bagslot : Nat → Option ItemInfo := fun _ => none

/-- A bag and a slot. -/
abbrev Position := Nat × Nat

structure Inventory where
  m_items : Nat → Option Item := fun _ => none

/-- The slots where a bag is open. -/
def isBagSlot (slot : Nat) : Bool :=
  decide (INVENTORY_SLOT_BAG_START ≤ slot) && decide (slot < INVENTORY_SLOT_BAG_END) ||
    decide (BANK_SLOT_BAG_START ≤ slot) && decide (slot < BANK_SLOT_BAG_END)

/-- The slots of `m_items` that `GetItemByPos` looks at; the buyback slots are none of them. -/
def isItemSlot (slot : Nat) : Bool :=
  decide (slot < BANK_SLOT_BAG_END) ||
    decide (KEYRING_SLOT_START ≤ slot) && decide (slot < CURRENCYTOKEN_SLOT_END)

namespace Item

/-- `GetBagSize()`; an item that is no bag has no slots. -/
def getBagSize (item : Item) : Nat := (item.bagSize.map Fin.val).getD 0

theorem getBagSize_le (item : Item) : item.getBagSize ≤ MAX_BAG_SIZE := by
  unfold getBagSize
  cases item.bagSize with
  | none => exact Nat.zero_le _
  | some size => exact Nat.le_of_lt_succ size.isLt

def isBag (item : Item) : Bool := item.bagSize.isSome

/-- `Bag::GetItemByPos` -/
def getItemByPos (bag : Item) (slot : Nat) : Option ItemInfo :=
  if slot < bag.getBagSize then bag.m_bagslot slot else none

/-- `Bag::IsEmpty` -/
def isEmpty (bag : Item) : Bool :=
  (List.range bag.getBagSize).all fun i => (bag.m_bagslot i).isNone

def isNotEmptyBag (item : Item) : Bool := item.isBag && !item.isEmpty

end Item

namespace Inventory

variable (W : Inventory)

/-- `GetItemByPos(INVENTORY_SLOT_BAG_0, slot)` -/
def getItem (slot : Nat) : Option Item := if isItemSlot slot then W.m_items slot else none

def getBagByPos (bag : Nat) : Option Item :=
  if isBagSlot bag then (W.getItem bag).filter (·.isBag) else none

def getItemByPos (p : Position) : Option ItemInfo :=
  if p.1 = INVENTORY_SLOT_BAG_0 then (W.getItem p.2).map (·.toItemInfo)
  else (W.getBagByPos p.1).bind (·.getItemByPos p.2)

/-- Write a slot of `m_items`. -/
def setItem (slot : Nat) (item : Option Item) : Inventory :=
  { m_items := Function.update W.m_items slot item }

/-- `Bag::StoreItem` and `Bag::RemoveItem`, for the bag in a slot. -/
def setInBag (bag slot : Nat) (item : Option ItemInfo) : Inventory :=
  { m_items := Function.update W.m_items bag
      ((W.m_items bag).map fun b => { b with m_bagslot := Function.update b.m_bagslot slot item }) }

/-- Take what is in a place out of it. -/
def removeAt (p : Position) : Inventory :=
  if p.1 = INVENTORY_SLOT_BAG_0 then W.setItem p.2 none
  else if (W.getBagByPos p.1).isSome then W.setInBag p.1 p.2 none
  else W

/-- `SetCount`, of the item in a place. -/
def setCount (p : Position) (count : UInt32) : Inventory :=
  if p.1 = INVENTORY_SLOT_BAG_0 then
    W.setItem p.2 ((W.m_items p.2).map fun item => { item with count })
  else W.setInBag p.1 p.2 (((W.getItemByPos p)).map fun item => { item with count })

variable {W} {p q : Position} {bag slot : Nat}

/-! ## Reading what was written -/

/-- The place is in the bag that is in the other place. -/
def Inside (p q : Position) : Prop := p.1 ≠ INVENTORY_SLOT_BAG_0 ∧ q = (INVENTORY_SLOT_BAG_0, p.1)

theorem isBagSlot_iff : isBagSlot slot = true ↔ 19 ≤ slot ∧ slot < 23 ∨ 67 ≤ slot ∧ slot < 74 := by
  simp only [isBagSlot, Bool.or_eq_true, Bool.and_eq_true, decide_eq_true_eq]
  exact Iff.rfl

theorem isItemSlot_iff : isItemSlot slot = true ↔ slot < 74 ∨ 86 ≤ slot ∧ slot < 150 := by
  simp only [isItemSlot, Bool.or_eq_true, Bool.and_eq_true, decide_eq_true_eq]
  exact Iff.rfl

theorem isItemSlot_of_isBagSlot (h : isBagSlot slot = true) : isItemSlot slot = true := by
  rw [isBagSlot_iff] at h
  rw [isItemSlot_iff]
  omega

theorem getItem_setItem_self (W : Inventory) (hslot : isItemSlot slot = true) (item : Option Item) :
    (W.setItem slot item).getItem slot = item := by
  rw [getItem, if_pos hslot]
  exact Function.update_self ..

theorem getItem_setItem_ne (W : Inventory) {slot' : Nat} (h : slot' ≠ slot) (item : Option Item) :
    (W.setItem slot item).getItem slot' = W.getItem slot' := by
  rw [getItem, getItem]
  split
  · exact Function.update_of_ne h ..
  · rfl

theorem getBagByPos_setItem_ne (W : Inventory) {slot' : Nat} (h : slot' ≠ slot) (item : Option Item) :
    (W.setItem slot item).getBagByPos slot' = W.getBagByPos slot' := by
  rw [getBagByPos, getBagByPos, getItem_setItem_ne W h]

theorem getItemByPos_setItem_ne (W : Inventory) (item : Option Item)
    (hne : q ≠ (INVENTORY_SLOT_BAG_0, slot)) (hin : ¬Inside q (INVENTORY_SLOT_BAG_0, slot)) :
    (W.setItem slot item).getItemByPos q = W.getItemByPos q := by
  obtain ⟨b, s⟩ := q
  unfold getItemByPos
  by_cases hb : b = INVENTORY_SLOT_BAG_0
  · subst hb
    have hs : s ≠ slot := by
      rintro rfl
      exact hne rfl
    rw [if_pos rfl, if_pos rfl, getItem_setItem_ne W hs]
  · have hbag : b ≠ slot := by
      rintro rfl
      exact hin ⟨hb, rfl⟩
    rw [if_neg hb, if_neg hb, getBagByPos_setItem_ne W hbag]

theorem getBagByPos_setInBag (W : Inventory) (bag slot : Nat) (item : Option ItemInfo) (b : Nat) :
    (W.setInBag bag slot item).getBagByPos b =
      if b = bag then (W.getBagByPos b).map fun c =>
        { c with m_bagslot := Function.update c.m_bagslot slot item }
      else W.getBagByPos b := by
  unfold getBagByPos getItem setInBag
  dsimp only
  by_cases hb : b = bag
  · subst hb
    rw [if_pos rfl, Function.update_self]
    split
    · split
      · cases W.m_items b with
        | none => rfl
        | some c =>
          rw [Option.map_some, Option.filter_some, Option.filter_some]
          show (if c.isBag = true then _ else _) = Option.map _ (if c.isBag = true then _ else _)
          split <;> rfl
      · rfl
    · rfl
  · rw [if_neg hb, Function.update_of_ne hb]

theorem getItem_setInBag_info (W : Inventory) (bag slot : Nat) (item : Option ItemInfo) (s : Nat) :
    ((W.setInBag bag slot item).getItem s).map (·.toItemInfo) =
      (W.getItem s).map (·.toItemInfo) := by
  unfold getItem setInBag
  dsimp only
  split
  · by_cases hs : s = bag
    · subst hs
      rw [Function.update_self, Option.map_map]
      rfl
    · rw [Function.update_of_ne hs]
  · rfl

theorem getItemByPos_setInBag_ne (W : Inventory) (item : Option ItemInfo) (hne : q ≠ (bag, slot)) :
    (W.setInBag bag slot item).getItemByPos q = W.getItemByPos q := by
  obtain ⟨b, s⟩ := q
  unfold getItemByPos
  dsimp only
  split
  · exact getItem_setInBag_info W bag slot item s
  · rw [getBagByPos_setInBag]
    split
    · next hb =>
      subst hb
      have hs : s ≠ slot := by
        rintro rfl
        exact hne rfl
      cases W.getBagByPos b with
      | none => rfl
      | some c =>
        show (if s < _ then Function.update c.m_bagslot slot item s else none) =
          if s < _ then c.m_bagslot s else none
        rw [Function.update_of_ne hs]
        rfl
    · rfl

theorem getItemByPos_setInBag_self (W : Inventory) (hbag : bag ≠ INVENTORY_SLOT_BAG_0)
    (item : Option ItemInfo) :
    (W.setInBag bag slot item).getItemByPos (bag, slot) =
      (W.getBagByPos bag).bind fun b => if slot < b.getBagSize then item else none := by
  unfold getItemByPos
  dsimp only
  rw [if_neg hbag, getBagByPos_setInBag, if_pos rfl]
  cases W.getBagByPos bag with
  | none => rfl
  | some b =>
    show (if slot < _ then Function.update b.m_bagslot slot item slot else none) = _
    rw [Function.update_self]
    rfl

end Inventory

end EGServer.Items

/-!
# Item templates

What the storing of items reads of a template, which bags take an item, and the answers of the
functions that look for a place.
-/

namespace EGServer.Items

/-- The answers of the functions that look for a place; `other` is one that only the checks outside
this model give, by its number. -/
inductive InventoryResult where
  | ok
  | wrongSlot
  | bagInBag
  | wrongBagType
  | itemMaxCount
  | cantStack
  | cantSwap
  | itemNotFound
  | destroyNonemptyBag
  | notOwner
  | noBankSlot
  | playerDead
  | lootGone
  | invFull
  | bankFull
  | other (code : Nat)
  deriving DecidableEq

/-! ## Bag families -/

def BAG_FAMILY_MASK_ARROWS : UInt32 := 0x1
def BAG_FAMILY_MASK_BULLETS : UInt32 := 0x2
def BAG_FAMILY_MASK_SOUL_SHARDS : UInt32 := 0x4
def BAG_FAMILY_MASK_LEATHERWORKING_SUPP : UInt32 := 0x8
def BAG_FAMILY_MASK_INSCRIPTION_SUPP : UInt32 := 0x10
def BAG_FAMILY_MASK_HERBS : UInt32 := 0x20
def BAG_FAMILY_MASK_ENCHANTING_SUPP : UInt32 := 0x40
def BAG_FAMILY_MASK_ENGINEERING_SUPP : UInt32 := 0x80
def BAG_FAMILY_MASK_KEYS : UInt32 := 0x100
def BAG_FAMILY_MASK_GEMS : UInt32 := 0x200
def BAG_FAMILY_MASK_MINING_SUPP : UInt32 := 0x400
def BAG_FAMILY_MASK_CURRENCY_TOKENS : UInt32 := 0x2000

def ITEM_CLASS_CONTAINER : Nat := 1
def ITEM_CLASS_QUIVER : Nat := 11

def ITEM_SUBCLASS_CONTAINER : Nat := 0

structure ItemTemplate where
  stackable : Int32 := 1
  bagFamily : UInt32 := 0
  itemClass : Nat := 0
  subClass : Nat := 0
  /-- Cut to `MAX_BAG_SIZE` when the templates are loaded. -/
  containerSlots : Fin (MAX_BAG_SIZE + 1) := 0
  /-- The inventory type is `INVTYPE_BAG`. -/
  isBag : Bool := false

namespace ItemTemplate

variable (proto : ItemTemplate)

def getMaxStackSize : UInt32 :=
  if proto.stackable = 2147483647 ∨ proto.stackable ≤ 0 then 0x7FFFFFFF - 1
  else proto.stackable.toUInt32

def ofFamily (mask : UInt32) : Bool := proto.bagFamily &&& mask != 0

def isCurrencyToken : Bool := proto.ofFamily BAG_FAMILY_MASK_CURRENCY_TOKENS

/-- The family that a special bag asks of an item: a container by its subclass, a quiver by its. -/
def familyAsked : Nat → Nat → Option UInt32
  | 1, 1 => some BAG_FAMILY_MASK_SOUL_SHARDS
  | 1, 2 => some BAG_FAMILY_MASK_HERBS
  | 1, 3 => some BAG_FAMILY_MASK_ENCHANTING_SUPP
  | 1, 4 => some BAG_FAMILY_MASK_ENGINEERING_SUPP
  | 1, 5 => some BAG_FAMILY_MASK_GEMS
  | 1, 6 => some BAG_FAMILY_MASK_MINING_SUPP
  | 1, 7 => some BAG_FAMILY_MASK_LEATHERWORKING_SUPP
  | 1, 8 => some BAG_FAMILY_MASK_INSCRIPTION_SUPP
  | 11, 2 => some BAG_FAMILY_MASK_ARROWS
  | 11, 3 => some BAG_FAMILY_MASK_BULLETS
  | _, _ => none

/-- A bag that is no specialized bag. -/
def isPlainBag : Bool :=
  decide (proto.itemClass = ITEM_CLASS_CONTAINER) && decide (proto.subClass = ITEM_SUBCLASS_CONTAINER)

end ItemTemplate

/-- `ItemCanGoIntoBag`, for two templates that exist. -/
def itemCanGoIntoBag (proto bagProto : ItemTemplate) : Bool :=
  bagProto.isPlainBag ||
    (ItemTemplate.familyAsked bagProto.itemClass bagProto.subClass).any proto.ofFamily

namespace ItemInfo

/-- `CanBeMergedPartlyWith`, for the template of an entry. -/
def canBeMergedPartlyWith (item : ItemInfo) (entry : Nat) (proto : ItemTemplate) : InventoryResult :=
  if item.m_lootGenerated then .lootGone
  else if item.entry ≠ entry then .cantStack
  else if proto.getMaxStackSize ≤ item.count then .cantStack
  else .ok

end ItemInfo

end EGServer.Items
