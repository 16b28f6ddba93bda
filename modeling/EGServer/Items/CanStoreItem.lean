import EGServer.Items.ItemCount

/-!
# Looking for a place

`CanStoreItem` and `CanBankItem` look for places for so many pieces of an item. They are a list of
stages, tried one after another: a place that was asked for, the bag that was asked for, stacks that
can take more, free slots. Each stage adds places to `dest` and takes from the count that is left to
place, and the first stage that places the last piece ends the search. What a search has planned
stays in `dest` when it fails.

`no_space_count` is not modelled.
-/

namespace EGServer.Items

def NULL_BAG : Nat := 0
def NULL_SLOT : Nat := 255
def PLAYER_SLOT_END : Nat := 150

/-- `GetMaxKeyringSize()` -/
def getMaxKeyringSize : Nat := KEYRING_SLOT_END - KEYRING_SLOT_START

/-- What the rest of the server answers about items. -/
structure Rules where
  getItemTemplate : Nat → Option ItemTemplate
  /-- `GetLootGUID()`; `none` is the empty guid. -/
  lootGUID : Option Nat := none
  isBindedNotWith : ItemInfo → Bool := fun _ => false
  /-- The answer of `CanTakeMoreSimilarItems`, and the `no_space_count` it sets. -/
  canTakeMoreSimilarItems : Inventory → Nat → UInt32 → Option Item → InventoryResult × UInt32 :=
    fun _ _ _ _ => (.ok, 0)
  bankBagSlotCount : Nat := 0
  canUseItem : Item → InventoryResult := fun _ => .ok

/-- The `dest` of a search, and what is still to be placed. -/
structure Planned where
  dest : List (Position × UInt32) := []
  count : UInt32

namespace Planned

variable (d : Planned)

/-- `isContainedIn` -/
def isContained (p : Position) : Bool := d.dest.any fun e => decide (e.1 = p)

def push (p : Position) (need_space : UInt32) : Planned :=
  let need_space := if d.count < need_space then d.count else need_space
  { dest := d.dest ++ [(p, need_space)], count := d.count - need_space }

/-- Add a place, unless it is planned already. -/
def reserve (p : Position) (need_space : UInt32) : Planned :=
  if d.isContained p then d else d.push p need_space

/-- A loop over places, with the space that each has for the item; it ends with the last piece. -/
def fill (space : Position → Option UInt32) : List Position → Planned → Planned
  | [], d => d
  | p :: todo, d =>
    match space p with
    | none => fill space todo d
    | some need_space =>
      if d.isContained p then fill space todo d
      else if (d.push p need_space).count = 0 then d.push p need_space
      else fill space todo (d.push p need_space)

end Planned

/-- What is to be stored: new pieces of an entry, or an item that moves. -/
structure Request where
  entry : Nat
  proto : ItemTemplate
  pSrcItem : Option Item := none

namespace Request

/-- A bag that holds something is to be moved. -/
def isNotEmptyBag (r : Request) : Bool := r.pSrcItem.any (·.isNotEmptyBag)

/-- The pointer is that of the item that moves. -/
def isSrc (r : Request) (item : ItemInfo) : Bool := r.pSrcItem.any fun src => src.guid == item.guid

end Request

def isBagPos (p : Position) : Bool := decide (p.1 = INVENTORY_SLOT_BAG_0) && isBagSlot p.2

namespace Inventory

variable (R : Rules) (W : Inventory) (r : Request)

/-- What is in a place; "ignore move item (this slot will be empty at move)". -/
def otherItem (p : Position) : Option ItemInfo := (W.getItemByPos p).filter fun item => !r.isSrc item

/-- "empty specific slot - check item fit to slot" -/
def checkFits (p : Position) : InventoryResult :=
  if p.1 = INVENTORY_SLOT_BAG_0 then
    -- keyring case
    if KEYRING_SLOT_START ≤ p.2 ∧ p.2 < KEYRING_SLOT_START + getMaxKeyringSize ∧
        r.proto.ofFamily BAG_FAMILY_MASK_KEYS = false then .wrongBagType
    -- currencytoken case
    else if CURRENCYTOKEN_SLOT_START ≤ p.2 ∧ p.2 < CURRENCYTOKEN_SLOT_END ∧
        r.proto.isCurrencyToken = false then .wrongBagType
    -- prevent cheating
    else if BUYBACK_SLOT_START ≤ p.2 ∧ p.2 < BUYBACK_SLOT_END ∨ PLAYER_SLOT_END ≤ p.2 then
      .wrongBagType
    else .ok
  else
    match W.getBagByPos p.1 with
    | none => .wrongBagType
    | some bag =>
      match R.getItemTemplate bag.entry with
      | none => .wrongBagType
      | some bagProto =>
        if bagProto.containerSlots.val ≤ p.2 then .wrongBagType
        else if itemCanGoIntoBag r.proto bagProto then .ok
        else .wrongBagType

def canStoreItem_InSpecificSlot (p : Position) (swap : Bool) (d : Planned) :
    InventoryResult × Planned :=
  if r.isNotEmptyBag && !isBagPos p then (.destroyNonemptyBag, d)
  else
    match if swap then none else W.otherItem r p with
    | none =>
      if W.checkFits R r p = .ok then (.ok, d.reserve p r.proto.getMaxStackSize)
      else (W.checkFits R r p, d)
    | some pItem2 =>
      if pItem2.canBeMergedPartlyWith r.entry r.proto = .ok then
        (.ok, d.reserve p (r.proto.getMaxStackSize - pItem2.count))
      else (pItem2.canBeMergedPartlyWith r.entry r.proto, d)

/-- The space of a place; none when it is skipped: "if merge skip empty, if !merge skip non-empty". -/
def spaceFor (merge : Bool) (p : Position) : Option UInt32 :=
  match W.otherItem r p with
  | none => if merge then none else some r.proto.getMaxStackSize
  | some pItem2 =>
    if merge && decide (pItem2.canBeMergedPartlyWith r.entry r.proto = .ok) then
      some (r.proto.getMaxStackSize - pItem2.count)
    else none

def canStoreItem_InInventorySlots (slot_begin slot_end : Nat) (merge : Bool) (skip : Position)
    (d : Planned) : InventoryResult × Planned :=
  if r.isNotEmptyBag then (.destroyNonemptyBag, d)
  else (.ok, d.fill (W.spaceFor r merge) ((mainSlots slot_begin slot_end).filter (· ≠ skip)))

def canStoreItem_InBag (bag : Nat) (merge non_specialized : Bool) (skip_bag skip_slot : Nat)
    (d : Planned) : InventoryResult × Planned :=
  if bag = skip_bag then (.wrongBagType, d)
  else
    match W.getBagByPos bag with
    | none => (.wrongBagType, d)
    | some pBag =>
      if r.isSrc pBag.toItemInfo then (.wrongBagType, d)
      else if r.isNotEmptyBag then (.destroyNonemptyBag, d)
      else
        match R.getItemTemplate pBag.entry with
        | none => (.wrongBagType, d)
        | some pBagProto =>
          if non_specialized ≠ pBagProto.isPlainBag then (.wrongBagType, d)
          else if !itemCanGoIntoBag r.proto pBagProto then (.wrongBagType, d)
          else (.ok, d.fill (W.spaceFor r merge) ((W.inBag bag).filter (·.2 ≠ skip_slot)))

end Inventory

/-! ## Stages -/

/-- A stage of a search; an error ends the search, or only the stage. -/
structure Stage where
  final : Bool
  run : Planned → InventoryResult × Planned

/-- The stages one after another; `full` is the answer when no stage is left. -/
def runStages (full : InventoryResult) (no_similar_count : UInt32) :
    List Stage → Planned → InventoryResult × Planned
  | [], d => (full, d)
  | stage :: todo, d =>
    if (stage.run d).1 ≠ .ok then
      if stage.final then stage.run d else runStages full no_similar_count todo (stage.run d).2
    else if (stage.run d).2.count = 0 then
      (if no_similar_count = 0 then .ok else .itemMaxCount, (stage.run d).2)
    else runStages full no_similar_count todo (stage.run d).2

namespace Inventory

variable (R : Rules) (W : Inventory) (r : Request) (bag slot : Nat)

def inSpecificSlot (swap : Bool) : Stage :=
  { final := true, run := W.canStoreItem_InSpecificSlot R r (bag, slot) swap }

def inSlots (slot_begin slot_end : Nat) (merge : Bool) : Stage :=
  { final := true, run := W.canStoreItem_InInventorySlots r slot_begin slot_end merge (bag, slot) }

def inBags (merge non_specialized : Bool) (slot_begin slot_end : Nat) : List Stage :=
  (List.range' slot_begin (slot_end - slot_begin)).map fun i =>
    { final := false, run := W.canStoreItem_InBag R r i merge non_specialized bag slot }

/-- "we need check 2 time (specialized/non_specialized), use NULL_BAG to prevent skipping bag" -/
def inThisBag (merge : Bool) : Stage where
  final := true
  run d :=
    if (W.canStoreItem_InBag R r bag merge false NULL_BAG slot d).1 ≠ .ok then
      W.canStoreItem_InBag R r bag merge true NULL_BAG slot
        (W.canStoreItem_InBag R r bag merge false NULL_BAG slot d).2
    else W.canStoreItem_InBag R r bag merge false NULL_BAG slot d

def refuse (res : InventoryResult) : Stage := { final := true, run := fun d => (res, d) }

/-- `CanStoreItem` from the place that is asked for on. -/
def storeStages (swap : Bool) : List Stage :=
  -- in specific slot
  (if bag ≠ NULL_BAG ∧ slot ≠ NULL_SLOT then [W.inSpecificSlot R r bag slot swap] else []) ++
  -- in specific bag
  (if bag ≠ NULL_BAG then
    -- search stack in bag for merge to
    (if r.proto.getMaxStackSize ≠ 1 then
      if bag = INVENTORY_SLOT_BAG_0 then
        [W.inSlots r bag slot KEYRING_SLOT_START CURRENCYTOKEN_SLOT_END true,
          W.inSlots r bag slot INVENTORY_SLOT_ITEM_START INVENTORY_SLOT_ITEM_END true]
      else [W.inThisBag R r bag slot true]
    else []) ++
    -- search free slot in bag for place to
    (if bag = INVENTORY_SLOT_BAG_0 then
      (if r.proto.ofFamily BAG_FAMILY_MASK_KEYS then
        [W.inSlots r bag slot KEYRING_SLOT_START (KEYRING_SLOT_START + getMaxKeyringSize) false,
          W.inSlots r bag slot CURRENCYTOKEN_SLOT_START CURRENCYTOKEN_SLOT_END false]
      else if r.proto.isCurrencyToken then
        [W.inSlots r bag slot CURRENCYTOKEN_SLOT_START CURRENCYTOKEN_SLOT_END false]
      else []) ++
      [W.inSlots r bag slot INVENTORY_SLOT_ITEM_START INVENTORY_SLOT_ITEM_END false]
    else [W.inThisBag R r bag slot false])
  else []) ++
  -- search stack for merge to
  (if r.proto.getMaxStackSize ≠ 1 then
    [W.inSlots r bag slot KEYRING_SLOT_START CURRENCYTOKEN_SLOT_END true,
      W.inSlots r bag slot INVENTORY_SLOT_ITEM_START INVENTORY_SLOT_ITEM_END true] ++
    (if r.proto.bagFamily ≠ 0 then
      W.inBags R r bag slot true false INVENTORY_SLOT_BAG_START INVENTORY_SLOT_BAG_END
    else []) ++
    W.inBags R r bag slot true true INVENTORY_SLOT_BAG_START INVENTORY_SLOT_BAG_END
  else []) ++
  -- search free slot - special bag case
  (if r.proto.bagFamily ≠ 0 then
    (if r.proto.ofFamily BAG_FAMILY_MASK_KEYS then
      [W.inSlots r bag slot KEYRING_SLOT_START (KEYRING_SLOT_START + getMaxKeyringSize) false]
    else if r.proto.isCurrencyToken then
      [W.inSlots r bag slot CURRENCYTOKEN_SLOT_START CURRENCYTOKEN_SLOT_END false]
    else []) ++
    W.inBags R r bag slot false false INVENTORY_SLOT_BAG_START INVENTORY_SLOT_BAG_END
  else []) ++
  (if r.isNotEmptyBag then [refuse .bagInBag]
  else
    -- search free slot
    W.inSlots r bag slot INVENTORY_SLOT_ITEM_START INVENTORY_SLOT_ITEM_END false ::
      W.inBags R r bag slot false true INVENTORY_SLOT_BAG_START INVENTORY_SLOT_BAG_END)

/-- `CanBankItem` from the place that is asked for on. -/
def bankStages (swap : Bool) : List Stage :=
  -- in specific slot
  (if bag ≠ NULL_BAG ∧ slot ≠ NULL_SLOT then [W.inSpecificSlot R r bag slot swap] else []) ++
  -- in specific bag
  (if bag ≠ NULL_BAG then
    if r.isNotEmptyBag then [refuse .bagInBag]
    else
      -- search stack in bag for merge to
      (if r.proto.getMaxStackSize ≠ 1 then
        if bag = INVENTORY_SLOT_BAG_0 then
          [W.inSlots r bag slot BANK_SLOT_ITEM_START BANK_SLOT_ITEM_END true]
        else [W.inThisBag R r bag slot true]
      else []) ++
      -- search free slot in bag
      (if bag = INVENTORY_SLOT_BAG_0 then
        [W.inSlots r bag slot BANK_SLOT_ITEM_START BANK_SLOT_ITEM_END false]
      else [W.inThisBag R r bag slot false])
  else []) ++
  -- search stack for merge to
  (if r.proto.getMaxStackSize ≠ 1 then
    [W.inSlots r bag slot BANK_SLOT_ITEM_START BANK_SLOT_ITEM_END true] ++
    (if r.proto.bagFamily ≠ 0 then
      W.inBags R r bag slot true false BANK_SLOT_BAG_START BANK_SLOT_BAG_END
    else []) ++
    W.inBags R r bag slot true true BANK_SLOT_BAG_START BANK_SLOT_BAG_END
  else []) ++
  -- search free place in special bag
  (if r.proto.bagFamily ≠ 0 then
    W.inBags R r bag slot false false BANK_SLOT_BAG_START BANK_SLOT_BAG_END
  else []) ++
  -- search free space
  W.inSlots r bag slot BANK_SLOT_ITEM_START BANK_SLOT_ITEM_END false ::
    W.inBags R r bag slot false true BANK_SLOT_BAG_START BANK_SLOT_BAG_END

/-! ## The searches -/

def canStoreItem (dest : List (Position × UInt32)) (entry : Nat) (count : UInt32)
    (pItem : Option Item) (swap : Bool) : InventoryResult × List (Position × UInt32) :=
  match R.getItemTemplate entry with
  | none => (if swap then .cantSwap else .itemNotFound, dest)
  | some proto =>
    -- swapping/merging with currently looted item
    if pItem.any fun item => R.lootGUID == some item.guid then (.lootGone, dest)
    else if pItem.any fun item => R.isBindedNotWith item.toItemInfo then (.notOwner, dest)
    else
      let res := (R.canTakeMoreSimilarItems W entry count pItem).1
      let no_similar_count := (R.canTakeMoreSimilarItems W entry count pItem).2
      if res ≠ .ok ∧ count = no_similar_count then (res, dest)
      else
        let count := if res ≠ .ok then count - no_similar_count else count
        let found := runStages .invFull no_similar_count
          (W.storeStages R { entry, proto, pSrcItem := pItem } bag slot swap) { dest, count }
        (found.1, found.2.dest)

/-- `CanStoreNewItem`, which goes on with the `dest` it is given. -/
def canStoreNewItem (dest : List (Position × UInt32)) (entry : Nat) (count : UInt32) :
    InventoryResult × List (Position × UInt32) :=
  W.canStoreItem R bag slot dest entry count none false

/-- `pItemslot` is the slot that the item has now. -/
def canBankItem (pItem : Item) (pItemslot : Nat) (swap : Bool) :
    InventoryResult × List (Position × UInt32) :=
  match R.getItemTemplate pItem.entry with
  | none => (if swap then .cantSwap else .itemNotFound, [])
  | some proto =>
    if R.lootGUID = some pItem.guid then (.lootGone, [])
    else if R.isBindedNotWith pItem.toItemInfo then (.notOwner, [])
    -- Currency tokens are not supposed to be swapped out of their hidden bag
    else if CURRENCYTOKEN_SLOT_START ≤ pItemslot ∧ pItemslot < CURRENCYTOKEN_SLOT_END then
      (.cantSwap, [])
    else
      let res := (R.canTakeMoreSimilarItems W pItem.entry pItem.count (some pItem)).1
      if res ≠ .ok then (res, [])
      else
        let isBankBag := bag ≠ NULL_BAG ∧ BANK_SLOT_BAG_START ≤ slot ∧ slot < BANK_SLOT_BAG_END
        if isBankBag ∧ pItem.isBag = false then (.wrongSlot, [])
        else if isBankBag ∧ R.bankBagSlotCount ≤ slot - BANK_SLOT_BAG_START then (.noBankSlot, [])
        else if isBankBag ∧ R.canUseItem pItem ≠ .ok then (R.canUseItem pItem, [])
        else
          let found := runStages .bankFull 0
            (W.bankStages R { entry := pItem.entry, proto, pSrcItem := some pItem } bag slot swap)
            { count := pItem.count }
          (found.1, found.2.dest)

end Inventory

end EGServer.Items

/-!
# Storing items

What `StoreItem` does with the places that a search has planned: a stack that is there grows, an
empty place gets a clone, and the last place gets the item itself. `RemoveItem` takes an item out
without changing it.

Quests, achievements, bindings and the spells of an item are not modelled.
-/

namespace EGServer.Items

/-- The items of a player, and the generator of item guids. -/
structure Storage where
  inventory : Inventory := {}
  nextGuid : Nat := 1

def isInventoryPos (p : Position) : Bool :=
  decide (p.1 = INVENTORY_SLOT_BAG_0) && decide (p.2 = NULL_SLOT) ||
    decide (p.1 = INVENTORY_SLOT_BAG_0) && decide (INVENTORY_SLOT_ITEM_START ≤ p.2) &&
      decide (p.2 < INVENTORY_SLOT_ITEM_END) ||
    decide (INVENTORY_SLOT_BAG_START ≤ p.1) && decide (p.1 < INVENTORY_SLOT_BAG_END) ||
    decide (p.1 = INVENTORY_SLOT_BAG_0) && decide (KEYRING_SLOT_START ≤ p.2) &&
      decide (p.2 < CURRENCYTOKEN_SLOT_END)

def isEquipmentPos (p : Position) : Bool :=
  decide (p.1 = INVENTORY_SLOT_BAG_0) && decide (p.2 < EQUIPMENT_SLOT_END) ||
    decide (p.1 = INVENTORY_SLOT_BAG_0) && decide (INVENTORY_SLOT_BAG_START ≤ p.2) &&
      decide (p.2 < INVENTORY_SLOT_BAG_END)

def isBankPos (p : Position) : Bool :=
  decide (p.1 = INVENTORY_SLOT_BAG_0) && decide (BANK_SLOT_ITEM_START ≤ p.2) &&
      decide (p.2 < BANK_SLOT_ITEM_END) ||
    decide (p.1 = INVENTORY_SLOT_BAG_0) && decide (BANK_SLOT_BAG_START ≤ p.2) &&
      decide (p.2 < BANK_SLOT_BAG_END) ||
    decide (BANK_SLOT_BAG_START ≤ p.1) && decide (p.1 < BANK_SLOT_BAG_END)

namespace Item

/-- `Bag::StoreItem` -/
def storeInside (bag : Item) (slot : Nat) (item : ItemInfo) : Item :=
  if item.guid ≠ bag.guid then { bag with m_bagslot := Function.update bag.m_bagslot slot (some item) }
  else bag

/-- `Bag::RemoveItem` -/
def removeInside (bag : Item) (slot : Nat) : Item :=
  { bag with m_bagslot := Function.update bag.m_bagslot slot none }

end Item

namespace Inventory

variable (W : Inventory) (p : Position)

/-- The item in a place, with what it holds. -/
def getItemAt : Option Item :=
  if p.1 = INVENTORY_SLOT_BAG_0 then W.getItem p.2
  else ((W.getBagByPos p.1).bind (·.getItemByPos p.2)).map fun item => { toItemInfo := item }

/-- `RemoveItem` -/
def removeItem : Inventory := if (W.getItemByPos p).isSome then W.removeAt p else W

/-- Put an item into an empty place; a place in a bag that is not there is one of `m_items`. -/
def put (item : Item) : Inventory :=
  if p.1 = INVENTORY_SLOT_BAG_0 then W.setItem p.2 (some item)
  else
    match W.getBagByPos p.1 with
    | none => W.setItem p.2 (some item)
    | some pBag =>
      if item.guid ≠ pBag.guid then W.setInBag p.1 p.2 (some item.toItemInfo) else W

end Inventory

namespace Storage

variable (R : Rules)

/-- `Item::CreateItem`; `none` for no pieces, and for an entry without a template. -/
def createItem (s : Storage) (entry : Nat) (count : UInt32) : Option (Item × Storage) :=
  if count < 1 then none
  else
    match R.getItemTemplate entry with
    | none => none
    | some proto =>
      some
        ({ entry
           count := if proto.getMaxStackSize < count then proto.getMaxStackSize else count
           guid := s.nextGuid
           bagSize := if proto.isBag then some proto.containerSlots else none },
          { s with nextGuid := s.nextGuid + 1 })

def put (s : Storage) (p : Position) (item : Item) : Storage :=
  { s with inventory := s.inventory.put p item }

/-- `_StoreItem` -/
def storeAt (s : Storage) (p : Position) (pItem : Item) (count : UInt32) (clone : Bool) : Storage :=
  match s.inventory.getItemByPos p with
  | none =>
    if clone then
      match s.createItem R pItem.entry count with
      | none => s
      | some (newItem, s) => s.put p newItem
    else s.put p { pItem with count }
  | some pItem2 => { s with inventory := s.inventory.setCount p (pItem2.count + count) }

/-- `StoreItem`, and `BankItem`: the last place gets the item itself. -/
def storeItem (pItem : Item) : List (Position × UInt32) → Storage → Storage
  | [], s => s
  | [e], s => s.storeAt R e.1 pItem e.2 false
  | e :: dest, s => storeItem pItem dest (s.storeAt R e.1 pItem e.2 true)

/-- `StoreNewItem` -/
def storeNewItem (s : Storage) (dest : List (Position × UInt32)) (itemId : Nat) : Storage :=
  match s.createItem R itemId (dest.foldl (fun count e => count + e.2) 0) with
  | none => s
  | some (item, s) => s.storeItem R item dest

/-- `EquipItem` -/
def equipItem (s : Storage) (p : Position) (pItem : Item) : Storage :=
  match s.inventory.getItemByPos p with
  | none => { s with inventory := s.inventory.setItem p.2 (some pItem) }
  | some pItem2 => { s with inventory := s.inventory.setCount p (pItem2.count + pItem.count) }

end Storage

end EGServer.Items
