import EGServer.Items.CanStoreItem

/-!
# Swapping items

`SwapItem` moves what is in one place to another, and back what is there: into an empty place, onto
a stack, or in exchange. A bag that lies in the backpack or in another bag has to be empty, so when
an empty one there is swapped with a bag that is worn, what the worn one holds goes over to it.

Dependent auras and the messages other than the error are not modelled. The checks of equipping and
unequipping are answers of the rest of the server.
-/

namespace EGServer.Items

/-- What `SwapItem` asks beyond the places. -/
structure SwapRules extends Rules where
  isAlive : Bool := true
  /-- The answer of `CanEquipItem`, and the `dest` that it sets. -/
  canEquipItem : Inventory → Nat → Item → Bool → InventoryResult × Position
  canUnequipItem : Inventory → Position → Bool → InventoryResult
  /-- `AutoUnequipOffhandIfNeed` finds that the off-hand item has to go. -/
  offhandMustGo : Inventory → Bool := fun _ => false
  doLootRelease : Storage → Storage := id

def EQUIPMENT_SLOT_OFFHAND : Nat := 16

/-- Where an item is to go: `sDest`, or `eDest`. -/
inductive Destination where
  | stored (dest : List (Position × UInt32))
  | equipped (dest : Position)
  | nowhere

namespace Storage

variable (R : SwapRules)

/-! ## Checks -/

/-- "check unequip potability for equipped items and bank bags": may the item in the first place be
taken out, when the other item is in the second? -/
def checkUnequip (s : Storage) (p q : Position) (other : Option Item) : InventoryResult :=
  if isEquipmentPos p || isBagPos p then
    -- bags can be swapped with empty bag slots, or with empty bag (items move possibility checked later)
    R.canUnequipItem s.inventory p
      (!isBagPos p || isBagPos q || other.any fun item => item.isBag && item.isEmpty)
  else .ok

/-- Look for the place in which an item is wanted. -/
def canMoveTo (s : Storage) (p : Position) (pItem : Item) (slot : Nat) (swap : Bool) :
    InventoryResult × Destination :=
  if isInventoryPos p then
    let found := s.inventory.canStoreItem R.toRules p.1 p.2 [] pItem.entry pItem.count (some pItem) swap
    (found.1, .stored found.2)
  else if isBankPos p then
    let found := s.inventory.canBankItem R.toRules p.1 p.2 pItem slot swap
    (found.1, .stored found.2)
  else if isEquipmentPos p then
    let found := R.canEquipItem s.inventory p.2 pItem swap
    (found.1, .equipped found.2)
  else (.ok, .nowhere)

/-- The same in a swap, where what is in an equipment slot has to come out. -/
def canSwapTo (s : Storage) (p : Position) (pItem : Item) (slot : Nat) :
    InventoryResult × Destination :=
  let found := s.canMoveTo R p pItem slot true
  match found.2 with
  | .equipped dest =>
    if found.1 = .ok then (R.canUnequipItem s.inventory dest true, found.2) else found
  | _ => found

/-! ## Moves -/

/-- `StoreItem`, `BankItem` or `EquipItem`. -/
def moveTo (s : Storage) (dest : Destination) (pItem : Item) : Storage :=
  match dest with
  | .stored dest => s.storeItem R.toRules pItem dest
  | .equipped p => s.equipItem p pItem
  | .nowhere => s

def removeItem (s : Storage) (p : Position) : Storage :=
  { s with inventory := s.inventory.removeItem p }

/-- An off-hand item for which there is no room is sent by mail. -/
def autoUnequipOffhandIfNeed (s : Storage) : Storage :=
  match s.inventory.getItem EQUIPMENT_SLOT_OFFHAND with
  | none => s
  | some offItem =>
    if R.offhandMustGo s.inventory then
      let found := s.inventory.canStoreItem R.toRules NULL_BAG NULL_SLOT [] offItem.entry
        offItem.count (some offItem) false
      let s := s.removeItem (INVENTORY_SLOT_BAG_0, EQUIPMENT_SLOT_OFFHAND)
      if found.1 = .ok then s.storeItem R.toRules offItem found.2 else s
    else s

/-- "Move case", into an empty place. -/
def moveItem (s : Storage) (src dst : Position) (pSrcItem : Item) : Except InventoryResult Storage :=
  let found := s.canMoveTo R dst pSrcItem src.2 false
  if found.1 ≠ .ok then .error found.1
  else
    match found.2 with
    | .stored dest => .ok ((s.removeItem src).moveTo R (.stored dest) pSrcItem)
    | .equipped dest =>
      .ok (((s.removeItem src).moveTo R (.equipped dest) pSrcItem).autoUnequipOffhandIfNeed R)
    | .nowhere => .ok s

/-- "attempt merge to / fill target item"; `none` when the two cannot be merged. -/
def mergeItem (s : Storage) (src dst : Position) (pSrcItem pDstItem : Item) : Option Storage :=
  let found := s.canMoveTo R dst pSrcItem src.2 false
  let maxStackSize := ((R.getItemTemplate pSrcItem.entry).map (·.getMaxStackSize)).getD 0
  match found.2 with
  | .nowhere => some s
  | dest =>
    if found.1 ≠ .ok then none
    else if pSrcItem.count + pDstItem.count ≤ maxStackSize then
      let s := (s.removeItem src).moveTo R dest pSrcItem
      some (if isEquipmentPos dst then s.autoUnequipOffhandIfNeed R else s)
    else
      some { s with
        inventory := (s.inventory.setCount src (pSrcItem.count + pDstItem.count - maxStackSize)).setCount
          dst maxStackSize }

/-! ## Bag swap with items exchange -/

/-- "one from items not go to empty target bag" -/
def itemsGoInto (fullBag emptyBag : Item) : Bool :=
  (List.range fullBag.getBagSize).all fun i =>
    match fullBag.getItemByPos i with
    | none => true
    | some bagItem =>
      match R.getItemTemplate bagItem.entry, R.getItemTemplate emptyBag.entry with
      | some proto, some emptyProto => itemCanGoIntoBag proto emptyProto
      | _, _ => false

/-- "Items swap", over the slots of the full bag; `count` "will pos in new bag". -/
def exchangeItems : List Nat → Nat → Item × Item → Item × Item
  | [], _, bags => bags
  | i :: todo, count, (fullBag, emptyBag) =>
    match fullBag.getItemByPos i with
    | none => exchangeItems todo count (fullBag, emptyBag)
    | some bagItem =>
      exchangeItems todo (count + 1) (fullBag.removeInside i, emptyBag.storeInside count bagItem)

/-- The exchange between a full bag and an empty one; the two bags after it. -/
def exchangeBags (fullBag emptyBag : Item) : Except InventoryResult (Item × Item) :=
  if !itemsGoInto R fullBag emptyBag then .error .bagInBag
  else if emptyBag.getBagSize < (List.range fullBag.getBagSize).countP fun i =>
      (fullBag.getItemByPos i).isSome then .error .cantSwap
  else .ok (exchangeItems (List.range fullBag.getBagSize) 0 (fullBag, emptyBag))

/-- The two items of a swap, after what is in them has been exchanged where one is an empty bag that
is not in a bag position. -/
def exchanged (src dst : Position) (pSrcItem pDstItem : Item) :
    Except InventoryResult (Item × Item) :=
  if pSrcItem.isBag && pDstItem.isBag then
    if pSrcItem.isEmpty && !isBagPos src then
      match exchangeBags R pDstItem pSrcItem with
      | .error msg => .error msg
      | .ok (fullBag, emptyBag) => .ok (emptyBag, fullBag)
    else if pDstItem.isEmpty && !isBagPos dst then exchangeBags R pSrcItem pDstItem
    else .ok (pSrcItem, pDstItem)
  else .ok (pSrcItem, pDstItem)

/-- The player is looting an item inside a bag that has been moved. -/
def isLootingInside (bag : Item) : Bool :=
  (List.range bag.getBagSize).any fun i =>
    (bag.getItemByPos i).any fun item => R.lootGUID == some item.guid

/-- "impossible merge/fill, do real swap" -/
def realSwap (s : Storage) (src dst : Position) (pSrcItem pDstItem : Item) :
    Except InventoryResult Storage :=
  let there := s.canSwapTo R dst pSrcItem src.2
  let back := s.canSwapTo R src pDstItem dst.2
  if there.1 ≠ .ok then .error there.1
  else if back.1 ≠ .ok then .error back.1
  else
    match exchanged R src dst pSrcItem pDstItem with
    | .error msg => .error msg
    | .ok (pSrcItem, pDstItem) =>
      let s := (((s.removeItem dst).removeItem src).moveTo R there.2 pSrcItem).moveTo R back.2 pDstItem
      -- if player is moving bags and is looting an item inside this bag release the loot
      let s :=
        if isBagPos src && isLootingInside R pSrcItem || isBagPos dst && isLootingInside R pDstItem then
          R.doLootRelease s
        else s
      .ok (s.autoUnequipOffhandIfNeed R)

/-! ## SwapItem -/

/-- The error that is sent, or what the player has afterwards. -/
def swapItem (s : Storage) (src dst : Position) : Except InventoryResult Storage :=
  match s.inventory.getItemAt src with
  | none => .ok s
  | some pSrcItem =>
    let pDstItem := s.inventory.getItemAt dst
    if !R.isAlive then .error .playerDead
    else if s.checkUnequip R src dst pDstItem ≠ .ok then .error (s.checkUnequip R src dst pDstItem)
    -- prevent put equipped/bank bag in self
    else if isBagPos src && decide (src.2 = dst.1) then .error .bagInBag
    -- prevent equipping bag in the same slot from its inside
    else if isBagPos dst && decide (src.1 = dst.2) then .error .cantSwap
    else
      match pDstItem with
      | none => s.moveItem R src dst pSrcItem
      | some pDstItem =>
        if s.checkUnequip R dst src (some pSrcItem) ≠ .ok then
          .error (s.checkUnequip R dst src (some pSrcItem))
        else
          match if !pSrcItem.isBag && !pDstItem.isBag then s.mergeItem R src dst pSrcItem pDstItem
            else none with
          | some s => .ok s
          | none => s.realSwap R src dst pSrcItem pDstItem

end Storage

end EGServer.Items
