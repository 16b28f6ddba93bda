import EGServer.Guilds.CommandSpec
import EGServer.Lib.Stacks
import Mathlib.Data.FinEnum

/-!
# The guild bank

Items are moved between two ends, each a slot of a bank tab or a place in the inventory of the
player: `_MoveItems` checks the rights of the member for both directions, `_DoItemsMove` plans
where the items go before anything is changed, takes them out and stores them by the plan.

What the inventory answers and does is left open. An item is told from another by its guid,
which stands for the pointer; taking an item out of a slot and holding on to it is holding its
value.
-/

namespace EGServer.Guilds

def NULL_SLOT : UInt8 := 255
def MAX_MONEY_AMOUNT : UInt32 := 0x7FFFFFFF

instance : StackItem Item where
  guid := Item.guid
  entry := Item.entry
  count := Item.count
  setCount i n := { i with count := n }
  clone i g n := { i with guid := g, count := n }
  guid_setCount _ _ := rfl
  entry_setCount _ _ := rfl
  count_setCount _ _ := rfl
  guid_clone _ _ _ := rfl
  entry_clone _ _ _ := rfl
  count_clone _ _ _ := rfl

/-- The answers of `CanStore`. -/
inductive InventoryResult where
  | ok
  | dropBoundItem
  | wrongBagType
  | cantStack
  | bankFull
  deriving DecidableEq

/-! ## Rights -/

namespace Guild

variable (g : Guild)

def getRankBankMoneyPerDay (rankId : UInt8) : Int32 :=
  match g.getRankInfo rankId with
  | some info => info.bankMoneyPerDay.toInt32
  | none => 0

def getRankBankTabSlotsPerDay (rankId tabId : UInt8) : Int32 :=
  if tabId < g.getPurchasedTabsSize then
    match g.getRankInfo rankId with
    | some info => info.getBankTabSlotsPerDay tabId
    | none => 0
  else 0

def getRankBankTabRights (rankId tabId : UInt8) : UInt8 :=
  match g.getRankInfo rankId with
  | some info => info.getBankTabRights tabId
  | none => 0

def getMemberRemainingSlots (member : Member) (tabId : UInt8) : Int32 :=
  if member.rankId = GR_GUILDMASTER then GUILD_WITHDRAW_SLOT_UNLIMITED.toInt32
  else if g.getRankBankTabRights member.rankId tabId &&& GUILD_BANK_RIGHT_VIEW_TAB ≠ 0 then
    let remaining :=
      g.getRankBankTabSlotsPerDay member.rankId tabId - member.getBankWithdrawValue tabId
    if remaining > 0 then remaining else 0
  else 0

def getMemberRemainingMoney (member : Member) : Int32 :=
  if member.rankId = GR_GUILDMASTER then GUILD_WITHDRAW_MONEY_UNLIMITED.toInt32
  else if g.getRankRights member.rankId &&& (GR_RIGHT_WITHDRAW_REPAIR ||| GR_RIGHT_WITHDRAW_GOLD) ≠
      0 then
    let remaining :=
      g.getRankBankMoneyPerDay member.rankId - member.getBankWithdrawValue GUILD_BANK_MAX_TABS
    if remaining > 0 then remaining else 0
  else 0

/-- Both the member of rank 0 and the one the guild calls leader have full rights. -/
def memberHasTabRights (guid : ObjectGuid) (tabId rights : UInt8) : Bool :=
  match g.getMember guid with
  | some m =>
    if m.isRank GR_GUILDMASTER || g.leaderGuid = guid then true
    else g.getRankBankTabRights m.rankId tabId &&& rights = rights
  | none => false

def updateMember (guid : ObjectGuid) (f : Member → Member) (hf : ∀ m, (f m).guid = m.guid) : Guild :=
  { g with members := g.members.modify guid f hf }

def updateMemberWithdrawSlots (guid : ObjectGuid) (tabId : UInt8) : Guild :=
  match g.getMember guid with
  | some m =>
    if m.rankId ≠ GR_GUILDMASTER ∧
        m.getBankWithdrawValue tabId < g.getRankBankTabSlotsPerDay m.rankId tabId then
      g.updateMember guid (Member.updateBankWithdrawValue tabId 1) (fun _ => rfl)
    else g
  | none => g

/-! ## Money -/

/-- `HandleMemberWithdrawMoney`; `canHold` is whether the player can take the money. -/
def handleMemberWithdrawMoney (player : ObjectGuid) (amount : UInt32) (repair canHold : Bool) :
    Guild × Bool :=
  let amount := min amount MAX_MONEY_AMOUNT
  if g.bankMoney < amount.toUInt64 then (g, false) else
    match g.getMember player with
    | none => (g, false)
    | some member =>
      if (g.getMemberRemainingMoney member).toUInt32 < amount then (g, false)
      else if !repair && !canHold then (g, false)
      else
        let g := g.updateMember player
          (Member.updateBankWithdrawValue GUILD_BANK_MAX_TABS amount) (fun _ => rfl)
        ({ g with bankMoney := g.bankMoney - amount.toUInt64 }, true)

/-! ## Slots -/

def getItem (tabId slotId : UInt8) : Option Item :=
  match g.bankTabs[tabId.toNat]? with
  | some tab => if slotId < GUILD_BANK_MAX_SLOTS then tab.items slotId else none
  | none => none

/-- `BankTab::SetItem`; false where there is no such slot. -/
def setItem (tabId slotId : UInt8) (item : Option Item) : Guild × Bool :=
  match g.bankTabs[tabId.toNat]? with
  | some tab =>
    if slotId < GUILD_BANK_MAX_SLOTS then
      let tab := { tab with items := Function.update tab.items slotId item }
      ({ g with bankTabs := g.bankTabs.set tabId.toNat tab }, true)
    else (g, false)
  | none => (g, false)

end Guild

/-! ## Planning -/

/-- `m_vec` as it is filled, and the items still without a place. -/
structure Reservation where
  vec : List (UInt8 × Nat) := []
  count : Nat

namespace Reservation

/-- Let's not be greedy, reserve only required space; a slot is reserved once. -/
def reserve (r : Reservation) (slotId : UInt8) (space : Nat) : Reservation :=
  let requiredSpace := min space r.count
  if r.vec.any (·.1 = slotId) then r
  else { vec := r.vec ++ [(slotId, requiredSpace)], count := r.count - requiredSpace }

/-- `_ReserveSpace`; `none` where the item in the slot cannot take any. -/
def reserveSpace (maxStackCount : Nat → Nat) (r : Reservation) (slotId : UInt8) (item : Item)
    (itemDest : Option Item) : Option Reservation :=
  match itemDest with
  | none => some (r.reserve slotId (maxStackCount item.entry))
  | some dest =>
    if dest.entry ≠ item.entry ∨ dest.count ≥ maxStackCount item.entry then none
    else some (r.reserve slotId (maxStackCount item.entry - dest.count))

end Reservation

/-- The item in a slot, unless it is the one to be moved itself. -/
def otherItem (item : Item) (itemDest : Option Item) : Option Item :=
  itemDest.filter (·.guid ≠ item.guid)

/-- All slots of a tab. -/
def tabSlots : List UInt8 := (List.range GUILD_BANK_MAX_SLOTS.toNat).map UInt8.ofNat

section Planning

variable (maxStackCount : Nat → Nat) (g : Guild) (tabId : UInt8) (item : Item)

def canStoreItemInTab (skipSlotId : UInt8) (merge : Bool) :
    List UInt8 → Reservation → Reservation
  | [], r => r
  | slotId :: rest, r =>
    if r.count = 0 then r
    else if slotId = skipSlotId then canStoreItemInTab skipSlotId merge rest r
    else
      let itemDest := otherItem item (g.getItem tabId slotId)
      if itemDest.isSome ≠ merge then canStoreItemInTab skipSlotId merge rest r
      else
        canStoreItemInTab skipSlotId merge rest
          ((r.reserveSpace maxStackCount slotId item itemDest).getD r)

/-- The search of `CanStore` for stacks to merge with and then for free slots. -/
def searchTab (slotId : UInt8) (r : Reservation) : InventoryResult × List (UInt8 × Nat) :=
  let r := if maxStackCount item.entry > 1 then
    canStoreItemInTab maxStackCount g tabId item slotId true tabSlots r else r
  if r.count = 0 then (.ok, r.vec) else
    let r := canStoreItemInTab maxStackCount g tabId item slotId false tabSlots r
    if r.count = 0 then (.ok, r.vec) else (.bankFull, r.vec)

/-- `BankMoveItemData::CanStore`: the plan for the item in a tab. -/
def bankCanStore (slotId : UInt8) (swap : Bool) : InventoryResult × List (UInt8 × Nat) :=
  if item.soulBound then (.dropBoundItem, [])
  else if tabId ≥ g.getPurchasedTabsSize then (.wrongBagType, [])
  else if slotId = NULL_SLOT then searchTab maxStackCount g tabId item slotId { count := item.count }
  else
    -- a swapped item leaves its slot empty
    let itemDest := if swap then none else otherItem item (g.getItem tabId slotId)
    match Reservation.reserveSpace maxStackCount { count := item.count } slotId item itemDest with
    | none => (.cantStack, [])
    | some r =>
      if r.count = 0 then (.ok, r.vec) else searchTab maxStackCount g tabId item slotId r

end Planning

/-! ## Moving -/

/-- What the inventory of a player in state `σ` answers and does; `ρ` is a plan for it. -/
structure Inventory (σ ρ : Type) where
  /-- The item at a place that may be moved to the bank. -/
  initItem : σ → UInt8 → UInt8 → Option Item
  canStoreItem : σ → UInt8 → UInt8 → Item → Bool → Option ρ
  removeItem : σ → UInt8 → UInt8 → Nat → σ
  moveItemToInventory : σ → ρ → Item → σ

/-- `MoveItemData`: one end of a move. -/
inductive MoveItemData where
  | bank (container slotId : UInt8)
  | player (container slotId : UInt8)

/-- The two ends are in one bank tab. -/
def MoveItemData.sameTab : MoveItemData → MoveItemData → Bool
  | .bank container _, .bank container' _ => container = container'
  | _, _ => false

/-- A plan for either end. -/
inductive StorePlan (ρ : Type) where
  | bank (vec : List (UInt8 × Nat))
  | player (vec : ρ)

/-- The guild, the inventory, and the guid of the next item made. -/
structure BankState (σ : Type) where
  guild : Guild
  inventory : σ
  nextItem : Nat

section Moving

variable {σ ρ : Type} (maxStackCount : Nat → Nat) (inv : Inventory σ ρ) (w : BankState σ)
  (player : ObjectGuid)

/-- `Item::CloneItem`; no item is made of a count of zero. -/
def cloneItem (item : Item) (count : Nat) : BankState σ × Option Item :=
  if count < 1 then (w, none) else
    ({ w with nextItem := w.nextItem + 1 },
      some { item with guid := w.nextItem, count := min count (maxStackCount item.entry) })

def initItem : MoveItemData → Option Item
  | .bank container slotId => w.guild.getItem container slotId
  | .player container slotId => inv.initItem w.inventory container slotId

def hasStoreRights (pOther : MoveItemData) : MoveItemData → Bool
  | .player _ _ => true
  | .bank container slotId =>
    if (MoveItemData.bank container slotId).sameTab pOther then true
    else w.guild.memberHasTabRights player container GUILD_BANK_RIGHT_DEPOSIT_ITEM

def hasWithdrawRights (pOther : MoveItemData) : MoveItemData → Bool
  | .player _ _ => true
  | .bank container slotId =>
    if (MoveItemData.bank container slotId).sameTab pOther then true
    else
      match w.guild.getMember player with
      | some member => w.guild.getMemberRemainingSlots member container ≠ 0
      | none => false

/-- `MoveItemData::CanStore`: the plan, or `none` for an error. -/
def canStore (item : Item) (swap : Bool) : MoveItemData → Option (StorePlan ρ)
  | .bank container slotId =>
    match bankCanStore maxStackCount w.guild container item slotId swap with
    | (.ok, vec) => some (.bank vec)
    | _ => none
  | .player container slotId =>
    (inv.canStoreItem w.inventory container slotId item swap).map .player

def removeItem (item : Item) (pOther : MoveItemData) (splitedAmount : Nat) :
    MoveItemData → BankState σ
  | .player container slotId =>
    { w with inventory := inv.removeItem w.inventory container slotId splitedAmount }
  | .bank container slotId =>
    let left := if splitedAmount ≠ 0 then
      some { item with count := item.count - splitedAmount } else none
    let g := (w.guild.setItem container slotId left).1
    if (MoveItemData.bank container slotId).sameTab pOther then { w with guild := g }
    else { w with guild := g.updateMemberWithdrawSlots player container }

/-- `_StoreItem`: merge into the item in the slot, or place the item or a clone of it. -/
def storeItemAt (tabId : UInt8) (item : Item) (slotId : UInt8) (count : Nat) (clone : Bool) :
    BankState σ × Option Item :=
  match w.guild.getItem tabId slotId with
  | some dest =>
    let dest := { dest with count := dest.count + count }
    ({ w with guild := (w.guild.setItem tabId slotId (some dest)).1 }, some dest)
  | none =>
    match (if clone then cloneItem maxStackCount w item count
      else (w, some { item with count := count })) with
    | (w, none) => (w, none)
    | (w, some placed) =>
      match w.guild.setItem tabId slotId (some placed) with
      | (g, true) => ({ w with guild := g }, some placed)
      | (_, false) => (w, none)

/-- The loop of `BankMoveItemData::StoreItem`, with what each `_StoreItem` returns; the source
returns the last. -/
def storeItemVec (tabId : UInt8) (item : Item) (w : BankState σ) :
    List (UInt8 × Nat) → BankState σ × List (Option Item)
  | [] => (w, [])
  | (slotId, count) :: rest =>
    let (w, stored) := storeItemAt maxStackCount w tabId item slotId count !rest.isEmpty
    let (w, others) := storeItemVec tabId item w rest
    (w, stored :: others)

def storeItem (item : Item) : MoveItemData → StorePlan ρ → BankState σ × List (Option Item)
  | .bank container _, .bank vec => storeItemVec maxStackCount container item w vec
  | .player _ _, .player vec =>
    ({ w with inventory := inv.moveItemToInventory w.inventory vec item }, [some item])
  | _, _ => (w, [none])

/-- The state after a request, and what the `StoreItem` calls returned if items were moved. -/
structure MoveResult (σ : Type) where
  state : BankState σ
  stored : Option (List (Option Item)) := none

/-- `_DoItemsMove`; `srcItem` is the item to be stored (the clone of a split), `held` the one
in the source, `destItem` the one to swap with. -/
def doItemsMove (src dest : MoveItemData) (srcItem held : Item) (destItem : Option Item)
    (splitedAmount : Nat) : MoveResult σ :=
  match canStore maxStackCount inv w srcItem destItem.isSome dest with
  | none => { state := w }
  | some destPlan =>
    match destItem with
    | none =>
      let w := removeItem inv w player held dest splitedAmount src
      let (w, stored) := storeItem maxStackCount inv w srcItem dest destPlan
      { state := w, stored := some stored }
    | some destItem =>
      match canStore maxStackCount inv w destItem true src with
      | none => { state := w }
      | some srcPlan =>
        let w := removeItem inv w player held dest splitedAmount src
        let w := removeItem inv w player destItem src 0 dest
        let (w, stored) := storeItem maxStackCount inv w srcItem dest destPlan
        let (w, stored') := storeItem maxStackCount inv w destItem src srcPlan
        { state := w, stored := some (stored ++ stored') }

/-- Swapping the items of the two ends, once they could not be merged. -/
def trySwap (src dest : MoveItemData) (item : Item) : MoveResult σ :=
  match initItem inv w dest with
  | none => { state := w }
  | some destItem =>
    if !hasStoreRights w player dest src then { state := w }
    else if !hasWithdrawRights w player src dest then { state := w }
    else doItemsMove maxStackCount inv w player src dest item item (some destItem) 0

/-- The split part is a new item, which is then moved. -/
def moveSplit (src dest : MoveItemData) (item : Item) (splitedAmount : Nat) : MoveResult σ :=
  match cloneItem maxStackCount w item splitedAmount with
  | (w, none) => { state := w }
  | (w, some cloned) =>
    doItemsMove maxStackCount inv w player src dest cloned item none splitedAmount

/-- The item is merged or put into free slots, or else swapped. -/
def moveWhole (src dest : MoveItemData) (item : Item) : MoveResult σ :=
  let merged := doItemsMove maxStackCount inv w player src dest item item none 0
  if merged.stored.isSome then merged
  else trySwap maxStackCount inv merged.state player src dest item

/-- `CheckItem`: no more than the stack can be split off, and all of it is no split. -/
def checkItem (item : Item) (splitedAmount : Nat) : Option Nat :=
  if splitedAmount > item.count then none
  else if splitedAmount = item.count then some 0
  else some splitedAmount

def moveItems (src dest : MoveItemData) (splitedAmount : Nat) : MoveResult σ :=
  match initItem inv w src with
  | none => { state := w }
  | some item =>
    match checkItem item splitedAmount with
    | none => { state := w }
    | some splitedAmount =>
      if !hasStoreRights w player src dest then { state := w }
      else if !hasWithdrawRights w player dest src then { state := w }
      else if splitedAmount ≠ 0 then
        moveSplit maxStackCount inv w player src dest item splitedAmount
      else moveWhole maxStackCount inv w player src dest item

def swapItems (tabId slotId destTabId destSlotId : UInt8) (splitedAmount : Nat) : MoveResult σ :=
  if tabId ≥ w.guild.getPurchasedTabsSize ∨ slotId ≥ GUILD_BANK_MAX_SLOTS ∨
      destTabId ≥ w.guild.getPurchasedTabsSize ∨ destSlotId ≥ GUILD_BANK_MAX_SLOTS then
    { state := w }
  else if tabId = destTabId ∧ slotId = destSlotId then { state := w }
  else moveItems maxStackCount inv w player (.bank tabId slotId) (.bank destTabId destSlotId)
    splitedAmount

def swapItemsWithInventory (toChar : Bool) (tabId slotId playerBag playerSlotId : UInt8)
    (splitedAmount : Nat) : MoveResult σ :=
  if (slotId ≥ GUILD_BANK_MAX_SLOTS ∧ slotId ≠ NULL_SLOT) ∨ tabId ≥ w.guild.getPurchasedTabsSize then
    { state := w }
  else if toChar then
    moveItems maxStackCount inv w player (.bank tabId slotId) (.player playerBag playerSlotId)
      splitedAmount
  else
    moveItems maxStackCount inv w player (.player playerBag playerSlotId) (.bank tabId slotId)
      splitedAmount

end Moving

end EGServer.Guilds
