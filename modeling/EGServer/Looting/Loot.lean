import EGServer.Lib.Table
import EGServer.Lib.GuardedRun
import Mathlib.Data.UInt
import Mathlib.Tactic.Common

/-!
# Loot: filling and taking

A `Loot` as `Loot.cpp` fills it for the players who may see it, and what a player takes out of
it. An item of `items` or `quest_items` is seen through lists a player: the quest items it may
take, the items that everyone may take a copy of (`freeforall`), and the items under a
condition. That a thing is gone is written in the item, in the player's entry, or in both, and
one counter, `unlootedCount`, says how much is left.

What a player is allowed to see depends on quests, skills and conditions that change from one
moment to the next: `Player` holds the answers of the moment an operation asks them. Whether a
bag has room is an argument, asked by slot. Packets and saved containers are not modelled.
-/

namespace EGServer.Looting

/-- The raw value of a player's `ObjectGuid`; 0 is `ObjectGuid::Empty`. -/
abbrev ObjectGuid := UInt64

abbrev ItemId := Nat

def MAX_NR_LOOT_ITEMS : Nat := 18
def MAX_NR_QUEST_ITEMS : Nat := 32

inductive LootMethod where
  | freeForAll
  | roundRobin
  | masterLoot
  | groupLoot
  | needBeforeGreed
  deriving DecidableEq

/-- What loot reads of an item template. -/
structure ItemTemplate where
  maxStackSize : Nat := 1
  /-- `ITEM_FLAG_MULTI_DROP` -/
  multiDrop : Bool := false
  /-- `ITEM_FLAGS_CU_FOLLOW_LOOT_RULES` -/
  followLootRules : Bool := false
  quality : Nat := 0
  isCurrencyToken : Bool := false
  disenchantID : Nat := 0
  requiredDisenchantSkill : Nat := 0
  /-- `ITEM_FLAG2_CAN_ONLY_ROLL_GREED` -/
  canOnlyRollGreed : Bool := false
  maxCount : Int := 0

/-- The item templates. -/
abbrev Templates := ItemId → Option ItemTemplate

/-! ## Items -/

/-- A line of a loot table; a condition is known by a number. -/
structure LootStoreItem where
  itemid : ItemId
  conditions : List Nat := []
  needs_quest : Bool := false

structure LootItem where
  itemid : ItemId
  conditions : List Nat := []
  allowedGUIDs : List ObjectGuid := []
  rollWinnerGUID : ObjectGuid := 0
  count : UInt8 := 0
  is_looted : Bool := false
  is_blocked : Bool := false
  freeforall : Bool := false
  is_underthreshold : Bool := false
  is_counted : Bool := false
  needs_quest : Bool := false
  follow_loot_rules : Bool := false
  /-- Not in the source: somebody could see the item when it was added. -/
  seen : Bool := false

/-- An entry of a player's list: a position in `items` or `quest_items`. -/
structure NotNormalLootItem where
  index : Nat
  is_looted : Bool := false

/-- What a player's group says about loot. -/
structure GroupRules where
  lootMethod : LootMethod
  masterLooterGuid : ObjectGuid := 0
  lootThreshold : Nat := 2

/-- A player, with the answers that `AllowedForPlayer` and `CanRollOnItem` ask for. -/
structure Player where
  guid : ObjectGuid
  group : Option GroupRules := none
  meetsConditions : List Nat → Bool := fun _ => true
  /-- The item is not for the other team only. -/
  ofTeam : ItemId → Bool := fun _ => true
  /-- The item is no recipe that the player cannot use or knows already. -/
  mayLearn : ItemId → Bool := fun _ => true
  /-- The quest requirements, given whether the item is a quest drop. -/
  questAllows : ItemId → Bool → Bool := fun _ _ => true
  itemCount : ItemId → Nat := fun _ => 0

namespace LootItem

def ofStore (templates : Templates) (li : LootStoreItem) : LootItem where
  itemid := li.itemid
  conditions := li.conditions
  needs_quest := li.needs_quest
  freeforall := (templates li.itemid).any (·.multiDrop)
  follow_loot_rules := (templates li.itemid).any (·.followLootRules)

def allowedForPlayer (templates : Templates) (item : LootItem) (player : Player)
    (isGivenByMasterLooter : Bool) (ownerGuid : ObjectGuid) : Bool :=
  if !player.meetsConditions item.conditions then false
  else if (templates item.itemid).isNone then false
  else if !player.ofTeam item.itemid then false
  else if !isGivenByMasterLooter && player.group.any (·.masterLooterGuid == player.guid) then true
  else if !player.mayLearn item.itemid then false
  else if item.needs_quest && !item.freeforall &&
      player.group.any (fun g => g.lootMethod == .groupLoot || g.lootMethod == .roundRobin) &&
      ownerGuid != 0 && ownerGuid != player.guid then false
  else player.questAllows item.itemid item.needs_quest

end LootItem

/-! ## A loot -/

/-- The list of one player. -/
structure PlayerItems where
  guid : ObjectGuid
  entries : List NotNormalLootItem

/-- A `NotNormalLootItemMap`. -/
abbrev NotNormalLootItemMap := Table PlayerItems.guid

/-- Where an item is. -/
inductive ItemRef where
  | item (index : Nat)
  | quest (index : Nat)
  deriving DecidableEq

structure Loot where
  items : List LootItem := []
  quest_items : List LootItem := []
  gold : Nat := 0
  unlootedCount : UInt8 := 0
  /-- Not in the source: how often `unlootedCount` was raised. -/
  counted : Nat := 0
  roundRobinPlayer : ObjectGuid := 0
  lootOwnerGUID : ObjectGuid := 0
  PlayerQuestItems : NotNormalLootItemMap := ∅
  PlayerFFAItems : NotNormalLootItemMap := ∅
  PlayerNonQuestNonFFAConditionalItems : NotNormalLootItemMap := ∅
  /-- Not in the source: who has been given which item, each time that lowered the counter. -/
  handedOut : List (ObjectGuid × ItemRef) := []

/-- A player that a group holds a reference to, as `FillLoot` finds it. -/
structure Member where
  player : Player
  isInMap : Bool
  isAtGroupRewardDistance : Bool

/-- The owner's group; a player has one reference to it. -/
structure LootGroup where
  members : List Member
  nodup : (members.map (·.player.guid)).Nodup
  lootThreshold : Nat

namespace Loot

variable (templates : Templates)

def isLooted (L : Loot) : Bool := L.gold == 0 && L.unlootedCount == 0

def get? (L : Loot) : ItemRef → Option LootItem
  | .item i => L.items[i]?
  | .quest i => L.quest_items[i]?

def modify (L : Loot) (f : LootItem → LootItem) : ItemRef → Loot
  | .item i => { L with items := L.items.modify i f }
  | .quest i => { L with quest_items := L.quest_items.modify i f }

/-- `unlootedCount += n`. -/
def raiseCount (L : Loot) (n : Nat) : Loot :=
  { L with unlootedCount := L.unlootedCount + UInt8.ofNat n, counted := L.counted + n }

/-! ### Adding items -/

/-- Can the owner, or a member of its group, see the item? -/
def canSeeItemInLootWindow (L : Loot) (item : LootItem) (owner : Option Player)
    (group : Option LootGroup) : Bool :=
  match owner, group with
  | none, _ => false
  | some _, some group =>
    group.members.any fun m => item.allowedForPlayer templates m.player false L.lootOwnerGUID
  | some owner, none => item.allowedForPlayer templates owner false L.lootOwnerGUID

/-- The `generatedLoot` of one turn. -/
def generatedLoot (owner : Option Player) (group : Option LootGroup) (li : LootStoreItem)
    (proto : ItemTemplate) (count : Nat) (L : Loot) : LootItem :=
  let item := LootItem.ofStore templates li
  { item with
    count := UInt8.ofNat (min count proto.maxStackSize)
    seen := L.canSeeItemInLootWindow templates item owner group }

/-- `lootItems.push_back(generatedLoot)`. -/
def pushItem (needs_quest : Bool) (item : LootItem) (L : Loot) : Loot :=
  if needs_quest then { L with quest_items := L.quest_items ++ [item] }
  else { L with items := L.items ++ [item] }

/-- One turn of the loop of `AddItem`: an item of `count` pieces. -/
def addStack (owner : Option Player) (group : Option LootGroup) (li : LootStoreItem)
    (proto : ItemTemplate) (count : Nat) (L : Loot) : Loot :=
  let item := L.generatedLoot templates owner group li proto count
  let L := L.pushItem li.needs_quest item
  if item.seen && !li.needs_quest && li.conditions.isEmpty && !proto.multiDrop then
    L.raiseCount 1
  else L

/-- `lootItems.size() < limit`. -/
def hasRoom (L : Loot) (needs_quest : Bool) : Bool :=
  if needs_quest then decide (L.quest_items.length < MAX_NR_QUEST_ITEMS)
  else decide (L.items.length < MAX_NR_LOOT_ITEMS)

/-- The loop of `AddItem`, so many stacks to go. -/
def addStacks (owner : Option Player) (group : Option LootGroup) (li : LootStoreItem)
    (proto : ItemTemplate) : Nat → Nat → Loot → Loot
  | 0, _, L => L
  | n + 1, count, L =>
    if L.hasRoom li.needs_quest then
      addStacks owner group li proto n (count - proto.maxStackSize)
        (L.addStack templates owner group li proto count)
    else L

/-- `count` is what `urand(mincount, maxcount)` gives. -/
def addItem (owner : Option Player) (group : Option LootGroup) (L : Loot) (li : LootStoreItem)
    (count : Nat) : Loot :=
  match templates li.itemid with
  | none => L
  | some proto =>
    addStacks templates owner group li proto
      (count / proto.maxStackSize + if count % proto.maxStackSize ≠ 0 then 1 else 0) count L

/-! ### The lists of a player -/

/-- `map[guid] = ql`, for a player that has no list yet. An empty list is not kept. -/
def setList (map : NotNormalLootItemMap) (guid : ObjectGuid) (ql : List NotNormalLootItem) :
    NotNormalLootItemMap :=
  if ql.isEmpty then map
  else (map.tryEmplace (Arrangement.id _) { guid, entries := ql }).getD map

/-- The test of `FillFFALoot`. -/
def listsFFA (L : Loot) (player : Player) (item : LootItem) : Bool :=
  !item.is_looted && item.freeforall &&
    item.allowedForPlayer templates player false L.lootOwnerGUID

def fillFFALoot (L : Loot) (player : Player) : Loot :=
  let ql := (List.range L.items.length).filter fun i =>
    L.items[i]?.any (L.listsFFA templates player)
  { L.raiseCount ql.length with
    PlayerFFAItems := setList L.PlayerFFAItems player.guid (ql.map ({ index := · })) }

/-- The test of `FillQuestLoot`. -/
def listsQuest (L : Loot) (player : Player) (item : LootItem) : Bool :=
  !item.is_looted && (item.allowedForPlayer templates player false L.lootOwnerGUID ||
    (item.follow_loot_rules && player.group.any fun g =>
      (g.lootMethod == .masterLoot && g.masterLooterGuid == player.guid) ||
        g.lootMethod != .masterLoot))

/-- A quest item gets blocked when it is first listed, unless the player's group rolls or takes
turns. -/
def blocksQuestItems (player : Player) : Bool :=
  player.group.all fun g => g.lootMethod != .groupLoot && g.lootMethod != .roundRobin

/-- "increase once if one looter only, looter-times if free for all". -/
def countQuestItem (L : Loot) (player : Player) (i : Nat) (item : LootItem) : Loot :=
  let L := if item.freeforall || !item.is_blocked then L.raiseCount 1 else L
  if blocksQuestItems player then
    L.modify (fun item => { item with is_blocked := true }) (.quest i)
  else L

/-- The loop of `FillQuestLoot` over positions of `quest_items`. -/
def fillQuestFrom (player : Player) :
    List Nat → Loot × List NotNormalLootItem → Loot × List NotNormalLootItem
  | [], s => s
  | i :: todo, (L, ql) =>
    match L.quest_items[i]? with
    | none => fillQuestFrom player todo (L, ql)
    | some item =>
      if L.listsQuest templates player item then
        let ql := ql ++ [{ index := i }]
        let L := L.countQuestItem player i item
        if L.items.length + ql.length = MAX_NR_LOOT_ITEMS then (L, ql)
        else fillQuestFrom player todo (L, ql)
      else fillQuestFrom player todo (L, ql)

def fillQuestLoot (L : Loot) (player : Player) : Loot :=
  if L.items.length = MAX_NR_LOOT_ITEMS then L
  else
    let (L, ql) := fillQuestFrom templates player (List.range L.quest_items.length) (L, [])
    { L with PlayerQuestItems := setList L.PlayerQuestItems player.guid ql }

/-- The test of `FillNonQuestNonFFAConditionalLoot`. -/
def listsConditional (L : Loot) (player : Player) (item : LootItem) : Bool :=
  !item.is_looted && !item.freeforall &&
    item.allowedForPlayer templates player false L.lootOwnerGUID

/-- `AddAllowedLooter`, for a player who is there. -/
def addAllowedLooter (L : Loot) (player : Player) (presentAtLooting : Bool) (i : Nat) : Loot :=
  if presentAtLooting then
    L.modify (fun item => { item with allowedGUIDs := player.guid :: item.allowedGUIDs }) (.item i)
  else L

/-- An item under a condition counts once. -/
def countConditional (L : Loot) (i : Nat) (item : LootItem) : Loot :=
  if item.is_counted then L
  else (L.raiseCount 1).modify (fun item => { item with is_counted := true }) (.item i)

/-- The loop of `FillNonQuestNonFFAConditionalLoot` over positions of `items`. -/
def fillConditionalFrom (player : Player) (presentAtLooting : Bool) :
    List Nat → Loot × List NotNormalLootItem → Loot × List NotNormalLootItem
  | [], s => s
  | i :: todo, (L, ql) =>
    match L.items[i]? with
    | none => fillConditionalFrom player presentAtLooting todo (L, ql)
    | some item =>
      if L.listsConditional templates player item then
        let L := L.addAllowedLooter player presentAtLooting i
        if item.conditions.isEmpty then fillConditionalFrom player presentAtLooting todo (L, ql)
        else
          fillConditionalFrom player presentAtLooting todo
            (L.countConditional i item, ql ++ [{ index := i }])
      else fillConditionalFrom player presentAtLooting todo (L, ql)

def fillNonQuestNonFFAConditionalLoot (L : Loot) (player : Player) (presentAtLooting : Bool) :
    Loot :=
  let (L, ql) := fillConditionalFrom templates player presentAtLooting
    (List.range L.items.length) (L, [])
  { L with
    PlayerNonQuestNonFFAConditionalItems :=
      setList L.PlayerNonQuestNonFFAConditionalItems player.guid ql }

/-! ### Taking an item -/

/-- What `LootItemInSlot` finds: the item, and positions in the player's lists. -/
structure Found where
  ref : ItemRef
  qitem : Option Nat := none
  ffaitem : Option Nat := none
  conditem : Option Nat := none

/-- The first entry for a position of `items` in a player's list. -/
def findEntry (map : NotNormalLootItemMap) (guid : ObjectGuid) (index : Nat) :
    Option (Nat × NotNormalLootItem) :=
  (map.get? guid).bind fun row =>
    (row.entries.zipIdx.find? fun e => decide (e.1.index = index)).map fun e => (e.2, e.1)

def lootItemInSlot (L : Loot) (lootSlot : Nat) (guid : ObjectGuid) : Option Found :=
  if L.items.length ≤ lootSlot then
    let questSlot := lootSlot - L.items.length
    match (L.PlayerQuestItems.get? guid).bind (·.entries[questSlot]?) with
    | some qitem =>
      if qitem.is_looted then none
      else some { ref := .quest qitem.index, qitem := some questSlot }
    | none => none
  else
    match L.items[lootSlot]? with
    | none => none
    | some item =>
      if item.freeforall then
        match findEntry L.PlayerFFAItems guid lootSlot with
        | some (pos, entry) =>
          if entry.is_looted then none
          else some { ref := .item lootSlot, ffaitem := some pos }
        | none => if item.is_looted then none else some { ref := .item lootSlot }
      else if !item.conditions.isEmpty then
        match findEntry L.PlayerNonQuestNonFFAConditionalItems guid lootSlot with
        | some (pos, entry) =>
          if entry.is_looted then none
          else some { ref := .item lootSlot, conditem := some pos }
        | none => if item.is_looted then none else some { ref := .item lootSlot }
      else if item.is_looted then none else some { ref := .item lootSlot }

/-- Mark an entry of a player's list as looted. -/
def markEntry (map : NotNormalLootItemMap) (guid : ObjectGuid) (pos : Nat) :
    NotNormalLootItemMap :=
  map.modify guid
    (fun row => { row with entries := row.entries.modify pos fun e => { e with is_looted := true } })
    fun _ => rfl

/-- Mark the player's entry, when it has one. -/
def markTaken (L : Loot) (guid : ObjectGuid) (found : Found) : Loot :=
  match found.qitem, found.ffaitem, found.conditem with
  | some pos, _, _ => { L with PlayerQuestItems := markEntry L.PlayerQuestItems guid pos }
  | none, some pos, _ => { L with PlayerFFAItems := markEntry L.PlayerFFAItems guid pos }
  | none, none, some pos =>
    { L with
      PlayerNonQuestNonFFAConditionalItems :=
        markEntry L.PlayerNonQuestNonFFAConditionalItems guid pos }
  | none, none, none => L

/-- What `StoreLootItem` writes once the item is in a bag. -/
def takeItem (L : Loot) (guid : ObjectGuid) (found : Found) (item : LootItem) : Loot :=
  let L := L.markTaken guid found
  -- if only one person is supposed to loot the item, then set it to looted
  let L :=
    if item.freeforall then L
    else L.modify (fun item => { item with is_looted := true }) found.ref
  { L with unlootedCount := L.unlootedCount - 1, handedOut := (guid, found.ref) :: L.handedOut }

/-- May the player take what it found? -/
def mayTake (player : Player) (found : Found) (item : LootItem) (canStore : Bool) : Bool :=
  !item.is_looted && item.allowedForPlayer templates player false 0 &&
    !(found.qitem.isNone && item.is_blocked) &&
    (item.rollWinnerGUID == 0 || item.rollWinnerGUID == player.guid) && canStore

def storeLootItem (L : Loot) (player : Player) (lootSlot : Nat) (canStore : Bool) : Loot :=
  match L.lootItemInSlot lootSlot player.guid with
  | none => L
  | some found =>
    match L.get? found.ref with
    | none => L
    | some item =>
      if mayTake templates player found item canStore then L.takeItem player.guid found item else L

/-! ### Filling for a player -/

def getMaxSlotInLootFor (L : Loot) (guid : ObjectGuid) : Nat :=
  L.items.length + ((L.PlayerQuestItems.get? guid).map (·.entries.length)).getD 0

/-- Is the item a currency that a player who is there gets at once? -/
def isAutoStored (L : Loot) (player : Player) (item : LootItem) : Bool :=
  !item.is_looted && item.freeforall &&
    item.allowedForPlayer templates player false L.lootOwnerGUID &&
    (templates item.itemid).any (·.isCurrencyToken)

/-- The item at a slot, taken as a position in `items` and then in `quest_items`. -/
def refAt (L : Loot) (i : Nat) : ItemRef :=
  if i < L.items.length then .item i else .quest (i - L.items.length)

/-- "Process currency items", by slot. -/
def storeCurrencies (player : Player) (canStore : Nat → Bool) :
    List Nat → Loot → Loot
  | [], L => L
  | i :: todo, L =>
    if (L.get? (L.refAt i)).any (L.isAutoStored templates player) then
      storeCurrencies player canStore todo (L.storeLootItem templates player i (canStore i))
    else storeCurrencies player canStore todo L

def fillNotNormalLootFor (L : Loot) (player : Player) (presentAtLooting : Bool)
    (canStore : Nat → Bool) : Loot :=
  let L := if (L.PlayerQuestItems.get? player.guid).isNone then L.fillQuestLoot templates player else L
  let L := if (L.PlayerFFAItems.get? player.guid).isNone then L.fillFFALoot templates player else L
  let L :=
    if (L.PlayerNonQuestNonFFAConditionalItems.get? player.guid).isNone then
      L.fillNonQuestNonFFAConditionalLoot templates player presentAtLooting
    else L
  if !presentAtLooting then L
  else storeCurrencies templates player canStore (List.range (L.getMaxSlotInLootFor player.guid)) L

/-- Items below the threshold of the group. -/
def markUnderThreshold (L : Loot) (lootThreshold : Nat) : Loot :=
  { L with
    items := L.items.map fun item =>
      if (templates item.itemid).any fun proto => decide (proto.quality < lootThreshold) then
        { item with is_underthreshold := true }
      else item }

/-- "Setting access rights for group loot case". -/
def fillMembers (canStore : ObjectGuid → Nat → Bool) : List Member → Loot → Loot
  | [], L => L
  | m :: members, L =>
    fillMembers canStore members
      (if m.isInMap then
        L.fillNotNormalLootFor templates m.player m.isAtGroupRewardDistance (canStore m.player.guid)
      else L)

/-- The calls of `AddItem` that a loot template makes, with the counts they draw. -/
def process (owner : Option Player) (group : Option LootGroup) :
    List (LootStoreItem × Nat) → Loot → Loot
  | [], L => L
  | drop :: drops, L => process owner group drops (L.addItem templates owner group drop.1 drop.2)

/-- The loot as `tab->Process` leaves it. -/
def processed (lootOwner : Player) (inWorld : Bool) (group : Option LootGroup)
    (drops : List (LootStoreItem × Nat)) (gold : Nat) : Loot :=
  process templates (if inWorld then some lootOwner else none) group drops
    { lootOwnerGUID := lootOwner.guid, gold }

/-- `FillLoot`: `drops` are what the loot template drops; `canStore` answers by player and slot. -/
def fillLoot (lootOwner : Player) (inWorld : Bool) (group : Option LootGroup) (personal : Bool)
    (drops : List (LootStoreItem × Nat)) (canStore : ObjectGuid → Nat → Bool) (gold : Nat) : Loot :=
  let L := processed templates lootOwner inWorld group drops gold
  match personal, group with
  | false, some group =>
    (fillMembers templates canStore group.members
      { L with roundRobinPlayer := lootOwner.guid }).markUnderThreshold templates group.lootThreshold
  | _, _ => L.fillNotNormalLootFor templates lootOwner true (canStore lootOwner.guid)

end Loot

end EGServer.Looting
