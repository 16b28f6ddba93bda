import EGServer.Looting.Filled

/-!
# The counter over whole runs

`unlootedCount` says what is pending after `FillLoot` and after whatever players take, as long as
two things hold. While the loot is filled, no quest item that one player is to have is listed
twice before it is blocked; under group loot and round robin it is never blocked, so an item that
follows the loot rules is counted for every member that lists it. Afterwards nothing is taken that
was not counted: `StoreLootItem` lowers the counter for a player without an entry too.
-/

namespace EGServer.Looting

namespace Loot

variable {templates : Templates} {L L' : Loot} {li : LootStoreItem} {proto : ItemTemplate}
  {owner : Option Player} {group : Option LootGroup}

/-! ## What is dropped -/

/-- A loot before anyone has a list. -/
structure Dropped (L : Loot) : Prop where
  quest : L.PlayerQuestItems = ∅
  ffa : L.PlayerFFAItems = ∅
  conditional : L.PlayerNonQuestNonFFAConditionalItems = ∅
  room : L.items.length ≤ MAX_NR_LOOT_ITEMS
  notCounted : ∀ item ∈ L.items, item.is_counted = false
  notBlocked : ∀ item ∈ L.quest_items, item.is_blocked = false
  tally : L.Tally 0

theorem Dropped.listing (h : L.Dropped) : L.Listing := by
  constructor
  · exact h.room
  · intro i item hitem _ hblocked
    rw [h.notBlocked item (List.mem_of_getElem? hitem)] at hblocked
    cases hblocked
  · intro i item hitem _ _
    rw [h.notCounted item (List.mem_of_getElem? hitem), h.conditional]
    rfl

theorem Dropped.freshFor (h : L.Dropped) (guid : ObjectGuid) : L.FreshFor guid := by
  constructor
  · rw [h.quest]
    rfl
  · rw [h.ffa]
    rfl
  · rw [h.conditional]
    rfl

theorem Dropped.empty (lootOwnerGUID : ObjectGuid) (gold : Nat) :
    Dropped { lootOwnerGUID, gold } where
  quest := rfl
  ffa := rfl
  conditional := rfl
  room := Nat.zero_le _
  notCounted := by
    rintro item ⟨⟩
  notBlocked := by
    rintro item ⟨⟩
  tally := ⟨rfl, rfl⟩

theorem Dropped.pending_quest (h : L.Dropped) (item : LootItem) :
    pending { L with quest_items := L.quest_items ++ [item] } = L.pending := by
  have hopen : openItems (wantsQuestItem (isListed L.PlayerQuestItems)) (L.quest_items ++ [item]) =
      openItems (wantsQuestItem (isListed L.PlayerQuestItems)) L.quest_items := by
    rw [openItems_append fun _ _ _ => rfl, h.quest]
    have hno : wantsQuestItem (isListed ∅) L.quest_items.length item = false := rfl
    rw [hno, Bool.and_false]
    exact Nat.add_zero _
  have hentries : entriesOf L.PlayerQuestItems = [] := by
    rw [h.quest]
    rfl
  rw [pending, pending]
  dsimp only
  rw [hopen, hentries, List.countP_nil, List.countP_nil]

theorem Dropped.pending_item (h : L.Dropped) (item : LootItem) :
    pending { L with items := L.items ++ [item] } = L.pending +
      (!item.is_looted && !item.freeforall && (item.conditions.isEmpty && item.seen)).toNat := by
  have hwants : wantsItem (isListed L.PlayerNonQuestNonFFAConditionalItems) L.items.length item =
      (item.conditions.isEmpty && item.seen) := by
    rw [h.conditional, wantsItem]
    cases item.conditions.isEmpty <;> rfl
  have hopen : openItems (wantsItem (isListed L.PlayerNonQuestNonFFAConditionalItems))
      (L.items ++ [item]) =
        openItems (wantsItem (isListed L.PlayerNonQuestNonFFAConditionalItems)) L.items +
          (!item.is_looted && !item.freeforall && (item.conditions.isEmpty && item.seen)).toNat := by
    rw [openItems_append fun _ _ _ => rfl, hwants]
    cases (!item.is_looted && !item.freeforall && (item.conditions.isEmpty && item.seen)) <;> rfl
  rw [pending, pending]
  dsimp only
  rw [hopen]
  omega

theorem Dropped.addStack (h : L.Dropped) (hproto : templates li.itemid = some proto)
    (hroom : li.needs_quest = false → L.items.length < MAX_NR_LOOT_ITEMS) (count : Nat) :
    (L.addStack templates owner group li proto count).Dropped := by
  have hffa : (LootItem.ofStore templates li).freeforall = proto.multiDrop := by
    rw [LootItem.ofStore, hproto, Option.any_some]
  have hstep : ∀ (item : LootItem), item.is_counted = false → item.is_blocked = false →
      item.is_looted = false → item.conditions = li.conditions → item.freeforall = proto.multiDrop →
      (if item.seen && !li.needs_quest && li.conditions.isEmpty && !proto.multiDrop then
        (L.pushItem li.needs_quest item).raiseCount 1
      else L.pushItem li.needs_quest item).Dropped := by
    intro item hcounted hblocked hlooted hconditions hmulti
    cases hq : li.needs_quest with
    | true =>
      rw [Bool.not_true, Bool.and_false, Bool.false_and, Bool.false_and, pushItem]
      refine ⟨h.quest, h.ffa, h.conditional, h.room, h.notCounted, ?_, ?_⟩
      · intro item' hitem
        rcases List.mem_append.mp hitem with hitem | hitem
        · exact h.notBlocked item' hitem
        · rw [List.mem_singleton.mp hitem]
          exact hblocked
      · exact h.tally.same rfl rfl rfl (h.pending_quest item)
    | false =>
      have hsplit : ∀ b : Bool, (if b = true then raiseCount { L with items := L.items ++ [item] } 1
          else { L with items := L.items ++ [item] }) =
            { L with items := L.items ++ [item],
                     unlootedCount := L.unlootedCount + UInt8.ofNat b.toNat,
                     counted := L.counted + b.toNat } := by
        intro b
        cases b with
        | true => rfl
        | false =>
          have hzero : L.unlootedCount + UInt8.ofNat 0 = L.unlootedCount := add_zero _
          rw [Bool.toNat_false, hzero]
          rfl
      rw [pushItem, if_neg Bool.false_ne_true, hsplit]
      refine ⟨h.quest, h.ffa, h.conditional, ?_, ?_, h.notBlocked, ?_⟩
      · grind
      · intro item' hitem
        rcases List.mem_append.mp hitem with hitem | hitem
        · exact h.notCounted item' hitem
        · rw [List.mem_singleton.mp hitem]
          exact hcounted
      · refine h.tally.raise rfl rfl rfl ?_
        have hpending := h.pending_item item
        rw [hlooted, hconditions, hmulti] at hpending
        have hbool : (!false && !proto.multiDrop && (li.conditions.isEmpty && item.seen)) =
            (item.seen && !false && li.conditions.isEmpty && !proto.multiDrop) := by
          cases item.seen <;> cases li.conditions.isEmpty <;> cases proto.multiDrop <;> rfl
        rw [hbool] at hpending
        exact hpending
  exact hstep (L.generatedLoot templates owner group li proto count) rfl rfl rfl rfl hffa

theorem Dropped.addStacks (n : Nat) (h : L.Dropped) (hproto : templates li.itemid = some proto)
    (count : Nat) : (addStacks templates owner group li proto n count L).Dropped := by
  induction n generalizing L count with
  | zero => exact h
  | succ n ih =>
    rw [Loot.addStacks]
    split
    · next hroom =>
      refine ih (h.addStack hproto ?_ count) _
      intro hq
      rw [hasRoom, hq] at hroom
      exact of_decide_eq_true hroom
    · exact h

theorem Dropped.process (drops : List (LootStoreItem × Nat)) (h : L.Dropped) :
    (process templates owner group drops L).Dropped := by
  induction drops generalizing L with
  | nil => exact h
  | cons drop drops ih =>
    rw [Loot.process]
    apply ih
    unfold addItem
    split
    · exact h
    · next proto hproto => exact h.addStacks _ hproto _

/-! ## The loot as `FillLoot` leaves it -/

theorem markUnderThreshold_core (L : Loot) (lootThreshold : Nat) :
    (L.markUnderThreshold templates lootThreshold).items.map LootItem.core =
      L.items.map LootItem.core := by
  rw [markUnderThreshold, List.map_map]
  apply List.map_congr_left
  intro item _
  rw [Function.comp_apply]
  split <;> rfl

theorem Listing.markUnderThreshold {lootThreshold : Nat} (hl : L.Listing) :
    (L.markUnderThreshold templates lootThreshold).Listing := by
  refine ⟨?_, hl.blocked, ?_⟩
  · have hroom := hl.room
    rw [Loot.markUnderThreshold, List.length_map]
    exact hroom
  · intro i item hitem hffa hcond
    rw [Loot.markUnderThreshold, List.getElem?_map] at hitem
    obtain ⟨item₀, hitem₀, rfl⟩ := Option.map_eq_some_iff.mp hitem
    split at hffa
    · next h =>
      rw [if_pos h] at hcond ⊢
      exact hl.counted i item₀ hitem₀ hffa hcond
    · next h =>
      rw [if_neg h] at hcond ⊢
      exact hl.counted i item₀ hitem₀ hffa hcond

variable {lootOwner : Player} {inWorld personal : Bool} {drops : List (LootStoreItem × Nat)}
  {canStore : ObjectGuid → Nat → Bool} {gold : Nat}

/-- As the loot is filled, no quest item that one player is to have is listed by a second player
before it is blocked. A loot that is filled for one player alone meets this. -/
def QuestListedOnce (templates : Templates) (lootOwner : Player) (inWorld : Bool)
    (group : Option LootGroup) (personal : Bool) (drops : List (LootStoreItem × Nat))
    (canStore : ObjectGuid → Nat → Bool) (gold : Nat) : Prop :=
  personal = false → ∀ g, group = some g →
    FillsOnce templates canStore g.members
      { processed templates lootOwner inWorld group drops gold with
        roundRobinPlayer := lootOwner.guid }

/-- **A filled loot.** -/
theorem fillLoot_tally (templates : Templates) (lootOwner : Player) (inWorld : Bool)
    (group : Option LootGroup) (personal : Bool) (drops : List (LootStoreItem × Nat))
    (canStore : ObjectGuid → Nat → Bool) (gold : Nat) :
    (fillLoot templates lootOwner inWorld group personal drops canStore gold).Listing ∧
      ∃ extra, (fillLoot templates lootOwner inWorld group personal drops canStore gold).Tally extra ∧
        (QuestListedOnce templates lootOwner inWorld group personal drops canStore gold →
          extra = 0) := by
  have hdropped : (processed templates lootOwner inWorld group drops gold).Dropped :=
    (Dropped.empty lootOwner.guid gold).process drops
  have hplain : ((processed templates lootOwner inWorld group drops gold).fillNotNormalLootFor
      templates lootOwner true (canStore lootOwner.guid)).Listing ∧
        ∃ extra, ((processed templates lootOwner inWorld group drops gold).fillNotNormalLootFor
          templates lootOwner true (canStore lootOwner.guid)).Tally extra ∧ extra = 0 := by
    obtain ⟨hl, extra, ht, honce⟩ := fillNotNormalLootFor_keeps templates true
      (canStore lootOwner.guid) (hdropped.freshFor lootOwner.guid) hdropped.listing hdropped.tally
    refine ⟨hl, extra, ht, honce ?_⟩
    intro i _ item _ _ hlisted
    rw [hdropped.quest] at hlisted
    cases hlisted
  cases personal with
  | true =>
    obtain ⟨hl, extra, ht, hextra⟩ := hplain
    exact ⟨hl, extra, ht, fun _ => hextra⟩
  | false =>
    cases group with
    | none =>
      obtain ⟨hl, extra, ht, hextra⟩ := hplain
      exact ⟨hl, extra, ht, fun _ => hextra⟩
    | some g =>
      obtain ⟨hl, extra, ht, honce⟩ := fillMembers_keeps templates canStore
        (L := { processed templates lootOwner inWorld (some g) drops gold with
          roundRobinPlayer := lootOwner.guid }) g.members g.nodup
        (fun m _ => ⟨(hdropped.freshFor m.player.guid).quest, (hdropped.freshFor m.player.guid).ffa,
          (hdropped.freshFor m.player.guid).conditional⟩)
        ⟨hdropped.listing.room, hdropped.listing.blocked, hdropped.listing.counted⟩
        (hdropped.tally.same rfl rfl rfl rfl)
      refine ⟨hl.markUnderThreshold, extra, ht.same rfl rfl rfl ?_, fun h => honce (h rfl g rfl)⟩
      exact pending_core (markUnderThreshold_core _ _) rfl rfl rfl rfl

/-! ## Runs -/

/-- A call of `StoreLootItem`. -/
structure StoreCall where
  player : Player
  lootSlot : Nat
  canStore : Bool

def Store (templates : Templates) (L : Loot) (call : StoreCall) (L' : Loot) : Prop :=
  L' = L.storeLootItem templates call.player call.lootSlot call.canStore

/-- What the call takes, if it takes anything, was counted: the player has an entry for it, or
somebody has, or somebody saw it as it dropped. -/
def TakesCounted (templates : Templates) (L : Loot) (call : StoreCall) : Prop :=
  ∀ found item, L.lootItemInSlot call.lootSlot call.player.guid = some found →
    L.Finds call.player.guid found item →
    mayTake templates call.player found item call.canStore = true → L.isCounted found item = true

theorem store_tally {extra : Nat} {call : StoreCall} (hl : L.Listing) (ht : L.Tally extra)
    (hok : TakesCounted templates L call) (h : Store templates L call L') :
    L'.Listing ∧ L'.Tally extra := by
  rcases storeLootItem_cases templates L call.player call.lootSlot call.canStore with
    hnone | ⟨found, item, hslot, hfind, hmay, htake⟩
  · rw [h, hnone]
    exact ⟨hl, ht⟩
  · rw [h, htake]
    exact ⟨hl.take _ _ _, ht.take hfind (mayTake_not_looted hmay) (hok found item hslot hfind hmay)⟩

/-- **isLooted tells the truth**: the counter is what is pending, unless that is more than it can
hold, and when nothing is pending and the gold is gone the loot is looted. -/
theorem run_isLooted
    (honce : QuestListedOnce templates lootOwner inWorld group personal drops canStore gold)
    (h : Reaches (Store templates) (TakesCounted templates)
      (fillLoot templates lootOwner inWorld group personal drops canStore gold) L) :
    (L.unlootedCount.toNat = L.pending ↔ L.pending < 256) ∧
      (L.pending = 0 → L.gold = 0 → L.isLooted = true) := by
  obtain ⟨hl, extra, ht, hextra⟩ :=
    fillLoot_tally templates lootOwner inWorld group personal drops canStore gold
  have htally : L.Listing ∧ L.Tally extra := by
    refine h.invariant (I := fun L => L.Listing ∧ L.Tally extra) ⟨hl, ht⟩ ?_
    rintro s t call ⟨hl, ht⟩ hok hstep
    exact store_tally hl ht hok hstep
  have hzero := htally.2
  rw [hextra honce] at hzero
  refine ⟨hzero.toNat, ?_⟩
  intro hpending hgold
  have hcount : L.unlootedCount = 0 := by
    rw [hzero.count, hpending]
    rfl
  rw [isLooted, hgold, hcount]
  rfl

/-! ## The two things that go wrong -/

/-- 1 is a plain item, 2 a quest item that follows the loot rules, 3 one that everyone may take. -/
def sample (id : ItemId) : Option ItemTemplate :=
  if id = 1 then some {}
  else if id = 2 then some { followLootRules := true }
  else if id = 3 then some { multiDrop := true }
  else none

def memberOf (lootMethod : LootMethod) (guid : ObjectGuid) : Player :=
  { guid, group := some { lootMethod } }

/-- 7 and 8. -/
def pairOf (lootMethod : LootMethod) : LootGroup where
  members := [⟨memberOf lootMethod 7, true, true⟩, ⟨memberOf lootMethod 8, true, true⟩]
  nodup := by
    show ([7, 8] : List ObjectGuid).Nodup
    decide
  lootThreshold := 2

/-- The pair's loot: one item of each kind. -/
def pairLoot (lootMethod : LootMethod) : Loot :=
  fillLoot sample (memberOf lootMethod 7) true (some (pairOf lootMethod)) false
    [({ itemid := 1 }, 1), ({ itemid := 3 }, 1), ({ itemid := 2, needs_quest := true }, 1)]
    (fun _ _ => true) 0

/-- 7 takes all it sees, and 8 its copy of the item that both may take. -/
def takenByPair (lootMethod : LootMethod) : List StoreCall :=
  [⟨memberOf lootMethod 7, 2, true⟩, ⟨memberOf lootMethod 7, 1, true⟩,
    ⟨memberOf lootMethod 7, 0, true⟩, ⟨memberOf lootMethod 8, 1, true⟩]

/-- Calls one after another. -/
def storeAll (templates : Templates) (L : Loot) (calls : List StoreCall) : Loot :=
  calls.foldl
    (fun L call => (L.storeLootItem templates call.player call.lootSlot call.canStore)) L

theorem storeAll_reaches (L : Loot) (calls : List StoreCall) :
    Reaches (Store templates) (fun _ _ => True) L (storeAll templates L calls) := by
  induction calls using List.reverseRecOn with
  | nil => exact .refl L
  | append_singleton calls call ih =>
    have hrun : storeAll templates L (calls ++ [call]) =
        ((storeAll templates L calls).storeLootItem templates call.player call.lootSlot
          call.canStore) := List.foldl_append
    rw [hrun]
    exact ih.next trivial rfl

theorem storeAll_cons {call : StoreCall} {calls : List StoreCall}
    (hok : TakesCounted templates L call)
    (h : Reaches (Store templates) (TakesCounted templates)
      (L.storeLootItem templates call.player call.lootSlot call.canStore)
      (storeAll templates (L.storeLootItem templates call.player call.lootSlot call.canStore)
        calls)) :
    Reaches (Store templates) (TakesCounted templates) L (storeAll templates L (call :: calls)) :=
  Relation.ReflTransGen.head ⟨call, hok, rfl⟩ h

/-- Under group loot the quest item counts twice, so the loot never gets looted. And whoever joins
later lowers the counter with an item that everyone may take: then it gets looted too early. -/
theorem unlootedCount_wrong :
    (∃ L, Reaches (Store sample) (fun _ _ => True) (pairLoot .groupLoot) L ∧ L.pending = 0 ∧
      L.gold = 0 ∧ L.unlootedCount = 1 ∧ L.isLooted = false) ∧
    ∃ L, Reaches (Store sample) (fun _ _ => True) (pairLoot .needBeforeGreed) L ∧ L.pending = 1 ∧
      L.unlootedCount = 0 := by
  constructor
  · refine ⟨_, storeAll_reaches _ (takenByPair .groupLoot), ?_⟩
    decide
  · refine ⟨_, storeAll_reaches _ [⟨memberOf .needBeforeGreed 7, 2, true⟩,
      ⟨memberOf .needBeforeGreed 7, 1, true⟩, ⟨memberOf .needBeforeGreed 7, 0, true⟩,
      ⟨memberOf .needBeforeGreed 9, 1, true⟩], ?_⟩
    decide

/-- A call that finds an entry of the player, as `LootItemInSlot` computes it. -/
theorem takesCounted_of {call : StoreCall}
    (h : ((L.lootItemInSlot call.lootSlot call.player.guid).all fun found =>
      (L.get? found.ref).all fun item => L.isCounted found item) = true) :
    TakesCounted templates L call := by
  intro found item hslot hfind _
  rw [hslot, Option.all_some, hfind.get?, Option.all_some] at h
  exact h

theorem listsOnceAt_of {positions : List Nat}
    (h : (positions.all fun i => L.quest_items[i]?.all fun item =>
      item.freeforall || !isListed L.PlayerQuestItems i || item.is_blocked) = true) :
    L.ListsOnceAt positions := by
  intro i hi item hitem hffa hlisted
  have hall := List.all_eq_true.mp h i hi
  rw [hitem, Option.all_some, hffa, hlisted] at hall
  exact hall

/-- Under need before greed the quest item is blocked as 7 lists it, and counts once. -/
theorem pairLoot_isLooted :
    (storeAll sample (pairLoot .needBeforeGreed) (takenByPair .needBeforeGreed)).isLooted = true := by
  have honce : QuestListedOnce sample (memberOf .needBeforeGreed 7) true
      (some (pairOf .needBeforeGreed)) false
      [({ itemid := 1 }, 1), ({ itemid := 3 }, 1), ({ itemid := 2, needs_quest := true }, 1)]
      (fun _ _ => true) 0 := by
    rintro _ g ⟨⟩
    exact ⟨fun _ => listsOnceAt_of (by decide), fun _ => listsOnceAt_of (by decide), trivial⟩
  have hrun : Reaches (Store sample) (TakesCounted sample) (pairLoot .needBeforeGreed)
      (storeAll sample (pairLoot .needBeforeGreed) (takenByPair .needBeforeGreed)) := by
    refine storeAll_cons (takesCounted_of (by decide)) (storeAll_cons ?_ (storeAll_cons ?_
      (storeAll_cons ?_ (.refl _))))
    all_goals exact takesCounted_of (by decide)
  exact (run_isLooted honce hrun).2 (by decide) (by decide)

end Loot

end EGServer.Looting
