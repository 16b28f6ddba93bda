import EGServer.Looting.Filling

/-!
# A filled loot

`FillLoot` leaves a loot whose counter says what is pending, with a surplus of one for each time a
quest item that one player is to have was counted again. What players take afterwards keeps it so,
as long as they take what has been counted.
-/

namespace EGServer.Looting

namespace Loot

variable {templates : Templates} {L L' : Loot} {guid guid' : ObjectGuid} {player : Player}
  {found : Found} {item : LootItem} {i extra lootSlot : Nat} {canStore : Bool}

/-! ## Taking keeps the lists -/

theorem markTaken_items (L : Loot) (guid : ObjectGuid) (found : Found) :
    (L.markTaken guid found).items = L.items := by
  unfold markTaken
  split <;> rfl

theorem markTaken_quest_items (L : Loot) (guid : ObjectGuid) (found : Found) :
    (L.markTaken guid found).quest_items = L.quest_items := by
  unfold markTaken
  split <;> rfl

theorem takeItem_items (L : Loot) (guid : ObjectGuid) (found : Found) (item : LootItem) :
    (L.takeItem guid found item).items = L.items ∨
      ∃ i, found.ref = .item i ∧ item.freeforall = false ∧
        (L.takeItem guid found item).items =
          L.items.modify i fun item => { item with is_looted := true } := by
  unfold takeItem
  dsimp only
  cases item.freeforall with
  | true => exact Or.inl (markTaken_items L guid found)
  | false =>
    cases found.ref with
    | quest k => exact Or.inl (markTaken_items L guid found)
    | item i =>
      refine Or.inr ⟨i, rfl, rfl, ?_⟩
      exact congrArg (fun items : List LootItem => items.modify i _) (markTaken_items L guid found)

theorem takeItem_quest_items (L : Loot) (guid : ObjectGuid) (found : Found) (item : LootItem) :
    (L.takeItem guid found item).quest_items = L.quest_items ∨
      ∃ i, found.ref = .quest i ∧ item.freeforall = false ∧
        (L.takeItem guid found item).quest_items =
          L.quest_items.modify i fun item => { item with is_looted := true } := by
  unfold takeItem
  dsimp only
  cases item.freeforall with
  | true => exact Or.inl (markTaken_quest_items L guid found)
  | false =>
    cases found.ref with
    | item k => exact Or.inl (markTaken_quest_items L guid found)
    | quest i =>
      refine Or.inr ⟨i, rfl, rfl, ?_⟩
      exact congrArg (fun items : List LootItem => items.modify i _)
        (markTaken_quest_items L guid found)

theorem takeItem_owner (L : Loot) (guid : ObjectGuid) (found : Found) (item : LootItem) :
    (L.takeItem guid found item).lootOwnerGUID = L.lootOwnerGUID := by
  have hmark : (L.markTaken guid found).lootOwnerGUID = L.lootOwnerGUID := by
    unfold markTaken
    split <;> rfl
  unfold takeItem
  dsimp only
  split
  · exact hmark
  · cases found.ref <;> exact hmark

theorem getElem?_looted {items items' : List LootItem} {k : Nat} {item' : LootItem}
    (h : items' = items ∨ ∃ i, items' = items.modify i fun item => { item with is_looted := true })
    (hk : items'[k]? = some item') :
    ∃ item, items[k]? = some item ∧ (item' = item ∨ item' = { item with is_looted := true }) := by
  grind

theorem takeItem_maps (L : Loot) (guid : ObjectGuid) (found : Found) (item : LootItem) :
    ((L.takeItem guid found item).PlayerQuestItems = L.PlayerQuestItems ∨
        ∃ pos, (L.takeItem guid found item).PlayerQuestItems =
          markEntry L.PlayerQuestItems guid pos) ∧
      ((L.takeItem guid found item).PlayerFFAItems = L.PlayerFFAItems ∨
        ∃ pos, (L.takeItem guid found item).PlayerFFAItems =
          markEntry L.PlayerFFAItems guid pos) ∧
      ((L.takeItem guid found item).PlayerNonQuestNonFFAConditionalItems =
          L.PlayerNonQuestNonFFAConditionalItems ∨
        ∃ pos, (L.takeItem guid found item).PlayerNonQuestNonFFAConditionalItems =
          markEntry L.PlayerNonQuestNonFFAConditionalItems guid pos) := by
  have hmodify : ∀ (M : Loot) (f : LootItem → LootItem) (ref : ItemRef),
      (M.modify f ref).PlayerQuestItems = M.PlayerQuestItems ∧
        (M.modify f ref).PlayerFFAItems = M.PlayerFFAItems ∧
        (M.modify f ref).PlayerNonQuestNonFFAConditionalItems =
          M.PlayerNonQuestNonFFAConditionalItems := by
    intro M f ref
    cases ref <;> exact ⟨rfl, rfl, rfl⟩
  have hmark : ((L.markTaken guid found).PlayerQuestItems = L.PlayerQuestItems ∨
        ∃ pos, (L.markTaken guid found).PlayerQuestItems = markEntry L.PlayerQuestItems guid pos) ∧
      ((L.markTaken guid found).PlayerFFAItems = L.PlayerFFAItems ∨
        ∃ pos, (L.markTaken guid found).PlayerFFAItems = markEntry L.PlayerFFAItems guid pos) ∧
      ((L.markTaken guid found).PlayerNonQuestNonFFAConditionalItems =
          L.PlayerNonQuestNonFFAConditionalItems ∨
        ∃ pos, (L.markTaken guid found).PlayerNonQuestNonFFAConditionalItems =
          markEntry L.PlayerNonQuestNonFFAConditionalItems guid pos) := by
    unfold markTaken
    split
    · exact ⟨Or.inr ⟨_, rfl⟩, Or.inl rfl, Or.inl rfl⟩
    · exact ⟨Or.inl rfl, Or.inr ⟨_, rfl⟩, Or.inl rfl⟩
    · exact ⟨Or.inl rfl, Or.inl rfl, Or.inr ⟨_, rfl⟩⟩
    · exact ⟨Or.inl rfl, Or.inl rfl, Or.inl rfl⟩
  grind [takeItem]

section
variable {map map' : NotNormalLootItemMap}

theorem isListed_marked (h : map' = map ∨ ∃ pos, map' = markEntry map guid pos) :
    isListed map' = isListed map := by
  rcases h with rfl | ⟨pos, rfl⟩
  · rfl
  · exact funext fun k => isListed_markEntry map guid pos k

theorem findEntry_marked (h : map' = map ∨ ∃ pos, map' = markEntry map guid pos) (k : Nat) :
    (findEntry map' guid' k).isSome = (findEntry map guid' k).isSome := by
  rcases h with rfl | ⟨pos, rfl⟩
  · rfl
  · exact findEntry_isSome_markEntry map guid guid' pos k

theorem get?_marked (h : map' = map ∨ ∃ pos, map' = markEntry map guid pos)
    (hnone : map.get? guid' = none) : map'.get? guid' = none := by
  rcases h with rfl | ⟨pos, rfl⟩
  · exact hnone
  · rw [get?_markEntry]
    split
    · next heq => rw [← heq, hnone, Option.map_none]
    · exact hnone

end

theorem Listing.take (hl : L.Listing) (guid : ObjectGuid) (found : Found) (item : LootItem) :
    (L.takeItem guid found item).Listing := by
  obtain ⟨hq, -, hc⟩ := takeItem_maps L guid found item
  have hitems : (L.takeItem guid found item).items = L.items ∨ ∃ i, (L.takeItem guid found item).items =
      L.items.modify i fun item => { item with is_looted := true } := by
    grind [takeItem_items]
  have hquest : (L.takeItem guid found item).quest_items = L.quest_items ∨
      ∃ i, (L.takeItem guid found item).quest_items =
        L.quest_items.modify i fun item => { item with is_looted := true } := by
    grind [takeItem_quest_items]
  constructor
  · have hlen : (L.takeItem guid found item).items.length = L.items.length := by
      rcases hitems with h | ⟨i, h⟩
      · rw [h]
      · rw [h, List.length_modify]
    rw [hlen]
    exact hl.room
  · intro k item' hk hffa hblocked
    rw [isListed_marked hq]
    obtain ⟨item₀, hitem₀, rfl | rfl⟩ := getElem?_looted hquest hk
    · exact hl.blocked k _ hitem₀ hffa hblocked
    · exact hl.blocked k _ hitem₀ hffa hblocked
  · intro k item' hk hffa hcond
    rw [isListed_marked hc]
    obtain ⟨item₀, hitem₀, rfl | rfl⟩ := getElem?_looted hitems hk
    · exact hl.counted k _ hitem₀ hffa hcond
    · exact hl.counted k item₀ hitem₀ hffa hcond

/-! ## Filling for one player -/

/-- A player's list holds every item that it may take a copy of. -/
def HasFFA (templates : Templates) (L : Loot) (player : Player) : Prop :=
  ∀ i item, L.items[i]? = some item → L.listsFFA templates player item = true →
    (findEntry L.PlayerFFAItems player.guid i).isSome = true

theorem HasFFA.take (h : HasFFA templates L player) (guid : ObjectGuid) (found : Found)
    (item : LootItem) : HasFFA templates (L.takeItem guid found item) player := by
  obtain ⟨-, hf, -⟩ := takeItem_maps L guid found item
  have hitems : (L.takeItem guid found item).items = L.items ∨ ∃ i, (L.takeItem guid found item).items =
      L.items.modify i fun item => { item with is_looted := true } := by
    grind [takeItem_items]
  have howner : (L.takeItem guid found item).lootOwnerGUID = L.lootOwnerGUID := takeItem_owner _ _ _ _
  intro k item' hk hlists
  rw [findEntry_marked hf]
  obtain ⟨item₀, hitem₀, rfl | rfl⟩ := getElem?_looted hitems hk
  · apply h k _ hitem₀
    rw [listsFFA, howner] at hlists
    exact hlists
  · rw [listsFFA] at hlists
    cases hlists

theorem lootItemInSlot_ref (h : L.lootItemInSlot lootSlot guid = some found)
    (hr : found.ref = .item i) : i = lootSlot ∧ lootSlot < L.items.length := by
  unfold lootItemInSlot at h
  grind

theorem isCounted_of_ffa (hffa : HasFFA templates L player) (hslot : L.lootItemInSlot lootSlot
      player.guid = some found) (hfind : L.Finds player.guid found item)
    (hauto : ∀ item, L.items[lootSlot]? = some item → L.listsFFA templates player item = true) :
    L.isCounted found item = true := by
  cases hfind with
  | quest _ _ _ _ => rfl
  | ffa hitem hffa _ _ =>
    rw [isCounted]
    dsimp only
    rw [if_pos hffa]
    rfl
  | conditional hitem hnot _ _ =>
    obtain ⟨rfl, -⟩ := lootItemInSlot_ref hslot rfl
    have hlists := hauto _ hitem
    rw [listsFFA, hnot, Bool.and_false, Bool.false_and] at hlists
    cases hlists
  | bare hitem hnone _ =>
    obtain ⟨rfl, -⟩ := lootItemInSlot_ref hslot rfl
    have hlists := hauto _ hitem
    have hentry := hffa _ _ hitem hlists
    rw [listsFFA, Bool.and_eq_true, Bool.and_eq_true] at hlists
    rw [hnone hlists.1.2] at hentry
    cases hentry

/-- **Currencies** are taken without harm to the counter. -/
theorem storeCurrencies_keeps (canStore : Nat → Bool) (todo : List Nat) (hl : L.Listing)
    (ht : L.Tally extra) (hffa : HasFFA templates L player) :
    (storeCurrencies templates player canStore todo L).Listing ∧
      (storeCurrencies templates player canStore todo L).Tally extra := by
  induction todo generalizing L with
  | nil => exact ⟨hl, ht⟩
  | cons i todo ih =>
    rw [storeCurrencies]
    split
    · next hauto =>
      rcases storeLootItem_cases templates L player i (canStore i) with
        h | ⟨found, item, hslot, hfind, hmay, h⟩
      · rw [h]
        exact ih hl ht hffa
      · rw [h]
        have hcounted : L.isCounted found item = true := by
          refine isCounted_of_ffa hffa hslot hfind ?_
          intro item' hitem'
          have hi : i < L.items.length := (List.getElem?_eq_some_iff.mp hitem').1
          rw [refAt, if_pos hi] at hauto
          have hget : L.get? (.item i) = some item' := hitem'
          rw [hget, Option.any_some, isAutoStored, Bool.and_eq_true] at hauto
          exact hauto.1
        exact ih (hl.take _ _ _) (ht.take hfind (mayTake_not_looted hmay) hcounted)
          (hffa.take _ _ _)
    · exact ih hl ht hffa

theorem storeCurrencies_induction (templates : Templates) (player : Player) (canStore : Nat → Bool)
    (todo : List Nat) (L : Loot) (P : Loot → Prop) (hL : P L)
    (htake : ∀ L found item, P L → P (L.takeItem player.guid found item)) :
    P (storeCurrencies templates player canStore todo L) := by
  induction todo generalizing L with
  | nil => exact hL
  | cons i todo ih =>
    grind [storeLootItem_cases, storeCurrencies]

/-- The player has no list yet. -/
structure FreshFor (L : Loot) (guid : ObjectGuid) : Prop where
  quest : L.PlayerQuestItems.get? guid = none
  ffa : L.PlayerFFAItems.get? guid = none
  conditional : L.PlayerNonQuestNonFFAConditionalItems.get? guid = none

theorem FreshFor.take (h : L.FreshFor guid') (guid : ObjectGuid) (found : Found) (item : LootItem) :
    (L.takeItem guid found item).FreshFor guid' := by
  obtain ⟨hq, hf, hc⟩ := takeItem_maps L guid found item
  exact ⟨get?_marked hq h.quest, get?_marked hf h.ffa, get?_marked hc h.conditional⟩

theorem listsFFA_core {a b : LootItem} (h : a.core = b.core) :
    L.listsFFA templates player a = L.listsFFA templates player b := by
  have hcore : ∀ item : LootItem, L.listsFFA templates player item.core =
      L.listsFFA templates player item := fun _ => rfl
  rw [← hcore a, ← hcore b, h]

/-- The three lists of a player, before the currencies. -/
def fillLists (templates : Templates) (L : Loot) (player : Player) (presentAtLooting : Bool) : Loot :=
  ((L.fillQuestLoot templates player).fillFFALoot templates player).fillNonQuestNonFFAConditionalLoot
    templates player presentAtLooting

theorem fillNotNormalLootFor_eq {canStore : Nat → Bool} (hfresh : L.FreshFor player.guid)
    (presentAtLooting : Bool) :
    L.fillNotNormalLootFor templates player presentAtLooting canStore =
      if !presentAtLooting then L.fillLists templates player presentAtLooting
      else storeCurrencies templates player canStore
        (List.range ((L.fillLists templates player presentAtLooting).getMaxSlotInLootFor player.guid))
        (L.fillLists templates player presentAtLooting) := by
  obtain ⟨ql, q, u, c, hquest⟩ := fillQuestLoot_eq templates L player
  have hffa : ((L.fillQuestLoot templates player).PlayerFFAItems.get? player.guid).isNone = true := by
    rw [hquest]
    exact Option.isNone_iff_eq_none.mpr hfresh.ffa
  have hcond : (((L.fillQuestLoot templates player).fillFFALoot
      templates player).PlayerNonQuestNonFFAConditionalItems.get? player.guid).isNone = true := by
    rw [hquest]
    exact Option.isNone_iff_eq_none.mpr hfresh.conditional
  unfold fillNotNormalLootFor
  dsimp only
  rw [if_pos (Option.isNone_iff_eq_none.mpr hfresh.quest), if_pos hffa, if_pos hcond]
  rfl

theorem fillLists_keeps (templates : Templates) (presentAtLooting : Bool) (hfresh : L.FreshFor player.guid) (hl : L.Listing)
    (ht : L.Tally extra) : (L.fillLists templates player presentAtLooting).Listing ∧
      HasFFA templates (L.fillLists templates player presentAtLooting) player ∧
      ∃ extra', (L.fillLists templates player presentAtLooting).Tally extra' ∧
        (ListsOnce templates L player → extra' = extra) := by
  obtain ⟨hl₁, extra', ht₁, honce⟩ := fillQuestLoot_keeps templates hfresh.quest hl ht
  obtain ⟨ql, q, u, c, hquest⟩ := fillQuestLoot_eq templates L player
  have hffa : (L.fillQuestLoot templates player).PlayerFFAItems.get? player.guid = none := by
    rw [hquest]
    exact hfresh.ffa
  obtain ⟨hl₂, ht₂⟩ := fillFFALoot_keeps templates hffa hl₁ ht₁
  have hcond : ((L.fillQuestLoot templates player).fillFFALoot
      templates player).PlayerNonQuestNonFFAConditionalItems.get? player.guid = none := by
    rw [hquest]
    exact hfresh.conditional
  obtain ⟨hl₃, ht₃⟩ := fillConditional_keeps templates presentAtLooting hcond hl₂ ht₂
  refine ⟨hl₃, ?_, extra', ht₃, honce⟩
  obtain ⟨ql', items, u', c', hlast, hcore⟩ := fillConditional_eq templates
    ((L.fillQuestLoot templates player).fillFFALoot templates player) player presentAtLooting
  intro i item hitem hlists
  rw [fillLists, hlast] at hitem hlists ⊢
  obtain ⟨item₀, hitem₀, hsame⟩ := getElem?_of_map_core hcore hitem
  apply findEntry_fillFFALoot hffa hitem₀
  have hlists₀ := hlists
  rw [listsFFA_core hsame] at hlists₀
  exact hlists₀

/-- **Filling for one player.** -/
theorem fillNotNormalLootFor_keeps (templates : Templates) (presentAtLooting : Bool)
    (canStore : Nat → Bool) (hfresh : L.FreshFor player.guid) (hl : L.Listing) (ht : L.Tally extra) :
    (L.fillNotNormalLootFor templates player presentAtLooting canStore).Listing ∧
      ∃ extra', (L.fillNotNormalLootFor templates player presentAtLooting canStore).Tally extra' ∧
        (ListsOnce templates L player → extra' = extra) := by
  obtain ⟨hl', hffa, extra', ht', honce⟩ := fillLists_keeps templates presentAtLooting hfresh hl ht
  rw [fillNotNormalLootFor_eq hfresh]
  split
  · exact ⟨hl', extra', ht', honce⟩
  · obtain ⟨hl'', ht''⟩ := storeCurrencies_keeps canStore (List.range
      ((L.fillLists templates player presentAtLooting).getMaxSlotInLootFor player.guid)) hl' ht' hffa
    exact ⟨hl'', extra', ht'', honce⟩

theorem fillNotNormalLootFor_fresh {presentAtLooting : Bool} {canStore : Nat → Bool}
    (hfresh : L.FreshFor player.guid) (h : L.FreshFor guid) (hne : guid ≠ player.guid) :
    (L.fillNotNormalLootFor templates player presentAtLooting canStore).FreshFor guid := by
  have hlists : (L.fillLists templates player presentAtLooting).FreshFor guid := by
    obtain ⟨ql, q, u, c, hquest⟩ := fillQuestLoot_eq templates L player
    obtain ⟨ql', items, u', c', hlast, -⟩ := fillConditional_eq templates
      ((L.fillQuestLoot templates player).fillFFALoot templates player) player presentAtLooting
    have hcond : ((L.fillQuestLoot templates player).fillFFALoot
        templates player).PlayerNonQuestNonFFAConditionalItems =
          L.PlayerNonQuestNonFFAConditionalItems := by
      rw [hquest]
      rfl
    rw [fillLists, hlast]
    constructor
    · show ((L.fillQuestLoot templates player).PlayerQuestItems).get? guid = none
      rw [hquest]
      exact (get?_setList_ne hfresh.quest hne).trans h.quest
    · have hffa : (L.fillQuestLoot templates player).PlayerFFAItems = L.PlayerFFAItems := by
        rw [hquest]
      have hmap : ((L.fillQuestLoot templates player).fillFFALoot templates player).PlayerFFAItems =
          setList (L.fillQuestLoot templates player).PlayerFFAItems player.guid
            (((L.fillQuestLoot templates player).ffaPositions templates player).map
              ({ index := · })) := rfl
      show (((L.fillQuestLoot templates player).fillFFALoot templates player).PlayerFFAItems).get?
        guid = none
      rw [hmap, hffa]
      exact (get?_setList_ne hfresh.ffa hne).trans h.ffa
    · show (setList _ player.guid ql').get? guid = none
      rw [hcond]
      exact (get?_setList_ne hfresh.conditional hne).trans h.conditional
  rw [fillNotNormalLootFor_eq hfresh]
  split
  · exact hlists
  · exact storeCurrencies_induction templates player canStore _ _ (fun L => L.FreshFor guid) hlists
      fun _ found item h => h.take _ found item

/-! ## Filling for a group -/

/-- Along the members, no quest item that one player is to have is listed twice unblocked. -/
def FillsOnce (templates : Templates) (canStore : ObjectGuid → Nat → Bool) :
    List Member → Loot → Prop
  | [], _ => True
  | m :: members, L =>
    (m.isInMap = true → ListsOnce templates L m.player) ∧
      FillsOnce templates canStore members
        (if m.isInMap then
          L.fillNotNormalLootFor templates m.player m.isAtGroupRewardDistance
            (canStore m.player.guid)
        else L)

theorem fillMembers_keeps (templates : Templates) (canStore : ObjectGuid → Nat → Bool)
    (members : List Member)
    (hnodup : (members.map (·.player.guid)).Nodup)
    (hfresh : ∀ m ∈ members, L.FreshFor m.player.guid) (hl : L.Listing) (ht : L.Tally extra) :
    (fillMembers templates canStore members L).Listing ∧
      ∃ extra', (fillMembers templates canStore members L).Tally extra' ∧
        (FillsOnce templates canStore members L → extra' = extra) := by
  induction members generalizing L extra with
  | nil => exact ⟨hl, extra, ht, fun _ => rfl⟩
  | cons m members ih =>
    rw [List.map_cons, List.nodup_cons] at hnodup
    have hm := hfresh m List.mem_cons_self
    have hrest : ∀ m' ∈ members, L.FreshFor m'.player.guid :=
      fun m' h => hfresh m' (List.mem_cons_of_mem m h)
    rw [fillMembers, FillsOnce]
    cases hin : m.isInMap with
    | false =>
      grind
    | true =>
      obtain ⟨hl₁, extra₁, ht₁, honce₁⟩ := fillNotNormalLootFor_keeps templates m.isAtGroupRewardDistance
        (canStore m.player.guid) hm hl ht
      obtain ⟨hl', extra', ht', honce⟩ := ih hnodup.2 (fun m' h => fillNotNormalLootFor_fresh hm
        (hrest m' h) (by
          intro heq
          exact hnodup.1 (List.mem_map.mpr ⟨m', h, heq⟩))) hl₁ ht₁
      exact ⟨hl', extra', ht', fun h => (honce h.2).trans (honce₁ (h.1 rfl))⟩

end Loot

end EGServer.Looting
