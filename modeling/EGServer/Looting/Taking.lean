import EGServer.Looting.Entries

/-!
# Taking an item

What `LootItemInSlot` can find, one constructor for each way to get to an item, and what taking
it does to the number of pending things.
-/

namespace EGServer.Looting

namespace Loot

variable {templates : Templates} {L L' : Loot} {guid : ObjectGuid} {player : Player} {found : Found}
  {item : LootItem} {lootSlot extra : Nat} {canStore : Bool}

/-- **What a player finds in a slot**: an item through its own entry, or an item of `items` that it
has no entry for. -/
inductive Finds (L : Loot) (guid : ObjectGuid) : Found → LootItem → Prop
  | quest {row : PlayerItems} {pos : Nat} {e : NotNormalLootItem} {item : LootItem}
      (hrow : L.PlayerQuestItems.get? guid = some row) (he : row.entries[pos]? = some e)
      (hopen : e.is_looted = false) (hitem : L.quest_items[e.index]? = some item) :
      Finds L guid { ref := .quest e.index, qitem := some pos } item
  | ffa {i pos : Nat} {e : NotNormalLootItem} {item : LootItem} (hitem : L.items[i]? = some item)
      (hffa : item.freeforall = true) (he : findEntry L.PlayerFFAItems guid i = some (pos, e))
      (hopen : e.is_looted = false) : Finds L guid { ref := .item i, ffaitem := some pos } item
  | conditional {i pos : Nat} {e : NotNormalLootItem} {item : LootItem}
      (hitem : L.items[i]? = some item) (hffa : item.freeforall = false)
      (he : findEntry L.PlayerNonQuestNonFFAConditionalItems guid i = some (pos, e))
      (hopen : e.is_looted = false) : Finds L guid { ref := .item i, conditem := some pos } item
  | bare {i : Nat} {item : LootItem} (hitem : L.items[i]? = some item)
      (hffa : item.freeforall = true → findEntry L.PlayerFFAItems guid i = none)
      (hopen : item.is_looted = false) : Finds L guid { ref := .item i } item

theorem finds_of_slot (h : L.lootItemInSlot lootSlot guid = some found)
    (hitem : L.get? found.ref = some item) : L.Finds guid found item := by
  unfold lootItemInSlot at h
  split at h
  · cases hq : (L.PlayerQuestItems.get? guid).bind (·.entries[lootSlot - L.items.length]?) with
    | none =>
      simp only [hq] at h
      cases h
    | some e =>
      simp only [hq] at h
      obtain ⟨row, hrow, he⟩ := Option.bind_eq_some_iff.mp hq
      split at h
      · cases h
      · next hopen =>
        cases h
        exact .quest hrow he (eq_false_of_ne_true hopen) hitem
  · cases hi : L.items[lootSlot]? with
    | none =>
      simp only [hi] at h
      cases h
    | some item' =>
      simp only [hi] at h
      split at h
      · next hffa =>
        cases he : findEntry L.PlayerFFAItems guid lootSlot with
        | some entry =>
          simp only [he] at h
          split at h
          · cases h
          · next hopen =>
            cases h
            cases hi.symm.trans hitem
            exact .ffa hi hffa he (eq_false_of_ne_true hopen)
        | none =>
          simp only [he] at h
          split at h
          · cases h
          · next hopen =>
            cases h
            cases hi.symm.trans hitem
            exact .bare hi (fun _ => he) (eq_false_of_ne_true hopen)
      · next hffa =>
        have hnot : item'.freeforall = true → findEntry L.PlayerFFAItems guid lootSlot = none :=
          fun h => absurd h hffa
        split at h
        · cases he : findEntry L.PlayerNonQuestNonFFAConditionalItems guid lootSlot with
          | some entry =>
            simp only [he] at h
            split at h
            · cases h
            · next hopen =>
              cases h
              cases hi.symm.trans hitem
              exact .conditional hi (eq_false_of_ne_true hffa) he (eq_false_of_ne_true hopen)
          | none =>
            simp only [he] at h
            split at h
            · cases h
            · next hopen =>
              cases h
              cases hi.symm.trans hitem
              exact .bare hi hnot (eq_false_of_ne_true hopen)
        · split at h
          · cases h
          · next hopen =>
            cases h
            cases hi.symm.trans hitem
            exact .bare hi hnot (eq_false_of_ne_true hopen)

theorem Finds.get? (h : L.Finds guid found item) : L.get? found.ref = some item := by
  cases h with
  | quest _ _ _ hitem => exact hitem
  | ffa hitem _ _ _ => exact hitem
  | conditional hitem _ _ _ => exact hitem
  | bare hitem _ _ => exact hitem

/-- **The inversion lemma.** A player takes nothing, or what it finds, when it may. -/
theorem storeLootItem_cases (templates : Templates) (L : Loot) (player : Player) (lootSlot : Nat)
    (canStore : Bool) :
    L.storeLootItem templates player lootSlot canStore = L ∨
      ∃ found item, L.lootItemInSlot lootSlot player.guid = some found ∧
        L.Finds player.guid found item ∧ mayTake templates player found item canStore = true ∧
        L.storeLootItem templates player lootSlot canStore = L.takeItem player.guid found item := by
  unfold storeLootItem
  cases hslot : L.lootItemInSlot lootSlot player.guid with
  | none => exact Or.inl rfl
  | some found =>
    dsimp only
    cases hitem : L.get? found.ref with
    | none => exact Or.inl rfl
    | some item =>
      dsimp only
      cases hmay : mayTake templates player found item canStore with
      | false => exact Or.inl rfl
      | true => exact Or.inr ⟨found, item, rfl, finds_of_slot hslot hitem, hmay, rfl⟩

theorem mayTake_not_looted (h : mayTake templates player found item canStore = true) :
    item.is_looted = false := by
  unfold mayTake at h
  simp only [Bool.and_eq_true, Bool.not_eq_true'] at h
  exact h.1.1.1.1

/-! ## What taking changes -/

/-- What the player finds has been counted: it has an entry for it, or somebody was to take it. -/
def isCounted (L : Loot) (found : Found) (item : LootItem) : Bool :=
  match found.ref with
  | .quest _ => true
  | .item i =>
    if item.freeforall then found.ffaitem.isSome
    else wantsItem (isListed L.PlayerNonQuestNonFFAConditionalItems) i item

theorem isOpenQuestEntry_modify (quest_items : List LootItem) (i : Nat) :
    isOpenQuestEntry (quest_items.modify i fun item => { item with is_looted := true }) =
      isOpenQuestEntry quest_items := by
  funext e
  rw [isOpenQuestEntry, isOpenQuestEntry, List.getElem?_modify]
  grind

/-- **Taking what has been counted** leaves one thing less. -/
theorem takeItem_pending (h : L.Finds guid found item) (hlooted : item.is_looted = false)
    (hcounted : L.isCounted found item = true) :
    (L.takeItem guid found item).pending + 1 = L.pending := by
  cases h with
  | quest hrow he hopen hitem =>
    rename_i row pos e
    have hlisted : wantsQuestItem (isListed L.PlayerQuestItems) e.index item = true :=
      isListed_iff.mpr ⟨e, mem_entriesOf hrow he, rfl⟩
    have hsame : isListed (markEntry L.PlayerQuestItems guid pos) = isListed L.PlayerQuestItems :=
      funext fun k => isListed_markEntry _ _ _ _
    cases hffa : item.freeforall with
    | true =>
      have hentry : isOpenQuestEntry L.quest_items e = true := by
        rw [isOpenQuestEntry, hopen, hitem, Option.any_some, hffa]
        rfl
      have hone := countP_markEntry (p := isOpenQuestEntry L.quest_items) hrow he hentry rfl
      simp only [takeItem, markTaken, hffa, if_true, pending, hsame]
      omega
    | false =>
      have hentry : isOpenQuestEntry L.quest_items { e with is_looted := true } =
          isOpenQuestEntry L.quest_items e := by
        rw [isOpenQuestEntry, isOpenQuestEntry, hitem, Option.any_some, hffa, Bool.and_false,
          Bool.and_false]
      have hentries := countP_markEntry_same hrow he hentry
      have hone := openItems_take hitem hlooted hffa hlisted
        (f := fun item => { item with is_looted := true }) rfl
      simp only [takeItem, markTaken, hffa, Loot.modify, pending, hsame, isOpenQuestEntry_modify,
        Bool.false_eq_true, if_false]
      omega
  | ffa hitem hffa he hopen =>
    obtain ⟨row, hrow, he, hidx⟩ := findEntry_eq_some he
    have hone := countP_markEntry (p := fun e => !e.is_looted) hrow he (by rw [hopen]; rfl) rfl
    simp only [takeItem, markTaken, hffa, if_true, pending]
    omega
  | conditional hitem hffa he hopen =>
    rename_i i pos e
    have hsame : isListed (markEntry L.PlayerNonQuestNonFFAConditionalItems guid pos) =
        isListed L.PlayerNonQuestNonFFAConditionalItems :=
      funext fun k => isListed_markEntry _ _ _ _
    have hwanted : wantsItem (isListed L.PlayerNonQuestNonFFAConditionalItems) i item = true := by
      simpa only [isCounted, hffa, Bool.false_eq_true, if_false] using hcounted
    have hone := openItems_take hitem hlooted hffa hwanted
      (f := fun item => { item with is_looted := true }) rfl
    simp only [takeItem, markTaken, hffa, Loot.modify, pending, hsame, Bool.false_eq_true, if_false]
    omega
  | bare hitem hffa hopen =>
    rename_i i
    cases hf : item.freeforall with
    | true =>
      rw [isCounted, hf] at hcounted
      cases hcounted
    | false =>
      have hwanted : wantsItem (isListed L.PlayerNonQuestNonFFAConditionalItems) i item = true := by
        simpa only [isCounted, hf, Bool.false_eq_true, if_false] using hcounted
      have hone := openItems_take hitem hlooted hf hwanted
        (f := fun item => { item with is_looted := true }) rfl
      simp only [takeItem, markTaken, hf, Loot.modify, pending, Bool.false_eq_true, if_false]
      omega

theorem markTaken_unlootedCount (L : Loot) (guid : ObjectGuid) (found : Found) :
    (L.markTaken guid found).unlootedCount = L.unlootedCount := by
  unfold markTaken
  split <;> rfl

theorem markTaken_counted (L : Loot) (guid : ObjectGuid) (found : Found) :
    (L.markTaken guid found).counted = L.counted := by
  unfold markTaken
  split <;> rfl

theorem modify_unlootedCount (L : Loot) (f : LootItem → LootItem) (ref : ItemRef) :
    (L.modify f ref).unlootedCount = L.unlootedCount := by
  cases ref <;> rfl

theorem modify_counted (L : Loot) (f : LootItem → LootItem) (ref : ItemRef) :
    (L.modify f ref).counted = L.counted := by
  cases ref <;> rfl

theorem takeItem_unlootedCount (L : Loot) (guid : ObjectGuid) (found : Found) (item : LootItem) :
    (L.takeItem guid found item).unlootedCount = L.unlootedCount - 1 := by
  grind [markTaken_unlootedCount, modify_unlootedCount, takeItem]

theorem takeItem_counted (L : Loot) (guid : ObjectGuid) (found : Found) (item : LootItem) :
    (L.takeItem guid found item).counted = L.counted := by
  unfold takeItem
  dsimp only
  split
  · rw [markTaken_counted]
  · rw [modify_counted, markTaken_counted]

theorem markTaken_handedOut (L : Loot) (guid : ObjectGuid) (found : Found) :
    (L.markTaken guid found).handedOut = L.handedOut := by
  unfold markTaken
  split <;> rfl

theorem takeItem_handedOut (L : Loot) (guid : ObjectGuid) (found : Found) (item : LootItem) :
    (L.takeItem guid found item).handedOut = (guid, found.ref) :: L.handedOut := by
  have hmodify : ∀ (M : Loot) (f : LootItem → LootItem) (ref : ItemRef),
      (M.modify f ref).handedOut = M.handedOut := by
    intro M f ref
    cases ref <;> rfl
  unfold takeItem
  dsimp only
  split
  · rw [markTaken_handedOut]
  · rw [hmodify, markTaken_handedOut]

theorem Tally.take (ht : L.Tally extra) (h : L.Finds guid found item)
    (hlooted : item.is_looted = false) (hcounted : L.isCounted found item = true) :
    (L.takeItem guid found item).Tally extra := by
  have hone := takeItem_pending h hlooted hcounted
  constructor
  · rw [takeItem_unlootedCount, ht.count, ← hone, Nat.add_right_comm]
    exact ofNat_sub_one
  · rw [takeItem_counted, takeItem_handedOut, List.length_cons]
    have hraised := ht.raised
    omega

end Loot

end EGServer.Looting
