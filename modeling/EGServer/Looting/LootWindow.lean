import EGServer.Looting.Filled

/-!
# The loot window

What `BuildLootResponse` shows a viewer of a loot: the plain items of `items` by position, the
viewer's quest items after them, and then, again by position in `items`, the items that everyone may
take and the items under a condition. The client answers with the slot number, a `uint8`, and
`LootItemInSlot` finds the item again. The two agree as long as the lists of the players point at
items of their own kind, each at most once, and the slots fit a byte.
-/

namespace EGServer.Looting

inductive LootSlotType where
  | allowLoot
  | rollOngoing
  | master
  | locked
  | owner
  deriving DecidableEq

inductive PermissionTypes where
  | all
  | group
  | master
  | restricted
  | roundRobin
  | owner
  | none
  deriving DecidableEq

structure LootItemData where
  LootListID : UInt8
  UIType : LootSlotType
  ItemID : ItemId
  Quantity : UInt8
  /-- Not in the source: the item that is shown. -/
  ref : ItemRef
  deriving DecidableEq

structure LootResponse where
  Coins : Nat := 0
  Items : List LootItemData := []

def fillLootItemData (lootListId : Nat) (ref : ItemRef) (li : LootItem) (slot_type : LootSlotType) :
    LootItemData where
  LootListID := UInt8.ofNat lootListId
  UIType := slot_type
  ItemID := li.itemid
  Quantity := li.count
  ref := ref

namespace Loot

variable (templates : Templates)

/-! ## The response -/

/-- What each loop over `items` asks first. -/
def isShown (L : Loot) (viewer : Player) (item : LootItem) : Bool :=
  !item.is_looted && !item.freeforall && item.conditions.isEmpty &&
    item.allowedForPlayer templates viewer false L.roundRobinPlayer

/-- An item that is rolled for, or that the master looter gives. -/
def blockedSlotType (viewer : Player) : PermissionTypes → Option LootSlotType
  | .group => some .rollOngoing
  | .master =>
    if viewer.group.any (·.masterLooterGuid == viewer.guid) then some .master else some .locked
  | .restricted => some .locked
  | _ => none

/-- The `slot_type` of an item of `items`; `none` when it is not displayed. -/
def itemSlotType (L : Loot) (viewer : Player) (permission : PermissionTypes) (item : LootItem) :
    Option LootSlotType :=
  match permission with
  | .group | .master | .restricted =>
    if item.is_blocked then blockedSlotType viewer permission
    else if item.rollWinnerGUID != 0 then
      if item.rollWinnerGUID == viewer.guid then some .owner else none
    else if L.roundRobinPlayer == 0 || viewer.guid == L.roundRobinPlayer ||
        !item.is_underthreshold then some .allowLoot
    else none
  | .roundRobin =>
    if L.roundRobinPlayer != 0 && viewer.guid != L.roundRobinPlayer then none else some .allowLoot
  | .all => some .allowLoot
  | .owner => some .owner
  | .none => none

/-- The `slotType` of the viewer's own lists. -/
def listSlotType (permission : PermissionTypes) : LootSlotType :=
  if permission = .owner then .owner else .allowLoot

/-- The `effectiveSlotType` of an item that follows the loot rules. -/
def effectiveSlotType (permission : PermissionTypes) (item : LootItem) : LootSlotType :=
  match permission with
  | .master => .master
  | .restricted => if item.is_blocked then .locked else listSlotType permission
  | .group | .roundRobin => if !item.is_blocked then .allowLoot else .rollOngoing
  | _ => listSlotType permission

def shownItem (L : Loot) (viewer : Player) (permission : PermissionTypes) (i : Nat) :
    Option LootItemData :=
  match L.items[i]? with
  | none => none
  | some item =>
    if L.isShown templates viewer item then
      (L.itemSlotType viewer permission item).map (fillLootItemData i (.item i) item)
    else none

/-- The quest item at a position of the viewer's list. -/
def shownQuestItem (L : Loot) (permission : PermissionTypes) (entries : List NotNormalLootItem)
    (i : Nat) : Option LootItemData :=
  match entries[i]? with
  | none => none
  | some qi =>
    match L.quest_items[qi.index]? with
    | none => none
    | some item =>
      if !qi.is_looted && !item.is_looted then
        some (fillLootItemData (L.items.length + i) (.quest qi.index) item
          (if item.follow_loot_rules then effectiveSlotType permission item
            else listSlotType permission))
      else none

/-- An entry of one of the two lists about `items`. -/
def shownEntry (L : Loot) (slotType : LootItem → LootSlotType) (e : NotNormalLootItem) :
    Option LootItemData :=
  match L.items[e.index]? with
  | none => none
  | some item =>
    if !e.is_looted && !item.is_looted then
      some (fillLootItemData e.index (.item e.index) item (slotType item))
    else none

/-- The entries of a player's list; none when it has no list. -/
def entriesFor (map : NotNormalLootItemMap) (guid : ObjectGuid) : List NotNormalLootItem :=
  ((map.get? guid).map (·.entries)).getD []

def shownItems (L : Loot) (viewer : Player) (permission : PermissionTypes) : List LootItemData :=
  (List.range L.items.length).filterMap (L.shownItem templates viewer permission)

def shownQuestItems (L : Loot) (viewer : Player) (permission : PermissionTypes) :
    List LootItemData :=
  (List.range (entriesFor L.PlayerQuestItems viewer.guid).length).filterMap
    (L.shownQuestItem permission (entriesFor L.PlayerQuestItems viewer.guid))

def shownFFAItems (L : Loot) (viewer : Player) (permission : PermissionTypes) : List LootItemData :=
  (entriesFor L.PlayerFFAItems viewer.guid).filterMap
    (L.shownEntry fun _ => listSlotType permission)

def shownConditionalItems (L : Loot) (viewer : Player) (permission : PermissionTypes) :
    List LootItemData :=
  (entriesFor L.PlayerNonQuestNonFFAConditionalItems viewer.guid).filterMap
    (L.shownEntry (effectiveSlotType permission))

def buildLootResponse (L : Loot) (viewer : Player) (permission : PermissionTypes) : LootResponse :=
  if permission = .none then {}
  else
    { Coins := L.gold
      Items := L.shownItems templates viewer permission ++ L.shownQuestItems viewer permission ++
        L.shownFFAItems viewer permission ++ L.shownConditionalItems viewer permission }

variable {templates} {L L' : Loot} {map : NotNormalLootItemMap} {guid : ObjectGuid}
  {ok ok' : Nat → Prop} {item : LootItem} {ref : ItemRef} {e : NotNormalLootItem} {slot : Nat}

/-! ## Lists that point at items of their kind -/

/-- Each list of the map names no position twice, and only positions that are `ok`. -/
def Lists (map : NotNormalLootItemMap) (ok : Nat → Prop) : Prop :=
  ∀ guid row, map.get? guid = some row →
    (row.entries.map (·.index)).Nodup ∧ ∀ e ∈ row.entries, ok e.index

/-- What says in which list an item is found. -/
def kind (item : LootItem) : Bool × Bool := (item.freeforall, item.conditions.isEmpty)

/-- The position is one of an item of the kind. -/
def HasKind (L : Loot) (k : Bool × Bool) (i : Nat) : Prop := L.items[i]?.map kind = some k

/-- **A loot whose slots can be told apart.** -/
structure Placed (L : Loot) : Prop where
  room : L.items.length ≤ MAX_NR_LOOT_ITEMS
  questRoom : L.quest_items.length ≤ MAX_NR_QUEST_ITEMS
  quest : Lists L.PlayerQuestItems (· < L.quest_items.length)
  ffa : Lists L.PlayerFFAItems fun i => ∃ c, L.HasKind (true, c) i
  conditional : Lists L.PlayerNonQuestNonFFAConditionalItems (L.HasKind (false, false))

theorem Lists.empty : Lists ∅ ok := by
  intro guid row hrow
  cases hrow

theorem Lists.mono (h : Lists map ok) (hok : ∀ i, ok i → ok' i) : Lists map ok' := by
  intro guid row hrow
  obtain ⟨hnodup, hall⟩ := h guid row hrow
  exact ⟨hnodup, fun e he => hok _ (hall e he)⟩

/-- A new list of positions that are `ok`. -/
theorem Lists.setList (h : Lists map ok) (hnew : map.get? guid = none)
    {ql : List NotNormalLootItem} (hnodup : (ql.map (·.index)).Nodup)
    (hall : ∀ e ∈ ql, ok e.index) : Lists (setList map guid ql) ok := by
  intro guid' row hrow
  by_cases hguid : guid' = guid
  · subst hguid
    by_cases hql : ql = []
    · subst hql
      rw [setList_nil, hnew] at hrow
      cases hrow
    · rw [get?_setList_self hnew hql] at hrow
      cases hrow
      exact ⟨hnodup, hall⟩
  · rw [get?_setList_ne hnew hguid] at hrow
    exact h guid' row hrow

theorem Lists.marked {map' : NotNormalLootItemMap} (h : Lists map ok)
    (hmap : map' = map ∨ ∃ pos, map' = markEntry map guid pos) : Lists map' ok := by
  have hindex : ∀ (l : List NotNormalLootItem) (pos : Nat),
      (l.modify pos fun e => { e with is_looted := true }).map (·.index) = l.map (·.index) := by
    intro l
    induction l with
    | nil => simp
    | cons e l ih =>
      grind
  obtain rfl | ⟨pos, rfl⟩ := hmap
  · exact h
  · intro guid' row hrow
    rw [get?_markEntry] at hrow
    split at hrow
    · obtain ⟨row₀, hrow₀, rfl⟩ := Option.map_eq_some_iff.mp hrow
      obtain ⟨hnodup, hall⟩ := h guid row₀ hrow₀
      grind [List.mem_map_of_mem]
    · exact h guid' row hrow

theorem Lists.entriesFor (h : Lists map ok) (guid : ObjectGuid) :
    ((entriesFor map guid).map (·.index)).Nodup ∧ ∀ e ∈ entriesFor map guid, ok e.index := by
  unfold Loot.entriesFor
  cases hrow : map.get? guid with
  | none => simp
  | some row => exact h guid row hrow

theorem Placed.empty (lootOwnerGUID : ObjectGuid) (gold : Nat) : Placed { lootOwnerGUID, gold } where
  room := Nat.zero_le _
  questRoom := Nat.zero_le _
  quest := .empty
  ffa := .empty
  conditional := .empty

/-- The loot has items of the same kinds in the same places, and the same lists. -/
structure SameKinds (L L' : Loot) : Prop where
  items : L'.items.map kind = L.items.map kind
  quest_items : L'.quest_items.length = L.quest_items.length
  quest : L'.PlayerQuestItems = L.PlayerQuestItems
  ffa : L'.PlayerFFAItems = L.PlayerFFAItems
  conditional : L'.PlayerNonQuestNonFFAConditionalItems = L.PlayerNonQuestNonFFAConditionalItems

theorem SameKinds.refl (L : Loot) : L.SameKinds L := ⟨rfl, rfl, rfl, rfl, rfl⟩

theorem SameKinds.trans {L'' : Loot} (h : L.SameKinds L') (h' : L'.SameKinds L'') :
    L.SameKinds L'' :=
  ⟨h'.items.trans h.items, h'.quest_items.trans h.quest_items, h'.quest.trans h.quest,
    h'.ffa.trans h.ffa, h'.conditional.trans h.conditional⟩

theorem hasKind_congr (h : L'.items.map kind = L.items.map kind) (k : Bool × Bool) (i : Nat) :
    L'.HasKind k i ↔ L.HasKind k i := by
  rw [HasKind, HasKind, ← List.getElem?_map, ← List.getElem?_map, h]

theorem length_of_kinds (h : L'.items.map kind = L.items.map kind) :
    L'.items.length = L.items.length := by
  have hlen := congrArg List.length h
  rwa [List.length_map, List.length_map] at hlen

theorem SameKinds.placed (h : L.SameKinds L') (hp : L.Placed) : L'.Placed where
  room := (length_of_kinds h.items).trans_le hp.room
  questRoom := h.quest_items.trans_le hp.questRoom
  quest := by
    rw [h.quest]
    exact hp.quest.mono fun i hi => h.quest_items ▸ hi
  ffa := by
    rw [h.ffa]
    exact hp.ffa.mono fun i hi => hi.imp fun c hc => (hasKind_congr h.items _ i).mpr hc
  conditional := by
    rw [h.conditional]
    exact hp.conditional.mono fun i hi => (hasKind_congr h.items _ i).mpr hi

theorem SameKinds.modify (L : Loot) {f : LootItem → LootItem} (hf : ∀ item, kind (f item) = kind item)
    (ref : ItemRef) : L.SameKinds (L.modify f ref) := by
  cases ref with
  | quest i => exact ⟨rfl, List.length_modify .., rfl, rfl, rfl⟩
  | item i =>
    refine ⟨?_, rfl, rfl, rfl, rfl⟩
    apply List.ext_getElem?
    intro k
    show ((L.items.modify i f).map kind)[k]? = (L.items.map kind)[k]?
    grind

/-! ## What is shown is found -/

/-- **What the window shows**: the slot, where the item is, and the item. -/
inductive Shown (L : Loot) (guid : ObjectGuid) : Nat → ItemRef → LootItem → Prop
  | item {i : Nat} {item : LootItem} (hitem : L.items[i]? = some item)
      (hopen : item.is_looted = false) (hkind : kind item = (false, true)) :
      Shown L guid i (.item i) item
  | quest {row : PlayerItems} {pos : Nat} {e : NotNormalLootItem} {item : LootItem}
      (hrow : L.PlayerQuestItems.get? guid = some row) (he : row.entries[pos]? = some e)
      (hopen : e.is_looted = false) (hitem : L.quest_items[e.index]? = some item) :
      Shown L guid (L.items.length + pos) (.quest e.index) item
  | ffa {row : PlayerItems} {e : NotNormalLootItem} {item : LootItem}
      (hrow : L.PlayerFFAItems.get? guid = some row) (he : e ∈ row.entries)
      (hopen : e.is_looted = false) (hitem : L.items[e.index]? = some item) :
      Shown L guid e.index (.item e.index) item
  | conditional {row : PlayerItems} {e : NotNormalLootItem} {item : LootItem}
      (hrow : L.PlayerNonQuestNonFFAConditionalItems.get? guid = some row) (he : e ∈ row.entries)
      (hopen : e.is_looted = false) (hitem : L.items[e.index]? = some item) :
      Shown L guid e.index (.item e.index) item

theorem findEntry_of_mem {row : PlayerItems} (hrow : map.get? guid = some row)
    (hnodup : (row.entries.map (·.index)).Nodup) (he : e ∈ row.entries) :
    ∃ pos, findEntry map guid e.index = some (pos, e) := by
  cases hfind : findEntry map guid e.index with
  | none =>
    have hsome := findEntry_isSome.mpr ⟨row, hrow, e, he, rfl⟩
    rw [hfind] at hsome
    cases hsome
  | some found =>
    obtain ⟨pos, e'⟩ := found
    obtain ⟨row', hrow', he', hindex⟩ := findEntry_eq_some hfind
    cases hrow.symm.trans hrow'
    have heq : e' = e :=
      List.inj_on_of_nodup_map hnodup (List.mem_of_getElem? he') he hindex
    exact ⟨pos, by rw [heq]⟩

theorem hasKind_some {k : Bool × Bool} {i : Nat} (h : L.HasKind k i) (hitem : L.items[i]? = some item) :
    kind item = k := by
  rw [HasKind, hitem] at h
  exact Option.some_inj.mp h

/-- **LootItemInSlot finds what is shown.** -/
theorem Shown.found (hp : L.Placed) (h : L.Shown guid slot ref item) :
    L.get? ref = some item ∧ ∃ found, L.lootItemInSlot slot guid = some found ∧ found.ref = ref := by
  have hlt : ∀ {i : Nat} {item : LootItem}, L.items[i]? = some item → ¬L.items.length ≤ i :=
    fun hitem => Nat.not_le.mpr (List.getElem?_eq_some_iff.mp hitem).1
  cases h with
  | item hitem hopen hkind =>
    obtain ⟨hffa, hcond⟩ := Prod.mk.inj hkind
    refine ⟨hitem, ⟨.item slot, none, none, none⟩, ?_, rfl⟩
    rw [lootItemInSlot, if_neg (hlt hitem), hitem]
    simp [hffa, hcond, hopen]
  | @quest row pos e item hrow he hopen hitem =>
    refine ⟨hitem, ⟨.quest e.index, some pos, none, none⟩, ?_, rfl⟩
    rw [lootItemInSlot, if_pos (Nat.le_add_right _ _)]
    simp [hrow, he, hopen]
  | @ffa row e item hrow he hopen hitem =>
    obtain ⟨hnodup, hall⟩ := hp.ffa guid row hrow
    obtain ⟨pos, hfind⟩ := findEntry_of_mem hrow hnodup he
    obtain ⟨c, hkind⟩ := hall e he
    have hffa : item.freeforall = true := (Prod.mk.inj (hasKind_some hkind hitem)).1
    refine ⟨hitem, ⟨.item e.index, none, some pos, none⟩, ?_, rfl⟩
    rw [lootItemInSlot, if_neg (hlt hitem), hitem]
    simp [hffa, hfind, hopen]
  | @conditional row e item hrow he hopen hitem =>
    obtain ⟨hnodup, hall⟩ := hp.conditional guid row hrow
    obtain ⟨pos, hfind⟩ := findEntry_of_mem hrow hnodup he
    obtain ⟨hffa, hcond⟩ := Prod.mk.inj (hasKind_some (hall e he) hitem)
    refine ⟨hitem, ⟨.item e.index, none, none, some pos⟩, ?_, rfl⟩
    rw [lootItemInSlot, if_neg (hlt hitem), hitem]
    simp [hffa, hcond, hfind, hopen]

theorem Placed.questEntries (hp : L.Placed) (guid : ObjectGuid) :
    (entriesFor L.PlayerQuestItems guid).length ≤ MAX_NR_QUEST_ITEMS := by
  obtain ⟨hnodup, hall⟩ := hp.quest.entriesFor guid
  have hsub : (entriesFor L.PlayerQuestItems guid).map (·.index) ⊆
      List.range L.quest_items.length := by
    intro i hi
    obtain ⟨e, he, rfl⟩ := List.mem_map.mp hi
    exact List.mem_range.mpr (hall e he)
  have hle := (List.subperm_of_subset hnodup hsub).length_le
  rw [List.length_map, List.length_range] at hle
  exact hle.trans hp.questRoom

theorem entriesFor_eq {row : PlayerItems} (hrow : map.get? guid = some row) :
    entriesFor map guid = row.entries := by
  rw [entriesFor, hrow]
  rfl

theorem mem_entriesFor (h : e ∈ entriesFor map guid) :
    ∃ row, map.get? guid = some row ∧ e ∈ row.entries := by
  cases hrow : map.get? guid with
  | none =>
    rw [entriesFor, hrow] at h
    cases h
  | some row => exact ⟨row, rfl, entriesFor_eq hrow ▸ h⟩

theorem Shown.slot_lt (hp : L.Placed) (h : L.Shown guid slot ref item) : slot < 256 := by
  have hitem : ∀ {i : Nat} {item : LootItem}, L.items[i]? = some item → i < 256 := by
    intro i item hitem
    have hlt := (List.getElem?_eq_some_iff.mp hitem).1
    have hroom := hp.room
    rw [MAX_NR_LOOT_ITEMS] at hroom
    omega
  cases h with
  | item h _ _ => exact hitem h
  | @quest row pos e item hrow he _ _ =>
    have hpos := (List.getElem?_eq_some_iff.mp he).1
    have hentries := hp.questEntries guid
    have hroom := hp.room
    rw [entriesFor_eq hrow, MAX_NR_QUEST_ITEMS] at hentries
    rw [MAX_NR_LOOT_ITEMS] at hroom
    omega
  | ffa _ _ _ h => exact hitem h
  | conditional _ _ _ h => exact hitem h

/-! ## The entries of a response -/

variable {viewer : Player} {permission : PermissionTypes} {d : LootItemData}

/-- The entry is about what is shown in a slot. -/
def Displays (L : Loot) (guid : ObjectGuid) (d : LootItemData) (slot : Nat) : Prop :=
  ∃ item slotType, d = fillLootItemData slot d.ref item slotType ∧ L.Shown guid slot d.ref item

theorem shownItem_displays {i : Nat} (h : L.shownItem templates viewer permission i = some d) :
    L.Displays viewer.guid d i ∧ L.HasKind (false, true) i := by
  unfold shownItem at h
  cases hitem : L.items[i]? with
  | none =>
    rw [hitem] at h
    cases h
  | some item =>
    rw [hitem] at h
    dsimp only at h
    split at h
    · next hshown =>
      obtain ⟨slotType, -, rfl⟩ := Option.map_eq_some_iff.mp h
      simp only [isShown, Bool.and_eq_true, Bool.not_eq_true'] at hshown
      obtain ⟨⟨⟨hopen, hffa⟩, hcond⟩, -⟩ := hshown
      have hkind : kind item = (false, true) := by rw [kind, hffa, hcond]
      refine ⟨⟨item, slotType, rfl, .item hitem hopen hkind⟩, ?_⟩
      rw [HasKind, hitem, Option.map_some, hkind]
    · cases h

theorem shownQuestItem_displays {i : Nat}
    (h : L.shownQuestItem permission (entriesFor L.PlayerQuestItems guid) i = some d) :
    L.Displays guid d (L.items.length + i) := by
  unfold shownQuestItem at h
  cases he : (entriesFor L.PlayerQuestItems guid)[i]? with
  | none =>
    rw [he] at h
    cases h
  | some qi =>
    obtain ⟨row, hrow, -⟩ := mem_entriesFor (List.mem_of_getElem? he)
    rw [he] at h
    dsimp only at h
    cases hitem : L.quest_items[qi.index]? with
    | none =>
      rw [hitem] at h
      cases h
    | some item =>
      rw [hitem] at h
      dsimp only at h
      split at h
      · next hopen =>
        cases h
        rw [Bool.and_eq_true, Bool.not_eq_true'] at hopen
        rw [entriesFor_eq hrow] at he
        exact ⟨item, _, rfl, .quest hrow he hopen.1 hitem⟩
      · cases h

theorem shownEntry_eq {slotType : LootItem → LootSlotType} (h : L.shownEntry slotType e = some d) :
    ∃ item, L.items[e.index]? = some item ∧ e.is_looted = false ∧
      d = fillLootItemData e.index (.item e.index) item (slotType item) := by
  unfold shownEntry at h
  grind

theorem shownItems_displays (h : d ∈ L.shownItems templates viewer permission) :
    ∃ i, L.Displays viewer.guid d i ∧ L.HasKind (false, true) i := by
  obtain ⟨i, -, hi⟩ := List.mem_filterMap.mp h
  exact ⟨i, shownItem_displays hi⟩

theorem shownQuestItems_displays (h : d ∈ L.shownQuestItems viewer permission) :
    ∃ i, L.Displays viewer.guid d i ∧ L.items.length ≤ i := by
  obtain ⟨i, -, hi⟩ := List.mem_filterMap.mp h
  exact ⟨_, shownQuestItem_displays hi, Nat.le_add_right _ _⟩

theorem shownFFAItems_displays (hp : L.Placed) (h : d ∈ L.shownFFAItems viewer permission) :
    ∃ i, L.Displays viewer.guid d i ∧ ∃ c, L.HasKind (true, c) i := by
  obtain ⟨e, he, hd⟩ := List.mem_filterMap.mp h
  obtain ⟨item, hitem, hopen, rfl⟩ := shownEntry_eq hd
  obtain ⟨row, hrow, hmem⟩ := mem_entriesFor he
  exact ⟨e.index, ⟨item, _, rfl, .ffa hrow hmem hopen hitem⟩, (hp.ffa viewer.guid row hrow).2 e hmem⟩

theorem shownConditionalItems_displays (hp : L.Placed)
    (h : d ∈ L.shownConditionalItems viewer permission) :
    ∃ i, L.Displays viewer.guid d i ∧ L.HasKind (false, false) i := by
  obtain ⟨e, he, hd⟩ := List.mem_filterMap.mp h
  obtain ⟨item, hitem, hopen, rfl⟩ := shownEntry_eq hd
  obtain ⟨row, hrow, hmem⟩ := mem_entriesFor he
  exact ⟨e.index, ⟨item, _, rfl, .conditional hrow hmem hopen hitem⟩,
    (hp.conditional viewer.guid row hrow).2 e hmem⟩

theorem Displays.listID (hp : L.Placed) (h : L.Displays guid d slot) : d.LootListID.toNat = slot := by
  obtain ⟨item, slotType, heq, hshown⟩ := h
  have hid : d.LootListID = UInt8.ofNat slot := congrArg LootItemData.LootListID heq
  rw [hid, UInt8.toNat_ofNat', Nat.mod_eq_of_lt (hshown.slot_lt hp)]

theorem nodup_filterMap {α : Type} {l : List α} {f : α → Option LootItemData} {slotOf : α → Nat}
    (hslots : (l.map slotOf).Nodup)
    (hf : ∀ a ∈ l, ∀ d, f a = some d → d.LootListID.toNat = slotOf a) :
    ((l.filterMap f).map (·.LootListID)).Nodup := by
  induction l with
  | nil => simp
  | cons a l ih =>
    rw [List.map_cons, List.nodup_cons] at hslots
    have ih := ih hslots.2 fun b hb => hf b (List.mem_cons_of_mem a hb)
    cases hd : f a with
    | none => rwa [List.filterMap_cons_none hd]
    | some d =>
      rw [List.filterMap_cons_some hd, List.map_cons, List.nodup_cons]
      refine ⟨?_, ih⟩
      intro hmem
      obtain ⟨d', hd', heq⟩ := List.mem_map.mp hmem
      obtain ⟨b, hb, hfb⟩ := List.mem_filterMap.mp hd'
      apply hslots.1
      rw [← hf a List.mem_cons_self d hd, ← heq, hf b (List.mem_cons_of_mem a hb) d' hfb]
      exact List.mem_map_of_mem hb

theorem nodup_shownItems (hp : L.Placed) :
    ((L.shownItems templates viewer permission).map (·.LootListID)).Nodup := by
  have hslots : ((List.range L.items.length).map fun i => i).Nodup := by
    rw [List.map_id']
    exact List.nodup_range
  apply nodup_filterMap hslots
  intro i _ d hd
  exact (shownItem_displays hd).1.listID hp

theorem nodup_shownQuestItems (hp : L.Placed) :
    ((L.shownQuestItems viewer permission).map (·.LootListID)).Nodup := by
  have hslots : ((List.range (entriesFor L.PlayerQuestItems viewer.guid).length).map
      fun i => L.items.length + i).Nodup :=
    List.nodup_range.map fun i j h => Nat.add_left_cancel h
  apply nodup_filterMap hslots
  intro i _ d hd
  exact (shownQuestItem_displays hd).listID hp

theorem nodup_shownFFAItems (hp : L.Placed) :
    ((L.shownFFAItems viewer permission).map (·.LootListID)).Nodup := by
  apply nodup_filterMap (hp.ffa.entriesFor viewer.guid).1
  intro e he d hd
  obtain ⟨item, hitem, hopen, rfl⟩ := shownEntry_eq hd
  obtain ⟨row, hrow, hmem⟩ := mem_entriesFor he
  exact Displays.listID hp ⟨item, _, rfl, .ffa hrow hmem hopen hitem⟩

theorem nodup_shownConditionalItems (hp : L.Placed) :
    ((L.shownConditionalItems viewer permission).map (·.LootListID)).Nodup := by
  apply nodup_filterMap (hp.conditional.entriesFor viewer.guid).1
  intro e he d hd
  obtain ⟨item, hitem, hopen, rfl⟩ := shownEntry_eq hd
  obtain ⟨row, hrow, hmem⟩ := mem_entriesFor he
  exact Displays.listID hp ⟨item, _, rfl, .conditional hrow hmem hopen hitem⟩

theorem HasKind.lt {k : Bool × Bool} {i : Nat} (h : L.HasKind k i) : i < L.items.length := by
  obtain ⟨item, hitem, -⟩ := Option.map_eq_some_iff.mp h
  exact (List.getElem?_eq_some_iff.mp hitem).1

theorem HasKind.unique {k k' : Bool × Bool} {i : Nat} (h : L.HasKind k i) (h' : L.HasKind k' i) :
    k = k' := Option.some_inj.mp (h.symm.trans h')

theorem disjoint_parts {A B : List LootItemData} {P Q : Nat → Prop} (hp : L.Placed)
    (hA : ∀ d ∈ A, ∃ i, L.Displays guid d i ∧ P i) (hB : ∀ d ∈ B, ∃ i, L.Displays guid d i ∧ Q i)
    (hPQ : ∀ i, P i → ¬Q i) : (A.map (·.LootListID)).Disjoint (B.map (·.LootListID)) := by
  intro id hid hid'
  obtain ⟨d, hd, rfl⟩ := List.mem_map.mp hid
  obtain ⟨d', hd', heq⟩ := List.mem_map.mp hid'
  obtain ⟨i, hi, hPi⟩ := hA d hd
  obtain ⟨k, hk, hQk⟩ := hB d' hd'
  have hslot : k = i := by rw [← hk.listID hp, heq, hi.listID hp]
  exact hPQ i hPi (hslot ▸ hQk)

theorem nodup_response (hp : L.Placed) :
    ((L.buildLootResponse templates viewer permission).Items.map (·.LootListID)).Nodup := by
  unfold buildLootResponse
  split
  · exact List.nodup_nil
  · dsimp only
    simp only [List.map_append, List.nodup_append', List.disjoint_append_left]
    have hquest : ∀ (k : Bool × Bool) (i : Nat), L.HasKind k i → ¬L.items.length ≤ i :=
      fun k i h => Nat.not_le.mpr h.lt
    refine ⟨⟨⟨nodup_shownItems hp, nodup_shownQuestItems hp, ?_⟩, nodup_shownFFAItems hp, ?_, ?_⟩,
      nodup_shownConditionalItems hp, ⟨?_, ?_⟩, ?_⟩
    · exact disjoint_parts hp (fun d => shownItems_displays) (fun d => shownQuestItems_displays)
        (hquest _)
    · refine disjoint_parts hp (fun d => shownItems_displays) (fun d => shownFFAItems_displays hp) ?_
      rintro i h ⟨c, h'⟩
      cases h.unique h'
    · refine disjoint_parts hp (fun d => shownQuestItems_displays)
        (fun d => shownFFAItems_displays hp) ?_
      rintro i h ⟨c, h'⟩
      exact hquest _ i h' h
    · refine disjoint_parts hp (fun d => shownItems_displays)
        (fun d => shownConditionalItems_displays hp) ?_
      intro i h h'
      cases h.unique h'
    · refine disjoint_parts hp (fun d => shownQuestItems_displays)
        (fun d => shownConditionalItems_displays hp) ?_
      intro i h h'
      exact hquest _ i h' h
    · refine disjoint_parts hp (fun d => shownFFAItems_displays hp)
        (fun d => shownConditionalItems_displays hp) ?_
      rintro i ⟨c, h⟩ h'
      cases h.unique h'

theorem response_displays (hp : L.Placed)
    (h : d ∈ (L.buildLootResponse templates viewer permission).Items) :
    ∃ slot, L.Displays viewer.guid d slot := by
  unfold buildLootResponse at h
  split at h
  · cases h
  · rcases List.mem_append.mp h with h | h
    · rcases List.mem_append.mp h with h | h
      · rcases List.mem_append.mp h with h | h
        · obtain ⟨i, hi, -⟩ := shownItems_displays h
          exact ⟨i, hi⟩
        · obtain ⟨i, hi, -⟩ := shownQuestItems_displays h
          exact ⟨i, hi⟩
      · obtain ⟨i, hi, -⟩ := shownFFAItems_displays hp h
        exact ⟨i, hi⟩
    · obtain ⟨i, hi, -⟩ := shownConditionalItems_displays hp h
      exact ⟨i, hi⟩

/-- The slot number of an entry leads `LootItemInSlot` to the item of the entry. -/
def Resolves (L : Loot) (guid : ObjectGuid) (d : LootItemData) : Prop :=
  ∃ found item, L.lootItemInSlot d.LootListID.toNat guid = some found ∧ found.ref = d.ref ∧
    L.get? found.ref = some item ∧ item.itemid = d.ItemID ∧ item.count = d.Quantity

theorem response_resolves (hp : L.Placed)
    (h : d ∈ (L.buildLootResponse templates viewer permission).Items) :
    L.Resolves viewer.guid d := by
  obtain ⟨slot, hd⟩ := response_displays hp h
  have hslot := hd.listID hp
  obtain ⟨item, slotType, heq, hshown⟩ := hd
  obtain ⟨hitem, found, hfound, href⟩ := hshown.found hp
  refine ⟨found, item, hslot ▸ hfound, href, href ▸ hitem, ?_, ?_⟩
  · exact (congrArg LootItemData.ItemID heq).symm
  · exact (congrArg LootItemData.Quantity heq).symm

end Loot

end EGServer.Looting
