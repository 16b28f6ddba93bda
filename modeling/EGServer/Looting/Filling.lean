import EGServer.Looting.Taking

/-!
# Filling a loot

The three lists of a player are filled one position at a time, and a loop is looked at as if the
list made so far had been set already: each turn then adds one entry to a loot that keeps
`Listing` and `Tally`. A quest item is counted again when a second player lists it before it is
blocked; `listsOnce` says that this does not happen, and then the surplus stays what it was.
-/

namespace EGServer.Looting

namespace Loot

variable {templates : Templates} {L L' : Loot} {guid guid' : ObjectGuid} {player : Player}
  {ql : List NotNormalLootItem} {item : LootItem} {i extra : Nat}

/-- Blocked quest items and counted items under a condition are on a list. -/
structure Listing (L : Loot) : Prop where
  room : L.items.length ≤ MAX_NR_LOOT_ITEMS
  blocked : ∀ i item, L.quest_items[i]? = some item → item.freeforall = false →
    item.is_blocked = true → isListed L.PlayerQuestItems i = true
  counted : ∀ i item, L.items[i]? = some item → item.freeforall = false →
    item.conditions.isEmpty = false →
    item.is_counted = isListed L.PlayerNonQuestNonFFAConditionalItems i

theorem Tally.raise (ht : L.Tally extra) {extra' n : Nat}
    (hcount : L'.unlootedCount = L.unlootedCount + UInt8.ofNat n)
    (hraised : L'.counted = L.counted + n) (hhanded : L'.handedOut = L.handedOut)
    (h : L'.pending + extra' = L.pending + extra + n) : L'.Tally extra' := by
  constructor
  · rw [hcount, ht.count, ofNat_raise, h]
  · rw [hraised, hhanded, h, ← ht.raised]
    exact Nat.add_right_comm _ _ _

theorem Tally.same (ht : L.Tally extra) (hcount : L'.unlootedCount = L.unlootedCount)
    (hraised : L'.counted = L.counted) (hhanded : L'.handedOut = L.handedOut)
    (h : L'.pending = L.pending) : L'.Tally extra := by
  constructor
  · rw [hcount, ht.count, h]
  · rw [hraised, hhanded, h]
    exact ht.raised

/-! ## Quest items -/

/-- The loot with a list of quest items set. -/
def withQuest (L : Loot) (guid : ObjectGuid) (ql : List NotNormalLootItem) : Loot :=
  { L with PlayerQuestItems := setList L.PlayerQuestItems guid ql }

@[simp] theorem withQuest_items : (L.withQuest guid ql).items = L.items := rfl

@[simp] theorem withQuest_quest_items : (L.withQuest guid ql).quest_items = L.quest_items := rfl

@[simp] theorem withQuest_ffa : (L.withQuest guid ql).PlayerFFAItems = L.PlayerFFAItems := rfl

@[simp] theorem withQuest_conditional : (L.withQuest guid ql).PlayerNonQuestNonFFAConditionalItems =
    L.PlayerNonQuestNonFFAConditionalItems := rfl

/-- The positions that `FillQuestLoot` lists, when there is room for so many. -/
def questPositionsFrom (templates : Templates) (L : Loot) (player : Player) (room : Nat)
    (todo : List Nat) : List Nat :=
  (todo.filter fun i => L.quest_items[i]?.any (L.listsQuest templates player)).take room

/-- Each of the positions is listed for the first time, or blocked, or for everyone. -/
def ListsOnceAt (L : Loot) (positions : List Nat) : Prop :=
  ∀ i ∈ positions, ∀ item, L.quest_items[i]? = some item → item.freeforall = false →
    isListed L.PlayerQuestItems i = true → item.is_blocked = true

/-- **No quest item that one player is to have is listed twice without being blocked.** -/
def ListsOnce (templates : Templates) (L : Loot) (player : Player) : Prop :=
  L.ListsOnceAt (questPositionsFrom templates L player (MAX_NR_LOOT_ITEMS - L.items.length)
    (List.range L.quest_items.length))

theorem countQuestItem_eq (L : Loot) (player : Player) (i : Nat) (item : LootItem) :
    ∃ quest_items unlootedCount counted,
      L.countQuestItem player i item = { L with quest_items, unlootedCount, counted } := by
  unfold countQuestItem
  split <;> split <;> exact ⟨_, _, _, rfl⟩

theorem countQuestItem_core (L : Loot) (player : Player) (i : Nat) (item : LootItem) :
    (L.countQuestItem player i item).quest_items.map LootItem.core =
      L.quest_items.map LootItem.core := by
  unfold countQuestItem
  split <;> split <;> first | rfl | exact map_core_modify (by intro _; rfl) _ _

theorem countQuestItem_get_ne (L : Loot) (player : Player) (item : LootItem) {i k : Nat} (h : k ≠ i) :
    (L.countQuestItem player i item).quest_items[k]? = L.quest_items[k]? := by
  unfold countQuestItem
  split <;> split <;> first | rfl | exact List.getElem?_modify_ne _ _ (Ne.symm h)

/-- How often an item is counted as it is listed. -/
def timesCounted (item : LootItem) : Nat := (item.freeforall || !item.is_blocked).toNat

theorem countQuestItem_count (L : Loot) (player : Player) (i : Nat) (item : LootItem) :
    (L.countQuestItem player i item).unlootedCount =
        L.unlootedCount + UInt8.ofNat (timesCounted item) ∧
      (L.countQuestItem player i item).counted = L.counted + timesCounted item := by
  unfold countQuestItem timesCounted
  cases (item.freeforall || !item.is_blocked) <;> cases blocksQuestItems player
  · exact ⟨(add_zero _).symm, rfl⟩
  · exact ⟨(add_zero _).symm, rfl⟩
  · exact ⟨rfl, rfl⟩
  · exact ⟨rfl, rfl⟩

theorem isListed_withQuest (h : L.PlayerQuestItems.get? guid = none) (ql : List NotNormalLootItem)
    (i k : Nat) :
    isListed (L.withQuest guid (ql ++ [{ index := i }])).PlayerQuestItems k =
      (isListed (L.withQuest guid ql).PlayerQuestItems k || decide (i = k)) := by
  show isListed (setList L.PlayerQuestItems guid _) k = (isListed (setList L.PlayerQuestItems guid _) k || _)
  rw [isListed_setList h, isListed_setList h, List.any_append, Bool.or_assoc, Bool.or_assoc]
  apply congrArg
  rw [Bool.or_comm]
  rw [List.any_cons, List.any_nil, Bool.or_false]

/-- **Listing one more quest item** adds what is pending then. -/
theorem pending_listQuest (hfresh : L.PlayerQuestItems.get? guid = none)
    (hitem : L.quest_items[i]? = some item) (hlooted : item.is_looted = false) :
    (L.withQuest guid (ql ++ [{ index := i }])).pending = (L.withQuest guid ql).pending +
      (item.freeforall || !isListed (L.withQuest guid ql).PlayerQuestItems i).toNat := by
  have hlist := isListed_withQuest hfresh ql i
  have hentries : (entriesOf (L.withQuest guid (ql ++ [{ index := i }])).PlayerQuestItems).countP
      (isOpenQuestEntry (L.withQuest guid (ql ++ [{ index := i }])).quest_items) =
        (entriesOf (L.withQuest guid ql).PlayerQuestItems).countP
          (isOpenQuestEntry (L.withQuest guid ql).quest_items) + item.freeforall.toNat := by
    have hopen : isOpenQuestEntry L.quest_items { index := i } = item.freeforall := by
      rw [isOpenQuestEntry, hitem]
      rfl
    show (entriesOf (setList L.PlayerQuestItems guid _)).countP (isOpenQuestEntry L.quest_items) =
      (entriesOf (setList L.PlayerQuestItems guid _)).countP (isOpenQuestEntry L.quest_items) + _
    rw [entriesOf_setList hfresh, entriesOf_setList hfresh, List.countP_append, List.countP_append,
      List.countP_append, List.countP_singleton, hopen]
    cases item.freeforall <;> simp only [Bool.toNat, cond, if_true, Bool.false_eq_true, if_false] <;>
      omega
  have hquest : openItems
      (wantsQuestItem (isListed (L.withQuest guid (ql ++ [{ index := i }])).PlayerQuestItems))
        (L.withQuest guid (ql ++ [{ index := i }])).quest_items =
      openItems (wantsQuestItem (isListed (L.withQuest guid ql).PlayerQuestItems))
        (L.withQuest guid ql).quest_items +
          (!item.freeforall && !isListed (L.withQuest guid ql).PlayerQuestItems i).toNat := by
    by_cases hnew : item.freeforall = false ∧ isListed (L.withQuest guid ql).PlayerQuestItems i = false
    · rw [hnew.1, hnew.2]
      refine openItems_want hitem hlooted hnew.1 hnew.2 ?_ ?_
      · rw [wantsQuestItem, hlist, decide_eq_true rfl, Bool.or_true]
      · intro k _ hk
        rw [wantsQuestItem, wantsQuestItem, hlist, decide_eq_false (Ne.symm hk), Bool.or_false]
    · have hno : (!item.freeforall && !isListed (L.withQuest guid ql).PlayerQuestItems i) = false := by
        simpa using hnew
      rw [hno, Bool.toNat_false, Nat.add_zero]
      apply openItems_congr
      intro k item' hk hffa
      rw [wantsQuestItem, wantsQuestItem, hlist]
      by_cases hki : i = k
      · subst hki
        cases hitem.symm.trans hk
        have hold := eq_true_of_ne_false fun h => hnew ⟨hffa, h⟩
        rw [hold, Bool.true_or]
      · rw [decide_eq_false hki, Bool.or_false]
  have hsum : ∀ a b : Bool, (!a && !b).toNat + a.toNat = (a || !b).toNat := by decide
  have hpending := pending_add (L.withQuest guid ql) (L.withQuest guid (ql ++ [{ index := i }]))
    (a := 0) (b := (!item.freeforall && !isListed (L.withQuest guid ql).PlayerQuestItems i).toNat)
    (c := 0) (d := item.freeforall.toNat)
    (by simp only [withQuest_items, withQuest_conditional, Nat.add_zero])
  have hpending := hpending hquest (by simp only [withQuest_ffa, Nat.add_zero])
  rw [hpending hentries, ← hsum]
  omega

theorem listQuest_turn (player : Player) (hfresh : L.PlayerQuestItems.get? guid = none)
    (hitem : L.quest_items[i]? = some item) (hlooted : item.is_looted = false)
    (hl : (L.withQuest guid ql).Listing) (ht : (L.withQuest guid ql).Tally extra) :
    ((L.countQuestItem player i item).withQuest guid (ql ++ [{ index := i }])).Listing ∧
      ∃ extra', ((L.countQuestItem player i item).withQuest guid
        (ql ++ [{ index := i }])).Tally extra' ∧
        ((item.freeforall = false → isListed (L.withQuest guid ql).PlayerQuestItems i = true →
          item.is_blocked = true) → extra' = extra) := by
  have hcore := countQuestItem_core L player i item
  obtain ⟨hcount, hraised⟩ := countQuestItem_count L player i item
  have hother := fun k (h : k ≠ i) => countQuestItem_get_ne L player item h
  obtain ⟨quest_items, unlootedCount, counted, heq⟩ := countQuestItem_eq L player i item
  rw [heq] at hcore hcount hraised hother ⊢
  dsimp only at hcore hcount hraised hother
  have hlist := isListed_withQuest hfresh ql i
  constructor
  · constructor
    · exact hl.room
    · intro k item' hk hffa hblocked
      have hk : quest_items[k]? = some item' := hk
      show isListed (L.withQuest guid (ql ++ [{ index := i }])).PlayerQuestItems k = true
      rw [hlist k]
      by_cases hki : k = i
      · rw [hki, decide_eq_true rfl, Bool.or_true]
      · have hold := hl.blocked k item' ((hother k hki).symm.trans hk) hffa hblocked
        rw [hold, Bool.true_or]
    · exact hl.counted
  · have hpending : (withQuest { L with quest_items, unlootedCount, counted } guid
        (ql ++ [{ index := i }])).pending = (L.withQuest guid ql).pending +
          (item.freeforall || !isListed (L.withQuest guid ql).PlayerQuestItems i).toNat := by
      rw [← pending_listQuest hfresh hitem hlooted]
      exact pending_core rfl hcore rfl rfl rfl
    have hblocked := hl.blocked i item hitem
    by_cases htwice : item.freeforall = false ∧ item.is_blocked = false ∧
        isListed (L.withQuest guid ql).PlayerQuestItems i = true
    · refine ⟨extra + 1, ht.raise hcount hraised rfl ?_, ?_⟩
      · rw [hpending, timesCounted, htwice.1, htwice.2.1, htwice.2.2]
        rfl
      · intro honce
        have hb := honce htwice.1 htwice.2.2
        rw [htwice.2.1] at hb
        cases hb
    · refine ⟨extra, ht.raise hcount hraised rfl ?_, fun _ => rfl⟩
      have htimes : timesCounted item =
          (item.freeforall || !isListed (L.withQuest guid ql).PlayerQuestItems i).toNat := by
        rw [timesCounted]
        cases hffa : item.freeforall with
        | true => rfl
        | false =>
          grind
      rw [hpending, htimes]
      exact Nat.add_right_comm _ _ _

theorem questPositionsFrom_core {room : Nat} {todo : List Nat}
    (howner : L'.lootOwnerGUID = L.lootOwnerGUID)
    (hcore : L'.quest_items.map LootItem.core = L.quest_items.map LootItem.core) :
    questPositionsFrom templates L' player room todo =
      questPositionsFrom templates L player room todo := by
  have hany : ∀ (M : Loot) (i : Nat), M.quest_items[i]?.any (M.listsQuest templates player) =
      (M.quest_items.map LootItem.core)[i]?.any (M.listsQuest templates player) := by
    intro M i
    rw [List.getElem?_map, Option.any_map]
    rfl
  have hlists : L'.listsQuest templates player = L.listsQuest templates player := by
    funext item
    rw [listsQuest, listsQuest, howner]
  rw [questPositionsFrom, questPositionsFrom]
  apply congrArg (List.take room)
  apply List.filter_congr
  intro i _
  rw [hany, hany, hcore, hlists]

theorem fillQuestFrom_eq (templates : Templates) (player : Player) (todo : List Nat) (L : Loot)
    (ql : List NotNormalLootItem) : ∃ quest_items unlootedCount counted,
      (fillQuestFrom templates player todo (L, ql)).1 =
        { L with quest_items, unlootedCount, counted } := by
  induction todo generalizing L ql with
  | nil => exact ⟨_, _, _, rfl⟩
  | cons i todo ih =>
    rw [fillQuestFrom]
    split
    · exact ih L ql
    · next item _ =>
      split
      · obtain ⟨q, u, c, heq⟩ := countQuestItem_eq L player i item
        dsimp only
        split
        · exact ⟨q, u, c, heq⟩
        · rw [heq]
          exact ih { L with quest_items := q, unlootedCount := u, counted := c } _
      · exact ih L ql

/-- **The loop of `FillQuestLoot`.** -/
theorem fillQuestFrom_keeps (todo : List Nat) (hnodup : todo.Nodup)
    (hnew : ∀ i ∈ todo, ql.any (fun e => decide (e.index = i)) = false)
    (hfresh : L.PlayerQuestItems.get? player.guid = none)
    (hroom : L.items.length + ql.length < MAX_NR_LOOT_ITEMS)
    (hl : (L.withQuest player.guid ql).Listing) (ht : (L.withQuest player.guid ql).Tally extra) :
    ((fillQuestFrom templates player todo (L, ql)).1.withQuest player.guid
        (fillQuestFrom templates player todo (L, ql)).2).Listing ∧
      ∃ extra', ((fillQuestFrom templates player todo (L, ql)).1.withQuest player.guid
        (fillQuestFrom templates player todo (L, ql)).2).Tally extra' ∧
        (L.ListsOnceAt (questPositionsFrom templates L player
          (MAX_NR_LOOT_ITEMS - (L.items.length + ql.length)) todo) → extra' = extra) := by
  induction todo generalizing L ql extra with
  | nil => exact ⟨hl, extra, ht, fun _ => rfl⟩
  | cons i todo ih =>
    obtain ⟨hi, hnodup⟩ := List.nodup_cons.mp hnodup
    have hnewtl : ∀ k ∈ todo, ql.any (fun e => decide (e.index = k)) = false :=
      fun k hk => hnew k (List.mem_cons_of_mem i hk)
    rw [fillQuestFrom]
    cases hitem : L.quest_items[i]? with
    | none =>
      grind [questPositionsFrom]
    | some item =>
      dsimp only
      by_cases hlists : L.listsQuest templates player item = true
      · rw [if_pos hlists]
        have hlooted : item.is_looted = false := by
          rw [listsQuest, Bool.and_eq_true, Bool.not_eq_true'] at hlists
          exact hlists.1
        obtain ⟨hl', extra₁, ht', hextra⟩ := listQuest_turn player hfresh hitem hlooted hl
          ht
        have hpos : questPositionsFrom templates L player
            (MAX_NR_LOOT_ITEMS - (L.items.length + ql.length)) (i :: todo) =
              i :: questPositionsFrom templates L player
                (MAX_NR_LOOT_ITEMS - (L.items.length + ql.length) - 1) todo := by
          have hsucc : MAX_NR_LOOT_ITEMS - (L.items.length + ql.length) =
              MAX_NR_LOOT_ITEMS - (L.items.length + ql.length) - 1 + 1 := by omega
          grind [questPositionsFrom]
        have honce : L.ListsOnceAt (questPositionsFrom templates L player
            (MAX_NR_LOOT_ITEMS - (L.items.length + ql.length)) (i :: todo)) → extra₁ = extra := by
          intro h
          apply hextra
          intro hffa hlisted
          refine h i (by rw [hpos]; exact List.mem_cons_self) item hitem hffa ?_
          have hset : isListed (L.withQuest player.guid ql).PlayerQuestItems i =
              (ql.any (fun e => decide (e.index = i)) || isListed L.PlayerQuestItems i) :=
            isListed_setList hfresh
          rw [hset, hnew i List.mem_cons_self, Bool.false_or] at hlisted
          exact hlisted
        have hcore := countQuestItem_core L player i item
        have hother := fun k (h : k ≠ i) => countQuestItem_get_ne L player item h
        obtain ⟨q, u, c, heq⟩ := countQuestItem_eq L player i item
        rw [heq] at hl' ht' hcore hother ⊢
        dsimp only at hcore hother
        have hlen : (ql ++ [(⟨i, false⟩ : NotNormalLootItem)]).length = ql.length + 1 := List.length_append
        split
        · exact ⟨hl', extra₁, ht', honce⟩
        · next hfull =>
          have hnew' : ∀ k ∈ todo,
              (ql ++ [(⟨i, false⟩ : NotNormalLootItem)]).any (fun e => decide (e.index = k)) = false := by
            grind
          have hroom' : L.items.length + (ql ++ [(⟨i, false⟩ : NotNormalLootItem)]).length < MAX_NR_LOOT_ITEMS := by
            grind
          obtain ⟨hlast, extra₂, htally, hextra₂⟩ :=
            @ih { L with quest_items := q, unlootedCount := u, counted := c } _ extra₁ hnodup hnew'
              hfresh hroom' hl' ht'
          refine ⟨hlast, extra₂, htally, ?_⟩
          intro h
          rw [← honce h]
          apply hextra₂
          have hpositions := fun room => @questPositionsFrom_core templates L
            { L with quest_items := q, unlootedCount := u, counted := c } player room todo rfl hcore
          rw [hpositions]
          intro k hk item' hitem' hffa hlisted
          have hkt : k ∈ todo := List.mem_of_mem_filter (List.mem_of_mem_take hk)
          have hki : k ≠ i := fun e => hi (e ▸ hkt)
          refine h k ?_ item' ((hother k hki).symm.trans hitem') hffa hlisted
          rw [hpos]
          refine List.mem_cons_of_mem i ?_
          have hsub : MAX_NR_LOOT_ITEMS - (L.items.length + ql.length) - 1 =
              MAX_NR_LOOT_ITEMS - (L.items.length + (ql ++ [(⟨i, false⟩ : NotNormalLootItem)]).length) := by
            rw [hlen]
            omega
          rw [hsub]
          exact hk
      · rw [if_neg hlists]
        grind [questPositionsFrom]

theorem fillQuestLoot_keeps (templates : Templates) (hfresh : L.PlayerQuestItems.get? player.guid = none) (hl : L.Listing)
    (ht : L.Tally extra) : (L.fillQuestLoot templates player).Listing ∧
      ∃ extra', (L.fillQuestLoot templates player).Tally extra' ∧
        (ListsOnce templates L player → extra' = extra) := by
  unfold fillQuestLoot
  by_cases hfull : L.items.length = MAX_NR_LOOT_ITEMS
  · rw [if_pos hfull]
    exact ⟨hl, extra, ht, fun _ => rfl⟩
  · rw [if_neg hfull]
    have hroom : L.items.length + 0 < MAX_NR_LOOT_ITEMS := Nat.lt_of_le_of_ne hl.room hfull
    exact fillQuestFrom_keeps (List.range L.quest_items.length) List.nodup_range (fun _ _ => rfl)
      hfresh hroom hl ht

theorem fillQuestLoot_eq (templates : Templates) (L : Loot) (player : Player) :
    ∃ ql quest_items unlootedCount counted, L.fillQuestLoot templates player =
      { L with quest_items, unlootedCount, counted,
               PlayerQuestItems := setList L.PlayerQuestItems player.guid ql } := by
  unfold fillQuestLoot
  split
  · exact ⟨[], _, _, _, rfl⟩
  · obtain ⟨q, u, c, heq⟩ :=
      fillQuestFrom_eq templates player (List.range L.quest_items.length) L []
    dsimp only
    rw [heq]
    exact ⟨_, q, u, c, rfl⟩

/-! ## Items that everyone may take -/

/-- The positions that `FillFFALoot` lists. -/
def ffaPositions (templates : Templates) (L : Loot) (player : Player) : List Nat :=
  (List.range L.items.length).filter fun i => L.items[i]?.any (L.listsFFA templates player)

theorem fillFFALoot_keeps (templates : Templates) (hfresh : L.PlayerFFAItems.get? player.guid = none) (hl : L.Listing)
    (ht : L.Tally extra) : (L.fillFFALoot templates player).Listing ∧
      (L.fillFFALoot templates player).Tally extra := by
  refine ⟨⟨hl.room, hl.blocked, hl.counted⟩, ht.raise (n := (L.ffaPositions templates player).length)
    rfl rfl rfl ?_⟩
  have hentries : (entriesOf (L.fillFFALoot templates player).PlayerFFAItems).countP
      (fun e => !e.is_looted) = (L.ffaPositions templates player).length +
        (entriesOf L.PlayerFFAItems).countP fun e => !e.is_looted := by
    have hset : entriesOf (L.fillFFALoot templates player).PlayerFFAItems =
        (L.ffaPositions templates player).map ({ index := · }) ++ entriesOf L.PlayerFFAItems :=
      entriesOf_setList hfresh
    rw [hset, List.countP_append, List.countP_map]
    apply congrArg (· + _)
    exact List.countP_eq_length.mpr fun _ _ => rfl
  have hpending := pending_add L (L.fillFFALoot templates player) (a := 0) (b := 0) (d := 0)
    (Nat.add_zero _).symm (Nat.add_zero _).symm (hentries.trans (Nat.add_comm _ _))
    (Nat.add_zero _).symm
  rw [hpending]
  omega

theorem findEntry_fillFFALoot (hfresh : L.PlayerFFAItems.get? player.guid = none)
    (hitem : L.items[i]? = some item) (hlists : L.listsFFA templates player item = true) :
    (findEntry (L.fillFFALoot templates player).PlayerFFAItems player.guid i).isSome = true := by
  have hmem : i ∈ L.ffaPositions templates player := by
    grind [ffaPositions]
  have hne : (L.ffaPositions templates player).map (fun i => ({ index := i } : NotNormalLootItem)) ≠
      [] := by
    intro h
    rw [List.map_eq_nil_iff.mp h] at hmem
    cases hmem
  exact findEntry_isSome.mpr ⟨_, get?_setList_self hfresh hne, { index := i },
    List.mem_map.mpr ⟨i, hmem, rfl⟩, rfl⟩

/-! ## Items under a condition -/

/-- The loot with a list of items under a condition set. -/
def withConditional (L : Loot) (guid : ObjectGuid) (ql : List NotNormalLootItem) : Loot :=
  { L with
    PlayerNonQuestNonFFAConditionalItems := setList L.PlayerNonQuestNonFFAConditionalItems guid ql }

theorem addAllowedLooter_eq (L : Loot) (player : Player) (presentAtLooting : Bool) (i : Nat) :
    ∃ items, L.addAllowedLooter player presentAtLooting i = { L with items } ∧
      items.map LootItem.core = L.items.map LootItem.core ∧
      ∀ (k : Nat) (item' : LootItem), items[k]? = some item' → ∃ item, L.items[k]? = some item ∧
        item'.is_counted = item.is_counted ∧ item'.core = item.core := by
  unfold addAllowedLooter
  split
  · refine ⟨_, rfl, map_core_modify (by intro _; rfl) _ _, ?_⟩
    intro k item' hk
    rw [List.getElem?_modify] at hk
    obtain ⟨item, hitem, heq⟩ := Option.map_eq_some_iff.mp hk
    refine ⟨item, hitem, ?_⟩
    rw [← heq]
    split <;> exact ⟨rfl, rfl⟩
  · exact ⟨L.items, rfl, rfl, fun k item' hk => ⟨item', hk, rfl, rfl⟩⟩

theorem addAllowedLooter_keeps (player : Player) (presentAtLooting : Bool) (i : Nat)
    (hl : (L.withConditional guid ql).Listing) (ht : (L.withConditional guid ql).Tally extra) :
    ((L.addAllowedLooter player presentAtLooting i).withConditional guid ql).Listing ∧
      ((L.addAllowedLooter player presentAtLooting i).withConditional guid ql).Tally extra := by
  obtain ⟨items, heq, hcore, hsame⟩ := addAllowedLooter_eq L player presentAtLooting i
  rw [heq]
  have hlen : items.length = L.items.length := by
    have hmap := congrArg List.length hcore
    rwa [List.length_map, List.length_map] at hmap
  refine ⟨⟨?_, hl.blocked, ?_⟩, ht.same rfl rfl rfl (pending_core hcore rfl rfl rfl rfl)⟩
  · have hroom := hl.room
    exact Nat.le_trans (Nat.le_of_eq hlen) hroom
  · intro k item' hk hffa hcond
    obtain ⟨item, hitem, hcounted, hcore⟩ := hsame k item' hk
    have hffa' : item.freeforall = false := (congrArg LootItem.freeforall hcore).symm.trans hffa
    have hcond' : item.conditions.isEmpty = false :=
      (congrArg (fun item => item.conditions.isEmpty) hcore).symm.trans hcond
    rw [hcounted]
    exact hl.counted k item hitem hffa' hcond'

theorem isListed_withConditional (h : L.PlayerNonQuestNonFFAConditionalItems.get? guid = none)
    (ql : List NotNormalLootItem) (i k : Nat) :
    isListed (L.withConditional guid (ql ++ [{ index := i }])).PlayerNonQuestNonFFAConditionalItems k =
      (isListed (L.withConditional guid ql).PlayerNonQuestNonFFAConditionalItems k ||
        decide (i = k)) := by
  show isListed (setList L.PlayerNonQuestNonFFAConditionalItems guid _) k =
    (isListed (setList L.PlayerNonQuestNonFFAConditionalItems guid _) k || _)
  rw [isListed_setList h, isListed_setList h, List.any_append, Bool.or_assoc, Bool.or_assoc]
  apply congrArg
  rw [Bool.or_comm, List.any_cons, List.any_nil, Bool.or_false]

/-- **Listing one more item under a condition** adds one when nobody had it on a list. -/
theorem pending_listConditional
    (hfresh : L.PlayerNonQuestNonFFAConditionalItems.get? guid = none)
    (hitem : L.items[i]? = some item) (hlooted : item.is_looted = false)
    (hffa : item.freeforall = false) (hcond : item.conditions.isEmpty = false) :
    (L.withConditional guid (ql ++ [{ index := i }])).pending = (L.withConditional guid ql).pending +
      (!isListed (L.withConditional guid ql).PlayerNonQuestNonFFAConditionalItems i).toNat := by
  have hlist := isListed_withConditional hfresh ql i
  have hopen : openItems (wantsItem (isListed (L.withConditional guid
      (ql ++ [{ index := i }])).PlayerNonQuestNonFFAConditionalItems)) L.items =
        openItems (wantsItem (isListed
          (L.withConditional guid ql).PlayerNonQuestNonFFAConditionalItems)) L.items +
          (!isListed (L.withConditional guid ql).PlayerNonQuestNonFFAConditionalItems i).toNat := by
    cases hold : isListed (L.withConditional guid ql).PlayerNonQuestNonFFAConditionalItems i with
    | false =>
      refine openItems_want hitem hlooted hffa ?_ ?_ ?_
      · rw [wantsItem, hcond, hold]
        rfl
      · rw [wantsItem, hcond, hlist, decide_eq_true rfl, Bool.or_true]
        rfl
      · intro k item' hk
        rw [wantsItem, wantsItem, hlist, decide_eq_false (Ne.symm hk), Bool.or_false]
    | true =>
      apply openItems_congr
      intro k item' _ _
      rw [wantsItem, wantsItem, hlist]
      grind
  exact pending_add _ _ (b := 0) (c := 0) (d := 0) hopen (Nat.add_zero _).symm
    (Nat.add_zero _).symm (Nat.add_zero _).symm

theorem countConditional_eq (L : Loot) (i : Nat) (item : LootItem) :
    ∃ items unlootedCount counted, L.countConditional i item =
        { L with items, unlootedCount, counted } ∧
      items.map LootItem.core = L.items.map LootItem.core ∧
      unlootedCount = L.unlootedCount + UInt8.ofNat (!item.is_counted).toNat ∧
      counted = L.counted + (!item.is_counted).toNat := by
  unfold countConditional
  cases item.is_counted with
  | true => exact ⟨_, _, _, rfl, rfl, (add_zero _).symm, rfl⟩
  | false => exact ⟨_, _, _, rfl, map_core_modify (by intro _; rfl) _ _, rfl, rfl⟩

theorem countConditional_congr {item' : LootItem} (h : item'.is_counted = item.is_counted) :
    L.countConditional i item' = L.countConditional i item := by
  rw [countConditional, countConditional, h]

theorem countConditional_counted (hitem : L.items[i]? = some item) (k : Nat) {item' : LootItem}
    (hk : (L.countConditional i item).items[k]? = some item') :
    ∃ item₀, L.items[k]? = some item₀ ∧ item'.core = item₀.core ∧
      item'.is_counted = (item₀.is_counted || decide (i = k)) := by
  unfold countConditional at hk
  split at hk
  · grind
  · have hk : (L.items.modify i fun item => { item with is_counted := true })[k]? = some item' := hk
    rw [List.getElem?_modify] at hk
    obtain ⟨item₀, hitem₀, heq⟩ := Option.map_eq_some_iff.mp hk
    refine ⟨item₀, hitem₀, ?_⟩
    rw [← heq]
    split
    · next hik => exact ⟨rfl, by rw [decide_eq_true hik, Bool.or_true]⟩
    · next hik => exact ⟨rfl, by rw [decide_eq_false hik, Bool.or_false]⟩

theorem listConditional_turn (hfresh : L.PlayerNonQuestNonFFAConditionalItems.get? guid = none)
    (hitem : L.items[i]? = some item) (hlooted : item.is_looted = false)
    (hffa : item.freeforall = false) (hcond : item.conditions.isEmpty = false)
    (hl : (L.withConditional guid ql).Listing) (ht : (L.withConditional guid ql).Tally extra) :
    ((L.countConditional i item).withConditional guid (ql ++ [{ index := i }])).Listing ∧
      ((L.countConditional i item).withConditional guid (ql ++ [{ index := i }])).Tally extra := by
  have hcounted := countConditional_counted hitem
  obtain ⟨items, u, c, heq, hcore, hu, hc⟩ := countConditional_eq L i item
  rw [heq] at hcounted ⊢
  have hlist := isListed_withConditional hfresh ql i
  have hold : item.is_counted =
      isListed (L.withConditional guid ql).PlayerNonQuestNonFFAConditionalItems i :=
    hl.counted i item hitem hffa hcond
  have hlen : items.length = L.items.length := by
    have hmap := congrArg List.length hcore
    rwa [List.length_map, List.length_map] at hmap
  refine ⟨⟨Nat.le_trans (Nat.le_of_eq hlen) hl.room, hl.blocked, ?_⟩,
    ht.raise (n := (!item.is_counted).toNat) hu hc rfl ?_⟩
  · intro k item' hk hffa' hcond'
    obtain ⟨item₀, hitem₀, hsame, hcount⟩ := hcounted k hk
    have hffa₀ : item₀.freeforall = false := (congrArg LootItem.freeforall hsame).symm.trans hffa'
    have hcond₀ : item₀.conditions.isEmpty = false :=
      (congrArg (fun item => item.conditions.isEmpty) hsame).symm.trans hcond'
    have hcounted₀ := hl.counted k item₀ hitem₀ hffa₀ hcond₀
    rw [hcount, hcounted₀]
    exact (hlist k).symm
  · have hpending : (withConditional { L with items, unlootedCount := u, counted := c } guid
        (ql ++ [{ index := i }])).pending =
          (L.withConditional guid (ql ++ [{ index := i }])).pending :=
      pending_core hcore rfl rfl rfl rfl
    grind [pending_listConditional]

theorem fillConditionalFrom_eq (templates : Templates) (player : Player) (presentAtLooting : Bool)
    (todo : List Nat) (L : Loot) (ql : List NotNormalLootItem) :
    ∃ items unlootedCount counted,
      (fillConditionalFrom templates player presentAtLooting todo (L, ql)).1 =
        { L with items, unlootedCount, counted } ∧
      items.map LootItem.core = L.items.map LootItem.core := by
  induction todo generalizing L ql with
  | nil => exact ⟨_, _, _, rfl, rfl⟩
  | cons i todo ih =>
    rw [fillConditionalFrom]
    split
    · exact ih L ql
    · next item _ =>
      split
      · obtain ⟨items, heq, hcore, -⟩ := addAllowedLooter_eq L player presentAtLooting i
        dsimp only
        rw [heq]
        split
        · obtain ⟨items', u, c, heq', hcore'⟩ := ih { L with items } ql
          exact ⟨items', u, c, heq', hcore'.trans hcore⟩
        · obtain ⟨items₁, u₁, c₁, heq₁, hcore₁, -, -⟩ := countConditional_eq { L with items } i item
          rw [heq₁]
          obtain ⟨items', u, c, heq', hcore'⟩ :=
            ih { L with items := items₁, unlootedCount := u₁, counted := c₁ } (ql ++ [{ index := i }])
          exact ⟨items', u, c, heq', hcore'.trans (hcore₁.trans hcore)⟩
      · exact ih L ql

/-- **The loop of `FillNonQuestNonFFAConditionalLoot`.** -/
theorem fillConditionalFrom_keeps {presentAtLooting : Bool} (todo : List Nat)
    (hfresh : L.PlayerNonQuestNonFFAConditionalItems.get? player.guid = none)
    (hl : (L.withConditional player.guid ql).Listing)
    (ht : (L.withConditional player.guid ql).Tally extra) :
    ((fillConditionalFrom templates player presentAtLooting todo (L, ql)).1.withConditional
        player.guid (fillConditionalFrom templates player presentAtLooting todo (L, ql)).2).Listing ∧
      ((fillConditionalFrom templates player presentAtLooting todo (L, ql)).1.withConditional
        player.guid
        (fillConditionalFrom templates player presentAtLooting todo (L, ql)).2).Tally extra := by
  induction todo generalizing L ql with
  | nil => exact ⟨hl, ht⟩
  | cons i todo ih =>
    rw [fillConditionalFrom]
    cases hitem : L.items[i]? with
    | none => exact ih hfresh hl ht
    | some item =>
      dsimp only
      by_cases hlists : L.listsConditional templates player item = true
      · rw [if_pos hlists]
        have hopen := hlists
        rw [listsConditional, Bool.and_eq_true, Bool.and_eq_true, Bool.not_eq_true',
          Bool.not_eq_true'] at hopen
        obtain ⟨⟨hlooted, hffa⟩, -⟩ := hopen
        obtain ⟨hl', ht'⟩ := addAllowedLooter_keeps player presentAtLooting i hl ht
        obtain ⟨items, heq, hcore, hcounted⟩ := addAllowedLooter_eq L player presentAtLooting i
        rw [heq] at hl' ht' ⊢
        by_cases hcond : item.conditions.isEmpty = true
        · rw [if_pos hcond]
          exact @ih { L with items } ql hfresh hl' ht'
        · rw [if_neg hcond]
          obtain ⟨item', hitem', hsame⟩ := getElem?_of_map_core hcore.symm hitem
          have hlooted' : item'.is_looted = false :=
            (congrArg LootItem.is_looted hsame).symm.trans hlooted
          have hffa' : item'.freeforall = false :=
            (congrArg LootItem.freeforall hsame).symm.trans hffa
          have hcond' : item'.conditions.isEmpty = false :=
            (congrArg (fun item => item.conditions.isEmpty) hsame).symm.trans
              (eq_false_of_ne_true hcond)
          have hsame' : item'.is_counted = item.is_counted := by
            grind
          have hturn := @listConditional_turn { L with items } _ ql item' i extra hfresh hitem'
            hlooted' hffa' hcond' hl' ht'
          rw [countConditional_congr hsame'] at hturn
          obtain ⟨items₁, u, c, heq₁, -⟩ := countConditional_eq { L with items } i item
          grind
      · rw [if_neg hlists]
        exact ih hfresh hl ht

theorem fillConditional_keeps (templates : Templates) (presentAtLooting : Bool)
    (hfresh : L.PlayerNonQuestNonFFAConditionalItems.get? player.guid = none) (hl : L.Listing)
    (ht : L.Tally extra) :
    (L.fillNonQuestNonFFAConditionalLoot templates player presentAtLooting).Listing ∧
      (L.fillNonQuestNonFFAConditionalLoot templates player presentAtLooting).Tally extra :=
  fillConditionalFrom_keeps (List.range L.items.length) hfresh hl ht

theorem fillConditional_eq (templates : Templates) (L : Loot) (player : Player)
    (presentAtLooting : Bool) : ∃ ql items unlootedCount counted,
      L.fillNonQuestNonFFAConditionalLoot templates player presentAtLooting =
        { L with items, unlootedCount, counted,
                 PlayerNonQuestNonFFAConditionalItems :=
                   setList L.PlayerNonQuestNonFFAConditionalItems player.guid ql } ∧
      items.map LootItem.core = L.items.map LootItem.core := by
  obtain ⟨items, u, c, heq, hcore⟩ := fillConditionalFrom_eq templates player presentAtLooting
    (List.range L.items.length) L []
  refine ⟨(fillConditionalFrom templates player presentAtLooting (List.range L.items.length)
    (L, [])).2, items, u, c, ?_, hcore⟩
  rw [fillNonQuestNonFFAConditionalLoot]
  dsimp only
  rw [heq]

end Loot

end EGServer.Looting
