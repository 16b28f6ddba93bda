import EGServer.Items.SwapItem
import EGServer.Items.Searching

/-!
# The exchange of bags

When can a bag that is worn change places with an empty bag that lies elsewhere? The exchange of
what they hold is written for a worn bag with contents. Before it is reached, though, the worn bag
has to find its new place with `CanStoreItem` or `CanBankItem`, and these refuse a bag that holds
something wherever it is not in a bag position. So only an empty bag is exchanged.
-/

namespace EGServer.Items

/-- The items of a bag in their order. -/
def Item.contents (bag : Item) : List ItemInfo :=
  (List.range bag.getBagSize).filterMap bag.getItemByPos

namespace Inventory

variable {R : Rules} {W : Inventory} {p : Position} {item : Item} {proto : ItemTemplate}
  {slot : Nat}

/-! ## The search for one place -/

/-- No check of `CanStoreItem` before the place is against the item. -/
structure MayBeStored (R : Rules) (W : Inventory) (item : Item) : Prop where
  notLooted : R.lootGUID ≠ some item.guid
  notBound : R.isBindedNotWith item.toItemInfo = false
  noSurplus : (R.canTakeMoreSimilarItems W item.entry item.count (some item)).2 = 0

/-- No check of `CanBankItem` before the place is against the item. -/
structure MayBeBanked (R : Rules) (W : Inventory) (item : Item) : Prop where
  notLooted : R.lootGUID ≠ some item.guid
  notBound : R.isBindedNotWith item.toItemInfo = false
  noSurplus : (R.canTakeMoreSimilarItems W item.entry item.count (some item)).1 = .ok

/-- A stack that may exist. -/
structure IsStack (R : Rules) (item : Item) (proto : ItemTemplate) : Prop where
  template : R.getItemTemplate item.entry = some proto
  pos : item.count ≠ 0
  le : item.count ≤ proto.getMaxStackSize

theorem refused {answer holds found : Prop} (h : ¬answer) (hholds : ¬holds) :
    (answer ↔ holds) ∧ (answer → found) := ⟨iff_of_false h hholds, fun h' => absurd h' h⟩

/-- The position is one that is asked for. -/
def IsAsked (p : Position) : Prop := p.1 ≠ NULL_BAG ∧ p.2 ≠ NULL_SLOT

theorem storeStages_cons {r : Request} (hp : IsAsked p) (swap : Bool) :
    ∃ todo, W.storeStages R r p.1 p.2 swap = W.inSpecificSlot R r p.1 p.2 swap :: todo := by
  have hp : p.1 ≠ NULL_BAG ∧ p.2 ≠ NULL_SLOT := hp
  unfold storeStages
  rw [if_pos hp]
  exact ⟨_, rfl⟩

theorem bankStages_cons {r : Request} (hp : IsAsked p) (swap : Bool) :
    ∃ todo, W.bankStages R r p.1 p.2 swap = W.inSpecificSlot R r p.1 p.2 swap :: todo := by
  have hp : p.1 ≠ NULL_BAG ∧ p.2 ≠ NULL_SLOT := hp
  unfold bankStages
  rw [if_pos hp]
  exact ⟨_, rfl⟩

/-- **A bag that holds something is refused** where it would not be in a bag position. -/
theorem inSpecificSlot_notEmptyBag {r : Request} {swap : Bool} {d : Planned}
    (hr : r.isNotEmptyBag = true) (hp : isBagPos p = false) :
    ((W.inSpecificSlot R r p.1 p.2 swap).run d).1 ≠ .ok := by
  have hboth : (r.isNotEmptyBag && !isBagPos p) = true := by rw [hr, hp]; rfl
  show (W.canStoreItem_InSpecificSlot R r p swap d).1 ≠ .ok
  rw [canStoreItem_InSpecificSlot, if_pos hboth]
  intro h
  cases h

theorem inSpecificSlot_swap {r : Request} {count : UInt32} (hr : r.isNotEmptyBag = false)
    (hle : count ≤ r.proto.getMaxStackSize) :
    (W.inSpecificSlot R r p.1 p.2 true).run { dest := [], count } =
      if W.checkFits R r p = .ok then (.ok, { dest := [(p, count)], count := 0 })
      else (W.checkFits R r p, { dest := [], count }) := by
  have hboth : ¬(r.isNotEmptyBag && !isBagPos p) = true := by rw [hr]; exact Bool.false_ne_true
  show W.canStoreItem_InSpecificSlot R r p true { dest := [], count } = _
  rw [canStoreItem_InSpecificSlot, if_neg hboth]
  have hneed : (if count < r.proto.getMaxStackSize then count else r.proto.getMaxStackSize) = count := by
    split
    · rfl
    · next hlt => exact UInt32.le_antisymm (UInt32.not_lt.mp hlt) hle
  simp only [if_true]
  split
  · rw [Planned.reserve, if_neg (by simp [Planned.isContained]), Planned.push]
    dsimp only
    rw [hneed, sub_self]
    rfl
  · rfl

/-- **The search of a swap** for the place of an item. -/
theorem runStages_swap {full : InventoryResult} {n count : UInt32} {r : Request} {todo : List Stage}
    (hr : r.isNotEmptyBag = true → isBagPos p = false)
    (hle : count ≤ r.proto.getMaxStackSize) :
    ((runStages full n (W.inSpecificSlot R r p.1 p.2 true :: todo) { dest := [], count }).1 = .ok ↔
        r.isNotEmptyBag = false ∧ W.checkFits R r p = .ok ∧ n = 0) ∧
      ((runStages full n (W.inSpecificSlot R r p.1 p.2 true :: todo) { dest := [], count }).1 = .ok →
        (runStages full n (W.inSpecificSlot R r p.1 p.2 true :: todo)
          { dest := [], count }).2.dest = [(p, count)]) := by
  cases hempty : r.isNotEmptyBag with
  | true =>
    have herror : ((W.inSpecificSlot R r p.1 p.2 true).run { dest := [], count }).1 ≠ .ok :=
      inSpecificSlot_notEmptyBag hempty (hr hempty)
    rw [runStages_error rfl herror]
    exact refused herror fun h => by cases h.1
  | false =>
    have hrun := @inSpecificSlot_swap R W p r count hempty hle
    by_cases hfits : W.checkFits R r p = .ok
    · rw [if_pos hfits] at hrun
      rw [runStages_done (by rw [hrun]) (by rw [hrun]), hrun]
      grind
    · rw [if_neg hfits] at hrun
      have herror : ((W.inSpecificSlot R r p.1 p.2 true).run { dest := [], count }).1 ≠ .ok := by
        rw [hrun]
        exact hfits
      rw [runStages_error rfl herror]
      exact refused herror fun h => hfits h.2.1

/-- `CanStoreItem` for an item that is swapped. -/
theorem canStoreItem_swap (hp : IsAsked p) (hstack : IsStack R item proto)
    (hpos : item.isNotEmptyBag = true → isBagPos p = false) :
    ((W.canStoreItem R p.1 p.2 [] item.entry item.count (some item) true).1 = .ok ↔
        item.isNotEmptyBag = false ∧ MayBeStored R W item ∧
          W.checkFits R { entry := item.entry, proto, pSrcItem := some item } p = .ok) ∧
      ((W.canStoreItem R p.1 p.2 [] item.entry item.count (some item) true).1 = .ok →
        (W.canStoreItem R p.1 p.2 [] item.entry item.count (some item) true).2 =
          [(p, item.count)]) := by
  obtain ⟨todo, htodo⟩ := storeStages_cons (R := R) (W := W)
    (r := { entry := item.entry, proto, pSrcItem := some item }) hp true
  unfold canStoreItem
  rw [hstack.template]
  dsimp only
  by_cases hlooted : R.lootGUID = some item.guid
  · have hbad : (Option.any (fun item : Item => R.lootGUID == some item.guid) (some item)) = true := by
      rw [Option.any_some, beq_iff_eq]
      exact hlooted
    rw [if_pos hbad]
    exact refused (by decide) fun h => h.2.1.notLooted hlooted
  · have hgood : ¬(Option.any (fun item : Item => R.lootGUID == some item.guid) (some item)) = true := by
      rw [Option.any_some, beq_iff_eq]
      exact hlooted
    rw [if_neg hgood, Option.any_some]
    cases hbound : R.isBindedNotWith item.toItemInfo with
    | true =>
      rw [if_pos rfl]
      exact refused (by decide) fun h => by cases hbound.symm.trans h.2.1.notBound
    | false =>
      rw [if_neg Bool.false_ne_true]
      have hcond : MayBeStored R W item ↔
          (R.canTakeMoreSimilarItems W item.entry item.count (some item)).2 = 0 :=
        ⟨fun h => h.noSurplus, fun h => ⟨hlooted, hbound, h⟩⟩
      rw [hcond]
      generalize R.canTakeMoreSimilarItems W item.entry item.count (some item) = answer
      obtain ⟨res, n⟩ := answer
      dsimp only
      split
      · next hres =>
        exact refused hres.1 fun h => hstack.pos (hres.2.trans h.2.1)
      · next hres =>
        by_cases hn : n = 0
        · subst hn
          have hcount : (if res ≠ .ok then item.count - 0 else item.count) = item.count := by
            rw [sub_zero, ite_self]
          rw [hcount, htodo]
          obtain ⟨hiff, hdest⟩ := @runStages_swap R W p .invFull 0 item.count
            { entry := item.entry, proto, pSrcItem := some item } todo hpos hstack.le
          constructor
          · rw [hiff]
            constructor
            · rintro ⟨hempty, hfits, -⟩
              exact ⟨hempty, rfl, hfits⟩
            · rintro ⟨hempty, -, hfits⟩
              exact ⟨hempty, hfits, rfl⟩
          · exact hdest
        · -- with a surplus no search succeeds
          exact refused (fun h => hn (runStages_ok (by decide) h).1) fun h => hn h.2.1

/-- `CanBankItem` for an item that is swapped. -/
theorem canBankItem_swap (hp : IsAsked p) (hstack : IsStack R item proto)
    (hslot : slot < CURRENCYTOKEN_SLOT_START)
    (hpos : item.isNotEmptyBag = true → isBagPos p = false)
    (hbag : BANK_SLOT_BAG_START ≤ p.2 → p.2 < BANK_SLOT_BAG_END →
      item.isBag = true ∧ p.2 - BANK_SLOT_BAG_START < R.bankBagSlotCount ∧ R.canUseItem item = .ok) :
    ((W.canBankItem R p.1 p.2 item slot true).1 = .ok ↔
        item.isNotEmptyBag = false ∧ MayBeBanked R W item ∧
          W.checkFits R { entry := item.entry, proto, pSrcItem := some item } p = .ok) ∧
      ((W.canBankItem R p.1 p.2 item slot true).1 = .ok →
        (W.canBankItem R p.1 p.2 item slot true).2 = [(p, item.count)]) := by
  obtain ⟨todo, htodo⟩ := bankStages_cons (R := R) (W := W)
    (r := { entry := item.entry, proto, pSrcItem := some item }) hp true
  unfold canBankItem
  rw [hstack.template]
  dsimp only
  by_cases hlooted : R.lootGUID = some item.guid
  · rw [if_pos hlooted]
    exact refused (by decide) fun h => h.2.1.notLooted hlooted
  · rw [if_neg hlooted]
    cases hbound : R.isBindedNotWith item.toItemInfo with
    | true =>
      rw [if_pos rfl]
      exact refused (by decide) fun h => by cases hbound.symm.trans h.2.1.notBound
    | false =>
      have hcurrency : ¬(CURRENCYTOKEN_SLOT_START ≤ slot ∧ slot < CURRENCYTOKEN_SLOT_END) :=
        fun h => absurd h.1 (Nat.not_le.mpr hslot)
      rw [if_neg Bool.false_ne_true, if_neg hcurrency]
      by_cases hres : (R.canTakeMoreSimilarItems W item.entry item.count (some item)).1 = .ok
      · have hnobag : ¬((p.1 ≠ NULL_BAG ∧ BANK_SLOT_BAG_START ≤ p.2 ∧ p.2 < BANK_SLOT_BAG_END) ∧
            item.isBag = false) := by
          rintro ⟨⟨-, hfirst, hlast⟩, h⟩
          cases h.symm.trans (hbag hfirst hlast).1
        have hbought : ¬((p.1 ≠ NULL_BAG ∧ BANK_SLOT_BAG_START ≤ p.2 ∧ p.2 < BANK_SLOT_BAG_END) ∧
            R.bankBagSlotCount ≤ p.2 - BANK_SLOT_BAG_START) := by
          rintro ⟨⟨-, hfirst, hlast⟩, h⟩
          exact absurd h (Nat.not_le.mpr (hbag hfirst hlast).2.1)
        have huse : ¬((p.1 ≠ NULL_BAG ∧ BANK_SLOT_BAG_START ≤ p.2 ∧ p.2 < BANK_SLOT_BAG_END) ∧
            R.canUseItem item ≠ .ok) := by
          rintro ⟨⟨-, hfirst, hlast⟩, h⟩
          exact h (hbag hfirst hlast).2.2
        rw [if_neg (not_not.mpr hres), if_neg hnobag, if_neg hbought, if_neg huse, htodo]
        obtain ⟨hiff, hdest⟩ := @runStages_swap R W p .bankFull 0 item.count
          { entry := item.entry, proto, pSrcItem := some item } todo hpos hstack.le
        constructor
        · rw [hiff]
          constructor
          · rintro ⟨hempty, hfits, -⟩
            exact ⟨hempty, ⟨hlooted, hbound, hres⟩, hfits⟩
          · rintro ⟨hempty, -, hfits⟩
            exact ⟨hempty, hfits, rfl⟩
        · exact hdest
      · rw [if_pos hres]
        exact refused hres fun h => hres h.2.1.noSurplus

/-! ## Where the bags are -/

theorem isInventoryPos_iff : isInventoryPos p = true ↔
    p.1 = 255 ∧ p.2 = 255 ∨ p.1 = 255 ∧ 23 ≤ p.2 ∧ p.2 < 39 ∨ 19 ≤ p.1 ∧ p.1 < 23 ∨
      p.1 = 255 ∧ 86 ≤ p.2 ∧ p.2 < 150 := by
  simp only [isInventoryPos, Bool.or_eq_true, Bool.and_eq_true, decide_eq_true_eq, and_assoc, or_assoc]
  exact Iff.rfl

theorem isBankPos_iff : isBankPos p = true ↔
    p.1 = 255 ∧ 39 ≤ p.2 ∧ p.2 < 67 ∨ p.1 = 255 ∧ 67 ≤ p.2 ∧ p.2 < 74 ∨ 67 ≤ p.1 ∧ p.1 < 74 := by
  simp only [isBankPos, Bool.or_eq_true, Bool.and_eq_true, decide_eq_true_eq, and_assoc, or_assoc]
  exact Iff.rfl

theorem isEquipmentPos_iff : isEquipmentPos p = true ↔
    p.1 = 255 ∧ p.2 < 19 ∨ p.1 = 255 ∧ 19 ≤ p.2 ∧ p.2 < 23 := by
  simp only [isEquipmentPos, Bool.or_eq_true, Bool.and_eq_true, decide_eq_true_eq, and_assoc]
  exact Iff.rfl

theorem isBagPos_iff : isBagPos p = true ↔
    p.1 = 255 ∧ (19 ≤ p.2 ∧ p.2 < 23 ∨ 67 ≤ p.2 ∧ p.2 < 74) := by
  rw [isBagPos, Bool.and_eq_true, decide_eq_true_eq, isBagSlot_iff]
  exact Iff.rfl

theorem checkFits_main {r : Request} (hp : p.1 = INVENTORY_SLOT_BAG_0) (hslot : p.2 < 74) : W.checkFits R r p = .ok := by
  have hkey : ¬(KEYRING_SLOT_START ≤ p.2 ∧ p.2 < KEYRING_SLOT_START + getMaxKeyringSize ∧
      r.proto.ofFamily BAG_FAMILY_MASK_KEYS = false) := by
    rintro ⟨h, -⟩
    exact absurd hslot (Nat.not_lt.mpr ((by decide : 74 ≤ 86).trans h))
  have hcurrency : ¬(CURRENCYTOKEN_SLOT_START ≤ p.2 ∧ p.2 < CURRENCYTOKEN_SLOT_END ∧
      r.proto.isCurrencyToken = false) := by
    rintro ⟨h, -⟩
    exact absurd hslot (Nat.not_lt.mpr ((by decide : 74 ≤ 118).trans h))
  have hbuyback : ¬(BUYBACK_SLOT_START ≤ p.2 ∧ p.2 < BUYBACK_SLOT_END ∨ PLAYER_SLOT_END ≤ p.2) := by
    rintro (⟨h, -⟩ | h)
    · exact absurd hslot (Nat.not_lt.mpr h)
    · exact absurd hslot (Nat.not_lt.mpr ((by decide : 74 ≤ 150).trans h))
  rw [checkFits, if_pos hp, if_neg hkey, if_neg hcurrency, if_neg hbuyback]

theorem checkFits_inBag {r : Request} {bag : Item} {bagProto : ItemTemplate} (hp : p.1 ≠ INVENTORY_SLOT_BAG_0)
    (hbag : W.getBagByPos p.1 = some bag) (hproto : R.getItemTemplate bag.entry = some bagProto)
    (hslot : p.2 < bagProto.containerSlots.val) :
    W.checkFits R r p = .ok ↔ itemCanGoIntoBag r.proto bagProto = true := by
  rw [checkFits, if_neg hp, hbag]
  grind

end Inventory

open Inventory

/-! ## The exchange -/

/-- **A worn bag and an empty one elsewhere.** `F` is in a bag position, and `E` lies in the backpack or
in another bag; `E` is empty, has room for the items of `F` and takes each of them, and all checks of
equipping and unequipping answer OK. -/
structure ExchangeSetting (R : SwapRules) (s : Storage) (f e : Position) (F E : Item) : Prop where
  bagPos : isBagPos f = true
  atF : s.inventory.getItemAt f = some F
  bagF : F.isBag = true
  stackF : ∃ proto, IsStack R.toRules F proto
  lies : e.1 = INVENTORY_SLOT_BAG_0 ∧ INVENTORY_SLOT_ITEM_START ≤ e.2 ∧ e.2 < INVENTORY_SLOT_ITEM_END ∨
    isBagSlot e.1 = true ∧ e.1 ≠ f.2
  atE : s.inventory.getItemAt e = some E
  bagE : E.isBag = true
  stackE : ∃ proto, IsStack R.toRules E proto
  emptyE : E.isEmpty = true
  room : F.contents.length ≤ E.getBagSize
  fits : Storage.itemsGoInto R F E = true
  /-- The bag that `E` lies in is another one than `F`, and of the size its template says. -/
  holder : ∀ bag, s.inventory.getBagByPos e.1 = some bag → F.guid ≠ bag.guid ∧
    ∃ bagProto, R.getItemTemplate bag.entry = some bagProto ∧ bagProto.containerSlots.val = bag.getBagSize
  unequip : R.canUnequipItem s.inventory f true = .ok
  equip : isEquipmentPos f = true → R.canEquipItem s.inventory f.2 E true = (.ok, f)
  bank : isBankPos f = true → f.2 - BANK_SLOT_BAG_START < R.bankBagSlotCount ∧ R.canUseItem E = .ok
  offhand : ∀ W, R.offhandMustGo W = false

/-- **The two have changed places**: `E` holds what `F` held, in its order, and `F` is empty. -/
structure Exchanged (W : Inventory) (f e : Position) (F E : Item) : Prop where
  worn : ∃ E', W.getItemAt f = some E' ∧ E'.toItemInfo = E.toItemInfo ∧
    ∀ i, E'.getItemByPos i = F.contents[i]?
  laid : ∃ F', W.getItemAt e = some F' ∧ F'.toItemInfo = F.toItemInfo ∧ F'.isEmpty = true

/-- **When two bags can change places**: the worn one is empty, and may go where the other one is. -/
structure Exchangeable (R : SwapRules) (W : Inventory) (f e : Position) (F E : Item) : Prop where
  alive : R.isAlive = true
  empty : F.isEmpty = true
  stored : isBankPos e = false → MayBeStored R.toRules W F
  banked : isBankPos e = true → MayBeBanked R.toRules W F
  taken : ∀ bag proto bagProto, W.getBagByPos e.1 = some bag → R.getItemTemplate F.entry = some proto →
    R.getItemTemplate bag.entry = some bagProto → itemCanGoIntoBag proto bagProto = true
  back : isBankPos f = true → MayBeBanked R.toRules W E

namespace ExchangeSetting

variable {R : SwapRules} {s : Storage} {f e : Position} {F E : Item} {slot : Nat}

theorem isNotEmptyBag_iff {item : Item} (hbag : item.isBag = true) :
    item.isNotEmptyBag = false ↔ item.isEmpty = true := by
  rw [Item.isNotEmptyBag, hbag, Bool.true_and, Bool.not_eq_false']

theorem isPlace_e (h : ExchangeSetting R s f e F E) : s.inventory.IsPlace e := by
  apply isPlace_of_some
  rw [getItemByPos_eq_getItemAt, h.atE, Option.map_some]

theorem slot_f (h : ExchangeSetting R s f e F E) :
    f.1 = 255 ∧ (19 ≤ f.2 ∧ f.2 < 23 ∨ 67 ≤ f.2 ∧ f.2 < 74) := isBagPos_iff.mp h.bagPos

theorem slot_e (h : ExchangeSetting R s f e F E) :
    e.1 = 255 ∧ 23 ≤ e.2 ∧ e.2 < 39 ∨
      (19 ≤ e.1 ∧ e.1 < 23 ∨ 67 ≤ e.1 ∧ e.1 < 74) ∧ e.1 ≠ f.2 ∧ e.2 < 37 := by
  rcases h.lies with hmain | ⟨hbag, hne⟩
  · exact Or.inl hmain
  · have hplace := h.isPlace_e
    have hinside : ∃ b, _ ∧ e.2 < _ := (isPlace_inBag (isBagSlot_ne hbag)).mp hplace
    obtain ⟨b, hb, hs⟩ := hinside
    exact Or.inr ⟨isBagSlot_iff.mp hbag, hne, Nat.lt_succ_of_le (hs.le.trans b.getBagSize_le)⟩

theorem not_isBagPos_e (h : ExchangeSetting R s f e F E) : isBagPos e = false := by
  apply eq_false_of_ne_true
  rw [isBagPos_iff]
  have := h.slot_e
  omega

theorem isAsked_e (h : ExchangeSetting R s f e F E) : IsAsked e := by
  have := h.slot_e
  constructor
  · show e.1 ≠ 0
    omega
  · show e.2 ≠ 255
    omega

theorem isAsked_f (h : ExchangeSetting R s f e F E) : IsAsked f := by
  have := h.slot_f
  constructor
  · show f.1 ≠ 0
    omega
  · show f.2 ≠ 255
    omega

theorem beside (h : ExchangeSetting R s f e F E) : Beside f e := by
  have hf := h.slot_f
  have he := h.slot_e
  refine ⟨?_, ?_, ?_⟩
  · rintro rfl
    omega
  · rintro ⟨hb, heq⟩
    have hslot : f.2 = e.1 := congrArg Prod.snd heq
    have hb : e.1 ≠ 255 := hb
    omega
  · rintro ⟨hb, -⟩
    exact hb hf.1

theorem checkFits_e (h : ExchangeSetting R s f e F E) {proto : ItemTemplate}
    (hproto : R.getItemTemplate F.entry = some proto) :
    s.inventory.checkFits R.toRules { entry := F.entry, proto, pSrcItem := some F } e = .ok ↔
      ∀ bag proto bagProto, s.inventory.getBagByPos e.1 = some bag →
        R.getItemTemplate F.entry = some proto → R.getItemTemplate bag.entry = some bagProto →
          itemCanGoIntoBag proto bagProto = true := by
  rcases h.lies with ⟨hmain, hfirst, hlast⟩ | ⟨hbag, -⟩
  · apply iff_of_true
    · exact checkFits_main hmain (hlast.trans (by decide))
    · intro bag _ _ hb
      rw [hmain] at hb
      cases hb
  · have hne := isBagSlot_ne hbag
    have hinside : ∃ b, _ ∧ e.2 < _ := (isPlace_inBag hne).mp h.isPlace_e
    obtain ⟨bag, hb, hs⟩ := hinside
    obtain ⟨-, bagProto, hbagProto, hsize⟩ := h.holder bag hb
    rw [checkFits_inBag hne hb hbagProto (hsize ▸ hs)]
    grind

/-- **The worn bag's way**: open when it is empty and may be stored there. -/
theorem canSwapTo_e (h : ExchangeSetting R s f e F E) (hslot : slot < CURRENCYTOKEN_SLOT_START) :
    ((s.canSwapTo R e F slot).1 = .ok ↔ F.isEmpty = true ∧
        (isBankPos e = false → MayBeStored R.toRules s.inventory F) ∧
        (isBankPos e = true → MayBeBanked R.toRules s.inventory F) ∧
        ∀ bag proto bagProto, s.inventory.getBagByPos e.1 = some bag →
          R.getItemTemplate F.entry = some proto → R.getItemTemplate bag.entry = some bagProto →
            itemCanGoIntoBag proto bagProto = true) ∧
      ((s.canSwapTo R e F slot).1 = .ok →
        (s.canSwapTo R e F slot).2 = .stored [(e, F.count)]) := by
  obtain ⟨proto, hstack⟩ := h.stackF
  have he := h.slot_e
  rw [← h.checkFits_e hstack.template, ← isNotEmptyBag_iff h.bagF]
  have hpos : F.isNotEmptyBag = true → isBagPos e = false := fun _ => h.not_isBagPos_e
  cases hbank : isBankPos e with
  | false =>
    have hinventory : isInventoryPos e = true := by
      rw [isInventoryPos_iff]
      have hno := Bool.eq_false_iff.mp hbank
      rw [ne_eq, isBankPos_iff] at hno
      omega
    obtain ⟨hiff, hdest⟩ := canStoreItem_swap (W := s.inventory) h.isAsked_e hstack hpos
    have hmove : s.canSwapTo R e F slot =
        ((s.inventory.canStoreItem R.toRules e.1 e.2 [] F.entry F.count (some F) true).1,
          .stored (s.inventory.canStoreItem R.toRules e.1 e.2 [] F.entry F.count (some F) true).2) := by
      rw [Storage.canSwapTo, Storage.canMoveTo, if_pos hinventory]
    grind
  | true =>
    have hinventory : ¬isInventoryPos e = true := by
      rw [isInventoryPos_iff]
      have := isBankPos_iff.mp hbank
      omega
    have hslots : ¬(67 ≤ e.2 ∧ e.2 < 74) := by omega
    obtain ⟨hiff, hdest⟩ := canBankItem_swap (W := s.inventory) h.isAsked_e hstack hslot hpos
      fun hfirst hlast => absurd ⟨hfirst, hlast⟩ hslots
    have hmove : s.canSwapTo R e F slot =
        ((s.inventory.canBankItem R.toRules e.1 e.2 F slot true).1,
          .stored (s.inventory.canBankItem R.toRules e.1 e.2 F slot true).2) := by
      rw [Storage.canSwapTo, Storage.canMoveTo, if_neg hinventory, if_pos hbank]
    grind

/-- **The empty bag's way**: open when it may be banked, where the worn one is in the bank. -/
theorem canSwapTo_f (h : ExchangeSetting R s f e F E) (hslot : slot < CURRENCYTOKEN_SLOT_START) :
    ((s.canSwapTo R f E slot).1 = .ok ↔
        (isBankPos f = true → MayBeBanked R.toRules s.inventory E)) ∧
      ((s.canSwapTo R f E slot).1 = .ok →
        (s.canSwapTo R f E slot).2 = .stored [(f, E.count)] ∨
          (s.canSwapTo R f E slot).2 = .equipped f) := by
  obtain ⟨proto, hstack⟩ := h.stackE
  have hf := h.slot_f
  have hinventory : ¬isInventoryPos f = true := by
    rw [isInventoryPos_iff]
    omega
  have hempty : E.isNotEmptyBag = false := (isNotEmptyBag_iff h.bagE).mpr h.emptyE
  cases hbank : isBankPos f with
  | true =>
    obtain ⟨hbought, huse⟩ := h.bank hbank
    obtain ⟨hiff, hdest⟩ := canBankItem_swap (W := s.inventory) h.isAsked_f hstack hslot
      (fun hfull => Bool.noConfusion (hempty.symm.trans hfull)) fun _ _ => ⟨h.bagE, hbought, huse⟩
    have hmove : s.canSwapTo R f E slot =
        ((s.inventory.canBankItem R.toRules f.1 f.2 E slot true).1,
          .stored (s.inventory.canBankItem R.toRules f.1 f.2 E slot true).2) := by
      rw [Storage.canSwapTo, Storage.canMoveTo, if_neg hinventory, if_pos hbank]
    rw [hmove]
    constructor
    · rw [hiff]
      constructor
      · rintro ⟨-, hmay, -⟩ _
        exact hmay
      · intro hmay
        exact ⟨hempty, hmay rfl, checkFits_main hf.1 (by omega)⟩
    · intro hok
      left
      dsimp only
      rw [hdest hok]
  | false =>
    have hequip : isEquipmentPos f = true := by
      rw [isEquipmentPos_iff]
      have hno := Bool.eq_false_iff.mp hbank
      rw [ne_eq, isBankPos_iff] at hno
      omega
    have hmove : s.canSwapTo R f E slot = (.ok, .equipped f) := by
      rw [Storage.canSwapTo, Storage.canMoveTo, if_neg hinventory, if_neg (Bool.eq_false_iff.mp hbank),
        if_pos hequip]
      dsimp only
      rw [h.equip hequip]
      dsimp only
      rw [if_pos rfl, h.unequip]
    rw [hmove]
    exact ⟨iff_of_true rfl fun hno => Bool.noConfusion hno, fun _ => Or.inr rfl⟩

/-! ### The swap -/

theorem getItemByPos_of_isEmpty {bag : Item} (hempty : bag.isEmpty = true) (i : Nat) :
    bag.getItemByPos i = none := by
  unfold Item.getItemByPos
  split
  · next hi =>
    have hnone := List.all_eq_true.mp hempty i (List.mem_range.mpr hi)
    exact Option.isNone_iff_eq_none.mp hnone
  · rfl

theorem contents_of_isEmpty {bag : Item} (hempty : bag.isEmpty = true) : bag.contents = [] := by
  rw [Item.contents, List.filterMap_eq_nil_iff]
  intro i _
  exact getItemByPos_of_isEmpty hempty i

theorem exchangeItems_empty {fullBag emptyBag : Item} (hempty : fullBag.isEmpty = true) (todo : List Nat)
    (count : Nat) : Storage.exchangeItems todo count (fullBag, emptyBag) = (fullBag, emptyBag) := by
  induction todo with
  | nil => rfl
  | cons i todo ih =>
    rw [Storage.exchangeItems]
    simp only [getItemByPos_of_isEmpty hempty]
    exact ih

theorem exchangeBags_empty (h : ExchangeSetting R s f e F E) (hempty : F.isEmpty = true) :
    Storage.exchangeBags R F E = .ok (F, E) := by
  have hgo : ¬(!Storage.itemsGoInto R F E) = true := by
    rw [h.fits]
    exact Bool.false_ne_true
  have hcount : (List.range F.getBagSize).countP (fun i => (F.getItemByPos i).isSome) = 0 := by
    rw [List.countP_eq_zero]
    intro i _
    rw [getItemByPos_of_isEmpty hempty]
    exact Bool.false_ne_true
  rw [Storage.exchangeBags, if_neg hgo, hcount, if_neg (Nat.not_lt_zero _), exchangeItems_empty hempty]

theorem isLootingInside_empty {bag : Item} (hempty : bag.isEmpty = true) :
    Storage.isLootingInside R bag = false := by
  rw [Storage.isLootingInside, List.any_eq_false]
  intro i _
  rw [getItemByPos_of_isEmpty hempty]
  exact Bool.false_ne_true

theorem autoUnequipOffhandIfNeed_eq (hoffhand : ∀ W, R.offhandMustGo W = false) (s : Storage) :
    s.autoUnequipOffhandIfNeed R = s := by
  rw [Storage.autoUnequipOffhandIfNeed]
  split
  · rfl
  · rw [hoffhand, if_neg Bool.false_ne_true]

theorem realSwap_eq {src dst : Position} {a b : Item}
    (hthere : (s.canSwapTo R dst a src.2).1 = .ok) (hback : (s.canSwapTo R src b dst.2).1 = .ok)
    (hexchanged : Storage.exchanged R src dst a b = .ok (a, b)) (ha : a.isEmpty = true)
    (hb : b.isEmpty = true) (hoffhand : ∀ W, R.offhandMustGo W = false) :
    s.realSwap R src dst a b = .ok
      ((((s.removeItem dst).removeItem src).moveTo R (s.canSwapTo R dst a src.2).2 a).moveTo R
        (s.canSwapTo R src b dst.2).2 b) := by
  have hlooting : ¬(isBagPos src && Storage.isLootingInside R a ||
      isBagPos dst && Storage.isLootingInside R b) = true := by
    rw [isLootingInside_empty ha, isLootingInside_empty hb, Bool.and_false, Bool.and_false]
    exact Bool.false_ne_true
  rw [Storage.realSwap]
  dsimp only
  rw [if_neg (not_not.mpr hthere), if_neg (not_not.mpr hback), hexchanged]
  dsimp only
  rw [if_neg hlooting, autoUnequipOffhandIfNeed_eq hoffhand]

theorem realSwap_ways {src dst : Position} {a b : Item} {s' : Storage}
    (hswap : s.realSwap R src dst a b = .ok s') :
    (s.canSwapTo R dst a src.2).1 = .ok ∧ (s.canSwapTo R src b dst.2).1 = .ok := by
  grind [Storage.realSwap]

theorem checkUnequip_f (h : ExchangeSetting R s f e F E) : s.checkUnequip R f e (some E) = .ok := by
  rw [Storage.checkUnequip, h.bagPos, Bool.or_true, if_pos rfl, Option.any_some, h.bagE, h.emptyE,
    Bool.and_self, Bool.or_true]
  exact h.unequip

theorem checkUnequip_e (h : ExchangeSetting R s f e F E) : s.checkUnequip R e f (some F) = .ok := by
  have hequip : isEquipmentPos e = false := by
    apply eq_false_of_ne_true
    have he := h.slot_e
    rw [isEquipmentPos_iff]
    omega
  rw [Storage.checkUnequip, h.not_isBagPos_e, hequip, if_neg (by decide)]

/-- The checks of `SwapItem` before the swap let the two bags pass, when the player is alive. -/
theorem swapItem_f (h : ExchangeSetting R s f e F E) (halive : R.isAlive = true) :
    s.swapItem R f e = s.realSwap R f e F E := by
  have hf := h.slot_f
  have he := h.slot_e
  have hself : ¬(isBagPos f && decide (f.2 = e.1)) = true := by
    rw [Bool.and_eq_true, decide_eq_true_eq]
    omega
  have hinside : ¬(isBagPos e && decide (f.1 = e.2)) = true := by
    rw [h.not_isBagPos_e, Bool.false_and]
    exact Bool.false_ne_true
  rw [Storage.swapItem, h.atF]
  dsimp only
  rw [h.atE, halive, if_neg (by decide), if_neg (not_not.mpr h.checkUnequip_f), if_neg hself,
    if_neg hinside]
  dsimp only
  rw [if_neg (not_not.mpr h.checkUnequip_e), h.bagF, Bool.not_true, Bool.false_and,
    if_neg Bool.false_ne_true]

theorem swapItem_e (h : ExchangeSetting R s f e F E) (halive : R.isAlive = true) :
    s.swapItem R e f = s.realSwap R e f E F := by
  have hf := h.slot_f
  have he := h.slot_e
  have hself : ¬(isBagPos e && decide (e.2 = f.1)) = true := by
    rw [h.not_isBagPos_e, Bool.false_and]
    exact Bool.false_ne_true
  have hinside : ¬(isBagPos f && decide (e.1 = f.2)) = true := by
    rw [Bool.and_eq_true, decide_eq_true_eq]
    omega
  rw [Storage.swapItem, h.atE]
  dsimp only
  rw [h.atF, halive, if_neg (by decide), if_neg (not_not.mpr h.checkUnequip_e), if_neg hself,
    if_neg hinside]
  dsimp only
  rw [if_neg (not_not.mpr h.checkUnequip_f), h.bagE, Bool.not_true, Bool.false_and,
    if_neg Bool.false_ne_true]

/-! ### After the swap -/

theorem moveTo_eq_put {p : Position} {item : Item} {dest : Destination}
    (hp : s.inventory.getItemByPos p = none)
    (hdest : dest = .stored [(p, item.count)] ∨ dest = .equipped p ∧ p.1 = INVENTORY_SLOT_BAG_0) :
    s.moveTo R dest item = s.put p item := by
  rcases hdest with rfl | ⟨rfl, hmain⟩
  · show s.storeAt R.toRules p item item.count false = s.put p item
    rw [Storage.storeAt, hp]
    rfl
  · show s.equipItem p item = s.put p item
    rw [Storage.equipItem, hp, Storage.put, put, if_pos hmain]

theorem f_ne (h : ExchangeSetting R s f e F E) (hne : e.1 ≠ INVENTORY_SLOT_BAG_0) :
    f ≠ (INVENTORY_SLOT_BAG_0, e.1) := by
  intro heq
  have hf2 : f.2 = e.1 := congrArg Prod.snd heq
  have he := h.slot_e
  have hne : e.1 ≠ 255 := hne
  omega

theorem e_ne (hne : e.1 ≠ INVENTORY_SLOT_BAG_0) : e ≠ (INVENTORY_SLOT_BAG_0, e.1) :=
  fun heq => hne (congrArg Prod.fst heq)

theorem main_f (h : ExchangeSetting R s f e F E) : f.1 = INVENTORY_SLOT_BAG_0 := h.slot_f.1

theorem isPlace_f (h : ExchangeSetting R s f e F E) (W : Inventory) : W.IsPlace f := by
  have hf := h.slot_f
  rw [IsPlace, if_pos h.main_f, isItemSlot_iff]
  omega

theorem accepts_f (h : ExchangeSetting R s f e F E) (W : Inventory) (guid : Nat) : W.Accepts f guid :=
  fun hno => absurd h.main_f hno

theorem accepts_e (h : ExchangeSetting R s f e F E) : s.inventory.Accepts e F.guid := by
  intro hne shape hshape
  obtain ⟨bag, hbag, rfl⟩ := Option.map_eq_some_iff.mp hshape
  exact (h.holder bag hbag).1

/-- **What is found once each bag lies where the other was**, whichever was put down first. -/
theorem exchanged_of_put (h : ExchangeSetting R s f e F E) (hempty : F.isEmpty = true) {W : Inventory}
    (hf : W.getItemAt f = some E)
    (he : W.getItemAt e = some (if e.1 = INVENTORY_SLOT_BAG_0 then F
      else { toItemInfo := F.toItemInfo })) : Exchanged W f e F E := by
  constructor
  · refine ⟨E, hf, rfl, ?_⟩
    intro i
    rw [contents_of_isEmpty hempty, List.getElem?_nil, getItemByPos_of_isEmpty h.emptyE]
  · refine ⟨_, he, ?_, ?_⟩
    · split <;> rfl
    · split
      · exact hempty
      · rw [Item.isEmpty, List.all_eq_true]
        intro i _
        rfl

theorem exchanged_f (h : ExchangeSetting R s f e F E) (hempty : F.isEmpty = true) :
    Exchanged ((((s.removeItem e).removeItem f).put e F).put f E).inventory f e F E := by
  have hshape : e.1 ≠ INVENTORY_SLOT_BAG_0 →
      ((s.inventory.removeItem e).removeItem f).bagShape e.1 = s.inventory.bagShape e.1 := by
    intro hne
    rw [bagShape_removeItem (h.f_ne hne), bagShape_removeItem (e_ne hne)]
  apply h.exchanged_of_put hempty
  · exact (getItemAt_put_self (h.isPlace_f _) (h.accepts_f _ _)).trans (by rw [if_pos h.main_f])
  · refine (getItemAt_put_ne (h.isPlace_f _) h.beside).trans ?_
    exact getItemAt_put_self (h.isPlace_e.congr hshape) (h.accepts_e.congr hshape)

theorem exchanged_e (h : ExchangeSetting R s f e F E) (hempty : F.isEmpty = true) :
    Exchanged ((((s.removeItem f).removeItem e).put f E).put e F).inventory f e F E := by
  have hshape : e.1 ≠ INVENTORY_SLOT_BAG_0 →
      (((s.inventory.removeItem f).removeItem e).put f E).bagShape e.1 =
        s.inventory.bagShape e.1 := by
    intro hne
    rw [bagShape_put (h.f_ne hne) (h.isPlace_f _), bagShape_removeItem (e_ne hne),
      bagShape_removeItem (h.f_ne hne)]
  have hplace : (((s.inventory.removeItem f).removeItem e).put f E).IsPlace e :=
    h.isPlace_e.congr hshape
  apply h.exchanged_of_put hempty
  · refine (getItemAt_put_ne hplace h.beside.symm).trans ?_
    exact (getItemAt_put_self (h.isPlace_f _) (h.accepts_f _ _)).trans (by rw [if_pos h.main_f])
  · exact getItemAt_put_self hplace (h.accepts_e.congr hshape)

theorem empty_places (h : ExchangeSetting R s f e F E) :
    ((s.inventory.removeItem e).removeItem f).getItemByPos e = none ∧
      ((s.inventory.removeItem f).removeItem e).getItemByPos f = none := by
  constructor
  · rw [getItemByPos_eq_getItemAt, getItemAt_removeItem_ne h.beside, ← getItemByPos_eq_getItemAt]
    exact getItemByPos_removeItem_self
  · rw [getItemByPos_eq_getItemAt, getItemAt_removeItem_ne h.beside.symm, ← getItemByPos_eq_getItemAt]
    exact getItemByPos_removeItem_self

/-- **The swap from the bag position**, when both ways are open. -/
theorem realSwap_f (h : ExchangeSetting R s f e F E) (hempty : F.isEmpty = true)
    (hthere : (s.canSwapTo R e F f.2).1 = .ok) (hback : (s.canSwapTo R f E e.2).1 = .ok) :
    ∃ s', s.realSwap R f e F E = .ok s' ∧ Exchanged s'.inventory f e F E := by
  have hf := h.slot_f
  have he := h.slot_e
  have hfslot : f.2 < CURRENCYTOKEN_SLOT_START := (by omega : f.2 < 118)
  have heslot : e.2 < CURRENCYTOKEN_SLOT_START := (by omega : e.2 < 118)
  have hexchanged : Storage.exchanged R f e F E = .ok (F, E) := by
    simp only [Storage.exchanged, h.bagF, h.bagE, h.bagPos, hempty, h.emptyE, h.not_isBagPos_e,
      h.exchangeBags_empty hempty, Bool.and_self, Bool.not_true, Bool.not_false, Bool.and_false, reduceIte,
      Bool.false_eq_true]
  have hthere' := (h.canSwapTo_e hfslot).2 hthere
  have hback' := (h.canSwapTo_f heslot).2 hback
  refine ⟨_, realSwap_eq hthere hback hexchanged hempty h.emptyE h.offhand, ?_⟩
  rw [moveTo_eq_put h.empty_places.1 (Or.inl hthere'), moveTo_eq_put ?_ (hback'.imp_right (⟨·, h.main_f⟩))]
  · exact h.exchanged_f hempty
  · -- laying the worn bag down leaves its position empty
    have hplace : ((s.inventory.removeItem e).removeItem f).IsPlace e := by
      apply h.isPlace_e.congr
      intro hne
      rw [bagShape_removeItem (h.f_ne hne), bagShape_removeItem (e_ne hne)]
    show (((s.inventory.removeItem e).removeItem f).put e F).getItemByPos f = none
    rw [getItemByPos_put_ne hplace h.beside.symm.1 h.beside.symm.2.1]
    exact getItemByPos_removeItem_self

/-- **The swap to the bag position.** -/
theorem realSwap_e (h : ExchangeSetting R s f e F E) (hempty : F.isEmpty = true)
    (hthere : (s.canSwapTo R f E e.2).1 = .ok) (hback : (s.canSwapTo R e F f.2).1 = .ok) :
    ∃ s', s.realSwap R e f E F = .ok s' ∧ Exchanged s'.inventory f e F E := by
  have hf := h.slot_f
  have he := h.slot_e
  have hfslot : f.2 < CURRENCYTOKEN_SLOT_START := (by omega : f.2 < 118)
  have heslot : e.2 < CURRENCYTOKEN_SLOT_START := (by omega : e.2 < 118)
  have hexchanged : Storage.exchanged R e f E F = .ok (E, F) := by
    simp only [Storage.exchanged, h.bagF, h.bagE, h.emptyE, h.not_isBagPos_e,
      h.exchangeBags_empty hempty, Bool.and_self, Bool.not_false, reduceIte]
  have hthere' := (h.canSwapTo_f heslot).2 hthere
  have hback' := (h.canSwapTo_e hfslot).2 hback
  refine ⟨_, realSwap_eq hthere hback hexchanged h.emptyE hempty h.offhand, ?_⟩
  rw [moveTo_eq_put h.empty_places.2 (hthere'.imp_right (⟨·, h.main_f⟩)), moveTo_eq_put ?_ (Or.inl hback')]
  · exact h.exchanged_e hempty
  · show (((s.inventory.removeItem f).removeItem e).put f E).getItemByPos e = none
    rw [getItemByPos_put_ne (h.isPlace_f _) h.beside.1 h.beside.2.1]
    exact getItemByPos_removeItem_self

theorem isAlive_of_swapItem {src dst : Position} {item : Item} {s' : Storage}
    (hsrc : s.inventory.getItemAt src = some item) (hswap : s.swapItem R src dst = .ok s') :
    R.isAlive = true := by
  grind [Storage.swapItem]

end ExchangeSetting

variable {R : SwapRules} {s : Storage} {f e src dst : Position} {F E : Item}

/-- **When the exchange of bags works.** Whichever of the two positions is the source: the worn bag and
the empty one change places, with what the worn one holds in the other, exactly when the worn one holds
nothing and no check of storing it, or of banking the other, is against it. -/
theorem Storage.swapItem_exchanges_iff (h : ExchangeSetting R s f e F E)
    (hpos : src = f ∧ dst = e ∨ src = e ∧ dst = f) :
    (∃ s', s.swapItem R src dst = .ok s' ∧ Exchanged s'.inventory f e F E) ↔
      Exchangeable R s.inventory f e F E := by
  have hf := h.slot_f
  have he := h.slot_e
  have hfslot : f.2 < CURRENCYTOKEN_SLOT_START := (by omega : f.2 < 118)
  have heslot : e.2 < CURRENCYTOKEN_SLOT_START := (by omega : e.2 < 118)
  have hways : R.isAlive = true → ((s.canSwapTo R e F f.2).1 = .ok ∧ (s.canSwapTo R f E e.2).1 = .ok ↔
      Exchangeable R s.inventory f e F E) := by
    intro halive
    rw [(h.canSwapTo_e hfslot).1, (h.canSwapTo_f heslot).1]
    constructor
    · rintro ⟨⟨hempty, hstored, hbanked, htaken⟩, hback⟩
      exact ⟨halive, hempty, hstored, hbanked, htaken, hback⟩
    · intro hx
      exact ⟨⟨hx.empty, hx.stored, hx.banked, hx.taken⟩, hx.back⟩
  constructor
  · rintro ⟨s', hswap, -⟩
    rcases hpos with ⟨rfl, rfl⟩ | ⟨rfl, rfl⟩
    · have halive := ExchangeSetting.isAlive_of_swapItem h.atF hswap
      rw [h.swapItem_f halive] at hswap
      exact (hways halive).mp (ExchangeSetting.realSwap_ways hswap)
    · have halive := ExchangeSetting.isAlive_of_swapItem h.atE hswap
      rw [h.swapItem_e halive] at hswap
      exact (hways halive).mp (ExchangeSetting.realSwap_ways hswap).symm
  · intro hx
    obtain ⟨hway, hway'⟩ := (hways hx.alive).mpr hx
    rcases hpos with ⟨rfl, rfl⟩ | ⟨rfl, rfl⟩
    · rw [h.swapItem_f hx.alive]
      exact h.realSwap_f hx.empty hway hway'
    · rw [h.swapItem_e hx.alive]
      exact h.realSwap_e hx.empty hway' hway

/-! ### A worn bag, and an empty one in the backpack -/

theorem sixteen_slots : 16 < MAX_BAG_SIZE + 1 := by decide

def sixteen : Fin (MAX_BAG_SIZE + 1) := ⟨16, sixteen_slots⟩

def bagRules : SwapRules where
  getItemTemplate entry :=
    if entry = 1 then some { itemClass := ITEM_CLASS_CONTAINER, containerSlots := sixteen, isBag := true }
    else if entry = 2 then some { stackable := Int32.ofNat 20, containerSlots := ⟨0, Nat.succ_pos MAX_BAG_SIZE⟩ }
    else none
  canEquipItem _ slot _ _ := (.ok, (INVENTORY_SLOT_BAG_0, slot))
  canUnequipItem _ _ _ := .ok

/-- A bag that holds nothing, or 5 pieces of cloth. -/
def wornBag (packed : Bool) : Item where
  entry := 1
  count := 1
  guid := 1
  bagSize := some sixteen
  m_bagslot i := if packed && i == 0 then some { entry := 2, count := 5, guid := 3 } else none

def laidBag : Item := { entry := 1, count := 1, guid := 2, bagSize := some sixteen }

def twoBags (packed : Bool) : Storage where
  inventory.m_items slot :=
    if slot = 19 then some (wornBag packed) else if slot = 23 then some laidBag else none
  nextGuid := 4

theorem twoBags_setting (packed : Bool) :
    ExchangeSetting bagRules (twoBags packed) (255, 19) (255, 23) (wornBag packed) laidBag where
  bagPos := by decide
  atF := rfl
  bagF := rfl
  stackF := ⟨_, rfl, by cases packed <;> decide, by cases packed <;> decide⟩
  lies := by decide
  atE := rfl
  bagE := rfl
  stackE := ⟨_, rfl, by decide, by decide⟩
  emptyE := by decide
  room := by cases packed <;> decide
  fits := by cases packed <;> decide
  holder bag hbag := by
    have hnone : (twoBags packed).inventory.getBagByPos 255 = none := rfl
    rw [hnone] at hbag
    cases hbag
  unequip := rfl
  equip _ := rfl
  bank hbank := by cases hbank
  offhand _ := rfl

theorem Storage.empty_exchanges :
    (∃ s', (twoBags false).swapItem bagRules (255, 19) (255, 23) = .ok s' ∧
        Exchanged s'.inventory (255, 19) (255, 23) (wornBag false) laidBag) ↔
      Exchangeable bagRules (twoBags false).inventory (255, 19) (255, 23) (wornBag false) laidBag :=
  Storage.swapItem_exchanges_iff (twoBags_setting false) (Or.inl ⟨rfl, rfl⟩)

/-- With cloth in the worn bag both swaps are refused. -/
theorem Storage.packed_stays :
    ExchangeSetting bagRules (twoBags true) (255, 19) (255, 23) (wornBag true) laidBag ∧
      (¬∃ s', (twoBags true).swapItem bagRules (255, 19) (255, 23) = .ok s' ∧
        Exchanged s'.inventory (255, 19) (255, 23) (wornBag true) laidBag) ∧
      ¬∃ s', (twoBags true).swapItem bagRules (255, 23) (255, 19) = .ok s' ∧
        Exchanged s'.inventory (255, 19) (255, 23) (wornBag true) laidBag := by
  refine ⟨twoBags_setting true, ?_, ?_⟩
  · rintro ⟨s', hswap, -⟩
    have herror : (twoBags true).swapItem bagRules (255, 19) (255, 23) = .error .destroyNonemptyBag := rfl
    rw [herror] at hswap
    cases hswap
  · rintro ⟨s', hswap, -⟩
    have herror : (twoBags true).swapItem bagRules (255, 23) (255, 19) = .error .destroyNonemptyBag := rfl
    rw [herror] at hswap
    cases hswap

end EGServer.Items
