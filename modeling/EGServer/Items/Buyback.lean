import EGServer.Items.Inventory
import EGServer.Lib.FirstBest
import EGServer.Lib.GuardedRun
import EGServer.Lib.Slots
import Mathlib.Order.OrderDual
import Mathlib.Order.Basic

/-!
# The buyback slots

What a player has sold and can still buy back: twelve slots of `m_items`, with a guid, a price and
a timestamp field each. A new item goes to the current slot, or, when that is taken, to the first
free one, or else in the place of the oldest. Timestamps count seconds, and of several that were sold
in the same second the one in the lowest slot is taken for the oldest.

The slots are compared with a list that keeps the sales in their order. Sending the fields to the
client and deleting stored loot are not modelled.
-/

namespace EGServer.Items

/-- The raw value of an item's `ObjectGuid`. -/
abbrev ObjectGuid := UInt64

/-- An item as a vendor takes it. -/
structure SoldItem where
  guid : ObjectGuid
  /-- `GetSellPrice(true)` -/
  sellPrice : UInt32
  count : UInt32
  deriving DecidableEq

structure BuybackSlots where
  m_items : Nat → Option SoldItem := fun _ => none
  /-- `PLAYER_FIELD_VENDORBUYBACK_SLOT_1`, and the two fields after it, by `eslot`. -/
  vendorBuyback : Nat → ObjectGuid := fun _ => 0
  buybackPrice : Nat → UInt32 := fun _ => 0
  buybackTimestamp : Nat → UInt32 := fun _ => 0
  m_currentBuybackSlot : Nat := BUYBACK_SLOT_START
  /-- The items that got the state `ITEM_REMOVED`. -/
  removed : List SoldItem := []

namespace BuybackSlots

def removeItemFromBuyBackSlot (s : BuybackSlots) (slot : Nat) (del : Bool) : BuybackSlots :=
  if BUYBACK_SLOT_START ≤ slot ∧ slot < BUYBACK_SLOT_END then
    let eslot := slot - BUYBACK_SLOT_START
    let m_items := Function.update s.m_items slot none
    { m_items
      removed := if del then (s.m_items slot).toList ++ s.removed else s.removed
      vendorBuyback := Function.update s.vendorBuyback eslot 0
      buybackPrice := Function.update s.buybackPrice eslot 0
      buybackTimestamp := Function.update s.buybackTimestamp eslot 0
      -- if current backslot is filled set to now free slot
      m_currentBuybackSlot :=
        if (m_items s.m_currentBuybackSlot).isSome then slot else s.m_currentBuybackSlot }
  else s

/-- The loop for a free slot or the oldest one. -/
def findOldest (s : BuybackSlots) : List Nat → UInt32 → Nat → Nat
  | [], _, oldest_slot => oldest_slot
  | i :: todo, oldest_time, oldest_slot =>
    if (s.m_items i).isNone then i
    else
      let i_time := s.buybackTimestamp (i - BUYBACK_SLOT_START)
      if i_time < oldest_time then findOldest s todo i_time i
      else findOldest s todo oldest_time oldest_slot

/-- "if current back slot non-empty search oldest or free" -/
def slotToFill (s : BuybackSlots) : Nat :=
  if (s.m_items s.m_currentBuybackSlot).isSome then
    s.findOldest (List.range' (BUYBACK_SLOT_START + 1) (BUYBACK_SLOT_END - BUYBACK_SLOT_START - 1))
      (s.buybackTimestamp 0) BUYBACK_SLOT_START
  else s.m_currentBuybackSlot

/-- `time` is the game time since the login. -/
def addItemToBuyBackSlot (s : BuybackSlots) (pItem : Option SoldItem) (time : Nat) : BuybackSlots :=
  match pItem with
  | none => s
  | some pItem =>
    let slot := s.slotToFill
    let s := s.removeItemFromBuyBackSlot slot true
    let eslot := slot - BUYBACK_SLOT_START
    { s with
      m_items := Function.update s.m_items slot (some pItem)
      vendorBuyback := Function.update s.vendorBuyback eslot pItem.guid
      buybackPrice := Function.update s.buybackPrice eslot (pItem.sellPrice * pItem.count)
      buybackTimestamp :=
        Function.update s.buybackTimestamp eslot (UInt32.ofNat (time + 30 * 3600))
      m_currentBuybackSlot :=
        if s.m_currentBuybackSlot < BUYBACK_SLOT_END - 1 then s.m_currentBuybackSlot + 1
        else s.m_currentBuybackSlot }

end BuybackSlots

/-! ## The list of sales -/

structure Sale where
  item : SoldItem
  time : Nat

/-- The latest sale comes last, and the earliest goes when there are too many. -/
def appendSale (sales : List Sale) (sale : Sale) : List Sale :=
  if sales.length < BUYBACK_SLOT_END - BUYBACK_SLOT_START then sales ++ [sale]
  else sales.tail ++ [sale]

def takeSale (sales : List Sale) (guid : ObjectGuid) : List Sale :=
  sales.eraseP fun sale => decide (sale.item.guid = guid)

/-- A player's slots beside the list that they should hold. -/
structure Vending where
  slots : BuybackSlots := {}
  sales : List Sale := []
  now : Nat := 0

inductive VendorOperation where
  | sell (item : SoldItem) (time : Nat)
  | buyBack (slot : Nat)

namespace Vending

open BuybackSlots Slots OrderDual

def buybackSlots : List Nat :=
  List.range' BUYBACK_SLOT_START (BUYBACK_SLOT_END - BUYBACK_SLOT_START)

def exec (w : Vending) : VendorOperation → Vending
  | .sell item time =>
    { slots := w.slots.addItemToBuyBackSlot (some item) time
      sales := appendSale w.sales ⟨item, time⟩
      now := time }
  | .buyBack slot =>
    match w.slots.m_items slot with
    | none => w
    | some item =>
      { w with
        slots := w.slots.removeItemFromBuyBackSlot slot false
        sales := takeSale w.sales item.guid }

/-- Time does not go back, an item that is sold is not in a slot yet, and what is bought back is. -/
def IsPossible (w : Vending) : VendorOperation → Prop
  | .sell item time =>
    w.now ≤ time ∧ ∀ slot ∈ buybackSlots, ∀ held, w.slots.m_items slot = some held →
      held.guid ≠ item.guid
  | .buyBack slot => slot ∈ buybackSlots ∧ (w.slots.m_items slot).isSome = true

def Step (w : Vending) (o : VendorOperation) (w' : Vending) : Prop := w.IsPossible o ∧ w.exec o = w'

variable {w w' : Vending} {s : BuybackSlots} {slot : Nat} {item : SoldItem} {time : Nat}

/-! ## Which slot is filled -/

theorem mem_buybackSlots : slot ∈ buybackSlots ↔ 74 ≤ slot ∧ slot < 86 := by
  show slot ∈ List.range' 74 12 ↔ _
  rw [List.mem_range'_1]

theorem nodup_buybackSlots : buybackSlots.Nodup := List.nodup_range'

/-- The older, the greater. -/
def age (s : BuybackSlots) (slot : Nat) : Natᵒᵈ :=
  toDual (s.buybackTimestamp (slot - BUYBACK_SLOT_START)).toNat

theorem findOldest_cases (s : BuybackSlots) (todo : List Nat) (oldest : Nat) :
    (s.findOldest todo (s.buybackTimestamp (oldest - BUYBACK_SLOT_START)) oldest ∈ todo ∧
        s.m_items (s.findOldest todo (s.buybackTimestamp (oldest - BUYBACK_SLOT_START)) oldest) =
          none) ∨
      ((∀ i ∈ todo, (s.m_items i).isSome = true) ∧
        s.findOldest todo (s.buybackTimestamp (oldest - BUYBACK_SLOT_START)) oldest =
          FirstBest.scan (age s) oldest todo) := by
  induction todo generalizing oldest with
  | nil => exact Or.inr ⟨by simp, rfl⟩
  | cons i todo ih =>
    rw [findOldest]
    cases hi : s.m_items i with
    | none => exact Or.inl ⟨List.mem_cons_self, hi⟩
    | some item =>
      have hscan : FirstBest.scan (age s) oldest (i :: todo) =
          if s.buybackTimestamp (i - BUYBACK_SLOT_START) <
              s.buybackTimestamp (oldest - BUYBACK_SLOT_START) then
            FirstBest.scan (age s) i todo
          else FirstBest.scan (age s) oldest todo := by
        rw [FirstBest.scan]
        simp only [age, toDual_lt_toDual, ← UInt32.lt_iff_toNat_lt]
      grind

/-- The slots are as the sales say. -/
structure Matches (w : Vending) : Prop where
  current : w.slots.m_currentBuybackSlot ∈ buybackSlots
  perm : (held buybackSlots w.slots.m_items).Perm (w.sales.map (·.item))
  nodup : (w.sales.map (·.item.guid)).Nodup
  fields : ∀ slot ∈ buybackSlots, ∀ item, w.slots.m_items slot = some item → ∃ sale ∈ w.sales,
    sale.item = item ∧ w.slots.vendorBuyback (slot - BUYBACK_SLOT_START) = item.guid ∧
      w.slots.buybackPrice (slot - BUYBACK_SLOT_START) = item.sellPrice * item.count ∧
      w.slots.buybackTimestamp (slot - BUYBACK_SLOT_START) = UInt32.ofNat (sale.time + 30 * 3600)
  cleared : ∀ slot ∈ buybackSlots, w.slots.m_items slot = none →
    w.slots.buybackTimestamp (slot - BUYBACK_SLOT_START) = 0
  ordered : w.sales.Pairwise fun sale later => sale.time ≤ later.time
  past : ∀ sale ∈ w.sales, sale.time ≤ w.now
  fits : ∀ sale ∈ w.sales, sale.time + 30 * 3600 < 2 ^ 32

theorem Matches.init : Matches {} where
  current := mem_buybackSlots.mpr (by decide)
  perm := by
    have hnil : held buybackSlots (fun _ => (none : Option SoldItem)) = [] :=
      List.filterMap_eq_nil_iff.mpr fun _ _ => rfl
    show (held buybackSlots fun _ => none).Perm []
    rw [hnil]
  nodup := List.nodup_nil
  fields := by
    intro slot _ item h
    cases h
  cleared := fun _ _ _ => rfl
  ordered := List.Pairwise.nil
  past := by simp
  fits := by simp

theorem Matches.held_nodup (h : w.Matches) : (held buybackSlots w.slots.m_items).Nodup := by
  have hnodup : (w.sales.map (·.item)).Nodup := by
    have hguid : (w.sales.map (·.item)).map (·.guid) = w.sales.map (·.item.guid) := by
      rw [List.map_map]
      rfl
    exact List.Nodup.of_map (f := fun item : SoldItem => item.guid) (hguid ▸ h.nodup)
  exact h.perm.nodup_iff.mpr hnodup

theorem Matches.length (h : w.Matches) :
    (held buybackSlots w.slots.m_items).length = w.sales.length := by
  rw [h.perm.length_eq, List.length_map]

theorem Matches.stamp_pos (h : w.Matches) (hslot : slot ∈ buybackSlots)
    (hitem : w.slots.m_items slot = some item) :
    0 < w.slots.buybackTimestamp (slot - BUYBACK_SLOT_START) := by
  obtain ⟨sale, hsale, -, -, -, hstamp⟩ := h.fields slot hslot item hitem
  have hfits := h.fits sale hsale
  grind [UInt32.toNat_ofNat', UInt32.lt_iff_toNat_lt]

/-- **The slot that is filled** is free, or all are taken and it is the first of the oldest. -/
theorem Matches.slotToFill (h : w.Matches) :
    w.slots.slotToFill ∈ buybackSlots ∧
      (w.slots.m_items w.slots.slotToFill = none ∨
        (∀ slot ∈ buybackSlots, (w.slots.m_items slot).isSome = true) ∧
          FirstBest.IsFirstBest (age w.slots) buybackSlots w.slots.slotToFill) := by
  have hsplit : buybackSlots = BUYBACK_SLOT_START ::
      List.range' (BUYBACK_SLOT_START + 1) (BUYBACK_SLOT_END - BUYBACK_SLOT_START - 1) := rfl
  have hstart : w.slots.buybackTimestamp 0 =
      w.slots.buybackTimestamp (BUYBACK_SLOT_START - BUYBACK_SLOT_START) := rfl
  unfold BuybackSlots.slotToFill
  split
  · rw [hstart]
    rcases findOldest_cases w.slots
      (List.range' (BUYBACK_SLOT_START + 1) (BUYBACK_SLOT_END - BUYBACK_SLOT_START - 1))
      BUYBACK_SLOT_START with ⟨hmem, hfree⟩ | ⟨hall, hscan⟩
    · exact ⟨hsplit ▸ List.mem_cons_of_mem _ hmem, Or.inl hfree⟩
    · have hbest := FirstBest.scan_isFirstBest (age w.slots) BUYBACK_SLOT_START
        (List.range' (BUYBACK_SLOT_START + 1) (BUYBACK_SLOT_END - BUYBACK_SLOT_START - 1))
      rw [← hscan, ← hsplit] at hbest
      refine ⟨hbest.mem, ?_⟩
      cases hfirst : w.slots.m_items BUYBACK_SLOT_START with
      | some item =>
        grind
      | none =>
        -- the first slot is free, and no slot with an item has a timestamp as low
        left
        cases hitem : w.slots.m_items (w.slots.findOldest _ _ _) with
        | none => rfl
        | some item =>
          have hpos := h.stamp_pos hbest.mem hitem
          have hle := hbest.le BUYBACK_SLOT_START (hsplit ▸ List.mem_cons_self)
          rw [age, age, toDual_le_toDual, ← UInt32.le_iff_toNat_le] at hle
          have hlt := UInt32.lt_of_lt_of_le hpos hle
          rw [h.cleared BUYBACK_SLOT_START (mem_buybackSlots.mpr (by decide)) hfirst] at hlt
          exact absurd hlt (UInt32.lt_irrefl _)
  · next hcurrent => exact ⟨h.current, Or.inl (by simpa using hcurrent)⟩

/-! ## What the operations write -/

theorem removeItem_eq (hslot : slot ∈ buybackSlots) (del : Bool) :
    s.removeItemFromBuyBackSlot slot del =
      { m_items := Function.update s.m_items slot none
        removed := if del then (s.m_items slot).toList ++ s.removed else s.removed
        vendorBuyback := Function.update s.vendorBuyback (slot - BUYBACK_SLOT_START) 0
        buybackPrice := Function.update s.buybackPrice (slot - BUYBACK_SLOT_START) 0
        buybackTimestamp := Function.update s.buybackTimestamp (slot - BUYBACK_SLOT_START) 0
        m_currentBuybackSlot :=
          if (Function.update s.m_items slot none s.m_currentBuybackSlot).isSome then slot
          else s.m_currentBuybackSlot } :=
  if_pos (mem_buybackSlots.mp hslot)

theorem eslot_ne {slot' : Nat} (hslot : slot ∈ buybackSlots) (hslot' : slot' ∈ buybackSlots)
    (hne : slot' ≠ slot) : slot' - BUYBACK_SLOT_START ≠ slot - BUYBACK_SLOT_START := by
  rw [mem_buybackSlots] at hslot hslot'
  rw [BUYBACK_SLOT_START]
  omega

theorem current_removeItem (hslot : slot ∈ buybackSlots) (hc : s.m_currentBuybackSlot ∈ buybackSlots)
    (del : Bool) : (s.removeItemFromBuyBackSlot slot del).m_currentBuybackSlot ∈ buybackSlots := by
  rw [removeItem_eq hslot]
  dsimp only
  split
  · exact hslot
  · exact hc

theorem current_addItem (hslot : s.slotToFill ∈ buybackSlots)
    (hc : s.m_currentBuybackSlot ∈ buybackSlots) (item : SoldItem) (time : Nat) :
    (s.addItemToBuyBackSlot (some item) time).m_currentBuybackSlot ∈ buybackSlots := by
  grind [mem_buybackSlots, BUYBACK_SLOT_END, addItemToBuyBackSlot, current_removeItem]

theorem items_addItem (hslot : s.slotToFill ∈ buybackSlots) (item : SoldItem) (time : Nat) :
    (s.addItemToBuyBackSlot (some item) time).m_items =
      Function.update s.m_items s.slotToFill (some item) := by
  rw [addItemToBuyBackSlot]
  dsimp only
  rw [removeItem_eq hslot]
  exact Function.update_idem ..

theorem removed_addItem (hslot : s.slotToFill ∈ buybackSlots) (item : SoldItem) (time : Nat) :
    (s.addItemToBuyBackSlot (some item) time).removed =
      (s.m_items s.slotToFill).toList ++ s.removed := by
  rw [addItemToBuyBackSlot]
  dsimp only
  rw [removeItem_eq hslot]
  rfl

theorem fields_addItem (item : SoldItem) (time : Nat) :
    (s.addItemToBuyBackSlot (some item) time).vendorBuyback (s.slotToFill - BUYBACK_SLOT_START) =
        item.guid ∧
      (s.addItemToBuyBackSlot (some item) time).buybackPrice (s.slotToFill - BUYBACK_SLOT_START) =
        item.sellPrice * item.count ∧
      (s.addItemToBuyBackSlot (some item) time).buybackTimestamp
        (s.slotToFill - BUYBACK_SLOT_START) = UInt32.ofNat (time + 30 * 3600) :=
  ⟨Function.update_self .., Function.update_self .., Function.update_self ..⟩

theorem fields_removeItem_ne {slot' : Nat} (hslot : slot ∈ buybackSlots)
    (hslot' : slot' ∈ buybackSlots) (hne : slot' ≠ slot) (del : Bool) :
    (s.removeItemFromBuyBackSlot slot del).vendorBuyback (slot' - BUYBACK_SLOT_START) =
        s.vendorBuyback (slot' - BUYBACK_SLOT_START) ∧
      (s.removeItemFromBuyBackSlot slot del).buybackPrice (slot' - BUYBACK_SLOT_START) =
        s.buybackPrice (slot' - BUYBACK_SLOT_START) ∧
      (s.removeItemFromBuyBackSlot slot del).buybackTimestamp (slot' - BUYBACK_SLOT_START) =
        s.buybackTimestamp (slot' - BUYBACK_SLOT_START) := by
  have heslot := eslot_ne hslot hslot' hne
  rw [removeItem_eq hslot]
  exact ⟨Function.update_of_ne heslot .., Function.update_of_ne heslot ..,
    Function.update_of_ne heslot ..⟩

theorem fields_addItem_ne {slot' : Nat} (hslot : s.slotToFill ∈ buybackSlots)
    (hslot' : slot' ∈ buybackSlots) (hne : slot' ≠ s.slotToFill) (item : SoldItem) (time : Nat) :
    (s.addItemToBuyBackSlot (some item) time).vendorBuyback (slot' - BUYBACK_SLOT_START) =
        s.vendorBuyback (slot' - BUYBACK_SLOT_START) ∧
      (s.addItemToBuyBackSlot (some item) time).buybackPrice (slot' - BUYBACK_SLOT_START) =
        s.buybackPrice (slot' - BUYBACK_SLOT_START) ∧
      (s.addItemToBuyBackSlot (some item) time).buybackTimestamp (slot' - BUYBACK_SLOT_START) =
        s.buybackTimestamp (slot' - BUYBACK_SLOT_START) := by
  have heslot := eslot_ne hslot hslot' hne
  obtain ⟨hguid, hprice, hstamp⟩ := fields_removeItem_ne (s := s) hslot hslot' hne true
  rw [addItemToBuyBackSlot]
  exact ⟨(Function.update_of_ne heslot ..).trans hguid, (Function.update_of_ne heslot ..).trans hprice,
    (Function.update_of_ne heslot ..).trans hstamp⟩

/-! ## The steps -/

/-- **The earliest sale can be told by its second**: when all slots are taken, no slot below the one
of the earliest sale has the same timestamp. And the new timestamp fits its field. -/
def EarliestIsTold (w : Vending) : VendorOperation → Prop
  | .sell _ time =>
    time + 30 * 3600 < 2 ^ 32 ∧
      ((∀ slot ∈ buybackSlots, (w.slots.m_items slot).isSome = true) →
        ∀ earliest ∈ w.sales.head?, ∀ slot ∈ buybackSlots,
          w.slots.m_items slot = some earliest.item → ∀ lower ∈ buybackSlots, lower < slot →
            w.slots.buybackTimestamp (lower - BUYBACK_SLOT_START) ≠
              w.slots.buybackTimestamp (slot - BUYBACK_SLOT_START))
  | .buyBack _ => True

theorem Matches.addItem (h : w.Matches) (hpossible : w.IsPossible (.sell item time))
    (hfits : time + 30 * 3600 < 2 ^ 32) {sales : List Sale} (hsub : sales.Sublist w.sales)
    (hkept : ∀ slot ∈ buybackSlots, slot ≠ w.slots.slotToFill → ∀ held,
      w.slots.m_items slot = some held → ∀ sale ∈ w.sales, sale.item = held → sale ∈ sales)
    (hperm : (held buybackSlots (Function.update w.slots.m_items w.slots.slotToFill (some item))).Perm
      (item :: sales.map (·.item))) :
    Matches { slots := w.slots.addItemToBuyBackSlot (some item) time
              sales := sales ++ [⟨item, time⟩], now := time } := by
  obtain ⟨hnow, hnew⟩ := hpossible
  have hslot := h.slotToFill.1
  refine ⟨current_addItem hslot h.current item time, ?_, ?_, ?_, ?_, ?_, ?_, ?_⟩
  · rw [items_addItem hslot, List.map_append]
    exact hperm.trans (List.perm_append_singleton item _).symm
  · rw [List.map_append]
    refine List.nodup_append.mpr ⟨h.nodup.sublist (hsub.map _), List.nodup_singleton _, ?_⟩
    rintro guid hguid _ hlast rfl
    obtain ⟨sale, hsale, rfl⟩ := List.mem_map.mp hguid
    have hmem : sale.item ∈ held buybackSlots w.slots.m_items :=
      h.perm.mem_iff.mpr (List.mem_map_of_mem (hsub.subset hsale))
    obtain ⟨slot, hin, hitem⟩ := mem_held.mp hmem
    exact hnew slot hin sale.item hitem (List.mem_singleton.mp hlast)
  · intro slot hin held hitem
    rw [items_addItem hslot] at hitem
    by_cases hfilled : slot = w.slots.slotToFill
    · subst hfilled
      rw [Function.update_self] at hitem
      cases hitem
      exact ⟨⟨item, time⟩, List.mem_append_right _ List.mem_cons_self, rfl,
        fields_addItem item time⟩
    · rw [Function.update_of_ne hfilled] at hitem
      obtain ⟨sale, hsale, hsold, hguid, hprice, hstamp⟩ := h.fields slot hin held hitem
      grind [fields_addItem_ne]
  · intro slot hin hnone
    rw [items_addItem hslot] at hnone
    by_cases hfilled : slot = w.slots.slotToFill
    · subst hfilled
      rw [Function.update_self] at hnone
      cases hnone
    · rw [Function.update_of_ne hfilled] at hnone
      exact (fields_addItem_ne hslot hin hfilled item time).2.2.trans (h.cleared slot hin hnone)
  · refine List.pairwise_append.mpr ⟨h.ordered.sublist hsub, List.pairwise_singleton _ _, ?_⟩
    intro sale hsale last hlast
    rw [List.mem_singleton.mp hlast]
    exact (h.past sale (hsub.subset hsale)).trans hnow
  · intro sale hsale
    rcases List.mem_append.mp hsale with hsale | hsale
    · exact (h.past sale (hsub.subset hsale)).trans hnow
    · rw [List.mem_singleton.mp hsale]
  · intro sale hsale
    rcases List.mem_append.mp hsale with hsale | hsale
    · exact h.fits sale (hsub.subset hsale)
    · rw [List.mem_singleton.mp hsale]
      exact hfits

theorem Matches.sell_free (h : w.Matches) (hpossible : w.IsPossible (.sell item time))
    (hfits : time + 30 * 3600 < 2 ^ 32) (hfree : w.slots.m_items w.slots.slotToFill = none) :
    (w.exec (.sell item time)).Matches := by
  have hslot := h.slotToFill.1
  have hlt := length_held_lt hslot hfree
  rw [h.length] at hlt
  have hsales : appendSale w.sales ⟨item, time⟩ = w.sales ++ [⟨item, time⟩] := if_pos hlt
  rw [exec, hsales]
  refine h.addItem hpossible hfits (List.Sublist.refl _) (fun _ _ _ _ _ _ hsale _ => hsale) ?_
  exact (held_fill nodup_buybackSlots hslot hfree item).trans (h.perm.cons item)

theorem Matches.stamp_le (h : w.Matches) {slot' : Nat} {sale : Sale} {rest : List Sale}
    (hsales : w.sales = sale :: rest) (hslot : slot ∈ buybackSlots)
    (hitem : w.slots.m_items slot = some sale.item) (hslot' : slot' ∈ buybackSlots)
    (hitem' : w.slots.m_items slot' = some item) :
    w.slots.buybackTimestamp (slot - BUYBACK_SLOT_START) ≤
      w.slots.buybackTimestamp (slot' - BUYBACK_SLOT_START) := by
  obtain ⟨sale₁, hsale₁, heq, -, -, hstamp₁⟩ := h.fields slot hslot sale.item hitem
  obtain ⟨sale₂, hsale₂, -, -, -, hstamp₂⟩ := h.fields slot' hslot' item hitem'
  have hfirst : sale₁ = sale := by
    refine List.inj_on_of_nodup_map h.nodup hsale₁ ?_ (congrArg SoldItem.guid heq)
    rw [hsales]
    exact List.mem_cons_self
  have hle : sale₁.time ≤ sale₂.time := by
    have hordered := h.ordered
    rw [hsales] at hordered hsale₂
    rw [hfirst]
    rcases List.mem_cons.mp hsale₂ with rfl | hin
    · exact le_rfl
    · exact (List.pairwise_cons.mp hordered).1 sale₂ hin
  rw [hstamp₁, hstamp₂, UInt32.le_iff_toNat_le, UInt32.toNat_ofNat', UInt32.toNat_ofNat',
    Nat.mod_eq_of_lt (h.fits sale₁ hsale₁), Nat.mod_eq_of_lt (h.fits sale₂ hsale₂)]
  exact Nat.add_le_add_right hle _

/-- **The first of the oldest is the earliest**, when no lower slot has its timestamp. -/
theorem Matches.earliest (h : w.Matches) (hok : w.EarliestIsTold (.sell item time))
    (hfull : ∀ slot ∈ buybackSlots, (w.slots.m_items slot).isSome = true)
    (hbest : FirstBest.IsFirstBest (age w.slots) buybackSlots w.slots.slotToFill)
    {sale : Sale} {rest : List Sale} (hsales : w.sales = sale :: rest) :
    w.slots.m_items w.slots.slotToFill = some sale.item := by
  have hmem : sale.item ∈ held buybackSlots w.slots.m_items := by
    rw [h.perm.mem_iff, hsales]
    exact List.mem_cons_self
  obtain ⟨slot, hslot, hitem⟩ := mem_held.mp hmem
  have htold := hok.2 hfull sale (by rw [hsales]; rfl) slot hslot hitem
  have hle : ∀ slot' ∈ buybackSlots, w.slots.buybackTimestamp (slot - BUYBACK_SLOT_START) ≤
      w.slots.buybackTimestamp (slot' - BUYBACK_SLOT_START) := by
    intro slot' hslot'
    obtain ⟨held, hheld⟩ := Option.isSome_iff_exists.mp (hfull slot' hslot')
    exact h.stamp_le hsales hslot hitem hslot' hheld
  -- the slot of the earliest sale is the first of the oldest, and there is one such slot
  have hfirst : FirstBest.IsFirstBest (age w.slots) buybackSlots slot := by
    obtain ⟨front, back, hsplit⟩ := List.append_of_mem hslot
    have hordered : buybackSlots.Pairwise (· < ·) := List.pairwise_lt_range'
    refine ⟨front, back, hsplit, ?_, ?_⟩
    · intro lower hlower
      have hin : lower ∈ buybackSlots := hsplit ▸ List.mem_append_left _ hlower
      have hlt : lower < slot := by
        grind
      have hne := htold lower hin hlt
      rw [age, age, toDual_lt_toDual, ← UInt32.lt_iff_toNat_lt]
      exact UInt32.lt_of_le_of_ne (hle lower hin) (Ne.symm hne)
    · grind [UInt32.le_iff_toNat_le, toDual_le_toDual, age]
  rw [hbest.eq hfirst] at hitem
  exact hitem

theorem Matches.sell_full (h : w.Matches) (hpossible : w.IsPossible (.sell item time))
    (hok : w.EarliestIsTold (.sell item time))
    (hfull : ∀ slot ∈ buybackSlots, (w.slots.m_items slot).isSome = true)
    (hbest : FirstBest.IsFirstBest (age w.slots) buybackSlots w.slots.slotToFill) :
    (w.exec (.sell item time)).Matches := by
  have hslot := h.slotToFill.1
  have hlen : w.sales.length = 12 := by
    rw [← h.length, length_held_full hfull]
    rfl
  cases hsales : w.sales with
  | nil =>
    rw [hsales] at hlen
    cases hlen
  | cons sale rest =>
    have hvictim := h.earliest hok hfull hbest hsales
    have happend : appendSale w.sales ⟨item, time⟩ = rest ++ [⟨item, time⟩] := by
      rw [appendSale, if_neg (by rw [hlen]; decide), hsales, List.tail_cons]
    have hperm := h.perm
    rw [hsales, List.map_cons] at hperm
    have hrest : (held buybackSlots (Function.update w.slots.m_items w.slots.slotToFill none)).Perm
        (rest.map (·.item)) :=
      ((held_clear nodup_buybackSlots hslot hvictim).symm.trans hperm).cons_inv
    have hfill := held_fill (f := Function.update w.slots.m_items w.slots.slotToFill none)
      nodup_buybackSlots hslot (Function.update_self ..) item
    rw [Function.update_idem] at hfill
    rw [exec, happend]
    refine h.addItem hpossible hok.1 (by rw [hsales]; exact List.sublist_cons_self _ _) ?_
      (hfill.trans (hrest.cons item))
    intro slot hin hne held hheld sale' hsale' heq
    rw [hsales] at hsale'
    rcases List.mem_cons.mp hsale' with rfl | hsale'
    · exact absurd (place_unique h.held_nodup hin hslot (heq ▸ hheld) hvictim) hne
    · exact hsale'

theorem Matches.buyBack (h : w.Matches) (hslot : slot ∈ buybackSlots)
    (hitem : w.slots.m_items slot = some item) : (w.exec (.buyBack slot)).Matches := by
  have hexec : w.exec (.buyBack slot) =
      { w with slots := w.slots.removeItemFromBuyBackSlot slot false
               sales := takeSale w.sales item.guid } := by
    rw [exec, hitem]
  obtain ⟨sale, hsale, hsold, -⟩ := h.fields slot hslot item hitem
  obtain ⟨taken, front, back, -, htaken, hsplit, hrest⟩ := List.exists_of_eraseP
    (p := fun sale => decide (sale.item.guid = item.guid)) hsale (by rw [hsold]; simp)
  have hguid : taken.item.guid = item.guid := of_decide_eq_true htaken
  have htaken : taken = sale := by
    refine List.inj_on_of_nodup_map h.nodup ?_ hsale (by rw [hguid, hsold])
    rw [hsplit]
    exact List.mem_append_right _ List.mem_cons_self
  have hsub : (takeSale w.sales item.guid).Sublist w.sales := List.eraseP_sublist
  have hperm : w.sales.Perm (sale :: takeSale w.sales item.guid) := by
    rw [takeSale, hrest, ← htaken, hsplit]
    exact List.perm_middle
  have hitems : (w.slots.removeItemFromBuyBackSlot slot false).m_items =
      Function.update w.slots.m_items slot none := by
    rw [removeItem_eq hslot]
  rw [hexec]
  refine ⟨current_removeItem hslot h.current false, ?_, h.nodup.sublist (hsub.map _), ?_, ?_,
    h.ordered.sublist hsub, fun sale hsale => h.past sale (hsub.subset hsale),
    fun sale hsale => h.fits sale (hsub.subset hsale)⟩
  · dsimp only
    rw [hitems]
    have hall := (held_clear nodup_buybackSlots hslot hitem).symm.trans
      (h.perm.trans (hperm.map fun sale => sale.item))
    rw [List.map_cons, hsold] at hall
    exact hall.cons_inv
  · intro slot' hslot' item' hitem'
    dsimp only at hitem' ⊢
    rw [hitems] at hitem'
    by_cases hne : slot' = slot
    · subst hne
      rw [Function.update_self] at hitem'
      cases hitem'
    · rw [Function.update_of_ne hne] at hitem'
      obtain ⟨sale', hsale', hsold', hguid', hprice', hstamp'⟩ := h.fields slot' hslot' item' hitem'
      obtain ⟨hg, hp, ht⟩ := fields_removeItem_ne (s := w.slots) hslot hslot' hne false
      refine ⟨sale', ?_, hsold', hg.trans hguid', hp.trans hprice', ht.trans hstamp'⟩
      rcases List.mem_cons.mp (hperm.mem_iff.mp hsale') with rfl | hin
      · exact absurd (place_unique h.held_nodup hslot' hslot (hsold' ▸ hitem') (hsold ▸ hitem)) hne
      · exact hin
  · intro slot' hslot' hnone
    dsimp only at hnone ⊢
    rw [hitems] at hnone
    by_cases hne : slot' = slot
    · subst hne
      rw [removeItem_eq hslot]
      exact Function.update_self ..
    · rw [Function.update_of_ne hne] at hnone
      exact (fields_removeItem_ne (s := w.slots) hslot hslot' hne false).2.2.trans
        (h.cleared slot' hslot' hnone)

theorem Matches.step (h : w.Matches) {o : VendorOperation} (hok : w.EarliestIsTold o)
    (hstep : Step w o w') : w'.Matches := by
  obtain ⟨hpossible, rfl⟩ := hstep
  cases o with
  | sell item time =>
    rcases h.slotToFill.2 with hfree | ⟨hfull, hbest⟩
    · exact h.sell_free hpossible hok.1 hfree
    · exact h.sell_full hpossible hok hfull hbest
  | buyBack slot =>
    obtain ⟨item, hitem⟩ := Option.isSome_iff_exists.mp hpossible.2
    exact h.buyBack hpossible.1 hitem

/-! ## Runs -/

/-- The fields of a slot are about the item in it, and about its sale. -/
def FieldsBelong (w : Vending) : Prop :=
  ∀ slot ∈ buybackSlots, ∀ item, w.slots.m_items slot = some item → ∃ sale ∈ w.sales,
    sale.item = item ∧ w.slots.vendorBuyback (slot - BUYBACK_SLOT_START) = item.guid ∧
      w.slots.buybackPrice (slot - BUYBACK_SLOT_START) = item.sellPrice * item.count ∧
      w.slots.buybackTimestamp (slot - BUYBACK_SLOT_START) = UInt32.ofNat (sale.time + 30 * 3600)

/-- What the slots hold is what the list holds. -/
def HoldsTheSales (w : Vending) : Prop :=
  ∀ item, (∃ slot ∈ buybackSlots, w.slots.m_items slot = some item) ↔
    ∃ sale ∈ w.sales, sale.item = item

/-- **The most recent sales**, as long as the earliest can be told by its second: the slots hold what
the list holds, each slot's fields are about its item, and no sale destroys an item while a slot is
free. -/
theorem run_buyback (h : Reaches Step EarliestIsTold {} w) :
    w.HoldsTheSales ∧ w.FieldsBelong ∧
      ((∃ slot ∈ buybackSlots, w.slots.m_items slot = none) → ∀ item time,
        (w.slots.addItemToBuyBackSlot (some item) time).removed = w.slots.removed) := by
  have hmatches : w.Matches := h.invariant (I := Matches) .init fun hm hok hstep => hm.step hok hstep
  refine ⟨?_, hmatches.fields, ?_⟩
  · intro item
    rw [← mem_held, hmatches.perm.mem_iff, List.mem_map]
  · rintro ⟨slot, hslot, hnone⟩ item time
    obtain ⟨hin, hfree | ⟨hfull, -⟩⟩ := hmatches.slotToFill
    · rw [removed_addItem hin, hfree]
      rfl
    · have hsome := hfull slot hslot
      rw [hnone] at hsome
      cases hsome

/-! ## Sales in one second -/

/-- The item with a guid. -/
def sold (guid : ObjectGuid) : SoldItem := { guid, sellPrice := 1, count := 1 }

/-- So many sales of new items, at the times given by their numbers. -/
def sellAll (times : Nat → Nat) : Nat → Vending
  | 0 => {}
  | n + 1 => (sellAll times n).exec (.sell (sold (UInt64.ofNat (n + 1))) (times n))

/-- The guids in the slots, in the order of the slots. -/
def heldGuids (w : Vending) : List ObjectGuid :=
  (held buybackSlots w.slots.m_items).map (·.guid)

instance (w : Vending) (item : SoldItem) (time : Nat) : Decidable (w.IsPossible (.sell item time)) :=
  inferInstanceAs (Decidable (w.now ≤ time ∧ ∀ slot ∈ buybackSlots, ∀ held ∈ w.slots.m_items slot,
    held.guid ≠ item.guid))

instance (w : Vending) (item : SoldItem) (time : Nat) :
    Decidable (w.EarliestIsTold (.sell item time)) :=
  inferInstanceAs (Decidable (time + 30 * 3600 < 2 ^ 32 ∧
    ((∀ slot ∈ buybackSlots, (w.slots.m_items slot).isSome = true) →
      ∀ earliest ∈ w.sales.head?, ∀ slot ∈ buybackSlots,
        w.slots.m_items slot = some earliest.item → ∀ lower ∈ buybackSlots, lower < slot →
          w.slots.buybackTimestamp (lower - BUYBACK_SLOT_START) ≠
            w.slots.buybackTimestamp (slot - BUYBACK_SLOT_START))))

theorem sellAll_reaches {ok : Vending → VendorOperation → Prop} {times : Nat → Nat} (n : Nat)
    (h : ∀ k < n, (sellAll times k).IsPossible (.sell (sold (UInt64.ofNat (k + 1))) (times k)) ∧
      ok (sellAll times k) (.sell (sold (UInt64.ofNat (k + 1))) (times k))) :
    Reaches Step ok {} (sellAll times n) := by
  induction n with
  | zero => exact .refl _
  | succ n ih =>
    obtain ⟨hpossible, hok⟩ := h n (Nat.lt_succ_self n)
    exact (ih fun k hk => h k (Nat.lt_succ_of_lt hk)).next hok ⟨hpossible, rfl⟩

/-- With a second between them the thirteenth sale takes the place of the first. -/
theorem thirteenSales_kept :
    heldGuids (sellAll (fun k => k) 13) = [13, 2, 3, 4, 5, 6, 7, 8, 9, 10, 11, 12] ∧
      (sellAll (fun k => k) 13).HoldsTheSales := by
  refine ⟨by decide +kernel, (run_buyback (sellAll_reaches 13 ?_)).1⟩
  decide +kernel

/-- Fourteen sales in one second: the last destroys the thirteenth, not the second. -/
theorem sameSecond_wrong :
    Reaches Step (fun _ _ => True) {} (sellAll (fun _ => 0) 14) ∧
      heldGuids (sellAll (fun _ => 0) 14) = [14, 2, 3, 4, 5, 6, 7, 8, 9, 10, 11, 12] ∧
      ((sellAll (fun _ => 0) 14).sales.map (·.item.guid)) =
        [3, 4, 5, 6, 7, 8, 9, 10, 11, 12, 13, 14] ∧
      ¬(sellAll (fun _ => 0) 14).HoldsTheSales := by
  have hheld : heldGuids (sellAll (fun _ => 0) 14) = [14, 2, 3, 4, 5, 6, 7, 8, 9, 10, 11, 12] := by
    decide +kernel
  have hsales : (sellAll (fun _ => 0) 14).sales.map (·.item.guid) =
      [3, 4, 5, 6, 7, 8, 9, 10, 11, 12, 13, 14] := by
    decide +kernel
  refine ⟨?_, hheld, hsales, ?_⟩
  · have hall : ∀ k < 14, (sellAll (fun _ => 0) k).IsPossible
        (.sell (sold (UInt64.ofNat (k + 1))) 0) := by decide +kernel
    exact sellAll_reaches 14 fun k hk => ⟨hall k hk, trivial⟩
  · intro h
    have hmem : (2 : ObjectGuid) ∈ heldGuids (sellAll (fun _ => 0) 14) := by
      rw [hheld]
      decide
    obtain ⟨item, hin, hguid⟩ := List.mem_map.mp hmem
    obtain ⟨sale, hsale, heq⟩ := (h item).mp (mem_held.mp hin)
    have hsold : (2 : ObjectGuid) ∈ (sellAll (fun _ => 0) 14).sales.map (·.item.guid) :=
      List.mem_map.mpr ⟨sale, hsale, by rw [heq, hguid]⟩
    rw [hsales] at hsold
    exact absurd hsold (by decide)

end Vending

end EGServer.Items
