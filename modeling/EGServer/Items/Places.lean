import EGServer.Items.CanStoreItem

/-!
# Places

Which places a player has: the slots of `m_items` that are looked at, and the slots of the bags
there. What is put into one is found there, and the other places keep what they have, except that
the places inside an item come and go with it.
-/

namespace EGServer.Items

namespace Inventory

variable {W : Inventory} {p q : Position} {bag slot h : Nat} {item : Item} {info : ItemInfo}

/-- What does not change of the bag in a slot: its entry, its guid and its size. -/
def bagShape (W : Inventory) (h : Nat) : Option (Nat × Nat × Nat) :=
  (W.getBagByPos h).map fun b => (b.entry, b.guid, b.getBagSize)

/-- The player has the place. -/
def IsPlace (W : Inventory) (p : Position) : Prop :=
  if p.1 = INVENTORY_SLOT_BAG_0 then isItemSlot p.2 = true
  else ∃ shape, W.bagShape p.1 = some shape ∧ p.2 < shape.2.2

/-- The item may be in the place: it is not the bag itself. -/
def Accepts (W : Inventory) (p : Position) (guid : Nat) : Prop :=
  p.1 ≠ INVENTORY_SLOT_BAG_0 → ∀ shape, W.bagShape p.1 = some shape → guid ≠ shape.2.1

theorem isPlace_main : W.IsPlace (INVENTORY_SLOT_BAG_0, slot) ↔ isItemSlot slot = true := by
  rw [IsPlace, if_pos rfl]

theorem isPlace_inBag (hbag : bag ≠ INVENTORY_SLOT_BAG_0) :
    W.IsPlace (bag, slot) ↔ ∃ b, W.getBagByPos bag = some b ∧ slot < b.getBagSize := by
  rw [IsPlace, if_neg hbag, bagShape]
  constructor
  · rintro ⟨shape, hshape, hslot⟩
    obtain ⟨b, hb, rfl⟩ := Option.map_eq_some_iff.mp hshape
    exact ⟨b, hb, hslot⟩
  · rintro ⟨b, hb, hslot⟩
    exact ⟨_, Option.map_eq_some_iff.mpr ⟨b, hb, rfl⟩, hslot⟩

theorem isPlace_of_some (hp : W.getItemByPos p = some info) : W.IsPlace p := by
  obtain ⟨b, s⟩ := p
  by_cases hb : b = INVENTORY_SLOT_BAG_0
  · subst hb
    rw [isPlace_main]
    unfold getItemByPos getItem at hp
    rw [if_pos rfl] at hp
    dsimp only at hp
    split at hp
    · assumption
    · cases hp
  · rw [isPlace_inBag hb]
    unfold getItemByPos at hp
    rw [if_neg hb] at hp
    obtain ⟨c, hc, hp⟩ := Option.bind_eq_some_iff.mp hp
    refine ⟨c, hc, ?_⟩
    unfold Item.getItemByPos at hp
    split at hp
    · assumption
    · cases hp

theorem isBagSlot_ne (h' : isBagSlot h = true) : h ≠ INVENTORY_SLOT_BAG_0 := by
  rw [isBagSlot_iff] at h'
  show h ≠ 255
  omega

/-! ## Bags keep their shape -/

theorem bagShape_congr {W' : Inventory} {item' : Item} (h' : W.m_items h = some item)
    (h'' : W'.m_items h = some item')
    (hshape : item'.toItemInfo = { item.toItemInfo with count := item'.count }) :
    W'.bagShape h = W.bagShape h := by
  obtain ⟨info', contents'⟩ := item'
  obtain ⟨info, contents⟩ := item
  dsimp only at hshape
  unfold bagShape getBagByPos getItem
  rw [h', h'', hshape]
  split
  · split
    · rw [Option.filter_some, Option.filter_some]
      show Option.map _ (if (Option.isSome _) = true then _ else _) =
        Option.map _ (if (Option.isSome _) = true then _ else _)
      split <;> rfl
    · rfl
  · rfl

theorem bagShape_of_eq {W' : Inventory} (h' : W'.m_items h = W.m_items h) :
    W'.bagShape h = W.bagShape h := by
  unfold bagShape getBagByPos getItem
  rw [h']

theorem bagShape_setItem_ne (hne : h ≠ slot) (item : Option Item) :
    (W.setItem slot item).bagShape h = W.bagShape h :=
  bagShape_of_eq (Function.update_of_ne hne ..)

theorem bagShape_setInBag (info : Option ItemInfo) :
    (W.setInBag bag slot info).bagShape h = W.bagShape h := by
  by_cases hne : h = bag
  · subst hne
    cases hitem : W.m_items h with
    | none =>
      apply bagShape_of_eq
      show Function.update W.m_items h _ h = _
      rw [Function.update_self, hitem]
      rfl
    | some b =>
      have hset : (W.setInBag h slot info).m_items h =
          some { b with m_bagslot := Function.update b.m_bagslot slot info } := by
        show Function.update W.m_items h _ h = _
        rw [Function.update_self, hitem]
        rfl
      exact bagShape_congr hitem hset rfl
  · exact bagShape_of_eq (Function.update_of_ne hne ..)

theorem bagShape_put (hne : p ≠ (INVENTORY_SLOT_BAG_0, h)) (hp : W.IsPlace p) (item : Item) :
    (W.put p item).bagShape h = W.bagShape h := by
  obtain ⟨b, s⟩ := p
  unfold put
  by_cases hb : b = INVENTORY_SLOT_BAG_0
  · subst hb
    rw [if_pos rfl]
    apply bagShape_setItem_ne
    rintro rfl
    exact hne rfl
  · rw [if_neg hb]
    grind [bagShape_setInBag, isPlace_inBag]

theorem bagShape_removeItem (hne : p ≠ (INVENTORY_SLOT_BAG_0, h)) :
    (W.removeItem p).bagShape h = W.bagShape h := by
  obtain ⟨b, s⟩ := p
  unfold removeItem removeAt
  split
  · split
    · next hb =>
      apply bagShape_setItem_ne
      rintro rfl
      exact hne (Prod.ext hb rfl)
    · split
      · exact bagShape_setInBag _
      · rfl
  · rfl

theorem IsPlace.congr {W' : Inventory} (hp : W.IsPlace p)
    (h' : p.1 ≠ INVENTORY_SLOT_BAG_0 → W'.bagShape p.1 = W.bagShape p.1) : W'.IsPlace p := by
  unfold IsPlace at hp ⊢
  grind

theorem Accepts.congr {W' : Inventory} {guid : Nat} (hp : W.Accepts p guid)
    (h' : p.1 ≠ INVENTORY_SLOT_BAG_0 → W'.bagShape p.1 = W.bagShape p.1) : W'.Accepts p guid := by
  intro hb shape hshape
  rw [h' hb] at hshape
  exact hp hb shape hshape

/-! ## Putting an item into a place -/

theorem put_inBag (hbag : bag ≠ INVENTORY_SLOT_BAG_0) (hp : W.IsPlace (bag, slot))
    (hguid : W.Accepts (bag, slot) item.guid) :
    W.put (bag, slot) item = W.setInBag bag slot (some item.toItemInfo) := by
  obtain ⟨b, hb, -⟩ := (isPlace_inBag hbag).mp hp
  have hne : item.guid ≠ b.guid := by
    apply hguid hbag (b.entry, b.guid, b.getBagSize)
    rw [bagShape]
    dsimp only
    rw [hb, Option.map_some]
  unfold put
  rw [if_neg hbag]
  simp only [hb]
  rw [if_pos hne]

theorem getItemByPos_put_self (hp : W.IsPlace p) (hguid : W.Accepts p item.guid) :
    (W.put p item).getItemByPos p = some item.toItemInfo := by
  obtain ⟨b, s⟩ := p
  by_cases hb : b = INVENTORY_SLOT_BAG_0
  · subst hb
    rw [put, if_pos rfl, getItemByPos, if_pos rfl, getItem_setItem_self W (isPlace_main.mp hp)]
    rfl
  · rw [put_inBag hb hp hguid, getItemByPos_setInBag_self W hb]
    obtain ⟨c, hc, hs⟩ := (isPlace_inBag hb).mp hp
    rw [hc, Option.bind_some, if_pos hs]

theorem getItemByPos_put_ne (hp : W.IsPlace p) (hne : q ≠ p) (hin : ¬Inside q p) :
    (W.put p item).getItemByPos q = W.getItemByPos q := by
  obtain ⟨b, s⟩ := p
  unfold put
  by_cases hb : b = INVENTORY_SLOT_BAG_0
  · subst hb
    rw [if_pos rfl]
    exact getItemByPos_setItem_ne W _ hne hin
  · rw [if_neg hb]
    grind [getItemByPos_setInBag_ne, isPlace_inBag]

/-! ## Items with what they hold -/

theorem getItemAt_inBag (hq : q.1 ≠ INVENTORY_SLOT_BAG_0) :
    W.getItemAt q = (W.getItemByPos q).map fun info => { toItemInfo := info } := by
  unfold getItemAt getItemByPos
  rw [if_neg hq, if_neg hq]

theorem getItemByPos_eq_getItemAt (q : Position) :
    W.getItemByPos q = (W.getItemAt q).map (·.toItemInfo) := by
  unfold getItemAt getItemByPos
  split
  · rfl
  · rw [Option.map_map]
    exact Option.map_id.symm ▸ rfl

/-- Neither place is inside the other. -/
def Beside (p q : Position) : Prop := q ≠ p ∧ ¬Inside q p ∧ ¬Inside p q

theorem Beside.symm (hpq : Beside p q) : Beside q p := ⟨hpq.1.symm, hpq.2.2, hpq.2.1⟩

theorem getItemAt_put_ne (hp : W.IsPlace p) (hpq : Beside p q) :
    (W.put p item).getItemAt q = W.getItemAt q := by
  obtain ⟨hne, hin, hout⟩ := hpq
  by_cases hq : q.1 = INVENTORY_SLOT_BAG_0
  · unfold getItemAt
    rw [if_pos hq, if_pos hq]
    obtain ⟨b, s⟩ := p
    unfold put
    by_cases hb : b = INVENTORY_SLOT_BAG_0
    · subst hb
      rw [if_pos rfl]
      apply getItem_setItem_ne
      intro hs
      exact hne (Prod.ext hq hs)
    · rw [if_neg hb]
      obtain ⟨c, hc, -⟩ := (isPlace_inBag hb).mp hp
      simp only [hc]
      split
      · unfold getItem setInBag
        have hs : q.2 ≠ b := by
          intro hs
          exact hout ⟨hb, Prod.ext hq hs⟩
        dsimp only
        rw [Function.update_of_ne hs]
      · rfl
  · rw [getItemAt_inBag hq, getItemAt_inBag hq, getItemByPos_put_ne hp hne hin]

theorem getItemAt_put_self (hp : W.IsPlace p) (hguid : W.Accepts p item.guid) :
    (W.put p item).getItemAt p = some (if p.1 = INVENTORY_SLOT_BAG_0 then item
      else { toItemInfo := item.toItemInfo }) := by
  by_cases hb : p.1 = INVENTORY_SLOT_BAG_0
  · obtain ⟨b, s⟩ := p
    dsimp only at hb
    subst hb
    rw [if_pos rfl, put, if_pos rfl, getItemAt, if_pos rfl, getItem_setItem_self W (isPlace_main.mp hp)]
  · rw [if_neg hb, getItemAt_inBag hb, getItemByPos_put_self hp hguid, Option.map_some]

theorem getItemAt_removeItem_ne (hpq : Beside p q) : (W.removeItem p).getItemAt q = W.getItemAt q := by
  obtain ⟨hne, hin, hout⟩ := hpq
  unfold removeItem
  split
  · by_cases hq : q.1 = INVENTORY_SLOT_BAG_0
    · unfold getItemAt
      rw [if_pos hq, if_pos hq]
      obtain ⟨b, s⟩ := p
      unfold removeAt
      split
      · grind [getItem_setItem_ne]
      · next hb =>
        split
        · unfold getItem setInBag
          have hs : q.2 ≠ b := by
            intro hs
            exact hout ⟨hb, Prod.ext hq hs⟩
          dsimp only
          rw [Function.update_of_ne hs]
        · rfl
    · rw [getItemAt_inBag hq, getItemAt_inBag hq, getItemByPos_removeAt_ne hne hin]
  · rfl

theorem getItemByPos_removeItem_self : (W.removeItem p).getItemByPos p = none := by
  unfold removeItem
  split
  · exact getItemByPos_removeAt_self
  · next hp => exact Option.not_isSome_iff_eq_none.mp hp

end Inventory

end EGServer.Items
