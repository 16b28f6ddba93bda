import EGServer.Looting.Loot

/-!
# The entries of the lists

All entries of all players' lists of one kind, and what the two changes of a list do to them: a
list that is made adds its entries, and marking an entry takes one from the open ones.
-/

namespace EGServer.Looting

open Loot

/-! ## Counting positions -/

theorem countP_range_succ {p q : Nat → Bool} {n k : Nat} (hk : k < n) (hp : p k = false)
    (hq : q k = true) (h : ∀ i, i ≠ k → q i = p i) :
    (List.range n).countP q = (List.range n).countP p + 1 := by
  induction n with
  | zero => exact absurd hk (Nat.not_lt_zero k)
  | succ n ih =>
    rw [List.range_succ, List.countP_append, List.countP_append, List.countP_singleton,
      List.countP_singleton]
    by_cases hkn : k = n
    · grind [List.countP_congr]
    · rw [ih (Nat.lt_of_le_of_ne (Nat.le_of_lt_succ hk) hkn), h n (Ne.symm hkn)]
      omega

theorem countP_modify {α : Type} {p : α → Bool} {f : α → α} {l : List α} {i : Nat} {a : α}
    (ha : l[i]? = some a) (hp : p a = true) (hf : p (f a) = false) :
    (l.modify i f).countP p + 1 = l.countP p := by
  induction l generalizing i with
  | nil => cases ha
  | cons b l ih =>
    grind

theorem countP_modify_same {α : Type} {p : α → Bool} {f : α → α} {l : List α} {i : Nat}
    (h : ∀ a, l[i]? = some a → p (f a) = p a) : (l.modify i f).countP p = l.countP p := by
  induction l generalizing i with
  | nil => rw [List.modify_nil]
  | cons b l ih =>
    grind

/-! ## Entries -/

/-- All entries of all lists. -/
def entriesOf (map : NotNormalLootItemMap) : List NotNormalLootItem := map.rows.flatMap (·.entries)

/-- The position is on some player's list. -/
def isListed (map : NotNormalLootItemMap) (index : Nat) : Bool :=
  (entriesOf map).any fun e => decide (e.index = index)

variable {map : NotNormalLootItemMap} {guid guid' : ObjectGuid} {row : PlayerItems}
  {e : NotNormalLootItem} {i pos index : Nat}

theorem isListed_iff : isListed map index = true ↔ ∃ e ∈ entriesOf map, e.index = index := by
  rw [isListed, List.any_eq_true]
  simp only [decide_eq_true_eq]

theorem mem_entriesOf (hrow : map.get? guid = some row) (he : row.entries[pos]? = some e) :
    e ∈ entriesOf map :=
  List.mem_flatMap.mpr ⟨row, (Table.get?_eq_some.mp hrow).1, List.mem_of_getElem? he⟩

/-! ### A new list -/

section
variable {ql : List NotNormalLootItem}

theorem setList_eq (h : map.get? guid = none) (hql : ql ≠ []) :
    ∃ map', setList map guid ql = map' ∧
      map.tryEmplace (Arrangement.id _) { guid, entries := ql } = some map' ∧
      map'.rows = { guid, entries := ql } :: map.rows := by
  have hsome : map.tryEmplace (Arrangement.id _) { guid, entries := ql } =
      some ⟨{ guid, entries := ql } :: map.rows, _⟩ := dif_pos h
  refine ⟨_, ?_, hsome, rfl⟩
  rw [setList, if_neg (by simpa using hql), hsome, Option.getD_some]

theorem setList_nil : setList map guid [] = map := rfl

theorem entriesOf_setList (h : map.get? guid = none) :
    entriesOf (setList map guid ql) = ql ++ entriesOf map := by
  by_cases hql : ql = []
  · subst hql
    rw [setList_nil, List.nil_append]
  · obtain ⟨map', hset, -, hrows⟩ := setList_eq h hql
    rw [hset, entriesOf, hrows, List.flatMap_cons, entriesOf]

theorem isListed_setList (h : map.get? guid = none) :
    isListed (setList map guid ql) index =
      (ql.any (fun e => decide (e.index = index)) || isListed map index) := by
  rw [isListed, entriesOf_setList h, List.any_append, isListed]

theorem get?_setList_ne (h : map.get? guid = none) (hne : guid' ≠ guid) :
    (setList map guid ql).get? guid' = map.get? guid' := by
  by_cases hql : ql = []
  · subst hql
    rw [setList_nil]
  · obtain ⟨map', hset, hsome, -⟩ := setList_eq h hql
    rw [hset]
    exact Table.get?_tryEmplace_ne hsome hne

theorem get?_setList_self (h : map.get? guid = none) (hql : ql ≠ []) :
    (setList map guid ql).get? guid = some { guid, entries := ql } := by
  obtain ⟨map', hset, hsome, -⟩ := setList_eq h hql
  rw [hset]
  exact Table.get?_tryEmplace_self hsome

end

/-! ### Marking an entry -/

theorem get?_markEntry (map : NotNormalLootItemMap) (guid guid' : ObjectGuid) (pos : Nat) :
    (markEntry map guid pos).get? guid' =
      if guid' = guid then (map.get? guid).map fun row =>
        { row with entries := row.entries.modify pos fun e => { e with is_looted := true } }
      else map.get? guid' := by
  split
  · next h =>
    subst h
    exact Table.get?_modify_self map _ _
  · next h => exact Table.get?_modify_ne map _ h

theorem isListed_markEntry (map : NotNormalLootItemMap) (guid : ObjectGuid) (pos index : Nat) :
    isListed (markEntry map guid pos) index = isListed map index := by
  have hmodify : ∀ (l : List NotNormalLootItem) (i : Nat),
      (l.modify i fun e => { e with is_looted := true }).any (fun e => decide (e.index = index)) =
        l.any fun e => decide (e.index = index) := by
    intro l
    induction l with
    | nil =>
      intro i
      rw [List.modify_nil]
    | cons e l ih =>
      grind
  rw [isListed, isListed, entriesOf, entriesOf, List.any_flatMap, List.any_flatMap, markEntry,
    Table.modify, List.any_map]
  apply congrArg (List.any map.rows)
  funext row
  rw [Function.comp_apply]
  split
  · exact hmodify row.entries pos
  · rfl

theorem countP_markEntry {p : NotNormalLootItem → Bool} (hrow : map.get? guid = some row)
    (he : row.entries[pos]? = some e) (hp : p e = true) (hm : p { e with is_looted := true } = false) :
    (entriesOf (markEntry map guid pos)).countP p + 1 = (entriesOf map).countP p := by
  obtain ⟨before, after, hsplit, hguid, hother⟩ := Table.rows_split hrow
  have hrows : (markEntry map guid pos).rows = before ++
      { row with entries := row.entries.modify pos fun e => { e with is_looted := true } } :: after :=
    Table.rows_modify hsplit hguid hother
  rw [entriesOf, entriesOf, hrows, hsplit, List.flatMap_append, List.flatMap_append,
    List.flatMap_cons, List.flatMap_cons, List.countP_append, List.countP_append,
    List.countP_append, List.countP_append]
  have hone := countP_modify (f := fun e => { e with is_looted := true }) he hp hm
  dsimp only
  omega

theorem countP_markEntry_same {p : NotNormalLootItem → Bool} (hrow : map.get? guid = some row)
    (he : row.entries[pos]? = some e) (hm : p { e with is_looted := true } = p e) :
    (entriesOf (markEntry map guid pos)).countP p = (entriesOf map).countP p := by
  have hkey : ∀ r ∈ map.rows, (if r.guid = guid then
      { r with entries := r.entries.modify pos fun e => { e with is_looted := true } }
      else r).entries.countP p = r.entries.countP p := by
    intro r hr
    split
    · next h =>
      have hr : r = row := map.eq_of_key hr (Table.get?_eq_some.mp hrow).1
        (h.trans (Table.get?_eq_some.mp hrow).2.symm)
      grind [countP_modify_same]
    · rfl
  have hgen : ∀ (l l' : List PlayerItems), l.map (·.entries.countP p) = l'.map (·.entries.countP p) →
      (l.flatMap (·.entries)).countP p = (l'.flatMap (·.entries)).countP p := by
    intro l l' h
    rw [List.countP_flatMap, List.countP_flatMap]
    exact congrArg List.sum h
  apply hgen
  rw [markEntry, Table.modify, List.map_map]
  exact List.map_congr_left hkey

/-! ### Finding an entry -/

theorem findEntry_eq_some (h : findEntry map guid index = some (pos, e)) :
    ∃ row, map.get? guid = some row ∧ row.entries[pos]? = some e ∧ e.index = index := by
  obtain ⟨row, hrow, h⟩ := Option.bind_eq_some_iff.mp h
  obtain ⟨⟨e', pos'⟩, hfind, heq⟩ := Option.map_eq_some_iff.mp h
  grind

theorem findEntry_isSome : (findEntry map guid index).isSome = true ↔
    ∃ row, map.get? guid = some row ∧ ∃ e ∈ row.entries, e.index = index := by
  unfold findEntry
  cases hrow : map.get? guid with
  | none => simp
  | some row =>
    rw [Option.bind_some, Option.isSome_map, List.find?_isSome]
    constructor
    · grind
    · rintro ⟨_, hr, e, he, hidx⟩
      cases hr
      obtain ⟨pos, hpos⟩ := List.getElem?_of_mem he
      exact ⟨(e, pos), List.mk_mem_zipIdx_iff_getElem?.mpr hpos, decide_eq_true hidx⟩

theorem findEntry_isSome_markEntry (map : NotNormalLootItemMap) (guid guid' : ObjectGuid)
    (pos index : Nat) :
    (findEntry (markEntry map guid pos) guid' index).isSome = (findEntry map guid' index).isSome := by
  rw [Bool.eq_iff_iff, findEntry_isSome, findEntry_isSome, get?_markEntry]
  split
  · next h =>
    subst h
    cases hrow : map.get? guid' with
    | none => simp
    | some row =>
      simp only [Option.map_some, Option.some.injEq, exists_eq_left', List.mem_iff_getElem?,
        List.getElem?_modify]
      grind
  · exact Iff.rfl

end EGServer.Looting

/-!
# What is still to be taken

`pending` counts, from the items and the lists alone, what a loot still holds for somebody.
`Tally` says that `unlootedCount` agrees with it, up to a surplus: how often the filling counted a
thing that was counted before. The lemmas here say how each change of an item or of a list moves
the number.
-/

namespace EGServer.Looting

open Loot

/-! ## Open items -/

/-- An item that one player may take, given which items somebody is to take. -/
def isOpen (wanted : Nat → LootItem → Bool) (items : List LootItem) (i : Nat) : Bool :=
  items[i]?.any fun item => !item.is_looted && !item.freeforall && wanted i item

def openItems (wanted : Nat → LootItem → Bool) (items : List LootItem) : Nat :=
  (List.range items.length).countP (isOpen wanted items)

section
variable {wanted wanted' : Nat → LootItem → Bool} {items : List LootItem} {item : LootItem} {i : Nat}
  {f : LootItem → LootItem}

theorem isOpen_eq (h : items[i]? = some item) :
    isOpen wanted items i = (!item.is_looted && !item.freeforall && wanted i item) := by
  rw [isOpen, h, Option.any_some]

theorem isOpen_modify_ne {k : Nat} (h : k ≠ i) :
    isOpen wanted (items.modify i f) k = isOpen wanted items k := by
  rw [isOpen, isOpen, List.getElem?_modify_ne f items (Ne.symm h)]

theorem openItems_congr (h : ∀ i item, items[i]? = some item → item.freeforall = false →
      wanted' i item = wanted i item) :
    openItems wanted' items = openItems wanted items := by
  apply List.countP_congr
  intro i hi
  obtain ⟨item, hitem⟩ : ∃ item, items[i]? = some item :=
    ⟨_, List.getElem?_eq_getElem (List.mem_range.mp hi)⟩
  rw [isOpen_eq hitem, isOpen_eq hitem]
  grind

theorem openItems_take (hitem : items[i]? = some item) (hlooted : item.is_looted = false)
    (hffa : item.freeforall = false) (hwanted : wanted i item = true)
    (hf : (f item).is_looted = true) :
    openItems wanted (items.modify i f) + 1 = openItems wanted items := by
  have hi : i < items.length := (List.getElem?_eq_some_iff.mp hitem).1
  rw [openItems, openItems, List.length_modify]
  symm
  apply countP_range_succ hi
  · grind [isOpen]
  · rw [isOpen_eq hitem, hlooted, hffa, hwanted]
    rfl
  · intro k hk
    rw [isOpen_modify_ne hk]

theorem openItems_want (hitem : items[i]? = some item) (hlooted : item.is_looted = false)
    (hffa : item.freeforall = false) (hold : wanted i item = false) (hnew : wanted' i item = true)
    (h : ∀ k item, k ≠ i → wanted' k item = wanted k item) :
    openItems wanted' items = openItems wanted items + 1 := by
  have hi : i < items.length := (List.getElem?_eq_some_iff.mp hitem).1
  apply countP_range_succ hi
  · rw [isOpen_eq hitem, hold, Bool.and_false]
  · rw [isOpen_eq hitem, hlooted, hffa, hnew]
    rfl
  · intro k hk
    rw [isOpen, isOpen]
    apply congrArg (fun p => Option.any p items[k]?)
    funext item
    rw [h k item hk]

theorem openItems_append (h : ∀ i, i < items.length → ∀ item, wanted' i item = wanted i item) :
    openItems wanted' (items ++ [item]) = openItems wanted items +
      if !item.is_looted && !item.freeforall && wanted' items.length item then 1 else 0 := by
  rw [openItems, List.length_append, List.length_singleton, List.range_succ, List.countP_append,
    List.countP_singleton, isOpen_eq List.getElem?_concat_length]
  apply congrArg (· + _)
  apply List.countP_congr
  intro i hi
  have hi := List.mem_range.mp hi
  rw [isOpen, isOpen, List.getElem?_append_left hi]
  have hw := funext (h i hi)
  rw [hw]

end

/-! ### The fields that matter -/

/-- An item without what the filling and the rolls write into it. -/
def LootItem.core (item : LootItem) : LootItem :=
  { item with allowedGUIDs := [], rollWinnerGUID := 0, is_blocked := false,
              is_underthreshold := false, is_counted := false }

theorem map_core_modify {f : LootItem → LootItem} (h : ∀ item, (f item).core = item.core)
    (items : List LootItem) (i : Nat) :
    (items.modify i f).map LootItem.core = items.map LootItem.core := by
  induction items generalizing i with
  | nil => rw [List.modify_nil]
  | cons item items ih =>
    grind

theorem openItems_core {wanted : Nat → LootItem → Bool}
    (h : ∀ i item, wanted i item.core = wanted i item) (items : List LootItem) :
    openItems wanted (items.map LootItem.core) = openItems wanted items := by
  rw [openItems, openItems, List.length_map]
  apply List.countP_congr
  intro i hi
  have hitem := List.getElem?_eq_getElem (List.mem_range.mp hi)
  have hcore : (items.map LootItem.core)[i]? = some _ :=
    (List.getElem?_map).trans (congrArg (Option.map LootItem.core) hitem)
  rw [isOpen_eq hitem, isOpen_eq hcore, h]
  rfl

theorem getElem?_of_map_core {items items' : List LootItem} {item' : LootItem} {i : Nat}
    (h : items'.map LootItem.core = items.map LootItem.core) (hitem : items'[i]? = some item') :
    ∃ item, items[i]? = some item ∧ item'.core = item.core := by
  have hmap : (items.map LootItem.core)[i]? = some item'.core := by
    rw [← h, List.getElem?_map, hitem, Option.map_some]
  grind

/-! ## The number -/

/-- An entry for a quest item that everyone may take a copy of, and this player has not. -/
def isOpenQuestEntry (quest_items : List LootItem) (e : NotNormalLootItem) : Bool :=
  !e.is_looted && quest_items[e.index]?.any (·.freeforall)

/-- Is an item of `items` to be taken by somebody? An item without a condition is, when somebody
could see it as it dropped; one with a condition is when it is on a list. -/
def wantsItem (conditional : Nat → Bool) (i : Nat) (item : LootItem) : Bool :=
  if item.conditions.isEmpty then item.seen else conditional i

/-- A quest item is to be taken when it is on a list. -/
def wantsQuestItem (quest : Nat → Bool) (i : Nat) (_ : LootItem) : Bool := quest i

theorem wantsItem_core (conditional : Nat → Bool) (i : Nat) (item : LootItem) :
    wantsItem conditional i item.core = wantsItem conditional i item := rfl

theorem isOpenQuestEntry_core (quest_items : List LootItem) :
    isOpenQuestEntry (quest_items.map LootItem.core) = isOpenQuestEntry quest_items := by
  funext e
  rw [isOpenQuestEntry, isOpenQuestEntry, List.getElem?_map, Option.any_map]
  rfl

namespace Loot

variable {L : Loot} {guid : ObjectGuid} {pos i extra : Nat}

/-- What is still to be taken: items, quest items, and the entries of players in their lists of
items that everyone may take. -/
def pending (L : Loot) : Nat :=
  openItems (wantsItem (isListed L.PlayerNonQuestNonFFAConditionalItems)) L.items +
    openItems (wantsQuestItem (isListed L.PlayerQuestItems)) L.quest_items +
    (entriesOf L.PlayerFFAItems).countP (fun e => !e.is_looted) +
    (entriesOf L.PlayerQuestItems).countP (isOpenQuestEntry L.quest_items)

theorem pending_add (L L' : Loot) {a b c d : Nat}
    (ha : openItems (wantsItem (isListed L'.PlayerNonQuestNonFFAConditionalItems)) L'.items =
      openItems (wantsItem (isListed L.PlayerNonQuestNonFFAConditionalItems)) L.items + a)
    (hb : openItems (wantsQuestItem (isListed L'.PlayerQuestItems)) L'.quest_items =
      openItems (wantsQuestItem (isListed L.PlayerQuestItems)) L.quest_items + b)
    (hc : (entriesOf L'.PlayerFFAItems).countP (fun e => !e.is_looted) =
      (entriesOf L.PlayerFFAItems).countP (fun e => !e.is_looted) + c)
    (hd : (entriesOf L'.PlayerQuestItems).countP (isOpenQuestEntry L'.quest_items) =
      (entriesOf L.PlayerQuestItems).countP (isOpenQuestEntry L.quest_items) + d) :
    L'.pending = L.pending + (a + b + c + d) := by
  rw [pending, pending, ha, hb, hc, hd]
  omega

theorem pending_core {L' : Loot} (hitems : L'.items.map LootItem.core = L.items.map LootItem.core)
    (hquest : L'.quest_items.map LootItem.core = L.quest_items.map LootItem.core)
    (hq : L'.PlayerQuestItems = L.PlayerQuestItems) (hf : L'.PlayerFFAItems = L.PlayerFFAItems)
    (hc : L'.PlayerNonQuestNonFFAConditionalItems = L.PlayerNonQuestNonFFAConditionalItems) :
    L'.pending = L.pending := by
  rw [pending, pending, hq, hf, hc, ← openItems_core (wantsItem_core _),
    ← openItems_core (fun _ _ => rfl) L'.quest_items,
    ← isOpenQuestEntry_core L'.quest_items, hitems, hquest, openItems_core (wantsItem_core _),
    openItems_core (fun _ _ => rfl), isOpenQuestEntry_core]

/-- The counter says what is pending, and `extra` more; what is gone was handed out. -/
structure Tally (L : Loot) (extra : Nat) : Prop where
  count : L.unlootedCount = UInt8.ofNat (L.pending + extra)
  raised : L.pending + extra + L.handedOut.length = L.counted

theorem Tally.toNat (h : L.Tally 0) : L.unlootedCount.toNat = L.pending ↔ L.pending < 256 := by
  rw [h.count, Nat.add_zero, UInt8.toNat_ofNat']
  exact Nat.mod_eq_iff_lt (by decide)

theorem ofNat_sub_one {n : Nat} : UInt8.ofNat (n + 1) - 1 = UInt8.ofNat n := by
  rw [UInt8.ofNat_add]
  exact add_sub_cancel_right _ _

theorem ofNat_raise {m n : Nat} : UInt8.ofNat m + UInt8.ofNat n = UInt8.ofNat (m + n) :=
  (UInt8.ofNat_add m n).symm

end Loot

end EGServer.Looting
