import EGServer.Guilds.BankSlots

/-!
# Plans for the guild bank

`CanStore` answers with a plan: slots of the tab, each once, with the number of items each is
to take. The plan places the whole stack, and every slot of it has room as the planner sees
the slot: the item to be moved, or the one to be swapped out, is not seen.
-/

namespace EGServer.Guilds

open Guild

variable {maxStackCount : Nat → Nat} {g : Guild} {t s slotId : UInt8} {item : Item}
  {seen : UInt8 → Option Item} {r : Reservation} {space total : Nat}

/-- A slot that is seen like this has room for `n` items. -/
def SeenRoom (maxStackCount : Nat → Nat) (item : Item) (itemDest : Option Item) (n : Nat) : Prop :=
  1 ≤ n ∧ match itemDest with
    | none => n ≤ maxStackCount item.entry
    | some d => d.entry = item.entry ∧ d.count + n ≤ maxStackCount item.entry

/-- The reservations made so far have room, and place all but `count` of the items. -/
structure Reserved (maxStackCount : Nat → Nat) (item : Item) (seen : UInt8 → Option Item)
    (total : Nat) (r : Reservation) : Prop where
  distinct : (r.vec.map (·.1)).Nodup
  slot : ∀ x ∈ r.vec, x.1 < GUILD_BANK_MAX_SLOTS
  room : ∀ x ∈ r.vec, SeenRoom maxStackCount item (seen x.1) x.2
  placed : (r.vec.map (·.2)).sum + r.count = total

theorem reserved_start : Reserved maxStackCount item seen total { count := total } where
  distinct := List.nodup_nil
  slot _ hx := nomatch hx
  room _ hx := nomatch hx
  placed := Nat.zero_add _

/-- A slot with `space` left takes what it can. -/
theorem Reserved.reserve (h : Reserved maxStackCount item seen total r)
    (hs : slotId < GUILD_BANK_MAX_SLOTS) (hr : 0 < r.count) (hspace : 0 < space)
    (hroom : ∀ n, 1 ≤ n → n ≤ space → SeenRoom maxStackCount item (seen slotId) n) :
    Reserved maxStackCount item seen total (r.reserve slotId space) := by
  unfold Reservation.reserve
  simp only
  split
  · exact h
  · next hnew =>
    have hmin : 1 ≤ min space r.count := Nat.le_min.mpr ⟨hspace, hr⟩
    refine ⟨?_, ?_, ?_, ?_⟩
    · show ((r.vec ++ [(slotId, min space r.count)]).map (·.1)).Nodup
      rw [List.map_append, List.nodup_append]
      refine ⟨h.distinct, List.nodup_singleton _, ?_⟩
      grind
    · intro x hx
      rcases List.mem_append.mp hx with hx | hx
      · exact h.slot x hx
      · obtain rfl := List.mem_singleton.mp hx
        exact hs
    · intro x hx
      rcases List.mem_append.mp hx with hx | hx
      · exact h.room x hx
      · obtain rfl := List.mem_singleton.mp hx
        exact hroom _ hmin (Nat.min_le_left _ _)
    · show ((r.vec ++ [(slotId, min space r.count)]).map (·.2)).sum + (r.count - min space r.count) = total
      have hle := Nat.min_le_right space r.count
      have hp := h.placed
      rw [List.map_append, List.sum_append]
      show _ + (min space r.count + 0) + _ = total
      omega

theorem Reserved.reserveSpace (h : Reserved maxStackCount item seen total r)
    (hs : slotId < GUILD_BANK_MAX_SLOTS) (hr : 0 < r.count) (hmax : 0 < maxStackCount item.entry)
    {r' : Reservation} (he : r.reserveSpace maxStackCount slotId item (seen slotId) = some r') :
    Reserved maxStackCount item seen total r' := by
  unfold Reservation.reserveSpace at he
  split at he
  · next hnone =>
    cases he
    apply h.reserve hs hr hmax
    intro n hn hle
    rw [hnone]
    exact ⟨hn, hle⟩
  · next d hd =>
    split at he
    · cases he
    · next hfits =>
      obtain ⟨hentry, hcount⟩ := not_or.mp hfits
      cases he
      apply h.reserve hs hr
      · omega
      · intro n hn hle
        rw [hd]
        exact ⟨hn, not_not.mp hentry, by omega⟩

theorem Reserved.canStoreItemInTab {merge : Bool} {skip : UInt8} {slots : List UInt8}
    (h : Reserved maxStackCount item seen total r) (hmax : 0 < maxStackCount item.entry)
    (hslots : ∀ s ∈ slots, s < GUILD_BANK_MAX_SLOTS)
    (hseen : ∀ s, s ≠ skip → seen s = otherItem item (g.getItem t s)) :
    Reserved maxStackCount item seen total
      (canStoreItemInTab maxStackCount g t item skip merge slots r) := by
  induction slots generalizing r with
  | nil => exact h
  | cons s rest ih =>
    have hrest : ∀ s ∈ rest, s < GUILD_BANK_MAX_SLOTS := fun s hs =>
      hslots s (List.mem_cons_of_mem _ hs)
    unfold EGServer.Guilds.canStoreItemInTab
    split
    · exact h
    · next hr =>
      split
      · exact ih h hrest
      · next hskip =>
        simp only
        split
        · exact ih h hrest
        · apply ih _ hrest
          rw [← hseen s hskip]
          cases he : r.reserveSpace maxStackCount s item (seen s) with
          | none => exact h
          | some r' =>
            exact h.reserveSpace (hslots s List.mem_cons_self) (Nat.pos_of_ne_zero hr) hmax he

theorem mem_tabSlots (hs : s ∈ tabSlots) : s < GUILD_BANK_MAX_SLOTS := by
  obtain ⟨n, hn, rfl⟩ := List.mem_map.mp hs
  have hlt : n < GUILD_BANK_MAX_SLOTS.toNat := List.mem_range.mp hn
  rw [UInt8.lt_iff_toNat_lt, UInt8.toNat_ofNat_of_lt']
  · exact hlt
  · exact hlt.trans GUILD_BANK_MAX_SLOTS.toNat_lt

/-- A plan for all of an item: what `CanStore` promises when it answers `ok`. -/
structure PlanOk (maxStackCount : Nat → Nat) (item : Item) (seen : UInt8 → Option Item)
    (vec : List (UInt8 × Nat)) : Prop where
  distinct : (vec.map (·.1)).Nodup
  slot : ∀ x ∈ vec, x.1 < GUILD_BANK_MAX_SLOTS
  room : ∀ x ∈ vec, SeenRoom maxStackCount item (seen x.1) x.2
  placed : (vec.map (·.2)).sum = item.count

theorem Reserved.plan (h : Reserved maxStackCount item seen item.count r) (hr : r.count = 0) :
    PlanOk maxStackCount item seen r.vec where
  distinct := h.distinct
  slot := h.slot
  room := h.room
  placed := by
    have hp := h.placed
    rwa [hr, Nat.add_zero] at hp

theorem searchTab_plan {vec : List (UInt8 × Nat)}
    (h : Reserved maxStackCount item seen item.count r) (hmax : 0 < maxStackCount item.entry)
    (hseen : ∀ s, s ≠ slotId → seen s = otherItem item (g.getItem t s))
    (he : searchTab maxStackCount g t item slotId r = (.ok, vec)) :
    PlanOk maxStackCount item seen vec := by
  unfold searchTab at he
  generalize hr₁ : (if maxStackCount item.entry > 1 then
    canStoreItemInTab maxStackCount g t item slotId true tabSlots r else r) = r₁ at he
  have h₁ : Reserved maxStackCount item seen item.count r₁ := by
    rw [← hr₁]
    split
    · exact h.canStoreItemInTab hmax (fun s hs => mem_tabSlots hs) hseen
    · exact h
  simp only at he
  split at he
  · next hz =>
    cases he
    exact h₁.plan hz
  · split at he
    · next hz =>
      cases he
      exact (h₁.canStoreItemInTab hmax (fun s hs => mem_tabSlots hs) hseen).plan hz
    · cases he

/-- What the planner sees in a slot: not the item itself, and with `swap` nothing in the slot
asked for. -/
def seenItem (g : Guild) (t : UInt8) (item : Item) (slotId : UInt8) (swap : Bool) (s : UInt8) :
    Option Item :=
  if swap ∧ s = slotId then none else otherItem item (g.getItem t s)

/-- **`CanStore`.** An `ok` comes with a plan for the whole stack in an existing tab. -/
theorem bankCanStore_plan {swap : Bool} {vec : List (UInt8 × Nat)}
    (hs : slotId < GUILD_BANK_MAX_SLOTS) (hpos : 1 ≤ item.count)
    (hle : item.count ≤ maxStackCount item.entry)
    (he : bankCanStore maxStackCount g t item slotId swap = (.ok, vec)) :
    t.toNat < g.bankTabs.length ∧
      PlanOk maxStackCount item (seenItem g t item slotId swap) vec := by
  unfold bankCanStore at he
  split at he
  · cases he
  · split at he
    · cases he
    · next htab =>
      have ht : t.toNat < g.bankTabs.length := by
        have hlt := UInt8.lt_iff_toNat_lt.mp (UInt8.not_le.mp htab)
        refine hlt.trans_le ?_
        show (UInt8.ofNat g.bankTabs.length).toNat ≤ _
        rw [UInt8.toNat_ofNat']
        exact Nat.mod_le _ _
      refine ⟨ht, ?_⟩
      have hmax : 0 < maxStackCount item.entry := by omega
      have hnull : slotId ≠ NULL_SLOT := by
        rintro rfl
        exact absurd hs (by decide)
      rw [if_neg hnull] at he
      simp only at he
      have hself : (if swap then none else otherItem item (g.getItem t slotId)) =
          seenItem g t item slotId swap slotId := by
        unfold seenItem
        grind
      have hother : ∀ s, s ≠ slotId → seenItem g t item slotId swap s = otherItem item (g.getItem t s) := by
        intro s hne
        unfold seenItem
        rw [if_neg]
        rintro ⟨-, h⟩
        exact hne h
      rw [hself] at he
      split at he
      · cases he
      · next r hr =>
        have hres : Reserved maxStackCount item (seenItem g t item slotId swap) item.count r :=
          reserved_start.reserveSpace hs hpos hmax hr
        split at he
        · next hz =>
          cases he
          exact hres.plan hz
        · exact searchTab_plan hres hmax hother he

/-- With `swap` the plan is the slot itself. -/
theorem bankCanStore_swap {vec : List (UInt8 × Nat)} (hs : slotId < GUILD_BANK_MAX_SLOTS)
    (hle : item.count ≤ maxStackCount item.entry)
    (he : bankCanStore maxStackCount g t item slotId true = (.ok, vec)) :
    vec = [(slotId, item.count)] := by
  unfold bankCanStore at he
  split at he
  · cases he
  · split at he
    · cases he
    · have hnull : slotId ≠ NULL_SLOT := by
        rintro rfl
        exact absurd hs (by decide)
      rw [if_neg hnull] at he
      have hmin : min (maxStackCount item.entry) item.count = item.count := Nat.min_eq_right hle
      simp only [if_true, Reservation.reserveSpace, Reservation.reserve, List.any_nil,
        Bool.false_eq_true, if_false, List.nil_append, hmin, Nat.sub_self] at he
      cases he
      rfl

end EGServer.Guilds

/-!
# Moves within the guild bank conserve items

The bank is a shelf of stacks. A move takes an item, or a part of one, out of its slot and
stores it by the plan made before; the plan still fits, because the only slots that changed
are the ones the planner did not look at or in which it saw more than is left.
-/

namespace EGServer.Guilds

open Guild Stacks

variable {σ ρ : Type} {maxStackCount : Nat → Nat} {inv : Inventory σ ρ} {w : BankState σ}
  {g g' : Guild} {player : ObjectGuid} {t s a b c d : UInt8} {item held i destItem : Item}
  {vec : List (UInt8 × Nat)} {split n : Nat}

/-! ## The bank as a shelf -/

/-- The slots of all tabs. -/
def BankState.shelf (w : BankState σ) : Shelf (UInt8 × UInt8) Item where
  contents p := w.guild.getItem p.1 p.2
  next := w.nextItem

/-- Stacks are between 1 and their maximum, and every item is in one slot. -/
def BankSound (maxStackCount : Nat → Nat) (w : BankState σ) : Prop :=
  Sound maxStackCount w.shelf

/-- How many items of an entry the bank holds. -/
def BankState.total (w : BankState σ) (entry : Nat) : Nat := Stacks.total w.shelf.contents entry

/-- A plan for a tab, as slots of the bank. -/
def planIn (t : UInt8) (vec : List (UInt8 × Nat)) : List ((UInt8 × UInt8) × Nat) :=
  vec.map fun x => ((t, x.1), x.2)

theorem shelf_setItem (h : w.guild.HasSlot t s) (v : Option Item) :
    ({ w with guild := (w.guild.setItem t s v).1 } : BankState σ).shelf = w.shelf.set (t, s) v := by
  obtain ⟨g', he, -, -, -, -, hself, hframe⟩ := setItem_of_hasSlot h v
  rw [he]
  apply Shelf.ext
  · funext p
    by_cases hp : p = (t, s)
    · subst hp
      rw [Shelf.contents_set_self]
      exact hself
    · rw [Shelf.contents_set_ne _ hp]
      exact hframe p.1 p.2 hp
  · rfl

theorem bankTabs_setItem (v : Option Item) :
    (g.setItem t s v).1.bankTabs.length = g.bankTabs.length := by
  by_cases h : g.HasSlot t s
  · obtain ⟨g', he, -, -, -, hlen, -, -⟩ := setItem_of_hasSlot h v
    rw [he]
    exact hlen
  · rw [setItem_of_not_hasSlot h]

/-! ## Storing -/

/-- `_StoreItem` puts a part of the stack into the slot, and returns what it put there. -/
theorem storeItemAt_shelf (last : Bool) (hslot : w.guild.HasSlot t s)
    (hr : w.shelf.Room maxStackCount item (t, s) n) :
    (storeItemAt maxStackCount w t item s n !last).1.shelf = w.shelf.put item last (t, s) n ∧
      (storeItemAt maxStackCount w t item s n !last).2.isSome ∧
      (storeItemAt maxStackCount w t item s n !last).1.guild.bankTabs.length =
        w.guild.bankTabs.length := by
  obtain ⟨hn, hroom⟩ := hr
  have hcontents : w.shelf.contents (t, s) = w.guild.getItem t s := rfl
  unfold storeItemAt Shelf.put
  rw [hcontents] at hroom ⊢
  cases hd : w.guild.getItem t s with
  | some d =>
    simp only
    exact ⟨shelf_setItem hslot _, rfl, bankTabs_setItem _⟩
  | none =>
    rw [hd] at hroom
    have hle : n ≤ maxStackCount item.entry := hroom
    obtain ⟨g', he, -, -, -, hlen, -, -⟩ :=
      setItem_of_hasSlot hslot (some { item with count := n })
    cases last with
    | true =>
      simp only [Bool.not_true, Bool.false_eq_true, if_false, if_true]
      rw [he]
      have hshelf := shelf_setItem hslot (some { item with count := n })
      rw [he] at hshelf
      exact ⟨hshelf, rfl, hlen⟩
    | false =>
      have hclone : cloneItem maxStackCount w item n = ({ w with nextItem := w.nextItem + 1 },
          some { item with guid := w.nextItem, count := n }) := by
        unfold cloneItem
        rw [if_neg (by omega), Nat.min_eq_left hle]
      obtain ⟨g', he, -, -, -, hlen, -, -⟩ :=
        setItem_of_hasSlot hslot (some { item with guid := w.nextItem, count := n })
      simp only [Bool.not_false, Bool.false_eq_true, if_false, if_true]
      rw [hclone]
      simp only
      rw [he]
      have hshelf := shelf_setItem (w := { w with nextItem := w.nextItem + 1 }) hslot
        (some { item with guid := w.nextItem, count := n })
      simp only at hshelf
      rw [he] at hshelf
      exact ⟨hshelf, rfl, hlen⟩

/-- **`StoreItem`** stores by the plan, and no `_StoreItem` fails. -/
theorem storeItemVec_shelf (ht : t.toNat < w.guild.bankTabs.length)
    (hslots : ∀ x ∈ vec, x.1 < GUILD_BANK_MAX_SLOTS)
    (hf : w.shelf.Fits maxStackCount item (planIn t vec)) :
    (storeItemVec maxStackCount t item w vec).1.shelf = w.shelf.store item (planIn t vec) ∧
      (storeItemVec maxStackCount t item w vec).1.guild.bankTabs.length =
        w.guild.bankTabs.length ∧
      ∀ x ∈ (storeItemVec maxStackCount t item w vec).2, x.isSome := by
  induction vec generalizing w with
  | nil => exact ⟨rfl, rfl, fun x hx => nomatch hx⟩
  | cons x rest ih =>
    obtain ⟨s, n⟩ := x
    have hslot : w.guild.HasSlot t s := ⟨ht, hslots (s, n) List.mem_cons_self⟩
    have hr : w.shelf.Room maxStackCount item (t, s) n := hf.room ((t, s), n) List.mem_cons_self
    obtain ⟨hshelf, hsome, hlen⟩ := storeItemAt_shelf rest.isEmpty hslot hr
    have htail : Shelf.Fits maxStackCount
        (storeItemAt maxStackCount w t item s n !rest.isEmpty).1.shelf item (planIn t rest) := by
      rw [hshelf]
      exact hf.tail
    obtain ⟨hrest, hlens, hall⟩ :=
      ih (hlen ▸ ht) (fun x hx => hslots x (List.mem_cons_of_mem _ hx)) htail
    refine ⟨?_, hlens.trans hlen, List.forall_mem_cons.mpr ⟨hsome, hall⟩⟩
    refine hrest.trans ?_
    rw [hshelf]
    cases rest with
    | nil => rfl
    | cons y rest => rfl

/-! ## Removing -/

theorem removeItem_shelf (inv : Inventory σ ρ) (player : ObjectGuid) (split : Nat)
    (hheld : w.guild.getItem a b = some held) (other : MoveItemData) :
    (removeItem inv w player held other split (.bank a b)).shelf = w.shelf.set (a, b)
        (if split ≠ 0 then some { held with count := held.count - split } else none) ∧
      (removeItem inv w player held other split (.bank a b)).guild.bankTabs.length =
        w.guild.bankTabs.length := by
  have hshelf := shelf_setItem (w := w) (getItem_hasSlot hheld)
    (if split ≠ 0 then some { held with count := held.count - split } else none)
  unfold removeItem
  simp only
  split
  · exact ⟨hshelf, bankTabs_setItem _⟩
  · refine ⟨?_, ?_⟩
    · rw [← hshelf]
      apply Shelf.ext
      · funext p
        exact getItem_updateMemberWithdrawSlots
      · rfl
    · grind [bankTabs_setItem, bankTabs_updateMemberWithdrawSlots]

/-! ## What a move does -/

theorem otherItem_self (item : Item) : otherItem item (some item) = none := by
  simp [otherItem]

theorem otherItem_of_ne (h : i.guid ≠ item.guid) : otherItem item (some i) = some i := by
  simp [otherItem, Option.filter, h]

/-- A move that was carried out: the items of every entry are conserved, the bank is sound,
only the two tabs changed, and nothing failed to be stored. -/
structure Conserves (maxStackCount : Nat → Nat) (w w' : BankState σ) (t t' : UInt8)
    (stored : List (Option Item)) : Prop where
  total : ∀ e, w'.total e = w.total e
  sound : BankSound maxStackCount w'
  frame : ∀ p : UInt8 × UInt8, p.1 ≠ t → p.1 ≠ t' → w'.guild.getItem p.1 p.2 = w.guild.getItem p.1 p.2
  stored : ∀ x ∈ stored, x.isSome

theorem planned_planIn (t : UInt8) (vec : List (UInt8 × Nat)) :
    Shelf.planned (planIn t vec) = (vec.map (·.2)).sum := by
  rw [Shelf.planned, planIn, List.map_map]
  rfl

theorem planIn_distinct (t : UInt8) (h : (vec.map (·.1)).Nodup) : ((planIn t vec).map (·.1)).Nodup := by
  grind [planIn]

theorem fits_of_plan {sh : Shelf (UInt8 × UInt8) Item} {seen : UInt8 → Option Item}
    (h : PlanOk maxStackCount item seen vec)
    (hseen : ∀ x ∈ vec, sh.contents (t, x.1) = seen x.1 ∨ ∃ d k, seen x.1 = some d ∧
      sh.contents (t, x.1) = some { d with count := k } ∧ k ≤ d.count) :
    sh.Fits maxStackCount item (planIn t vec) := by
  refine ⟨planIn_distinct t h.distinct, ?_⟩
  intro y hy
  obtain ⟨x, hx, rfl⟩ := List.mem_map.mp hy
  obtain ⟨hn, hroom⟩ := h.room x hx
  refine ⟨hn, ?_⟩
  simp only
  rcases hseen x hx with he | ⟨d, k, hd, he, hk⟩
  · rw [he]
    cases hs : seen x.1 with
    | none =>
      rw [hs] at hroom
      exact hroom
    | some d =>
      rw [hs] at hroom
      exact hroom
  · rw [he]
    rw [hd] at hroom
    obtain ⟨hentry, hcount⟩ := hroom
    refine ⟨hentry, ?_⟩
    show k + x.2 ≤ maxStackCount item.entry
    omega

theorem storeItemVec_conserves (hw : BankSound maxStackCount w)
    (hl : Loose maxStackCount w.shelf item) (ht : t.toNat < w.guild.bankTabs.length)
    {seen : UInt8 → Option Item} (hplan : PlanOk maxStackCount item seen vec)
    (hf : w.shelf.Fits maxStackCount item (planIn t vec)) :
    (∀ e, (storeItemVec maxStackCount t item w vec).1.total e =
        w.total e + if item.entry = e then item.count else 0) ∧
      BankSound maxStackCount (storeItemVec maxStackCount t item w vec).1 ∧
      ∀ x ∈ (storeItemVec maxStackCount t item w vec).2, x.isSome := by
  obtain ⟨hshelf, -, hsome⟩ := storeItemVec_shelf ht hplan.slot hf
  refine ⟨?_, ?_, hsome⟩
  · intro e
    rw [BankState.total, hshelf, Shelf.store_total hf e, planned_planIn, hplan.placed]
    rfl
  · rw [BankSound, hshelf]
    exact Shelf.store_sound hw hl hf

theorem moveOne_conserves (hw : BankSound maxStackCount w)
    (hitem : w.guild.getItem a b = some item) (hd : d < GUILD_BANK_MAX_SLOTS)
    (hplan : bankCanStore maxStackCount w.guild c item d false = (.ok, vec)) (other : MoveItemData) :
    Conserves maxStackCount w
      (storeItemVec maxStackCount c item (removeItem inv w player item other 0 (.bank a b)) vec).1 a c
      (storeItemVec maxStackCount c item (removeItem inv w player item other 0 (.bank a b)) vec).2 := by
  have hat : w.shelf.contents (a, b) = some item := hitem
  obtain ⟨ht, hok⟩ := bankCanStore_plan hd (hw.pos _ _ hat) (hw.le_max _ _ hat) hplan
  obtain ⟨hshelf, hlen⟩ := removeItem_shelf inv player 0 hitem other
  rw [if_neg (fun h => h rfl)] at hshelf
  generalize hw₁ : removeItem inv w player item other 0 (.bank a b) = w₁ at hshelf hlen ⊢
  have hsound : BankSound maxStackCount w₁ := by
    rw [BankSound, hshelf]
    exact Shelf.sound_clear hw
  have hloose : Loose maxStackCount w₁.shelf item := by
    rw [hshelf]
    exact Shelf.loose_clear hw hat
  have hfits : w₁.shelf.Fits maxStackCount item (planIn c vec) := by
    apply fits_of_plan hok
    intro x _
    refine Or.inl ?_
    rw [hshelf]
    have hseen : seenItem w.guild c item d false x.1 = otherItem item (w.guild.getItem c x.1) := by
      unfold seenItem
      rw [if_neg]
      rintro ⟨h, -⟩
      cases h
    rw [hseen]
    by_cases hp : (c, x.1) = (a, b)
    · rw [hp, Shelf.contents_set_self]
      cases hp
      rw [hitem, otherItem_self]
    · rw [Shelf.contents_set_ne _ hp]
      show w.guild.getItem c x.1 = _
      cases hx : w.guild.getItem c x.1 with
      | none => rfl
      | some i =>
        have hne : i.guid ≠ item.guid := fun he => hp (hw.inj _ _ i item hx hat he)
        exact (otherItem_of_ne hne).symm
  obtain ⟨htotal, hsound', hsome⟩ := storeItemVec_conserves hsound hloose (hlen ▸ ht) hok hfits
  refine ⟨?_, hsound', ?_, hsome⟩
  · intro e
    rw [htotal e]
    have hupd := total_update w.shelf.contents (a, b) none e
    rw [hat, amount_none, Nat.add_zero, amount_some] at hupd
    have hset : w₁.total e = Stacks.total (Function.update w.shelf.contents (a, b) none) e := by
      rw [BankState.total, hshelf]
      rfl
    rw [hset, BankState.total]
    exact hupd
  · intro p hpa hpc
    have h₁ : w₁.guild.getItem p.1 p.2 = w.guild.getItem p.1 p.2 := by
      have hc : w₁.shelf.contents p = w.shelf.contents p := by
        rw [hshelf]
        apply Shelf.contents_set_ne
        intro he
        exact hpa (congrArg Prod.fst he)
      exact hc
    exact ((storeItemVec_spec vec w₁).2 hpc p.2).trans h₁

/-- Moving a part of an item, which is a new item by then. -/
theorem movePart_conserves (hw : BankSound maxStackCount w)
    (hitem : w.guild.getItem a b = some item) (hd : d < GUILD_BANK_MAX_SLOTS) (hpos : 1 ≤ split)
    (hlt : split < item.count) {cloned : Item} {w₀ : BankState σ}
    (hcloned : cloneItem maxStackCount w item split = (w₀, some cloned))
    (hplan : bankCanStore maxStackCount w₀.guild c cloned d false = (.ok, vec))
    (other : MoveItemData) :
    Conserves maxStackCount w
      (storeItemVec maxStackCount c cloned
        (removeItem inv w₀ player item other split (.bank a b)) vec).1 a c
      (storeItemVec maxStackCount c cloned
        (removeItem inv w₀ player item other split (.bank a b)) vec).2 := by
  have hat : w.shelf.contents (a, b) = some item := hitem
  have hmax : item.count ≤ maxStackCount item.entry := hw.le_max _ _ hat
  obtain ⟨rfl, rfl⟩ : w₀ = { w with nextItem := w.nextItem + 1 } ∧
      cloned = StackItem.clone item w.nextItem split := by
    unfold cloneItem at hcloned
    rw [if_neg (by omega), Nat.min_eq_left (by omega)] at hcloned
    cases hcloned
    exact ⟨rfl, rfl⟩
  have hpos' : 1 ≤ StackItem.count (StackItem.clone item w.nextItem split) := hpos
  have hmax' : (StackItem.clone item w.nextItem split).count ≤
      maxStackCount (StackItem.clone item w.nextItem split).entry := by
    show split ≤ maxStackCount item.entry
    omega
  obtain ⟨ht, hok⟩ := bankCanStore_plan hd hpos' hmax' hplan
  have hnew : ∀ t s i, w.guild.getItem t s = some i →
      i.guid ≠ (StackItem.clone item w.nextItem split).guid := by
    intro t s i hi
    exact (hw.guid_lt (t, s) i hi).ne
  obtain ⟨hshelf, hlen⟩ := removeItem_shelf inv player split
    (w := { w with nextItem := w.nextItem + 1 }) hitem other
  rw [if_pos (by omega)] at hshelf
  generalize hw₁ : removeItem inv _ player item other split (.bank a b) = w₁ at hshelf hlen ⊢
  have hnext : BankSound maxStackCount { w with nextItem := w.nextItem + 1 } := Shelf.sound_next hw
  have hsound : BankSound maxStackCount w₁ := by
    rw [BankSound, hshelf]
    refine Shelf.sound_setCount hnext hat ?_ ?_
    · show 1 ≤ item.count - split
      omega
    · show item.count - split ≤ maxStackCount item.entry
      omega
  have hloose : Loose maxStackCount w₁.shelf (StackItem.clone item w.nextItem split) := by
    rw [hshelf]
    apply Shelf.loose_set
    · refine Shelf.loose_clone hw hpos ?_
      show split ≤ maxStackCount item.entry
      omega
    · rintro j ⟨⟩
      exact hnew a b item hitem
  have hfits : w₁.shelf.Fits maxStackCount (StackItem.clone item w.nextItem split)
      (planIn c vec) := by
    apply fits_of_plan hok
    intro x _
    have hseen : seenItem w.guild c (StackItem.clone item w.nextItem split) d false x.1 =
        w.guild.getItem c x.1 := by
      unfold seenItem
      rw [if_neg (fun h => Bool.false_ne_true h.1)]
      cases hx : w.guild.getItem c x.1 with
      | none => rfl
      | some i => exact otherItem_of_ne (hnew c x.1 i hx)
    rw [hseen, hshelf]
    by_cases hp : (c, x.1) = (a, b)
    · -- the planner saw the whole stack that the part was taken from
      grind [Shelf.contents_set_self]
    · refine Or.inl ?_
      rw [Shelf.contents_set_ne _ hp]
      rfl
  obtain ⟨htotal, hsound', hsome⟩ := storeItemVec_conserves hsound hloose (hlen ▸ ht) hok hfits
  refine ⟨?_, hsound', ?_, hsome⟩
  · intro e
    have hupd := total_update w.shelf.contents (a, b)
      (some { item with count := item.count - split }) e
    rw [hat, amount_some, amount_some] at hupd
    have hset : w₁.total e = Stacks.total (Function.update w.shelf.contents (a, b)
        (some { item with count := item.count - split })) e := by
      rw [BankState.total, hshelf]
      rfl
    have hparts : (if item.entry = e then item.count else 0) =
        (if item.entry = e then item.count - split else 0) + if item.entry = e then split else 0 := by
      split
      · omega
      · rfl
    have hupd' : w₁.total e + (if item.entry = e then item.count else 0) =
        w.total e + if item.entry = e then item.count - split else 0 := by
      rw [hset]
      exact hupd
    rw [htotal e]
    show w₁.total e + (if item.entry = e then split else 0) = w.total e
    omega
  · intro p hpa hpc
    have hc : w₁.shelf.contents p = w.shelf.contents p := by
      rw [hshelf]
      apply Shelf.contents_set_ne
      intro he
      exact hpa (congrArg Prod.fst he)
    exact ((storeItemVec_spec vec w₁).2 hpc p.2).trans hc

theorem planOk_single (hs : s < GUILD_BANK_MAX_SLOTS) (hpos : 1 ≤ item.count)
    (hmax : item.count ≤ maxStackCount item.entry) :
    PlanOk maxStackCount item (fun _ => none) [(s, item.count)] where
  distinct := List.nodup_singleton _
  slot x hx := by
    obtain rfl := List.mem_singleton.mp hx
    exact hs
  room x hx := by
    obtain rfl := List.mem_singleton.mp hx
    exact ⟨hpos, hmax⟩
  placed := rfl

theorem fits_single {sh : Shelf (UInt8 × UInt8) Item} (hs : s < GUILD_BANK_MAX_SLOTS)
    (hpos : 1 ≤ item.count) (hmax : item.count ≤ maxStackCount item.entry)
    (hempty : sh.contents (t, s) = none) :
    sh.Fits maxStackCount item (planIn t [(s, item.count)]) := by
  apply fits_of_plan (planOk_single hs hpos hmax)
  intro x hx
  obtain rfl := List.mem_singleton.mp hx
  exact Or.inl hempty

/-- Exchanging two items, both of which are taken out first. -/
theorem swap_conserves (hw : BankSound maxStackCount w) (hb : b < GUILD_BANK_MAX_SLOTS)
    (hd : d < GUILD_BANK_MAX_SLOTS) (hne : (c, d) ≠ (a, b))
    (hitem : w.guild.getItem a b = some item) (hdest : w.guild.getItem c d = some destItem)
    {w₁ w₂ w₃ w₄ : BankState σ} {stored stored' : List (Option Item)}
    (h₁ : removeItem inv w player item (.bank c d) 0 (.bank a b) = w₁)
    (h₂ : removeItem inv w₁ player destItem (.bank a b) 0 (.bank c d) = w₂)
    (h₃ : storeItemVec maxStackCount c item w₂ [(d, item.count)] = (w₃, stored))
    (h₄ : storeItemVec maxStackCount a destItem w₃ [(b, destItem.count)] = (w₄, stored')) :
    Conserves maxStackCount w w₄ a c (stored ++ stored') := by
  have hx : w.shelf.contents (a, b) = some item := hitem
  have hy : w.shelf.contents (c, d) = some destItem := hdest
  have hxpos : 1 ≤ item.count := hw.pos _ _ hx
  have hypos : 1 ≤ destItem.count := hw.pos _ _ hy
  have hxmax : item.count ≤ maxStackCount item.entry := hw.le_max _ _ hx
  have hymax : destItem.count ≤ maxStackCount destItem.entry := hw.le_max _ _ hy
  have hguid : destItem.guid ≠ item.guid := fun he => hne (hw.inj _ _ destItem item hy hx he)
  -- both items are taken out
  obtain ⟨hs₁, hlen₁⟩ := removeItem_shelf inv player 0 hitem (.bank c d)
  rw [if_neg (fun h => h rfl), h₁] at hs₁
  rw [h₁] at hlen₁
  have hy₁ : w₁.guild.getItem c d = some destItem := by
    have hc : w₁.shelf.contents (c, d) = some destItem := by
      rw [hs₁, Shelf.contents_set_ne _ hne, hy]
    exact hc
  obtain ⟨hs₂, hlen₂⟩ := removeItem_shelf inv player 0 hy₁ (.bank a b)
  rw [if_neg (fun h => h rfl), h₂] at hs₂
  rw [h₂] at hlen₂
  have hsound₁ : Sound maxStackCount w₁.shelf := by
    rw [hs₁]
    exact Shelf.sound_clear hw
  have hsound₂ : BankSound maxStackCount w₂ := by
    rw [BankSound, hs₂]
    exact Shelf.sound_clear hsound₁
  have hlx : Loose maxStackCount w₂.shelf item := by
    rw [hs₂, hs₁]
    exact Shelf.loose_set (Shelf.loose_clear hw hx) fun _ h => nomatch h
  have hly : Loose maxStackCount w₂.shelf destItem := by
    rw [hs₂]
    exact Shelf.loose_clear hsound₁ hy₁
  have hempty : w₂.shelf.contents (c, d) = none := by
    rw [hs₂, Shelf.contents_set_self]
  -- the first is stored
  have hta : a.toNat < w.guild.bankTabs.length := (getItem_hasSlot hitem).1
  have htc : c.toNat < w.guild.bankTabs.length := (getItem_hasSlot hdest).1
  have hlen : w₂.guild.bankTabs.length = w.guild.bankTabs.length := hlen₂.trans hlen₁
  have hf₃ := fits_single hd hxpos hxmax hempty
  obtain ⟨htotal₃, hsound₃, hsome₃⟩ :=
    storeItemVec_conserves hsound₂ hlx (hlen ▸ htc) (planOk_single hd hxpos hxmax) hf₃
  obtain ⟨hs₃, hlen₃, -⟩ := storeItemVec_shelf (hlen ▸ htc) (planOk_single hd hxpos hxmax).slot hf₃
  rw [h₃] at htotal₃ hsound₃ hsome₃ hs₃ hlen₃
  have hs₃' : w₃.shelf = w₂.shelf.set (c, d) (some item) := by
    rw [hs₃]
    exact Shelf.put_last_empty hempty
  -- and then the second
  have hta₃ : a.toNat < w₃.guild.bankTabs.length := by
    rw [hlen₃, hlen]
    exact hta
  have hly₃ : Loose maxStackCount w₃.shelf destItem := by
    rw [hs₃']
    refine Shelf.loose_set hly ?_
    rintro j ⟨⟩
    exact hguid.symm
  have hempty₃ : w₃.shelf.contents (a, b) = none := by
    grind [Shelf.contents_set_self, Shelf.contents_set_ne]
  have hf₄ := fits_single hb hypos hymax hempty₃
  obtain ⟨htotal₄, hsound₄, hsome₄⟩ :=
    storeItemVec_conserves hsound₃ hly₃ hta₃ (planOk_single hb hypos hymax) hf₄
  obtain ⟨hs₄, -, -⟩ := storeItemVec_shelf hta₃ (planOk_single hb hypos hymax).slot hf₄
  rw [h₄] at htotal₄ hsound₄ hsome₄ hs₄
  have hs₄' : w₄.shelf = w₃.shelf.set (a, b) (some destItem) := by
    rw [hs₄]
    exact Shelf.put_last_empty hempty₃
  refine ⟨?_, hsound₄, ?_, ?_⟩
  · intro e
    have hu₁ := total_update w.shelf.contents (a, b) none e
    have hu₂ := total_update w₁.shelf.contents (c, d) none e
    have ht₁ : Stacks.total (Function.update w.shelf.contents (a, b) none) e =
        Stacks.total w₁.shelf.contents e := by
      rw [hs₁]
      rfl
    have ht₂ : Stacks.total (Function.update w₁.shelf.contents (c, d) none) e =
        Stacks.total w₂.shelf.contents e := by
      rw [hs₂]
      rfl
    rw [ht₁, hx, amount_none, amount_some, Nat.add_zero] at hu₁
    rw [ht₂, show w₁.shelf.contents (c, d) = some destItem from hy₁, amount_none, amount_some,
      Nat.add_zero] at hu₂
    rw [htotal₄ e, htotal₃ e, BankState.total, BankState.total, ← hu₁, ← hu₂]
    exact Nat.add_right_comm _ _ _
  · intro p hpa hpc
    have hpab : p ≠ (a, b) := fun he => hpa (congrArg Prod.fst he)
    have hpcd : p ≠ (c, d) := fun he => hpc (congrArg Prod.fst he)
    have hc : w₄.shelf.contents p = w.shelf.contents p := by
      grind [Shelf.contents_set_ne]
    exact hc
  · grind

/-! ## Requests -/

/-- What a request does: nothing to the guild, or a move that conserves. -/
def ConservesOrKeeps (maxStackCount : Nat → Nat) (w : BankState σ) (t t' : UInt8)
    (r : MoveResult σ) : Prop :=
  (r.stored = none → r.state.guild = w.guild) ∧
    ∀ stored, r.stored = some stored → Conserves maxStackCount w r.state t t' stored

theorem keeps {w' : BankState σ} (h : w'.guild = w.guild) :
    ConservesOrKeeps maxStackCount w a c { state := w' } :=
  ⟨fun _ => h, fun _ hs => nomatch hs⟩

theorem conserves_of {w' : BankState σ} {stored : List (Option Item)}
    (h : Conserves maxStackCount w w' a c stored) :
    ConservesOrKeeps maxStackCount w a c { state := w', stored := some stored } := by
  refine ⟨(fun hn => nomatch hn), ?_⟩
  rintro s ⟨⟩
  exact h

/-- A plan of a bank slot is one of `CanStore`. -/
theorem canStore_bank {swap : Bool} {plan : StorePlan ρ}
    (h : canStore maxStackCount inv w item swap (.bank c d) = some plan) :
    ∃ vec, plan = .bank vec ∧ bankCanStore maxStackCount w.guild c item d swap = (.ok, vec) := by
  unfold canStore at h
  simp only at h
  split at h
  · next vec hvec =>
    cases h
    exact ⟨vec, rfl, hvec⟩
  · cases h

theorem trySwap_conserves (hw : BankSound maxStackCount w) (hb : b < GUILD_BANK_MAX_SLOTS)
    (hd : d < GUILD_BANK_MAX_SLOTS) (hne : (c, d) ≠ (a, b))
    (hitem : w.guild.getItem a b = some item) :
    ConservesOrKeeps maxStackCount w a c
      (trySwap maxStackCount inv w player (.bank a b) (.bank c d) item) := by
  unfold trySwap
  split
  · exact keeps rfl
  · next destItem hdest =>
    split
    · exact keeps rfl
    · split
      · exact keeps rfl
      · unfold doItemsMove
        split
        · exact keeps rfl
        · next destPlan hdestPlan =>
          simp only
          split
          · exact keeps rfl
          · next srcPlan hsrcPlan =>
            obtain ⟨vec, rfl, hvec⟩ := canStore_bank hdestPlan
            obtain ⟨vec', rfl, hvec'⟩ := canStore_bank hsrcPlan
            obtain rfl := bankCanStore_swap hd (hw.le_max (a, b) item hitem) hvec
            obtain rfl := bankCanStore_swap hb (hw.le_max (c, d) destItem hdest) hvec'
            exact conserves_of (swap_conserves hw hb hd hne hitem hdest rfl rfl rfl rfl)

theorem moveWhole_conserves (hw : BankSound maxStackCount w) (hb : b < GUILD_BANK_MAX_SLOTS)
    (hd : d < GUILD_BANK_MAX_SLOTS) (hne : (c, d) ≠ (a, b))
    (hitem : w.guild.getItem a b = some item) :
    ConservesOrKeeps maxStackCount w a c
      (moveWhole maxStackCount inv w player (.bank a b) (.bank c d) item) := by
  unfold moveWhole
  simp only
  cases hplan : canStore maxStackCount inv w item false (.bank c d) with
  | none =>
    grind [trySwap_conserves, doItemsMove]
  | some plan =>
    obtain ⟨vec, rfl, hvec⟩ := canStore_bank hplan
    let w₁ := removeItem inv w player item (.bank c d) 0 (.bank a b)
    have hmove : doItemsMove maxStackCount inv w player (.bank a b) (.bank c d) item item none 0 =
        { state := (storeItemVec maxStackCount c item w₁ vec).1,
          stored := some (storeItemVec maxStackCount c item w₁ vec).2 } := by
      unfold doItemsMove
      rw [Option.isSome_none, hplan]
      rfl
    rw [hmove, if_pos Option.isSome_some]
    exact conserves_of (moveOne_conserves hw hitem hd hvec _)

theorem moveSplit_conserves (hw : BankSound maxStackCount w) (hd : d < GUILD_BANK_MAX_SLOTS)
    (hitem : w.guild.getItem a b = some item) (hpos : 1 ≤ split) (hlt : split < item.count) :
    ConservesOrKeeps maxStackCount w a c
      (moveSplit maxStackCount inv w player (.bank a b) (.bank c d) item split) := by
  have hguild : (cloneItem maxStackCount w item split).1.guild = w.guild := guild_cloneItem
  unfold moveSplit
  split
  · next w₀ hw₀ =>
    rw [hw₀] at hguild
    exact keeps hguild
  · next w₀ cloned hw₀ =>
    rw [hw₀] at hguild
    unfold doItemsMove
    split
    · exact keeps hguild
    · next plan hplan =>
      obtain ⟨vec, rfl, hvec⟩ := canStore_bank hplan
      exact conserves_of (movePart_conserves hw hitem hd hpos hlt hw₀ hvec _)

/-- **Guild bank moves conserve items.** In a bank of stacks between 1 and their maximum, each
item in one slot, a request either leaves the guild as it is or moves items so that the total
of every entry is unchanged, the bank is sound again, only slots of the two tabs change, and
nothing that was taken out fails to be stored. -/
theorem swapItems_conserves (hw : BankSound maxStackCount w) (inv : Inventory σ ρ)
    (player : ObjectGuid) (a b c d : UInt8) (splitedAmount : Nat) :
    ConservesOrKeeps maxStackCount w a c
      (swapItems maxStackCount inv w player a b c d splitedAmount) := by
  unfold swapItems
  split
  · exact keeps rfl
  · next hslots =>
    obtain ⟨-, hb, -, hd⟩ : ¬ a ≥ _ ∧ ¬ b ≥ _ ∧ ¬ c ≥ _ ∧ ¬ d ≥ GUILD_BANK_MAX_SLOTS := by
      simpa only [not_or] using hslots
    have hb : b < GUILD_BANK_MAX_SLOTS := UInt8.not_le.mp hb
    have hd : d < GUILD_BANK_MAX_SLOTS := UInt8.not_le.mp hd
    split
    · exact keeps rfl
    · next hsame =>
      have hne : (c, d) ≠ (a, b) := by
        rintro ⟨⟩
        exact hsame ⟨rfl, rfl⟩
      unfold moveItems
      split
      · exact keeps rfl
      · next item hitem =>
        split
        · exact keeps rfl
        · next n hn =>
          split
          · exact keeps rfl
          · split
            · exact keeps rfl
            · split
              · next hsplit =>
                have hlt : 1 ≤ n ∧ n < item.count := by
                  unfold checkItem at hn
                  grind
                exact moveSplit_conserves hw hd hitem hlt.1 hlt.2
              · exact moveWhole_conserves hw hb hd hne hitem

/-! ## A stack of potions, split -/

def potions : Item := { guid := 7, entry := 118, count := 5 }

/-- A bank of one tab with five potions in the first slot. -/
def vault : BankState Unit where
  guild := {
    leaderGuid := 1
    bankTabs := [{ items := Function.update (fun _ => none) 0 (some potions) }] }
  inventory := ()
  nextItem := 8

theorem vault_contents {p : UInt8 × UInt8} (h : vault.shelf.contents p = some i) :
    p = (0, 0) ∧ i = potions := by
  obtain ⟨t, s⟩ := p
  have hg : vault.guild.getItem t s = some i := h
  have ht : t = 0 := by
    have hlt := (getItem_hasSlot hg).1
    apply UInt8.toNat_inj.mp
    show t.toNat = 0
    have h1 : t.toNat < 1 := hlt
    omega
  subst ht
  by_cases hs : s = 0
  · subst hs
    have hp : vault.guild.getItem 0 0 = some potions := rfl
    rw [hp] at hg
    cases hg
    exact ⟨rfl, rfl⟩
  · have hnone : Function.update (fun _ => none) (0 : UInt8) (some potions) s = none :=
      Function.update_of_ne hs _ _
    have hcase : vault.guild.getItem 0 s =
        if s < GUILD_BANK_MAX_SLOTS then
          Function.update (fun _ => none) (0 : UInt8) (some potions) s else none := rfl
    rw [hcase, hnone, ite_self] at hg
    cases hg

theorem vault_sound : BankSound (fun _ => 20) vault where
  pos p i h := by
    obtain ⟨-, rfl⟩ := vault_contents h
    decide
  le_max p i h := by
    obtain ⟨-, rfl⟩ := vault_contents h
    decide
  guid_lt p i h := by
    obtain ⟨-, rfl⟩ := vault_contents h
    decide
  inj p q i j hp hq _ := (vault_contents hp).1.trans (vault_contents hq).1.symm

/-- An inventory that is not asked. -/
def noInventory : Inventory Unit Unit where
  initItem _ _ _ := none
  canStoreItem _ _ _ _ _ := none
  removeItem st _ _ _ := st
  moveItemToInventory st _ _ := st

/-- Two of the potions are split off into the next slot. -/
theorem vault_split_conserves :
    ConservesOrKeeps (fun _ => 20) vault 0 0
      (swapItems (fun _ => 20) noInventory vault 1 0 0 0 1 2) :=
  swapItems_conserves vault_sound noInventory 1 0 0 0 1 2

end EGServer.Guilds
