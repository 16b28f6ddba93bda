import EGServer.Items.CountAgreement

/-!
# Asking before destroying

The walk of `DestroyItemCount` goes over all places of a player, each after those inside it. So it
takes what is asked or all there is, and a caller that has asked `HasItemCount` gets what it asks for.
-/

namespace EGServer.Items

namespace Inventory

variable {W W' : Inventory} {entry : Nat} {count tempcount tempcount' : UInt32} {p q : Position}
  {l l' : List Position} {item : ItemInfo} {slot : Nat}

/-! ## The order of the walk -/

theorem apart_mains {first last first' last' : Nat} (h : last ≤ first' ∨ last' ≤ first) :
    ∀ p ∈ mainSlots first last, ∀ q ∈ mainSlots first' last', Apart p q := by
  intro p hp q hq
  obtain ⟨b, i⟩ := p
  obtain ⟨b', j⟩ := q
  rw [mem_mainSlots] at hp hq
  obtain ⟨rfl, hi⟩ := hp
  obtain ⟨rfl, hj⟩ := hq
  dsimp only at hi hj
  exact apart_of_main (by omega)

theorem apart_bags_main {first last first' last' : Nat} (hlast : last ≤ 255) :
    ∀ p ∈ (List.range' first (last - first)).flatMap bagPlaces, ∀ q ∈ mainSlots first' last',
      Apart p q := by
  intro p hp q hq
  rw [mem_bags] at hp
  rw [mem_mainSlots] at hq
  have hne : p.1 ≠ INVENTORY_SLOT_BAG_0 := by
    rw [INVENTORY_SLOT_BAG_0]
    omega
  apply apart_of_bag hne
  rintro rfl
  exact hne hq.1

theorem apart_main_bags {first last first' last' : Nat} (hlast : last' ≤ 255)
    (h : last ≤ first' ∨ last' ≤ first) :
    ∀ p ∈ mainSlots first last, ∀ q ∈ (List.range' first' (last' - first')).flatMap bagPlaces,
      Apart p q := by
  intro p hp q hq
  rw [mem_mainSlots] at hp
  rw [mem_bags] at hq
  constructor
  · rintro rfl
    rw [INVENTORY_SLOT_BAG_0] at hp
    omega
  · rintro ⟨-, rfl⟩
    obtain ⟨-, hp⟩ := hp
    dsimp only at hp
    omega

theorem apart_bags_bags {first last first' last' : Nat} (hlast : last ≤ 255)
    (h : last ≤ first' ∨ last' ≤ first) :
    ∀ p ∈ (List.range' first (last - first)).flatMap bagPlaces,
      ∀ q ∈ (List.range' first' (last' - first')).flatMap bagPlaces, Apart p q := by
  intro p hp q hq
  rw [mem_bags] at hp hq
  have hne : p.1 ≠ INVENTORY_SLOT_BAG_0 := by
    rw [INVENTORY_SLOT_BAG_0]
    omega
  apply apart_of_bag hne
  rintro rfl
  omega

/-- **The walk comes to each place once, and to a bag after what is in it.** -/
theorem pairwise_storage : storage.Pairwise Apart := by
  unfold storage
  simp only [List.pairwise_append, List.mem_append]
  refine ⟨pairwise_mainSlots _ _, ⟨pairwise_mainSlots _ _, ⟨pairwise_bags (by decide),
    ⟨pairwise_mainSlots _ _, ⟨pairwise_mainSlots _ _, pairwise_bags (by decide), ?_⟩, ?_⟩, ?_⟩,
    ?_⟩, ?_⟩
  · exact apart_main_bags (by decide) (by decide)
  · rintro p hp q (hq | hq)
    · exact apart_mains (by decide) p hp q hq
    · exact apart_main_bags (by decide) (by decide) p hp q hq
  · rintro p hp q (hq | hq | hq)
    · exact apart_bags_main (by decide) p hp q hq
    · exact apart_bags_main (by decide) p hp q hq
    · exact apart_bags_bags (by decide) (by decide) p hp q hq
  · rintro p hp q (hq | hq | hq | hq)
    · exact apart_main_bags (by decide) (by decide) p hp q hq
    · exact apart_mains (by decide) p hp q hq
    · exact apart_mains (by decide) p hp q hq
    · exact apart_main_bags (by decide) (by decide) p hp q hq
  · rintro p hp q (hq | hq | hq | hq | hq)
    · exact apart_mains (by decide) p hp q hq
    · exact apart_main_bags (by decide) (by decide) p hp q hq
    · exact apart_mains (by decide) p hp q hq
    · exact apart_mains (by decide) p hp q hq
    · exact apart_main_bags (by decide) (by decide) p hp q hq

theorem mem_storage_of_inside (hp : p ∈ storage) (hin : Inside q p)
    (hq : W.getItemByPos q = some item) : q ∈ storage := by
  obtain ⟨hne, rfl⟩ := hin
  rw [getItemByPos, if_neg hne] at hq
  obtain ⟨bag, hbag, hitem⟩ := Option.bind_eq_some_iff.mp hq
  have hslot : isBagSlot q.1 = true := by
    rw [getBagByPos] at hbag
    split at hbag
    · assumption
    · cases hbag
  have hsize : q.2 < MAX_BAG_SIZE := by
    rw [Item.getItemByPos] at hitem
    split at hitem
    · next h => exact Nat.lt_of_lt_of_le h bag.getBagSize_le
    · cases hitem
  rw [isBagSlot_iff] at hslot
  unfold storage
  simp only [List.mem_append, mem_bags]
  rcases hslot with hslot | hslot
  · exact Or.inr (Or.inr (Or.inl ⟨hslot, hsize⟩))
  · exact Or.inr (Or.inr (Or.inr (Or.inr (Or.inr ⟨hslot, hsize⟩))))

/-! ## What HasItemCount sees -/

theorem countOver_append (l l' : List Position) (tempcount : UInt32) :
    W.countOver entry count (l ++ l') tempcount =
      (W.countOver entry count l tempcount).bind (W.countOver entry count l') := by
  induction l generalizing tempcount with
  | nil => rfl
  | cons p l ih =>
    rw [List.cons_append, countOver, countOver]
    split
    · exact ih tempcount
    · split
      · rfl
      · exact ih _

theorem le_of_countOver (h : W.countOver entry count l tempcount = none) :
    count.toNat ≤ tempcount.toNat + W.countIn entry l := by
  induction l generalizing tempcount with
  | nil => cases h
  | cons p l ih =>
    rw [countOver] at h
    rw [countIn_cons]
    split at h
    · next hnone =>
      have hle := ih h
      omega
    · next item hitem =>
      have hsum : (tempcount + item.count).toNat ≤ tempcount.toNat + item.count.toNat := by
        rw [UInt32.toNat_add]
        exact Nat.mod_le _ _
      rw [countAt_of_meant hitem]
      split at h
      · next hdone =>
        rw [UInt32.le_iff_toNat_le] at hdone
        omega
      · have hle := ih h
        omega

/-- The places in the order in which `HasItemCount` goes over them. -/
def counted (W : Inventory) (inBankAlso : Bool) : List Position :=
  mainSlots EQUIPMENT_SLOT_START INVENTORY_SLOT_ITEM_END ++
    (mainSlots KEYRING_SLOT_START CURRENCYTOKEN_SLOT_END ++
      ((List.range' INVENTORY_SLOT_BAG_START
          (INVENTORY_SLOT_BAG_END - INVENTORY_SLOT_BAG_START)).flatMap W.inBag ++
        if inBankAlso then
          mainSlots BANK_SLOT_ITEM_START BANK_SLOT_ITEM_END ++
            (List.range' BANK_SLOT_BAG_START (BANK_SLOT_BAG_END - BANK_SLOT_BAG_START)).flatMap
              W.inBag
        else []))

theorem hasItemCount_eq (W : Inventory) (entry : Nat) (count : UInt32) (inBankAlso : Bool) :
    W.hasItemCount entry count inBankAlso =
      (W.countOver entry count (W.counted inBankAlso) 0).isNone := by
  cases inBankAlso with
  | false =>
    unfold hasItemCount counted countInBags
    simp only [countOver_append, Option.bind_assoc, Bool.false_eq_true, if_false]
    congr 3
    funext tempcount
    congr 1
    funext tempcount
    cases W.countOver entry count _ tempcount <;> rfl
  | true =>
    unfold hasItemCount counted countInBags
    simp only [countOver_append, Option.bind_assoc, if_true]

theorem countIn_inBag_le (W : Inventory) (entry bag : Nat) :
    W.countIn entry (W.inBag bag) ≤ W.countIn entry (bagPlaces bag) := by
  unfold inBag
  split
  · exact Nat.zero_le _
  · next b hb =>
    rw [bagPlaces, range_max_eq b, List.map_append, countIn_append]
    exact Nat.le_add_right _ _

theorem countIn_bags_le (W : Inventory) (entry : Nat) (bags : List Nat) :
    W.countIn entry (bags.flatMap W.inBag) ≤ W.countIn entry (bags.flatMap bagPlaces) := by
  induction bags with
  | nil => exact le_rfl
  | cons bag bags ih =>
    rw [List.flatMap_cons, List.flatMap_cons, countIn_append, countIn_append]
    exact Nat.add_le_add (countIn_inBag_le W entry bag) ih

theorem countIn_counted_le (W : Inventory) (entry : Nat) (inBankAlso : Bool) :
    W.countIn entry (W.counted inBankAlso) ≤ W.total entry := by
  have hmain : mainSlots EQUIPMENT_SLOT_START INVENTORY_SLOT_ITEM_END =
      mainSlots EQUIPMENT_SLOT_START INVENTORY_SLOT_BAG_END ++
        mainSlots INVENTORY_SLOT_ITEM_START INVENTORY_SLOT_ITEM_END := by
    decide
  have hbags := countIn_bags_le W entry (List.range' INVENTORY_SLOT_BAG_START
    (INVENTORY_SLOT_BAG_END - INVENTORY_SLOT_BAG_START))
  have hbank := countIn_bags_le W entry (List.range' BANK_SLOT_BAG_START
    (BANK_SLOT_BAG_END - BANK_SLOT_BAG_START))
  unfold total counted storage
  rw [hmain]
  cases inBankAlso with
  | false =>
    simp only [countIn_append, Bool.false_eq_true, if_false]
    have hnil : W.countIn entry [] = 0 := rfl
    omega
  | true =>
    simp only [countIn_append, if_true]
    omega

/-- **Nobody is told of more than there is.** -/
theorem le_total_of_hasItemCount {inBankAlso : Bool}
    (h : W.hasItemCount entry count inBankAlso = true) : count.toNat ≤ W.total entry := by
  rw [hasItemCount_eq, Option.isNone_iff_eq_none] at h
  have hle := le_of_countOver h
  rw [UInt32.toNat_zero, Nat.zero_add] at hle
  exact hle.trans (countIn_counted_le W entry inBankAlso)

/-! ## The two together -/

/-- What `DestroyItemCount` promises: it takes as many items of the entry as asked, or all there are,
and says how many; everything else stays; and who has been told of enough by `HasItemCount` gets
it. -/
structure Agrees (W : Inventory) (entry : Nat) (count : UInt32)
    (r : Inventory × UInt32) : Prop where
  returns : r.2.toNat = min count.toNat (W.total entry)
  disappear : r.1.total entry + r.2.toNat = W.total entry
  others : ∀ q, (q ∉ storage ∨ ∀ item, W.getItemByPos q = some item → isMeant entry item = false) →
    r.1.getItemByPos q = W.getItemByPos q
  enough : ∀ inBankAlso, W.hasItemCount entry count inBankAlso = true → r.2 = count

/-- A bag that is gone held nothing but items that are meant; they went before it. -/
def EmptyBagsGo (W : Inventory) (entry : Nat) (W' : Inventory) : Prop :=
  ∀ p q item, Inside q p → (∃ bag, W.getItemByPos p = some bag) → W'.getItemByPos p = none →
    W.getItemByPos q = some item → isMeant entry item = true

theorem emptyBagsGo_of_contents (hcount : 0 < count) (canUnequip : Inventory → Position → Bool)
    (h : ∀ p q bag item, Inside q p → W.getItemByPos p = some bag → isMeant entry bag = true →
      W.getItemByPos q = some item → isMeant entry item = true) :
    EmptyBagsGo W entry (W.destroyItemCount entry count false canUnequip).1 := by
  have hzero : (0 : UInt32).toNat < count.toNat := UInt32.lt_iff_toNat_lt.mp hcount
  rw [destroyItemCount_eq W hcount canUnequip]
  rintro p q item hin ⟨bag, hbag⟩ hgone hitem
  rcases @losesOnly_walked W entry count 0 storage hzero p with
    hsame | ⟨-, bag', hbag', hmeant⟩ | ⟨p', -, hin', -⟩
  · cases hbag.symm.trans (hsame.symm.trans hgone)
  · exact h p q bag' item hin hbag' hmeant hitem
  · -- a bag is not in another one
    obtain ⟨-, rfl⟩ := hin
    exact absurd rfl hin'.1

/-- **Counting and destroying agree** exactly if the stacks that are gone through, up to the one that
reaches the count, add up to less than 2³². -/
theorem destroyItemCount_agrees (W : Inventory) (entry : Nat) (count : UInt32)
    (canUnequip : Inventory → Position → Bool) (hcount : 0 < count)
    (hbags : EmptyBagsGo W entry (W.destroyItemCount entry count false canUnequip).1) :
    Agrees W entry count (W.destroyItemCount entry count false canUnequip) ↔
      Fits count.toNat (storage.map (W.countAt entry)) 0 := by
  have hzero : (0 : UInt32).toNat < count.toNat := UInt32.lt_iff_toNat_lt.mp hcount
  have hwalk : W.destroyItemCount entry count false canUnequip = walked entry count storage W 0 :=
    destroyItemCount_eq W hcount canUnequip
  rw [hwalk] at hbags ⊢
  constructor
  · intro h
    by_contra hfits
    have hless := walked_lt (W := W) pairwise_storage hzero hfits
    have hsame := h.disappear
    unfold total at hsame
    rw [UInt32.toNat_zero] at hless
    omega
  · intro hfits
    obtain ⟨hmin, hkept⟩ := walked_fits (W := W) pairwise_storage hzero hfits
    rw [UInt32.toNat_zero, Nat.zero_add] at hmin hkept
    refine ⟨hmin, hkept, ?_, ?_⟩
    · intro q hq
      rcases @losesOnly_walked W entry count 0 storage hzero q with
        hsame | ⟨hmem, item, hitem, hmeant⟩ | ⟨p, hp, hin, hbag, hgone⟩
      · exact hsame
      · rcases hq with hnot | hothers
        · exact absurd hmem hnot
        · rw [hothers item hitem] at hmeant
          cases hmeant
      · cases hitem : W.getItemByPos q with
        | none => exact (@shrinks_walked W entry count 0 storage hzero).none hitem
        | some item =>
          have hmeant := hbags p q item hin hbag hgone hitem
          rcases hq with hnot | hothers
          · exact absurd (mem_storage_of_inside hp hin hitem) hnot
          · rw [hothers item hitem] at hmeant
            cases hmeant
    · intro inBankAlso h
      have hle := le_total_of_hasItemCount h
      apply UInt32.toNat_inj.mp
      rw [hmin]
      exact Nat.min_eq_left hle

/-- Five reagents in a bag, three in the backpack. -/
def reagents : Inventory where
  m_items slot :=
    if slot = 19 then
      some { entry := 9, count := 1, bagSize := some 4,
             m_bagslot := fun j => if j = 0 then some { entry := 7, count := 5 } else none }
    else if slot = 23 then some { entry := 7, count := 3 }
    else none

theorem reagents_agree :
    Agrees reagents 7 6 (reagents.destroyItemCount 7 6 false fun _ _ => true) := by
  have hcontents : ∀ p q bag item, Inside q p → reagents.getItemByPos p = some bag →
      isMeant 7 bag = true → reagents.getItemByPos q = some item → isMeant 7 item = true := by
    rintro p ⟨b, s⟩ bag item ⟨hne, rfl⟩ hbag hmeant hitem
    have hslot : b = 19 := by
      rw [getItemByPos, if_neg hne] at hitem
      obtain ⟨c, hc, -⟩ := Option.bind_eq_some_iff.mp hitem
      by_contra hb
      by_cases hb' : b = 23
      · subst hb'
        cases hc
      · simp [getBagByPos, getItem, reagents, hb, hb'] at hc
    subst hslot
    cases hbag
    cases hmeant
  exact (destroyItemCount_agrees reagents 7 6 _ (by decide)
    (emptyBagsGo_of_contents (by decide) _ hcontents)).mpr
    (fits_of_sum_lt (by decide +kernel))

/-- Three of the largest stacks. -/
def hoard : Inventory where
  m_items slot :=
    if 23 ≤ slot ∧ slot ≤ 25 then some { entry := 7, count := 2147483646 } else none

theorem hoard_empty (h : slot < 23 ∨ 25 < slot) : hoard.getItem slot = none := by
  unfold getItem hoard
  split
  · exact if_neg (by omega)
  · rfl

/-- All three stacks are destroyed, and the caller is told of 2147483642 items. -/
theorem hoard_disagrees :
    (∀ q item, hoard.getItemByPos q = some item → 0 < item.count) ∧
      EmptyBagsGo hoard 7 (hoard.destroyItemCount 7 4294967295 false fun _ _ => true).1 ∧
      (hoard.destroyItemCount 7 4294967295 false fun _ _ => true).2 = 2147483642 ∧
      (hoard.destroyItemCount 7 4294967295 false fun _ _ => true).1.total 7 = 0 ∧
      ¬Agrees hoard 7 4294967295
        (hoard.destroyItemCount 7 4294967295 false fun _ _ => true) := by
  have hmain : ∀ p item, hoard.getItemByPos p = some item →
      p.1 = INVENTORY_SLOT_BAG_0 ∧ 0 < item.count := by
    intro p item hitem
    unfold getItemByPos at hitem
    split at hitem
    · next hp =>
      refine ⟨hp, ?_⟩
      obtain ⟨i, hi, rfl⟩ := Option.map_eq_some_iff.mp hitem
      unfold getItem hoard at hi
      dsimp only at hi
      split at hi
      · split at hi
        · cases hi
          decide
        · cases hi
      · cases hi
    · obtain ⟨bag, hbag, -⟩ := Option.bind_eq_some_iff.mp hitem
      unfold getBagByPos at hbag
      split at hbag
      · next hslot =>
        rw [isBagSlot_iff] at hslot
        rw [hoard_empty (by omega)] at hbag
        cases hbag
      · cases hbag
  have hreturned : (hoard.destroyItemCount 7 4294967295 false fun _ _ => true).2 = 2147483642 := by
    decide +kernel
  refine ⟨fun q item h => (hmain q item h).2, ?_, hreturned, by decide +kernel, ?_⟩
  · intro p q item hin _ _ hitem
    exact absurd (hmain q item hitem).1 hin.1
  · intro h
    have hmin := h.returns
    rw [hreturned] at hmin
    revert hmin
    decide +kernel

end Inventory

end EGServer.Items
