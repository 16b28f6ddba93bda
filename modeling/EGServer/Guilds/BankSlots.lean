import EGServer.Guilds.Bank

/-!
# The slots of the guild bank

What the pieces of a move do to the slots: which slot a step writes, and that storing takes
nothing out of a tab and removing puts nothing into one.
-/

namespace EGServer.Guilds

variable {σ ρ : Type} {maxStackCount : Nat → Nat} {inv : Inventory σ ρ} {w : BankState σ}
  {g g' g'' : Guild} {player : ObjectGuid} {t t' s s' : UInt8} {item held i : Item}
  {src dest other : MoveItemData} {split n : Nat}

namespace Guild

/-- The slot exists. -/
def HasSlot (g : Guild) (t s : UInt8) : Prop :=
  t.toNat < g.bankTabs.length ∧ s < GUILD_BANK_MAX_SLOTS

theorem getItem_hasSlot (h : g.getItem t s = some i) : g.HasSlot t s := by
  unfold getItem at h
  split at h
  · next tab ht =>
    split at h
    · next hs => exact ⟨(List.getElem?_eq_some_iff.mp ht).1, hs⟩
    · cases h
  · cases h

theorem setItem_of_hasSlot (h : g.HasSlot t s) (v : Option Item) :
    ∃ g', g.setItem t s v = (g', true) ∧ g'.ranks = g.ranks ∧ g'.members = g.members ∧
      g'.leaderGuid = g.leaderGuid ∧ g'.bankTabs.length = g.bankTabs.length ∧
      g'.getItem t s = v ∧ ∀ t' s', (t', s') ≠ (t, s) → g'.getItem t' s' = g.getItem t' s' := by
  obtain ⟨ht, hs⟩ := h
  have htab : g.bankTabs[t.toNat]? = some g.bankTabs[t.toNat] := List.getElem?_eq_getElem ht
  unfold setItem
  rw [htab]
  simp only
  rw [if_pos hs]
  refine ⟨_, rfl, rfl, rfl, rfl, List.length_set, ?_, ?_⟩
  · unfold getItem
    simp only
    rw [List.getElem?_set_self ht]
    simp only
    rw [if_pos hs, Function.update_self]
  · intro t' s' hne
    unfold getItem
    simp only
    by_cases htt : t' = t
    · grind
    · have hnat : t.toNat ≠ t'.toNat := by
        intro he
        exact htt (UInt8.toNat_inj.mp he.symm)
      rw [List.getElem?_set_ne hnat]

theorem setItem_of_not_hasSlot (h : ¬ g.HasSlot t s) (v : Option Item) :
    g.setItem t s v = (g, false) := by
  unfold setItem
  split
  · next tab ht =>
    rw [if_neg]
    intro hs
    exact h ⟨(List.getElem?_eq_some_iff.mp ht).1, hs⟩
  · rfl

theorem getItem_setItem_ne (v : Option Item) (hne : (t', s') ≠ (t, s)) :
    (g.setItem t s v).1.getItem t' s' = g.getItem t' s' := by
  by_cases h : g.HasSlot t s
  · obtain ⟨g', he, -, -, -, -, -, hframe⟩ := setItem_of_hasSlot h v
    rw [he]
    exact hframe t' s' hne
  · rw [setItem_of_not_hasSlot h]

@[simp] theorem getItem_updateMemberWithdrawSlots {guid : ObjectGuid} :
    (g.updateMemberWithdrawSlots guid t').getItem t s = g.getItem t s := by
  unfold updateMemberWithdrawSlots
  split
  · split <;> rfl
  · rfl

@[simp] theorem bankTabs_updateMemberWithdrawSlots {guid : ObjectGuid} :
    (g.updateMemberWithdrawSlots guid t').bankTabs = g.bankTabs := by
  unfold updateMemberWithdrawSlots
  split
  · split <;> rfl
  · rfl

/-! ## What leaves a tab -/

/-- Some item of the tab is no longer in its slot, or fewer of it are. -/
def Loses (g g' : Guild) (t : UInt8) : Prop :=
  ∃ s i, g.getItem t s = some i ∧
    ∀ i', g'.getItem t s = some i' → i'.guid = i.guid → i'.count < i.count

/-- Some item of the tab was not in its slot before, or fewer of it were. -/
def Gains (g g' : Guild) (t : UInt8) : Prop := Loses g' g t

theorem not_loses_iff : ¬ Loses g g' t ↔ ∀ s i, g.getItem t s = some i →
    ∃ i', g'.getItem t s = some i' ∧ i'.guid = i.guid ∧ i.count ≤ i'.count := by
  constructor
  · intro h s i hi
    by_contra hn
    apply h
    refine ⟨s, i, hi, ?_⟩
    intro i' hi' hg
    apply Nat.lt_of_not_le
    intro hle
    exact hn ⟨i', hi', hg, hle⟩
  · rintro h ⟨s, i, hi, hlost⟩
    obtain ⟨i', hi', hg, hle⟩ := h s i hi
    exact absurd (hlost i' hi' hg) (Nat.not_lt.mpr hle)

theorem not_loses_of_eq (h : ∀ s, g'.getItem t s = g.getItem t s) : ¬ Loses g g' t := by
  rw [not_loses_iff]
  intro s i hi
  exact ⟨i, (h s).trans hi, rfl, Nat.le_refl _⟩

theorem not_loses_trans (h : ¬ Loses g g' t) (h' : ¬ Loses g' g'' t) : ¬ Loses g g'' t := by
  grind [not_loses_iff]

theorem not_gains_setItem (hs : g.getItem t s = some held) (v : Option Item)
    (hv : ∀ i, v = some i → i.guid = held.guid ∧ i.count ≤ held.count) :
    ¬ Gains g (g.setItem t s v).1 t' := by
  rw [Gains, not_loses_iff]
  obtain ⟨g', he, -, -, -, -, hself, hframe⟩ := setItem_of_hasSlot (getItem_hasSlot hs) v
  grind

theorem not_loses_setItem (v : Option Item)
    (hv : ∀ i, g.getItem t s = some i → ∃ i', v = some i' ∧ i'.guid = i.guid ∧ i.count ≤ i'.count) :
    ¬ Loses g (g.setItem t s v).1 t' := by
  by_cases h : g.HasSlot t s
  · rw [not_loses_iff]
    obtain ⟨g', he, -, -, -, -, hself, hframe⟩ := setItem_of_hasSlot h v
    grind
  · rw [setItem_of_not_hasSlot h]
    exact not_loses_of_eq fun _ => rfl

end Guild

open Guild

/-! ## The steps of a move -/

/-- Whether an end is in a tab of the bank. -/
def MoveItemData.inTab (t : UInt8) : MoveItemData → Bool
  | .bank container _ => container = t
  | .player _ _ => false

theorem removeItem_frame (h : src.inTab t = false) :
    (removeItem inv w player held other split src).guild.getItem t s = w.guild.getItem t s := by
  cases src with
  | player container slotId => rfl
  | bank container slotId =>
    grind [getItem_setItem_ne, getItem_updateMemberWithdrawSlots, removeItem, MoveItemData.inTab]

theorem removeItem_not_gains (player : ObjectGuid) (other : MoveItemData) (split : Nat)
    (hs : initItem inv w src = some held) :
    ¬ Gains w.guild (removeItem inv w player held other split src).guild t := by
  cases src with
  | player container slotId => exact not_loses_of_eq fun _ => rfl
  | bank container slotId =>
    have hset : ¬ Gains w.guild (w.guild.setItem container slotId
        (if split ≠ 0 then some { held with count := held.count - split } else none)).1 t := by
      apply not_gains_setItem hs
      intro i hi
      split at hi
      · cases hi
        exact ⟨rfl, Nat.sub_le _ _⟩
      · cases hi
    grind [getItem_updateMemberWithdrawSlots, not_loses_iff, Gains, removeItem]

@[simp] theorem guild_cloneItem :
    (cloneItem maxStackCount w item n).1.guild = w.guild := by
  unfold cloneItem
  split <;> rfl

theorem storeItemAt_spec (maxStackCount : Nat → Nat) (w : BankState σ) (t : UInt8) (item : Item)
    (s : UInt8) (n : Nat) (clone : Bool) (t' : UInt8) :
    ¬ Loses w.guild (storeItemAt maxStackCount w t item s n clone).1.guild t' ∧
      (t' ≠ t → ∀ s', (storeItemAt maxStackCount w t item s n clone).1.guild.getItem t' s' =
        w.guild.getItem t' s') := by
  have hsame : ¬ Loses w.guild w.guild t' := not_loses_of_eq fun _ => rfl
  unfold storeItemAt
  split
  · next d hd =>
    refine ⟨?_, ?_⟩
    · apply not_loses_setItem
      intro i hi
      cases hd.symm.trans hi
      exact ⟨_, rfl, rfl, Nat.le_add_right _ _⟩
    · intro hne s'
      apply getItem_setItem_ne
      rintro ⟨⟩
      exact hne rfl
  · next hnone =>
    have hguild : (if clone then cloneItem maxStackCount w item n
        else (w, some { item with count := n })).1.guild = w.guild := by
      split
      · exact guild_cloneItem
      · rfl
    split
    · grind
    · next w' placed hw' =>
      rw [hw'] at hguild
      simp only at hguild
      have hset : ¬ Loses w.guild (w'.guild.setItem t s (some placed)).1 t' ∧ (t' ≠ t → ∀ s',
          (w'.guild.setItem t s (some placed)).1.getItem t' s' = w.guild.getItem t' s') := by
        rw [hguild]
        refine ⟨not_loses_setItem _ fun i hi => ?_, ?_⟩
        · cases hnone.symm.trans hi
        · intro hne s'
          apply getItem_setItem_ne
          rintro ⟨⟩
          exact hne rfl
      grind

theorem storeItemVec_spec (vec : List (UInt8 × Nat)) (w : BankState σ) :
    ¬ Loses w.guild (storeItemVec maxStackCount t item w vec).1.guild t' ∧
      (t' ≠ t → ∀ s', (storeItemVec maxStackCount t item w vec).1.guild.getItem t' s' =
        w.guild.getItem t' s') := by
  induction vec generalizing w with
  | nil => exact ⟨not_loses_of_eq fun _ => rfl, fun _ _ => rfl⟩
  | cons x rest ih =>
    obtain ⟨slotId, count⟩ := x
    obtain ⟨h1, hf1⟩ := storeItemAt_spec maxStackCount w t item slotId count (!rest.isEmpty) t'
    obtain ⟨h2, hf2⟩ := ih (storeItemAt maxStackCount w t item slotId count !rest.isEmpty).1
    exact ⟨not_loses_trans h1 h2, fun hne s' => (hf2 hne s').trans (hf1 hne s')⟩

theorem storeItem_not_loses {plan : StorePlan ρ} :
    ¬ Loses w.guild (storeItem maxStackCount inv w item dest plan).1.guild t := by
  cases dest with
  | player c b => cases plan <;> exact not_loses_of_eq fun _ => rfl
  | bank container slotId =>
    cases plan with
    | player vec => exact not_loses_of_eq fun _ => rfl
    | bank vec => exact (storeItemVec_spec vec w).1

theorem storeItem_frame {plan : StorePlan ρ} (h : dest.inTab t = false) :
    (storeItem maxStackCount inv w item dest plan).1.guild.getItem t s = w.guild.getItem t s := by
  cases dest with
  | player c b => cases plan <;> rfl
  | bank container slotId =>
    cases plan with
    | player vec => rfl
    | bank vec =>
      refine (storeItemVec_spec vec w).2 ?_ s
      rintro rfl
      simp [MoveItemData.inTab] at h

end EGServer.Guilds
