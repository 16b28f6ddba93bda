import EGServer.Guilds.BankSlots

/-!
# Access to the guild bank

An item leaves a tab only for a member who may take items out of it today, and enters one only
for a member who may deposit there; a move within one tab is neither. The rights are asked for
in the direction of the move, and again in the other one before two items are swapped.
-/

namespace EGServer.Guilds

open Guild

variable {σ ρ : Type} {maxStackCount : Nat → Nat} {inv : Inventory σ ρ} {w : BankState σ}
  {g g' : Guild} {player : ObjectGuid} {t s : UInt8} {item held i srcItem : Item}
  {src dest : MoveItemData} {split n : Nat}

/-! ## A move that needs no swap -/

theorem doItemsMove_cases (maxStackCount : Nat → Nat) (player : ObjectGuid) (dest : MoveItemData)
    (srcItem : Item) (destItem : Option Item) (split : Nat)
    (hheld : initItem inv w src = some held) :
    ((doItemsMove maxStackCount inv w player src dest srcItem held destItem split).stored = none ∧
      (doItemsMove maxStackCount inv w player src dest srcItem held destItem split).state = w) ∨
    ((doItemsMove maxStackCount inv w player src dest srcItem held destItem split).stored.isSome ∧
      (∀ t s, src.inTab t = false → dest.inTab t = false →
      (doItemsMove maxStackCount inv w player src dest srcItem held destItem split).state.guild.getItem
        t s = w.guild.getItem t s) ∧
      (destItem = none → ∀ t,
        (src.inTab t = false → ¬ Loses w.guild
          (doItemsMove maxStackCount inv w player src dest srcItem held destItem split).state.guild t) ∧
        (dest.inTab t = false → ¬ Gains w.guild
          (doItemsMove maxStackCount inv w player src dest srcItem held destItem split).state.guild t))) := by
  unfold doItemsMove
  split
  · exact Or.inl ⟨rfl, rfl⟩
  · next destPlan hplan =>
    cases destItem with
    | none =>
      refine Or.inr ⟨rfl, ?_, ?_⟩
      · intro t s hs hd
        exact (storeItem_frame hd).trans (removeItem_frame hs)
      · intro _ t
        refine ⟨?_, ?_⟩
        · intro hs
          refine not_loses_trans (not_loses_of_eq fun s => ?_) storeItem_not_loses
          exact removeItem_frame hs
        · intro hd
          have hrem : ¬ Loses _ w.guild t :=
            removeItem_not_gains player dest split hheld
          refine not_loses_trans (not_loses_of_eq fun s => ?_) hrem
          exact (storeItem_frame hd).symm
    | some destItem =>
      simp only
      split
      · exact Or.inl ⟨rfl, rfl⟩
      · refine Or.inr ⟨rfl, ?_, fun h => nomatch h⟩
        intro t s hs hd
        exact (storeItem_frame hs).trans ((storeItem_frame hd).trans
          ((removeItem_frame hd).trans (removeItem_frame hs)))

theorem cloneItem_same : (cloneItem maxStackCount w item n).1.guild = w.guild ∧
    (cloneItem maxStackCount w item n).1.inventory = w.inventory := by
  unfold cloneItem
  split <;> exact ⟨rfl, rfl⟩

/-- The two halves of the access rule for one move: what a tab loses was taken with the right
to take it in that direction, and what it gains was put there with the right to put it. -/
def MoveAllowed (w : BankState σ) (player : ObjectGuid) (src dest : MoveItemData) (g' : Guild) :
    Prop :=
  ∀ t,
    (Loses w.guild g' t → src.inTab t = true ∧ hasWithdrawRights w player dest src = true ∨
      dest.inTab t = true ∧ hasWithdrawRights w player src dest = true) ∧
    (Gains w.guild g' t → dest.inTab t = true ∧ hasStoreRights w player src dest = true ∨
      src.inTab t = true ∧ hasStoreRights w player dest src = true)

theorem moveAllowed_of_eq (h : ∀ t s, g'.getItem t s = w.guild.getItem t s) :
    MoveAllowed w player src dest g' := by
  intro t
  refine ⟨fun hl => absurd hl (not_loses_of_eq (h t)), fun hg => absurd hg ?_⟩
  exact not_loses_of_eq fun s => (h t s).symm

theorem doItemsMove_oneWay (maxStackCount : Nat → Nat) (srcItem : Item) (split : Nat)
    (hheld : initItem inv w src = some held)
    (hstore : hasStoreRights w player src dest = true)
    (hwithdraw : hasWithdrawRights w player dest src = true) :
    MoveAllowed w player src dest
      (doItemsMove maxStackCount inv w player src dest srcItem held none split).state.guild := by
  rcases doItemsMove_cases maxStackCount player dest srcItem none split hheld with ⟨-, he⟩ | ⟨-, -, hone⟩
  · rw [he]
    exact moveAllowed_of_eq fun _ _ => rfl
  · intro t
    obtain ⟨hloses, hgains⟩ := hone rfl t
    refine ⟨fun hl => Or.inl ⟨?_, hwithdraw⟩, fun hg => Or.inl ⟨?_, hstore⟩⟩
    · by_contra hn
      exact hloses (Bool.eq_false_iff.mpr hn) hl
    · by_contra hn
      exact hgains (Bool.eq_false_iff.mpr hn) hg

theorem doItemsMove_swap (destItem : Option Item) (hheld : initItem inv w src = some held)
    (hstore : hasStoreRights w player src dest = true)
    (hwithdraw : hasWithdrawRights w player dest src = true)
    (hstore' : hasStoreRights w player dest src = true)
    (hwithdraw' : hasWithdrawRights w player src dest = true) :
    MoveAllowed w player src dest
      (doItemsMove maxStackCount inv w player src dest srcItem held destItem split).state.guild := by
  rcases doItemsMove_cases maxStackCount player dest srcItem destItem split hheld with ⟨-, he⟩ | ⟨-, hframe, -⟩
  · rw [he]
    exact moveAllowed_of_eq fun _ _ => rfl
  · intro t
    by_cases hs : src.inTab t = true
    · exact ⟨fun _ => Or.inl ⟨hs, hwithdraw⟩, fun _ => Or.inr ⟨hs, hstore'⟩⟩
    · by_cases hd : dest.inTab t = true
      · exact ⟨fun _ => Or.inr ⟨hd, hwithdraw'⟩, fun _ => Or.inl ⟨hd, hstore⟩⟩
      · have hsame : ∀ s, _ = w.guild.getItem t s := fun s =>
          hframe t s (Bool.eq_false_iff.mpr hs) (Bool.eq_false_iff.mpr hd)
        refine ⟨fun hl => absurd hl (not_loses_of_eq hsame), fun hg => absurd hg ?_⟩
        exact not_loses_of_eq fun s => (hsame s).symm

theorem trySwap_allowed (hheld : initItem inv w src = some item)
    (hstore : hasStoreRights w player src dest = true)
    (hwithdraw : hasWithdrawRights w player dest src = true) :
    MoveAllowed w player src dest
      (trySwap maxStackCount inv w player src dest item).state.guild := by
  unfold trySwap
  split
  · exact moveAllowed_of_eq fun _ _ => rfl
  · split
    · exact moveAllowed_of_eq fun _ _ => rfl
    · next hstore' =>
      split
      · exact moveAllowed_of_eq fun _ _ => rfl
      · next hwithdraw' =>
        exact doItemsMove_swap _ hheld hstore hwithdraw (by simpa using hstore')
          (by simpa using hwithdraw')

theorem moveWhole_allowed (hheld : initItem inv w src = some item)
    (hstore : hasStoreRights w player src dest = true)
    (hwithdraw : hasWithdrawRights w player dest src = true) :
    MoveAllowed w player src dest
      (moveWhole maxStackCount inv w player src dest item).state.guild := by
  unfold moveWhole
  simp only
  rcases doItemsMove_cases maxStackCount player dest item none 0 hheld with ⟨hnone, he⟩ | ⟨hsome, -, -⟩
  · rw [hnone, he]
    exact trySwap_allowed hheld hstore hwithdraw
  · rw [if_pos hsome]
    exact doItemsMove_oneWay maxStackCount item 0 hheld hstore hwithdraw

theorem moveSplit_allowed (hheld : initItem inv w src = some item)
    (hstore : hasStoreRights w player src dest = true)
    (hwithdraw : hasWithdrawRights w player dest src = true) :
    MoveAllowed w player src dest
      (moveSplit maxStackCount inv w player src dest item split).state.guild := by
  unfold moveSplit
  unfold cloneItem
  split
  · next w' hw' =>
    split at hw'
    · cases hw'
      exact moveAllowed_of_eq fun _ _ => rfl
    · cases hw'
  · next w' cloned hw' =>
    split at hw'
    · cases hw'
    · cases hw'
      have hheld' : initItem inv { w with nextItem := w.nextItem + 1 } src = some item := by
        cases src <;> exact hheld
      have hstore' : hasStoreRights { w with nextItem := w.nextItem + 1 } player src dest = true := by
        cases dest <;> exact hstore
      have hwithdraw' :
          hasWithdrawRights { w with nextItem := w.nextItem + 1 } player dest src = true := by
        cases src <;> exact hwithdraw
      have hall := doItemsMove_oneWay maxStackCount
        { item with guid := w.nextItem, count := min split (maxStackCount item.entry) } split
        hheld' hstore' hwithdraw'
      cases src <;> cases dest <;> exact hall

/-- **Every move** of `_MoveItems` keeps to the rights of the member. -/
theorem moveItems_allowed (src dest : MoveItemData) (split : Nat) :
    MoveAllowed w player src dest
      (moveItems maxStackCount inv w player src dest split).state.guild := by
  unfold moveItems
  split
  · exact moveAllowed_of_eq fun _ _ => rfl
  · next item hitem =>
    split
    · exact moveAllowed_of_eq fun _ _ => rfl
    · split
      · exact moveAllowed_of_eq fun _ _ => rfl
      · next hstore =>
        have hstore : hasStoreRights w player src dest = true := by simpa using hstore
        split
        · exact moveAllowed_of_eq fun _ _ => rfl
        · next hwithdraw =>
          have hwithdraw : hasWithdrawRights w player dest src = true := by simpa using hwithdraw
          split
          · exact moveSplit_allowed hitem hstore hwithdraw
          · exact moveWhole_allowed hitem hstore hwithdraw

/-! ## Requests -/

/-- A request of a member to the bank. -/
inductive BankRequest where
  | swapItems (tabId slotId destTabId destSlotId : UInt8) (splitedAmount : Nat)
  | swapItemsWithInventory (toChar : Bool) (tabId slotId playerBag playerSlotId : UInt8)
      (splitedAmount : Nat)

namespace BankRequest

def run (maxStackCount : Nat → Nat) (inv : Inventory σ ρ) (w : BankState σ) (player : ObjectGuid) :
    BankRequest → MoveResult σ
  | swapItems tabId slotId destTabId destSlotId splitedAmount =>
    EGServer.Guilds.swapItems maxStackCount inv w player tabId slotId destTabId destSlotId
      splitedAmount
  | swapItemsWithInventory toChar tabId slotId playerBag playerSlotId splitedAmount =>
    EGServer.Guilds.swapItemsWithInventory maxStackCount inv w player toChar tabId slotId playerBag
      playerSlotId splitedAmount

/-- The request moves items within one tab. -/
def Within (t : UInt8) : BankRequest → Prop
  | swapItems tabId _ destTabId _ _ => tabId = t ∧ destTabId = t
  | swapItemsWithInventory .. => False

end BankRequest

/-- The member is guild master, or the rank may view the tab and has withdrawals left today. -/
def MayTakeItems (g : Guild) (player : ObjectGuid) (t : UInt8) : Prop :=
  ∃ m, g.getMember player = some m ∧ (m.rankId = GR_GUILDMASTER ∨
    g.getRankBankTabRights m.rankId t &&& GUILD_BANK_RIGHT_VIEW_TAB ≠ 0 ∧
      0 < g.getRankBankTabSlotsPerDay m.rankId t - m.getBankWithdrawValue t)

/-- The member is guild master, by rank or by the leader guid, or the rank may deposit. -/
def MayDeposit (g : Guild) (player : ObjectGuid) (t : UInt8) : Prop :=
  ∃ m, g.getMember player = some m ∧ (m.rankId = GR_GUILDMASTER ∨ g.leaderGuid = player ∨
    g.getRankBankTabRights m.rankId t &&& GUILD_BANK_RIGHT_DEPOSIT_ITEM =
      GUILD_BANK_RIGHT_DEPOSIT_ITEM)

/-- The member is guild master, or the rank may withdraw for repairs or withdraw gold. -/
def MayRepair (g : Guild) (player : ObjectGuid) : Prop :=
  ∃ m, g.getMember player = some m ∧ (m.rankId = GR_GUILDMASTER ∨
    g.getRankRights m.rankId &&& (GR_RIGHT_WITHDRAW_REPAIR ||| GR_RIGHT_WITHDRAW_GOLD) ≠ 0)

theorem mayTakeItems_of (hs : src.sameTab dest = false) (ht : src.inTab t = true)
    (h : hasWithdrawRights w player dest src = true) : MayTakeItems w.guild player t := by
  cases src with
  | player c b => cases ht
  | bank c b =>
    obtain rfl : c = t := of_decide_eq_true ht
    unfold hasWithdrawRights at h
    simp only [hs] at h
    rw [if_neg Bool.false_ne_true] at h
    split at h
    · next m hm =>
      refine ⟨m, hm, ?_⟩
      have hslots : w.guild.getMemberRemainingSlots m c ≠ 0 := of_decide_eq_true h
      unfold getMemberRemainingSlots at hslots
      grind
    · cases h

theorem mayDeposit_of (hs : dest.sameTab src = false) (ht : dest.inTab t = true)
    (h : hasStoreRights w player src dest = true) : MayDeposit w.guild player t := by
  cases dest with
  | player c b => cases ht
  | bank c b =>
    obtain rfl : c = t := of_decide_eq_true ht
    unfold hasStoreRights at h
    simp only [hs] at h
    rw [if_neg Bool.false_ne_true] at h
    unfold memberHasTabRights at h
    split at h
    · next m hm =>
      refine ⟨m, hm, ?_⟩
      split at h
      · next hl =>
        rcases (Bool.or_eq_true _ _).mp hl with hr | hl
        · exact Or.inl (of_decide_eq_true hr)
        · exact Or.inr (Or.inl (of_decide_eq_true hl))
      · exact Or.inr (Or.inr (of_decide_eq_true h))
    · cases h

theorem sameTab_comm (a b : MoveItemData) : a.sameTab b = b.sameTab a := by
  cases a <;> cases b <;> simp only [MoveItemData.sameTab, eq_comm]

theorem access_of_allowed (hs : src.sameTab dest = false) (h : MoveAllowed w player src dest g') :
    ∀ t, (Loses w.guild g' t → MayTakeItems w.guild player t) ∧
      (Gains w.guild g' t → MayDeposit w.guild player t) := by
  intro t
  obtain ⟨hl, hg⟩ := h t
  have hs' : dest.sameTab src = false := (sameTab_comm _ _).trans hs
  constructor
  · intro hloses
    rcases hl hloses with ⟨ht, hr⟩ | ⟨ht, hr⟩
    · exact mayTakeItems_of hs ht hr
    · exact mayTakeItems_of hs' ht hr
  · intro hgains
    rcases hg hgains with ⟨ht, hr⟩ | ⟨ht, hr⟩
    · exact mayDeposit_of hs' ht hr
    · exact mayDeposit_of hs ht hr

/-- **Items.** What leaves a tab was taken by somebody who may take it, and what enters one
was put there by somebody who may deposit. -/
theorem bankRequest_access (req : BankRequest) (hw : ¬ req.Within t) :
    (Loses w.guild (req.run maxStackCount inv w player).state.guild t →
        MayTakeItems w.guild player t) ∧
      (Gains w.guild (req.run maxStackCount inv w player).state.guild t →
        MayDeposit w.guild player t) := by
  have hsame : (Loses w.guild w.guild t → MayTakeItems w.guild player t) ∧
      (Gains w.guild w.guild t → MayDeposit w.guild player t) :=
    ⟨fun h => absurd h (not_loses_of_eq fun _ => rfl),
      fun h => absurd h (not_loses_of_eq fun _ => rfl)⟩
  cases req with
  | swapItems a b c d n =>
    unfold BankRequest.run swapItems
    simp only
    split
    · exact hsame
    · split
      · exact hsame
      · by_cases hac : a = c
        · -- a move within another tab
          have hall : MoveAllowed w player (.bank a b) (.bank c d)
              (moveItems maxStackCount inv w player (.bank a b) (.bank c d) n).state.guild :=
            moveItems_allowed _ _ n
          replace hall := hall t
          have hout : ¬ (a = t) := fun hat => hw ⟨hat, hac ▸ hat⟩
          subst hac
          simp only [MoveItemData.inTab, decide_eq_true_eq] at hall
          grind
        · have hs : (MoveItemData.bank a b).sameTab (.bank c d) = false := decide_eq_false hac
          exact access_of_allowed hs (moveItems_allowed _ _ n) t
  | swapItemsWithInventory toChar a b c d n =>
    unfold BankRequest.run swapItemsWithInventory
    simp only
    split
    · exact hsame
    · split
      · exact access_of_allowed rfl (moveItems_allowed _ _ n) t
      · exact access_of_allowed rfl (moveItems_allowed _ _ n) t

/-- **Money.** Money leaves the bank only for somebody who may withdraw it. -/
theorem withdrawMoney_access {amount : UInt32} {repair canHold : Bool}
    (h : (g.handleMemberWithdrawMoney player amount repair canHold).1.bankMoney ≠ g.bankMoney) :
    MayRepair g player := by
  unfold handleMemberWithdrawMoney at h
  simp only at h
  split at h
  · exact absurd rfl h
  · split at h
    · exact absurd rfl h
    · next m hm =>
      split at h
      · exact absurd rfl h
      · next hleft =>
        split at h
        · exact absurd rfl h
        · refine ⟨m, hm, ?_⟩
          by_contra hn
          obtain ⟨hrank, hright⟩ := not_or.mp hn
          -- nothing is left to withdraw, so nothing is withdrawn
          have hzero : g.getMemberRemainingMoney m = 0 := by
            unfold getMemberRemainingMoney
            rw [if_neg hrank, if_neg hright]
          rw [hzero] at hleft
          have hamount : min amount MAX_MONEY_AMOUNT = 0 := by
            have hle := UInt32.not_lt.mp hleft
            exact UInt32.le_antisymm hle (UInt32.zero_le)
          rw [hamount] at h
          exact h (UInt64.sub_zero _)

/-- An inventory of one place. -/
def pocket : Inventory (Option Item) Unit where
  initItem st _ _ := st
  canStoreItem st _ _ _ _ := if st.isNone then some () else none
  removeItem _ _ _ _ := none
  moveItemToInventory _ _ item := some item

/-- Ann leads with rank 4, which may not deposit; the officers may withdraw for repairs. -/
def annsBank : Guild where
  name := "Anns"
  leaderGuid := 1
  bankMoney := 1000
  ranks := [.new 0 GR_RIGHT_ALL 0, .new 1 GR_RIGHT_WITHDRAW_REPAIR 100, .new 2 0 0, .new 3 0 0,
    .new 4 0 0]
  members := ⟨[{ guid := 1, name := "Ann", rankId := 4 }, { guid := 2, name := "Bea", rankId := 1 }],
    by decide⟩
  bankTabs := [{}]

def annsPotion : Item := { guid := 7, entry := 118, count := 5 }

def annsMove : BankState (Option Item) where
  guild := annsBank
  inventory := some annsPotion
  nextItem := 8

end EGServer.Guilds
