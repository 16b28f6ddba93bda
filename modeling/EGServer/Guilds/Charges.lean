import EGServer.Guilds.BankRights

/-!
# What a move of items is charged

An item that leaves a bank tab for another tab or for the inventory is charged to the member who
moves it: `_UpdateMemberWithdrawSlots` adds one to the daily counter of the tab, unless the member is
guild master or the counter has reached the limit. Nothing else about the members is changed by a
move.
-/

namespace EGServer.Guilds

variable {σ ρ : Type} {maxStackCount : Nat → Nat} {inv : Inventory σ ρ} {w : BankState σ}
  {g g' g'' : Guild} {player guid : ObjectGuid} {t : UInt8} {item held : Item} {m : Member}
  {src dest : MoveItemData} {tabs : List UInt8}

namespace Guild

/-- The same members with the same counters, and the same ranks and limits. -/
structure Alike (g g' : Guild) : Prop where
  members : g'.members = g.members
  ranks : g'.ranks = g.ranks
  tabs : g'.bankTabs.length = g.bankTabs.length
  money : g'.bankMoney = g.bankMoney
  leader : g'.leaderGuid = g.leaderGuid

theorem Alike.refl (g : Guild) : Alike g g := ⟨rfl, rfl, rfl, rfl, rfl⟩

theorem Alike.trans (h : Alike g g') (h' : Alike g' g'') : Alike g g'' where
  members := h'.members.trans h.members
  ranks := h'.ranks.trans h.ranks
  tabs := h'.tabs.trans h.tabs
  money := h'.money.trans h.money
  leader := h'.leader.trans h.leader

theorem Alike.getMember (h : Alike g g') (p : ObjectGuid) : g'.getMember p = g.getMember p := by
  rw [Guild.getMember, Guild.getMember, h.members]

theorem getRankInfo_congr (hranks : g'.ranks = g.ranks) (r : UInt8) :
    g'.getRankInfo r = g.getRankInfo r := by
  rw [getRankInfo, getRankInfo, getRanksSize, getRanksSize, hranks]

theorem getRankBankTabSlotsPerDay_congr (hranks : g'.ranks = g.ranks)
    (htabs : g'.bankTabs.length = g.bankTabs.length) (r t : UInt8) :
    g'.getRankBankTabSlotsPerDay r t = g.getRankBankTabSlotsPerDay r t := by
  grind [getRankInfo_congr, getPurchasedTabsSize, getRankBankTabSlotsPerDay]

theorem alike_setItem (g : Guild) (tabId slotId : UInt8) (v : Option Item) :
    Alike g (g.setItem tabId slotId v).1 := by
  unfold setItem
  split
  · split
    · exact ⟨rfl, rfl, List.length_set, rfl, rfl⟩
    · exact .refl g
  · exact .refl g

/-! ## One charge -/

/-- Whether `_UpdateMemberWithdrawSlots` adds one. -/
def isCharged (g : Guild) (m : Member) (t : UInt8) : Prop :=
  m.rankId ≠ GR_GUILDMASTER ∧ m.getBankWithdrawValue t < g.getRankBankTabSlotsPerDay m.rankId t

instance (g : Guild) (m : Member) (t : UInt8) : Decidable (g.isCharged m t) :=
  inferInstanceAs (Decidable (_ ∧ _))

theorem Alike.isCharged (h : Alike g g') (m : Member) (t : UInt8) :
    g'.isCharged m t ↔ g.isCharged m t := by
  rw [Guild.isCharged, Guild.isCharged,
    getRankBankTabSlotsPerDay_congr h.ranks h.tabs m.rankId t]

theorem members_of_charged (hm : g.getMember player = some m) (h : g.isCharged m t) :
    (g.updateMemberWithdrawSlots player t).members =
      g.members.modify player (Member.updateBankWithdrawValue t 1)
        (Member.guid_updateBankWithdrawValue t 1) := by
  unfold updateMemberWithdrawSlots
  rw [hm]
  exact congrArg Guild.members (if_pos h)

theorem updateMemberWithdrawSlots_of_not
    (h : ∀ m, g.getMember player = some m → ¬g.isCharged m t) :
    g.updateMemberWithdrawSlots player t = g := by
  unfold updateMemberWithdrawSlots
  split
  · next m hm => exact if_neg (h m hm)
  · rfl

theorem getMember_updateMemberWithdrawSlots (g : Guild) (player : ObjectGuid) (t : UInt8)
    (p : ObjectGuid) :
    (g.updateMemberWithdrawSlots player t).getMember p = (g.getMember p).map fun m =>
      if p = player ∧ g.isCharged m t then m.updateBankWithdrawValue t 1 else m := by
  by_cases hcharged : ∃ m, g.getMember player = some m ∧ g.isCharged m t
  · obtain ⟨m, hm, hcharged⟩ := hcharged
    rw [Guild.getMember, members_of_charged hm hcharged]
    by_cases hp : p = player
    · subst hp
      rw [Table.get?_modify_self]
      rw [Guild.getMember] at hm ⊢
      rw [hm, Option.map_some, Option.map_some, if_pos ⟨rfl, hcharged⟩]
    · rw [Table.get?_modify_ne _ _ hp]
      simp only [hp, false_and, if_false]
      exact Option.map_id'.symm
  · have hnot : ∀ m, g.getMember player = some m → ¬g.isCharged m t := by
      intro m hm h
      exact hcharged ⟨m, hm, h⟩
    rw [updateMemberWithdrawSlots_of_not hnot]
    cases hm : g.getMember p with
    | none => rfl
    | some m =>
      rw [Option.map_some, if_neg]
      rintro ⟨rfl, h⟩
      exact hnot m hm h

theorem rest_updateMemberWithdrawSlots (g : Guild) (player : ObjectGuid) (t : UInt8) :
    (g.updateMemberWithdrawSlots player t).ranks = g.ranks ∧
      (g.updateMemberWithdrawSlots player t).bankTabs = g.bankTabs ∧
      (g.updateMemberWithdrawSlots player t).bankMoney = g.bankMoney ∧
      (g.updateMemberWithdrawSlots player t).leaderGuid = g.leaderGuid := by
  unfold updateMemberWithdrawSlots
  split
  · split <;> exact ⟨rfl, rfl, rfl, rfl⟩
  · exact ⟨rfl, rfl, rfl, rfl⟩

theorem Alike.updateMemberWithdrawSlots (h : Alike g g') (player : ObjectGuid) (t : UInt8) :
    Alike (g.updateMemberWithdrawSlots player t) (g'.updateMemberWithdrawSlots player t) := by
  obtain ⟨hranks, htabs, hmoney, hleader⟩ := rest_updateMemberWithdrawSlots g player t
  obtain ⟨hranks', htabs', hmoney', hleader'⟩ := rest_updateMemberWithdrawSlots g' player t
  refine ⟨?_, ?_, ?_, ?_, ?_⟩
  · by_cases hcharged : ∃ m, g.getMember player = some m ∧ g.isCharged m t
    · obtain ⟨m, hm, hcharged⟩ := hcharged
      rw [members_of_charged hm hcharged,
        members_of_charged ((h.getMember player).trans hm) ((h.isCharged m t).mpr hcharged), h.members]
    · have hnot : ∀ m, g.getMember player = some m → ¬g.isCharged m t := by
        intro m hm h
        exact hcharged ⟨m, hm, h⟩
      rw [updateMemberWithdrawSlots_of_not hnot, updateMemberWithdrawSlots_of_not, h.members]
      intro m hm hc
      exact hnot m ((h.getMember player).symm.trans hm) ((h.isCharged m t).mp hc)
  · rw [hranks, hranks', h.ranks]
  · rw [htabs, htabs', h.tabs]
  · rw [hmoney, hmoney', h.money]
  · rw [hleader, hleader', h.leader]

/-- The charges of a move, one for each tab an item is taken out of. -/
def charge (g : Guild) (player : ObjectGuid) (tabs : List UInt8) : Guild :=
  tabs.foldl (fun g t => g.updateMemberWithdrawSlots player t) g

theorem Alike.charge (h : Alike g g') (player : ObjectGuid) (tabs : List UInt8) :
    Alike (g.charge player tabs) (g'.charge player tabs) := by
  induction tabs generalizing g g' with
  | nil => exact h
  | cons t tabs ih => exact ih (h.updateMemberWithdrawSlots player t)

end Guild

open Guild

/-! ## What a move charges -/

/-- The tab that an item leaves when it is taken out at this end to go to the other one. -/
def MoveItemData.tabLeft : MoveItemData → MoveItemData → List UInt8
  | .player _ _, _ => []
  | .bank container slotId, other =>
    if (MoveItemData.bank container slotId).sameTab other then [] else [container]

theorem removeItem_alike (player : ObjectGuid) (other : MoveItemData) (split : Nat) :
    Alike (w.guild.charge player (src.tabLeft other))
      (removeItem inv w player held other split src).guild := by
  cases src with
  | player container slotId => exact .refl _
  | bank container slotId =>
    unfold removeItem MoveItemData.tabLeft
    dsimp only
    split
    · exact alike_setItem _ _ _ _
    · exact (alike_setItem _ _ _ _).updateMemberWithdrawSlots player container

theorem storeItemAt_alike (tabId slotId : UInt8) (count : Nat) (clone : Bool) :
    Alike w.guild (storeItemAt maxStackCount w tabId item slotId count clone).1.guild := by
  unfold storeItemAt
  split
  · exact alike_setItem _ _ _ _
  · have hclone : ∀ {w' : BankState σ} {o : Option Item},
        (if clone then cloneItem maxStackCount w item count
          else (w, some { item with count := count })) = (w', o) → w'.guild = w.guild := by
      grind [cloneItem_same]
    split
    · next w' hplaced =>
      rw [hclone hplaced]
      exact .refl _
    · next w' placed hplaced =>
      have hsame := hclone hplaced
      have halike := alike_setItem w'.guild tabId slotId (some placed)
      rw [hsame] at halike
      split
      · next hset =>
        rw [hsame] at hset
        rw [hset] at halike
        exact halike
      · rw [hsame]
        exact .refl _

theorem storeItemVec_alike (tabId : UInt8) (vec : List (UInt8 × Nat)) (w : BankState σ) :
    Alike w.guild (storeItemVec maxStackCount tabId item w vec).1.guild := by
  induction vec generalizing w with
  | nil => exact .refl _
  | cons p rest ih => exact (storeItemAt_alike tabId p.1 p.2 _).trans (ih _)

theorem storeItem_alike {plan : StorePlan ρ} :
    Alike w.guild (storeItem maxStackCount inv w item dest plan).1.guild := by
  unfold storeItem
  split
  · exact storeItemVec_alike _ _ w
  · exact .refl _
  · exact .refl _

/-- What `_DoItemsMove` charges, when it moves anything. -/
theorem doItemsMove_alike (src dest : MoveItemData) (srcItem held : Item)
    (destItem : Option Item) (split : Nat) :
    ((doItemsMove maxStackCount inv w player src dest srcItem held destItem split).stored = none ∧
      (doItemsMove maxStackCount inv w player src dest srcItem held destItem split).state = w) ∨
    ((doItemsMove maxStackCount inv w player src dest srcItem held destItem split).stored.isSome ∧
      Alike (w.guild.charge player
          (src.tabLeft dest ++ if destItem.isSome then dest.tabLeft src else []))
        (doItemsMove maxStackCount inv w player src dest srcItem held destItem
          split).state.guild) := by
  unfold doItemsMove
  split
  · exact Or.inl ⟨rfl, rfl⟩
  · cases destItem with
    | none =>
      refine Or.inr ⟨rfl, ?_⟩
      simp only [Option.isSome_none, Bool.false_eq_true, if_false, List.append_nil]
      exact (removeItem_alike player dest split).trans storeItem_alike
    | some other =>
      dsimp only
      split
      · exact Or.inl ⟨rfl, rfl⟩
      · refine Or.inr ⟨rfl, ?_⟩
        simp only [Option.isSome_some, if_true]
        rw [Guild.charge, List.foldl_append]
        have hfirst : Alike ((w.guild.charge player (src.tabLeft dest)).charge player
              (dest.tabLeft src))
            ((removeItem inv w player held dest split src).guild.charge player
              (dest.tabLeft src)) :=
          (removeItem_alike player dest split).charge player _
        have hsecond : Alike ((removeItem inv w player held dest split src).guild.charge player
              (dest.tabLeft src))
            (removeItem inv (removeItem inv w player held dest split src) player other src 0
              dest).guild :=
          removeItem_alike player src 0
        exact ((hfirst.trans hsecond).trans storeItem_alike).trans storeItem_alike

variable (maxStackCount inv w player) in
/-- The item is merged or put into free slots, so nothing comes back for it. -/
def merges (src dest : MoveItemData) (item : Item) : Bool :=
  (doItemsMove maxStackCount inv w player src dest item item none 0).stored.isSome

variable (maxStackCount inv w player) in
/-- The tabs that a move takes an item out of. -/
def takenFrom (src dest : MoveItemData) (splitedAmount : Nat) : List UInt8 :=
  match initItem inv w src with
  | none => []
  | some item =>
    if (moveItems maxStackCount inv w player src dest splitedAmount).stored.isNone then []
    else if (checkItem item splitedAmount).any (· ≠ 0) ||
        merges maxStackCount inv w player src dest item then
      src.tabLeft dest
    else src.tabLeft dest ++ dest.tabLeft src

theorem moveSplit_charges (src dest : MoveItemData) (item : Item) (n : Nat) :
    ((moveSplit maxStackCount inv w player src dest item n).stored = none ∧
      (moveSplit maxStackCount inv w player src dest item n).state.guild = w.guild) ∨
    ((moveSplit maxStackCount inv w player src dest item n).stored.isSome ∧
      Alike (w.guild.charge player (src.tabLeft dest))
        (moveSplit maxStackCount inv w player src dest item n).state.guild) := by
  unfold moveSplit
  cases hclone : cloneItem maxStackCount w item n with
  | mk w' cloned =>
    have hguild : w'.guild = w.guild := by
      have hsame := (@cloneItem_same _ maxStackCount w item n).1
      rw [hclone] at hsame
      exact hsame
    cases cloned with
    | none => exact Or.inl ⟨rfl, hguild⟩
    | some cloned =>
      grind [doItemsMove_alike]

theorem moveWhole_charges (src dest : MoveItemData) (item : Item) :
    ((moveWhole maxStackCount inv w player src dest item).stored = none ∧
      (moveWhole maxStackCount inv w player src dest item).state.guild = w.guild) ∨
    ((moveWhole maxStackCount inv w player src dest item).stored.isSome ∧
      ((merges maxStackCount inv w player src dest item = true ∧
          Alike (w.guild.charge player (src.tabLeft dest))
            (moveWhole maxStackCount inv w player src dest item).state.guild) ∨
        (merges maxStackCount inv w player src dest item = false ∧
          hasWithdrawRights w player src dest = true ∧
          Alike (w.guild.charge player (src.tabLeft dest ++ dest.tabLeft src))
            (moveWhole maxStackCount inv w player src dest item).state.guild))) := by
  unfold moveWhole merges
  dsimp only
  rcases @doItemsMove_alike _ _ maxStackCount inv w player src dest item item none 0 with
    ⟨hnone, hstate⟩ | ⟨hsome, halike⟩
  · -- the item could not be merged or put into a free slot
    rw [hnone, hstate]
    simp only [Option.isSome_none, Bool.false_eq_true, if_false]
    unfold trySwap
    split
    · exact Or.inl ⟨rfl, rfl⟩
    · next other hother =>
      split
      · exact Or.inl ⟨rfl, rfl⟩
      · split
        · exact Or.inl ⟨rfl, rfl⟩
        · next hback =>
          rw [Bool.not_eq_true', Bool.not_eq_false] at hback
          rcases @doItemsMove_alike _ _ maxStackCount inv w player src dest item item
              (some other) 0 with
            ⟨hnone', hstate'⟩ | ⟨hsome', halike'⟩
          · rw [hstate']
            exact Or.inl ⟨hnone', rfl⟩
          · refine Or.inr ⟨hsome', Or.inr ⟨trivial, hback, ?_⟩⟩
            simpa using halike'
  · rw [if_pos hsome]
    exact Or.inr ⟨hsome, Or.inl ⟨hsome, by simpa using halike⟩⟩

variable (maxStackCount inv) in
theorem moveItems_cases (w : BankState σ) (player : ObjectGuid) (src dest : MoveItemData)
    (n : Nat) :
    ((moveItems maxStackCount inv w player src dest n).stored = none ∧
      (moveItems maxStackCount inv w player src dest n).state.guild = w.guild) ∨
    ((moveItems maxStackCount inv w player src dest n).stored.isSome ∧
      hasWithdrawRights w player dest src = true ∧
      ∃ item, initItem inv w src = some item ∧
        ((((checkItem item n).any (· ≠ 0) || merges maxStackCount inv w player src dest item) =
            true ∧
          Alike (w.guild.charge player (src.tabLeft dest))
            (moveItems maxStackCount inv w player src dest n).state.guild) ∨
        (((checkItem item n).any (· ≠ 0) || merges maxStackCount inv w player src dest item) =
            false ∧
          hasWithdrawRights w player src dest = true ∧
          Alike (w.guild.charge player (src.tabLeft dest ++ dest.tabLeft src))
            (moveItems maxStackCount inv w player src dest n).state.guild))) := by
  unfold moveItems
  cases hitem : initItem inv w src with
  | none => exact Or.inl ⟨rfl, rfl⟩
  | some item =>
    dsimp only
    cases hk : checkItem item n with
    | none => exact Or.inl ⟨rfl, rfl⟩
    | some k =>
      dsimp only
      split
      · exact Or.inl ⟨rfl, rfl⟩
      · split
        · exact Or.inl ⟨rfl, rfl⟩
        · next hwithdraw =>
          rw [Bool.not_eq_true', Bool.not_eq_false] at hwithdraw
          by_cases hsplit : k ≠ 0
          · have hany : (some k).any (· ≠ 0) = true := decide_eq_true hsplit
            rw [if_pos hsplit]
            rcases @moveSplit_charges _ _ maxStackCount inv w player src dest item k with
              hnone | ⟨hsome, halike⟩
            · exact Or.inl hnone
            · grind
          · have hany : (some k).any (· ≠ 0) = false := decide_eq_false hsplit
            rw [if_neg hsplit]
            rcases @moveWhole_charges _ _ maxStackCount inv w player src dest item with
              hnone | ⟨hsome, ⟨hmerges, halike⟩ | ⟨hmerges, hback, halike⟩⟩
            · exact Or.inl hnone
            · grind
            · grind

theorem mem_tabLeft : t ∈ src.tabLeft dest ↔ src.inTab t = true ∧ src.sameTab dest = false := by
  cases src with
  | player container slotId => simp [MoveItemData.tabLeft, MoveItemData.inTab]
  | bank container slotId =>
    rw [MoveItemData.tabLeft, MoveItemData.inTab]
    grind

theorem nodup_tabLeft : (src.tabLeft dest).Nodup := by
  cases src with
  | player container slotId => exact List.nodup_nil
  | bank container slotId =>
    grind [MoveItemData.tabLeft]

theorem disjoint_tabLeft : ∀ t ∈ src.tabLeft dest, t ∉ dest.tabLeft src := by
  intro t ht ht'
  rw [mem_tabLeft] at ht ht'
  obtain ⟨hsrc, hdiff⟩ := ht
  obtain ⟨hdest, -⟩ := ht'
  cases src with
  | player container slotId => cases hsrc
  | bank container slotId =>
    cases dest with
    | player container' slotId' => cases hdest
    | bank container' slotId' =>
      have h := of_decide_eq_true hsrc
      have h' := of_decide_eq_true hdest
      exact of_decide_eq_false hdiff (h.trans h'.symm)

variable (maxStackCount inv) in
/-- **What a move charges.** Each tab that an item is taken out of is charged once, and only with the
right to take it. -/
theorem moveItems_charges (w : BankState σ) (player : ObjectGuid) (src dest : MoveItemData)
    (n : Nat) :
    Alike (w.guild.charge player (takenFrom maxStackCount inv w player src dest n))
        (moveItems maxStackCount inv w player src dest n).state.guild ∧
      (takenFrom maxStackCount inv w player src dest n).Nodup ∧
      ∀ t ∈ takenFrom maxStackCount inv w player src dest n,
        (src.inTab t = true ∨ dest.inTab t = true) ∧ MayTakeItems w.guild player t := by
  have hright : hasWithdrawRights w player dest src = true → ∀ t ∈ src.tabLeft dest,
      (src.inTab t = true ∨ dest.inTab t = true) ∧ MayTakeItems w.guild player t := by
    intro h t ht
    obtain ⟨hin, hdiff⟩ := mem_tabLeft.mp ht
    exact ⟨Or.inl hin, mayTakeItems_of hdiff hin h⟩
  have hback : hasWithdrawRights w player src dest = true → ∀ t ∈ dest.tabLeft src,
      (src.inTab t = true ∨ dest.inTab t = true) ∧ MayTakeItems w.guild player t := by
    intro h t ht
    obtain ⟨hin, hdiff⟩ := mem_tabLeft.mp ht
    exact ⟨Or.inr hin, mayTakeItems_of hdiff hin h⟩
  unfold takenFrom
  rcases moveItems_cases maxStackCount inv w player src dest n with
    ⟨hnone, hguild⟩ | ⟨hsome, hwithdraw, item, hitem, ⟨hway, halike⟩ | ⟨hway, hother, halike⟩⟩
  · have hempty : takenFrom maxStackCount inv w player src dest n = [] := by
      unfold takenFrom
      split
      · rfl
      · rw [hnone]
        rfl
    unfold takenFrom at hempty
    rw [hempty, hguild]
    exact ⟨.refl _, List.nodup_nil, fun t ht => absurd ht List.not_mem_nil⟩
  · rw [hitem]
    dsimp only
    rw [if_neg (by rw [Option.isNone_iff_eq_none, ← Option.not_isSome_iff_eq_none]; exact not_not.mpr hsome),
      if_pos hway]
    exact ⟨halike, nodup_tabLeft, hright hwithdraw⟩
  · rw [hitem]
    dsimp only
    rw [if_neg (by rw [Option.isNone_iff_eq_none, ← Option.not_isSome_iff_eq_none]; exact not_not.mpr hsome),
      if_neg (by rw [hway]; exact Bool.false_ne_true)]
    refine ⟨halike, List.nodup_append'.mpr ⟨nodup_tabLeft, nodup_tabLeft, ?_⟩, ?_⟩
    · intro t ht ht'
      exact disjoint_tabLeft t ht ht'
    · intro t ht
      rcases List.mem_append.mp ht with h | h
      · exact hright hwithdraw t h
      · exact hback hother t h

end EGServer.Guilds
