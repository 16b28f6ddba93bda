import EGServer.Guilds.DailyLimits

/-!
# Days of a guild bank

The counters of the members say what the ledger says, whatever is requested in whatever order. So a
member who is not guild master takes no more in a day than the rank of the moment allows, also after a
demotion or when a limit was lowered.
-/

namespace EGServer.Guilds

open Guild BankDay

variable {σ ρ : Type} {maxStackCount : Nat → Nat} {inv : Inventory σ ρ} {w : BankState σ}
  {g g' g'' : Guild} {player guid p : ObjectGuid} {t r : UInt8} {m : Member} {op : Operation}
  {ledger : Ledger} {d₀ d d' : BankDay σ} {name : String}

/-! ## Requests for items -/

/-- What a request charges, and that it takes only from tabs that it names. -/
theorem run_charges (req : BankRequest) :
    Alike (w.guild.charge player (req.taken maxStackCount inv w player))
        (req.run maxStackCount inv w player).state.guild ∧
      (req.taken maxStackCount inv w player).Nodup ∧
      ∀ t ∈ req.taken maxStackCount inv w player,
        t ∈ req.tabs ∧ MayTakeItems w.guild player t := by
  have hrefused : ∀ {w' : BankState σ} {l : List UInt8}, w'.guild = w.guild → l = [] →
      Alike (w.guild.charge player l) w'.guild ∧ l.Nodup ∧
        ∀ t ∈ l, t ∈ req.tabs ∧ MayTakeItems w.guild player t := by
    rintro w' l hguild rfl
    rw [hguild]
    exact ⟨.refl _, List.nodup_nil, fun t ht => absurd ht List.not_mem_nil⟩
  have hmoved : ∀ (src dest : MoveItemData) (n : Nat),
      (∀ t, src.inTab t = true ∨ dest.inTab t = true → t ∈ req.tabs) →
      Alike (w.guild.charge player (if (moveItems maxStackCount inv w player src dest
            n).stored.isNone then [] else takenFrom maxStackCount inv w player src dest n))
          (moveItems maxStackCount inv w player src dest n).state.guild ∧
        (if (moveItems maxStackCount inv w player src dest n).stored.isNone then []
          else takenFrom maxStackCount inv w player src dest n).Nodup ∧
        ∀ t ∈ (if (moveItems maxStackCount inv w player src dest n).stored.isNone then []
            else takenFrom maxStackCount inv w player src dest n),
          t ∈ req.tabs ∧ MayTakeItems w.guild player t := by
    intro src dest n htabs
    obtain ⟨halike, hnodup, htaken⟩ := moveItems_charges maxStackCount inv w player src dest n
    cases hstored : (moveItems maxStackCount inv w player src dest n).stored with
    | none =>
      rcases moveItems_cases maxStackCount inv w player src dest n with
        ⟨-, hguild⟩ | ⟨hsome, -⟩
      · exact hrefused hguild rfl
      · rw [hstored] at hsome
        cases hsome
    | some l =>
      refine ⟨halike, hnodup, ?_⟩
      intro t ht
      exact ⟨htabs t (htaken t ht).1, (htaken t ht).2⟩
  unfold BankRequest.taken
  cases req with
  | swapItems a b c e n =>
    unfold BankRequest.run swapItems
    dsimp only
    split
    · exact hrefused rfl rfl
    · split
      · exact hrefused rfl rfl
      · apply hmoved
        intro t ht
        simpa [MoveItemData.inTab, BankRequest.tabs, eq_comm] using ht
  | swapItemsWithInventory toChar a b c e n =>
    cases toChar with
    | true =>
      unfold BankRequest.run swapItemsWithInventory
      dsimp only
      split
      · exact hrefused rfl rfl
      · rw [if_pos rfl]
        apply hmoved
        intro t ht
        simpa [MoveItemData.inTab, BankRequest.tabs, eq_comm] using ht
    | false =>
      unfold BankRequest.run swapItemsWithInventory
      dsimp only
      split
      · exact hrefused rfl rfl
      · rw [if_neg Bool.false_ne_true]
        apply hmoved
        intro t ht
        simpa [MoveItemData.inTab, BankRequest.tabs, eq_comm] using ht

theorem item_within_limit (hm : g.getMember player = some m) (hrank : m.rankId ≠ GR_GUILDMASTER)
    (hexact : Exact g ledger) (hlimit : 0 ≤ (g.getRankBankTabSlotsPerDay m.rankId t).toInt)
    (h : MayTakeItems g player t) :
    (ledger player t : Int) + 1 ≤ (g.getRankBankTabSlotsPerDay m.rankId t).toInt := by
  obtain ⟨m', hm', hright⟩ := h
  cases hm.symm.trans hm'
  have hcounter := hexact player m hm t
  have hpos : 0 ≤ (m.bankWithdraw t).toInt := by
    rw [hcounter]
    exact Int.natCast_nonneg _
  rcases hright with hmaster | ⟨-, hleft⟩
  · exact absurd hmaster hrank
  · rw [getBankWithdrawValue_of_ne hrank, Int32.lt_iff_toInt_lt, toInt_left hlimit hpos, hcounter]
      at hleft
    have hzero : (0 : Int32).toInt = 0 := rfl
    omega

/-! ## Changes of the roster -/

/-- The members of the second guild are members of the first, with the same counters. -/
def OldMembers (g g' : Guild) : Prop :=
  ∀ p m', g'.getMember p = some m' → ∃ m, g.getMember p = some m ∧ m'.bankWithdraw = m.bankWithdraw

theorem OldMembers.of_members (h : g'.members = g.members) : OldMembers g g' := by
  intro p m' hm'
  rw [Guild.getMember, h] at hm'
  exact ⟨m', hm', rfl⟩

theorem OldMembers.trans (h : OldMembers g g') (h' : OldMembers g' g'') : OldMembers g g'' := by
  intro p m'' hm''
  obtain ⟨m', hm', hsame'⟩ := h' p m'' hm''
  obtain ⟨m, hm, hsame⟩ := h p m' hm'
  exact ⟨m, hm, hsame'.trans hsame⟩

theorem oldMembers_setRank (g : Guild) (guid : ObjectGuid) (r : UInt8) :
    OldMembers g (g.setRank guid r) := by
  intro p m' hm'
  by_cases hp : p = guid
  · subst hp
    rw [getMember_setRank_self] at hm'
    obtain ⟨m, hm, rfl⟩ := Option.map_eq_some_iff.mp hm'
    exact ⟨m, hm, rfl⟩
  · rw [getMember_setRank_ne hp] at hm'
    exact ⟨m', hm', rfl⟩

theorem oldMembers_setLeader (g : Guild) (m : Member) : OldMembers g (g.setLeader m) := by
  have hleader : OldMembers g { g with leaderGuid := m.guid } := .of_members rfl
  exact hleader.trans (oldMembers_setRank _ _ _)

theorem oldMembers_eraseMember (g : Guild) (guid : ObjectGuid) :
    OldMembers g (g.eraseMember guid).1 := by
  intro p m' hm'
  by_cases hp : p = guid
  · subst hp
    rw [getMember_eraseMember_self] at hm'
    cases hm'
  · rw [getMember_eraseMember_ne hp] at hm'
    exact ⟨m', hm', rfl⟩

theorem oldMembers_disband (g : Guild) : OldMembers g g.disband := by
  intro p m' hm'
  cases hm'

theorem oldMembers_deleteMember (g : Guild) (guid : ObjectGuid) :
    OldMembers g (g.deleteMember guid).1 := by
  rcases deleteMember_cases g guid with ⟨-, he⟩ | ⟨-, -, he⟩ | ⟨-, leader, -, -, -, he⟩
  · rw [he]
    exact oldMembers_eraseMember g guid
  · rw [he]
    exact oldMembers_disband g
  · rw [he]
    exact (oldMembers_setLeader g leader).trans (oldMembers_eraseMember _ guid)

theorem counters_addMember {order : Arrangement Member} {c : Candidate} {rank : UInt8}
    {m' : Member} (hm' : (g.addMember order c rank).1.getMember p = some m') :
    (∃ m, g.getMember p = some m ∧ m'.bankWithdraw = m.bankWithdraw) ∨
      g.getMember p = none ∧ m'.bankWithdraw = fun _ => 0 := by
  rcases addMember_cases g order c rank with he | ⟨hnone, members, hs, he⟩
  · rw [he] at hm'
    exact Or.inl ⟨m', hm', rfl⟩
  · by_cases hp : p = c.guid
    · subst hp
      rcases he with he | he
      · rw [he] at hm'
        have hgone : (members.erase c.guid).get? c.guid = none := Table.get?_erase_self _ _
        cases hgone.symm.trans hm'
      · rw [he] at hm'
        have hnew := Table.get?_tryEmplace_self hs
        cases hnew.symm.trans hm'
        exact Or.inr ⟨hnone, rfl⟩
    · have hsame : members.get? p = g.members.get? p := Table.get?_tryEmplace_ne hs hp
      rcases he with he | he
      · rw [he] at hm'
        have hkept : (members.erase c.guid).get? p = members.get? p := Table.get?_erase_ne _ hp
        exact Or.inl ⟨m', (hkept.trans hsame).symm.trans hm', rfl⟩
      · rw [he] at hm'
        exact Or.inl ⟨m', hsame.symm.trans hm', rfl⟩

/-- **No change of the roster touches a counter.** -/
theorem counters_apply (h : g.apply op = some g') {m' : Member} (hm' : g'.getMember p = some m') :
    (∃ m, g.getMember p = some m ∧ m'.bankWithdraw = m.bankWithdraw) ∨
      g.getMember p = none ∧ m'.bankWithdraw = fun _ => 0 := by
  have hsame : OldMembers g g := .of_members rfl
  cases op with
  | addMember order c =>
    cases h
    exact counters_addMember hm'
  | deleteMember guid =>
    cases h
    exact Or.inl (oldMembers_deleteMember g guid p m' hm')
  | changeMemberRank guid newRank =>
    cases h
    rcases changeMemberRank_cases g guid newRank with he | ⟨-, -, he⟩
    · rw [he] at hm'
      exact Or.inl (hsame p m' hm')
    · rw [he] at hm'
      exact Or.inl (oldMembers_setRank g guid newRank p m' hm')
  | handleLeaveMember player =>
    obtain ⟨⟨g1, sent⟩, ho, rfl⟩ := Option.map_eq_some_iff.mp h
    rcases handleLeaveMember_cases ho with he | he | ⟨-, he⟩
    · rw [he] at hm'
      exact Or.inl (hsame p m' hm')
    · rw [he] at hm'
      exact Or.inl (oldMembers_disband g p m' hm')
    · rw [he] at hm'
      exact Or.inl (oldMembers_deleteMember g player p m' hm')
  | handleRemoveMember player name =>
    cases h
    rcases handleRemoveMember_cases g player name with ⟨he, -⟩ | ⟨me, target, -, he⟩
    · rw [he] at hm'
      exact Or.inl (hsame p m' hm')
    · rw [he] at hm'
      exact Or.inl (oldMembers_deleteMember g target.guid p m' hm')
  | handleUpdateMemberRank player name demote =>
    obtain ⟨⟨g1, sent⟩, ho, rfl⟩ := Option.map_eq_some_iff.mp h
    obtain ⟨g2, sent', ho', hg⟩ := handleUpdateMemberRank_cases g player name demote
    cases ho.symm.trans ho'
    rcases hg with he | ⟨me, target, -, he⟩
    · rw [he] at hm'
      exact Or.inl (hsame p m' hm')
    · rw [he] at hm'
      exact Or.inl (oldMembers_setRank g _ _ p m' hm')
  | handleSetNewGuildMaster player name =>
    obtain ⟨⟨g1, sent⟩, ho, rfl⟩ := Option.map_eq_some_iff.mp h
    rcases handleSetNewGuildMaster_cases ho with he | ⟨old, new, -, -, -, he⟩
    · rw [he] at hm'
      exact Or.inl (hsame p m' hm')
    · rw [he] at hm'
      exact Or.inl (((oldMembers_setLeader g new).trans (oldMembers_setRank _ _ _)) p m' hm')
  | handleAddNewRank player =>
    cases h
    refine Or.inl (OldMembers.of_members ?_ p m' hm')
    grind [createRank_cases, handleAddNewRank_cases]
  | handleRemoveRank player rankId =>
    cases h
    refine Or.inl (OldMembers.of_members ?_ p m' hm')
    rcases handleRemoveRank_cases g player rankId with he | ⟨-, he⟩
    · rw [he]
    · rw [he]
  | handleRemoveLowestRank player =>
    cases h
    refine Or.inl (OldMembers.of_members ?_ p m' hm')
    grind [handleRemoveLowestRank, handleRemoveRank_cases]
  | handleSetRankInfo player rankId rights money l =>
    cases h
    exact Or.inl (OldMembers.of_members (handleSetRankInfo_same g player rankId rights money l).2.1
      p m' hm')

/-! ## Every request keeps the books -/

/-- The books are right. -/
structure Booked (g : Guild) (ledger : Ledger) : Prop where
  exact : Exact g ledger
  strangers : Strangers g ledger

theorem room_for_money {amount : UInt32} {repair canHold : Bool} (h : Booked d.bank.guild d.withdrawn)
    (hfits : d.Fits (.withdrawMoney player amount repair canHold))
    (hm : d.bank.guild.getMember player = some m)
    (hdone : (d.bank.guild.handleMemberWithdrawMoney player amount repair canHold).2 = true)
    (hleft : min amount MAX_MONEY_AMOUNT ≤ (d.bank.guild.getMemberRemainingMoney m).toUInt32) :
    (m.bankWithdraw GUILD_BANK_MAX_TABS).toInt + (min amount MAX_MONEY_AMOUNT).toNat < 2 ^ 31 := by
  have hfits' := hfits m hm
  split at hfits'
  · exact hfits' hdone
  · next hrank =>
    have hcounter := h.exact player m hm GUILD_BANK_MAX_TABS
    have hpos : 0 ≤ (m.bankWithdraw GUILD_BANK_MAX_TABS).toInt := by
      rw [hcounter]
      exact Int.natCast_nonneg _
    rcases withdrawn_le_limit hrank hfits' hpos hleft with hzero | hle
    · rw [hzero]
      have hbound := (m.bankWithdraw GUILD_BANK_MAX_TABS).toInt_lt
      show (m.bankWithdraw GUILD_BANK_MAX_TABS).toInt + ((0 : Nat) : Int) < 2 ^ 31
      omega
    · have hbound := (d.bank.guild.getRankBankMoneyPerDay m.rankId).toInt_lt
      omega

theorem booked_withdrawMoney {amount : UInt32} {repair canHold : Bool}
    (h : Booked d.bank.guild d.withdrawn)
    (hfits : d.Fits (.withdrawMoney player amount repair canHold)) :
    Booked (d.bank.guild.handleMemberWithdrawMoney player amount repair canHold).1
      (if (d.bank.guild.handleMemberWithdrawMoney player amount repair canHold).2 then
        d.withdrawn.book player GUILD_BANK_MAX_TABS (min amount MAX_MONEY_AMOUNT).toNat
      else d.withdrawn) := by
  rcases handleMemberWithdrawMoney_cases d.bank.guild player amount repair canHold with
    ⟨hno, hguild⟩ | ⟨hdone, -, m, hm, hleft, hguild⟩
  · rw [hno, hguild]
    exact h
  · have hroom := room_for_money h hfits hm hdone hleft
    rw [hdone, hguild, if_pos rfl]
    constructor
    · intro p m' hm' u
      rw [getMember_updateMember] at hm'
      obtain ⟨m₀, hm₀, rfl⟩ := Option.map_eq_some_iff.mp hm'
      by_cases hp : p = player
      · subst hp
        cases hm.symm.trans hm₀
        rw [if_pos rfl]
        exact update_exact (Treasury.min_le_max amount) (h.exact p m hm) hroom u
      · rw [if_neg hp, book_ne (Or.inl hp)]
        exact h.exact p m₀ hm₀ u
    · intro p hp u
      rw [getMember_updateMember, Option.map_eq_none_iff] at hp
      have hne : p ≠ player := by
        rintro rfl
        cases hp.symm.trans hm
      rw [book_ne (Or.inl hne)]
      exact h.strangers p hp u

theorem none_of_getMember_charge {tabs : List UInt8}
    (hp : (g.charge player tabs).getMember p = none) : g.getMember p = none := by
  induction tabs generalizing g with
  | nil => exact hp
  | cons t tabs ih =>
    have hp' := ih hp
    rw [getMember_updateMemberWithdrawSlots, Option.map_eq_none_iff] at hp'
    exact hp'

theorem bookItems_ne {tabs : List UInt8} (h : p ≠ player) (u : UInt8) :
    ledger.bookItems player tabs p u = ledger p u := by
  induction tabs generalizing ledger with
  | nil => rfl
  | cons t tabs ih =>
    show (ledger.book player t 1).bookItems player tabs p u = ledger p u
    rw [ih, book_ne (Or.inl h)]

theorem booked_moveItems {req : BankRequest} (h : Booked d.bank.guild d.withdrawn)
    (hfits : d.Fits (.moveItems player req)) :
    Booked (req.run maxStackCount inv d.bank player).state.guild
      (if d.bank.guild.isGuildMaster player then d.withdrawn
        else d.withdrawn.bookItems player (req.taken maxStackCount inv d.bank player)) := by
  obtain ⟨halike, hnodup, htaken⟩ :=
    @run_charges _ _ maxStackCount inv d.bank player req
  have hbooked : Booked (d.bank.guild.charge player (req.taken maxStackCount inv d.bank player))
      (if d.bank.guild.isGuildMaster player then d.withdrawn
        else d.withdrawn.bookItems player (req.taken maxStackCount inv d.bank player)) := by
    cases hm : d.bank.guild.getMember player with
    | none =>
      -- nobody takes anything
      have hnil : req.taken maxStackCount inv d.bank player = [] := by
        rw [List.eq_nil_iff_forall_not_mem]
        intro t ht
        obtain ⟨m, hm', -⟩ := (htaken t ht).2
        cases hm.symm.trans hm'
      rw [hnil]
      split
      · exact h
      · exact h
    | some m =>
      have hmaster : d.bank.guild.isGuildMaster player = decide (m.rankId = GR_GUILDMASTER) := by
        rw [isGuildMaster, hm]
        rfl
      rw [hmaster]
      by_cases hrank : m.rankId = GR_GUILDMASTER
      · rw [decide_eq_true hrank, if_pos rfl, charge_master]
        · exact h
        · intro m' hm'
          cases hm.symm.trans hm'
          exact hrank
      · rw [decide_eq_false hrank, if_neg Bool.false_ne_true]
        constructor
        · apply exact_charge h.exact hnodup hm hrank
          intro t ht
          obtain ⟨hnamed, hmay⟩ := htaken t ht
          exact item_within_limit hm hrank h.exact (hfits m hm hrank t hnamed) hmay
        · intro p hp u
          have hnone := none_of_getMember_charge hp
          have hne : p ≠ player := by
            rintro rfl
            cases hnone.symm.trans hm
          rw [bookItems_ne hne]
          exact h.strangers p hnone u
  constructor
  · intro p m hm
    rw [halike.getMember] at hm
    exact hbooked.exact p m hm
  · intro p hp
    rw [halike.getMember] at hp
    exact hbooked.strangers p hp

theorem booked_request {r : DayRequest} (h : Booked d.bank.guild d.withdrawn) (hfits : d.Fits r)
    (hstep : BankDay.Step maxStackCount inv d r d') : Booked d'.bank.guild d'.withdrawn := by
  cases r with
  | withdrawMoney player amount repair canHold =>
    have hbooked := booked_withdrawMoney h hfits
    cases hstep
    exact hbooked
  | moveItems player req =>
    cases hstep
    exact booked_moveItems h hfits
  | roster op =>
    obtain ⟨g', hg', rfl⟩ := Option.map_eq_some_iff.mp hstep
    constructor
    · intro p m' hm' u
      dsimp only at hm' ⊢
      rw [hm', Option.isSome_some, if_pos rfl]
      rcases counters_apply hg' hm' with ⟨m, hm, hsame⟩ | ⟨hnone, hzero⟩
      · rw [hsame]
        exact h.exact p m hm u
      · rw [hzero, h.strangers p hnone u]
        rfl
    · intro p hp u
      dsimp only at hp ⊢
      rw [hp, Option.isSome_none, if_neg Bool.false_ne_true]
  | resetTimes =>
    cases hstep
    constructor
    · intro p m' hm' u
      obtain ⟨hmem, -⟩ := Table.get?_eq_some.mp hm'
      obtain ⟨m, -, rfl⟩ := List.mem_map.mp hmem
      rfl
    · intro p hp u
      rfl

/-! ## The limits of a day -/

/-- A member who is not guild master withdraws within the limits of the rank, also counting what was
withdrawn before, and the computations that see to it are exact. -/
structure WithinLimits (maxStackCount : Nat → Nat) (inv : Inventory σ ρ) (d : BankDay σ)
    (player : ObjectGuid) (m : Member) : Prop where
  money : ∀ amount repair canHold, d.Fits (.withdrawMoney player amount repair canHold) →
    0 < amount → (d.bank.guild.handleMemberWithdrawMoney player amount repair canHold).2 = true →
      (d.withdrawn player GUILD_BANK_MAX_TABS : Int) + (min amount MAX_MONEY_AMOUNT).toNat ≤
          (d.bank.guild.getRankBankMoneyPerDay m.rankId).toInt ∧
        (d.bank.guild.handleMemberWithdrawMoney player amount repair canHold).1.bankMoney.toNat +
            (min amount MAX_MONEY_AMOUNT).toNat = d.bank.guild.bankMoney.toNat
  items : ∀ req : BankRequest, d.Fits (.moveItems player req) →
    ∀ t ∈ req.taken maxStackCount inv d.bank player,
      (d.withdrawn player t : Int) + 1 ≤ (d.bank.guild.getRankBankTabSlotsPerDay m.rankId t).toInt
  moneyLeft : 0 ≤ (d.bank.guild.getRankBankMoneyPerDay m.rankId).toInt →
    (d.bank.guild.getRankBankMoneyPerDay m.rankId -
        m.getBankWithdrawValue GUILD_BANK_MAX_TABS).toInt =
      (d.bank.guild.getRankBankMoneyPerDay m.rankId).toInt - d.withdrawn player GUILD_BANK_MAX_TABS
  slotsLeft : ∀ t, 0 ≤ (d.bank.guild.getRankBankTabSlotsPerDay m.rankId t).toInt →
    (d.bank.guild.getRankBankTabSlotsPerDay m.rankId t - m.getBankWithdrawValue t).toInt =
      (d.bank.guild.getRankBankTabSlotsPerDay m.rankId t).toInt - d.withdrawn player t

theorem min_pos {amount : UInt32} (h : 0 < amount) : min amount MAX_MONEY_AMOUNT ≠ 0 := by
  intro hzero
  change (if amount ≤ MAX_MONEY_AMOUNT then amount else MAX_MONEY_AMOUNT) = 0 at hzero
  split at hzero
  · rw [hzero] at h
    exact absurd h (by decide)
  · exact absurd hzero (by decide)

theorem Booked.withinLimits (h : Booked d.bank.guild d.withdrawn)
    (hm : d.bank.guild.getMember player = some m) (hrank : m.rankId ≠ GR_GUILDMASTER) :
    WithinLimits maxStackCount inv d player m := by
  have hpos : ∀ t, 0 ≤ (m.bankWithdraw t).toInt := by
    intro t
    rw [h.exact player m hm t]
    exact Int.natCast_nonneg _
  constructor
  · intro amount repair canHold hfits hamount hdone
    have hlimit := hfits m hm
    rw [if_neg hrank] at hlimit
    rcases handleMemberWithdrawMoney_cases d.bank.guild player amount repair canHold with
      ⟨hno, -⟩ | ⟨-, hbank, m', hm', hleft, hguild⟩
    · rw [hno] at hdone
      cases hdone
    · cases hm.symm.trans hm'
      constructor
      · rcases withdrawn_le_limit hrank hlimit (hpos _) hleft with hzero | hle
        · exact absurd hzero (min_pos hamount)
        · rw [← h.exact player m hm]
          exact hle
      · have hle := UInt64.le_iff_toNat_le.mp hbank
        grind [UInt32.toNat_toUInt64, UInt64.toNat_sub_of_le]
  · intro req hfits t ht
    obtain ⟨-, -, htaken⟩ := @run_charges _ _ maxStackCount inv d.bank player req
    obtain ⟨hnamed, hmay⟩ := htaken t ht
    exact item_within_limit hm hrank h.exact (hfits m hm hrank t hnamed) hmay
  · intro hlimit
    rw [getBankWithdrawValue_of_ne hrank, toInt_left hlimit (hpos _), h.exact player m hm]
  · intro t hlimit
    rw [getBankWithdrawValue_of_ne hrank, toInt_left hlimit (hpos t), h.exact player m hm]

/-- **The daily limits hold** in every run that starts with the counters at zero, however ranks and
limits change in the middle of a day, and no counter overflows. -/
theorem daily_limits (hzero : ∀ m ∈ d₀.bank.guild.members, ∀ t, m.bankWithdraw t = 0)
    (hledger : ∀ p t, d₀.withdrawn p t = 0)
    (h : Reaches (BankDay.Step maxStackCount inv) Fits d₀ d) :
    Exact d.bank.guild d.withdrawn ∧ ∀ player m, d.bank.guild.getMember player = some m →
      m.rankId ≠ GR_GUILDMASTER → WithinLimits maxStackCount inv d player m := by
  have hstart : Booked d₀.bank.guild d₀.withdrawn := by
    constructor
    · intro p m hm t
      rw [hledger, hzero m (mem_of_getMember hm) t]
      rfl
    · intro p _ t
      exact hledger p t
  have hbooked : Booked d.bank.guild d.withdrawn := by
    refine h.invariant (I := fun d => Booked d.bank.guild d.withdrawn) hstart ?_
    intro d d' r hd hfits hstep
    exact booked_request hd hfits hstep
  exact ⟨hbooked.exact, fun player m hm hrank => hbooked.withinLimits hm hrank⟩

/-! ## A morning of Ann's guild -/

/-- A purse with room for everything. -/
def sack : Inventory Unit Unit where
  initItem _ _ _ := none
  canStoreItem _ _ _ _ _ := some ()
  removeItem _ _ _ _ := ()
  moveItemToInventory _ _ _ := ()

/-- The officers may take one item a day out of the first tab, and 100 copper. -/
def officers : RankInfo where
  rankId := 1
  rights := GR_RIGHT_WITHDRAW_GOLD
  bankMoneyPerDay := 100
  bankTabRightsAndSlots tabId := { tabId, rights := GUILD_BANK_RIGHT_VIEW_TAB, slots := 1 }

/-- Two potions in the first tab. -/
def morning : BankDay Unit where
  bank :=
    { guild :=
        { leaderGuid := 1
          bankMoney := 1000
          ranks := [.new 0 GR_RIGHT_ALL 0, officers]
          members := ⟨[{ guid := 1, name := "Ann", rankId := 0 },
            { guid := 2, name := "Bea", rankId := 1 }], by decide⟩
          bankTabs := [{ items := fun slot =>
            if slot = 0 then some { guid := 7, entry := 118, count := 5 }
            else if slot = 1 then some { guid := 8, entry := 118, count := 5 } else none }] }
      inventory := ()
      nextItem := 9 }
  withdrawn := fun _ _ => 0

def takePotion (slot : UInt8) : BankRequest := .swapItemsWithInventory true 0 slot 255 0 0

/-- Bea has withdrawn 60 copper; another 40 are within the limit. -/
def bea60 : BankDay Unit :=
  (morning.request (fun _ => 20) sack (.withdrawMoney 2 60 false true)).getD morning

theorem bea60_limits : ∃ m, bea60.bank.guild.getMember 2 = some m ∧
    bea60.withdrawn 2 GUILD_BANK_MAX_TABS = 60 ∧
    (bea60.bank.guild.handleMemberWithdrawMoney 2 40 false true).2 = true ∧
    WithinLimits (fun _ => 20) sack bea60 2 m := by
  have hrun : Reaches (BankDay.Step (fun _ => 20) sack) Fits morning bea60 := by
    refine (Reaches.refl morning).next (a := .withdrawMoney 2 60 false true) ?_ rfl
    intro m hm
    cases hm
    exact (by decide : (0 : Int) ≤ (100 : Int32).toInt)
  have hzero : ∀ m ∈ morning.bank.guild.members, ∀ t, m.bankWithdraw t = 0 := by
    intro m hm t
    rcases List.mem_cons.mp hm with rfl | hm
    · rfl
    · obtain rfl := List.mem_singleton.mp hm
      rfl
  refine ⟨_, rfl, by decide, by decide, ?_⟩
  exact (daily_limits hzero (fun _ _ => rfl) hrun).2 2 _ rfl (by decide)

/-- Ann has taken a potion as guild master. -/
def annServed : BankDay Unit :=
  (morning.request (fun _ => 20) sack (.moveItems 1 (takePotion 0))).getD morning

/-- She has handed the guild over. -/
def annRetired : BankDay Unit :=
  (annServed.request (fun _ => 20) sack (.roster (.handleSetNewGuildMaster 1 "Bea"))).getD annServed

/-- Ann takes a second potion on the same day, as an officer who may take one. -/
theorem ann_takes_two :
    Reaches (BankDay.Step (fun _ => 20) sack) Fits morning annRetired ∧
      (takePotion 0).taken (fun _ => 20) sack morning.bank 1 = [0] ∧
      (takePotion 1).taken (fun _ => 20) sack annRetired.bank 1 = [0] ∧
      ∃ m, annRetired.bank.guild.getMember 1 = some m ∧ m.rankId ≠ GR_GUILDMASTER ∧
        ¬(((takePotion 0).taken (fun _ => 20) sack morning.bank 1).count 0 +
            ((takePotion 1).taken (fun _ => 20) sack annRetired.bank 1).count 0 : Int) ≤
          (annRetired.bank.guild.getRankBankTabSlotsPerDay m.rankId 0).toInt := by
  refine ⟨?_, by decide, by decide, _, rfl, by decide, by decide⟩
  have hserved : Reaches (BankDay.Step (fun _ => 20) sack) Fits morning annServed := by
    refine (Reaches.refl morning).next (a := .moveItems 1 (takePotion 0)) ?_ rfl
    intro m hm hrank
    cases hm
    exact absurd rfl hrank
  exact hserved.next (a := .roster (.handleSetNewGuildMaster 1 "Bea")) trivial rfl

end EGServer.Guilds
