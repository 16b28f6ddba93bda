import EGServer.Guilds.RosterSpec

/-!
# When the guild commands are carried out

Each command of a player is refused with a result and no change, or carried out. What it
takes to be carried out is a structure of its own, so that proofs name the check they use.
-/

namespace EGServer.Guilds

variable {g g' : Guild} {m me target : Member} {guid p player : ObjectGuid} {name : String}
  {r rankId : UInt8} {demote : Bool}

namespace Guild

theorem getRankRights_eq_zero (h : g.getRankInfo rankId = none) : g.getRankRights rankId = 0 := by
  unfold getRankRights
  rw [h]

theorem lt_ranksSize_of_right {right : UInt32} (h : g.getRankRights rankId &&& right ≠ GR_RIGHT_NONE) :
    rankId < g.getRanksSize := by
  by_contra hn
  apply h
  rw [getRankRights_eq_zero (by rw [getRankInfo, if_neg hn])]
  exact UInt32.zero_and

/-! ## HandleRemoveMember -/

/-- The checks of `HandleRemoveMember`. -/
structure RemoveAccepted (g : Guild) (player : ObjectGuid) (name : String)
    (me target : Member) : Prop where
  actor : g.getMember player = some me
  right : g.getRankRights me.rankId &&& GR_RIGHT_REMOVE ≠ GR_RIGHT_NONE
  named : g.getMemberByName name = some target
  notMaster : target.rankId ≠ GR_GUILDMASTER
  outranks : me.rankId < target.rankId

theorem hasRankRight_eq {right : UInt32} (h : g.hasRankRight player right = true) :
    ∃ me, g.getMember player = some me ∧ g.getRankRights me.rankId &&& right ≠ GR_RIGHT_NONE := by
  unfold hasRankRight at h
  split at h
  · next me hme => exact ⟨me, hme, of_decide_eq_true h⟩
  · cases h

theorem hasRankRight_of {right : UInt32} (hme : g.getMember player = some me)
    (hr : g.getRankRights me.rankId &&& right ≠ GR_RIGHT_NONE) :
    g.hasRankRight player right = true := by
  unfold hasRankRight
  rw [hme]
  exact decide_eq_true hr

/-- **`HandleRemoveMember`.** The guild is as before, or the target was outranked and deleted. -/
theorem handleRemoveMember_cases (g : Guild) (player : ObjectGuid) (name : String) :
    (g.handleRemoveMember player name).1 = g ∧ (¬ ∃ me target, RemoveAccepted g player name me target) ∨
      ∃ me target, RemoveAccepted g player name me target ∧
        (g.handleRemoveMember player name).1 = (g.deleteMember target.guid).1 := by
  unfold handleRemoveMember
  split
  · next hr =>
    refine Or.inl ⟨rfl, ?_⟩
    rintro ⟨me, target, h⟩
    rw [hasRankRight_of h.actor h.right] at hr
    cases hr
  · next hr =>
    obtain ⟨me, hme, hright⟩ := hasRankRight_eq (by simpa using hr)
    split
    · next hn =>
      refine Or.inl ⟨rfl, ?_⟩
      rintro ⟨me', target, h⟩
      cases hn.symm.trans h.named
    · next target ht =>
      split
      · next hm =>
        refine Or.inl ⟨rfl, ?_⟩
        rintro ⟨me', target', h⟩
        cases ht.symm.trans h.named
        exact h.notMaster (of_decide_eq_true hm)
      · next hm =>
        rw [hme]
        simp only
        split
        · next hlow =>
          refine Or.inl ⟨rfl, ?_⟩
          rintro ⟨me', target', h⟩
          cases ht.symm.trans h.named
          cases hme.symm.trans h.actor
          exact absurd (of_decide_eq_true hlow) (UInt8.not_le.mpr h.outranks)
        · next hlow =>
          refine Or.inr ⟨me, target, ⟨hme, hright, ht, ?_, ?_⟩, rfl⟩
          · intro he
            exact hm (decide_eq_true he)
          · apply UInt8.not_le.mp
            intro hle
            exact hlow (decide_eq_true hle)

/-! ## HandleUpdateMemberRank -/

/-- The checks of `HandleUpdateMemberRank`. -/
structure UpdateAccepted (g : Guild) (player : ObjectGuid) (name : String) (demote : Bool)
    (me target : Member) : Prop where
  actor : g.getMember player = some me
  right : g.getRankRights me.rankId &&& updateRankRight demote ≠ GR_RIGHT_NONE
  named : g.getMemberByName name = some target
  other : target.guid ≠ player
  allowed : g.updateRankRefused me.rankId target demote = none

/-- **`HandleUpdateMemberRank`.** It never stops the server; the guild is as before, or the
target holds the next rank in the direction asked for. -/
theorem handleUpdateMemberRank_cases (g : Guild) (player : ObjectGuid) (name : String)
    (demote : Bool) :
    ∃ g' sent, g.handleUpdateMemberRank player name demote = some (g', sent) ∧
      (g' = g ∨ ∃ me target, UpdateAccepted g player name demote me target ∧
        g' = g.setRank target.guid (updatedRank target demote)) := by
  unfold handleUpdateMemberRank
  simp only
  split
  · exact ⟨g, _, rfl, Or.inl rfl⟩
  · next hr =>
    obtain ⟨me, hme, hright⟩ := hasRankRight_eq (by simpa using hr)
    split
    · exact ⟨g, _, rfl, Or.inl rfl⟩
    · next target ht =>
      split
      · exact ⟨g, _, rfl, Or.inl rfl⟩
      · next hother =>
        rw [hme]
        simp only
        split
        · exact ⟨g, _, rfl, Or.inl rfl⟩
        · next hallowed =>
          refine ⟨_, _, rfl, Or.inr ⟨me, target, ⟨hme, hright, ht, ?_, hallowed⟩, rfl⟩⟩
          intro he
          exact hother (decide_eq_true he)

theorem UpdateAccepted.ranks (h : UpdateAccepted g player name demote me target) :
    me.rankId < target.rankId ∧ me.rankId < updatedRank target demote ∧
      (demote = true → target.rankId < updatedRank target demote ∧
        updatedRank target demote ≤ g.getLowestRankId) ∧
      (demote = false → updatedRank target demote < target.rankId) := by
  have hlt : me.rankId < g.getRanksSize := lt_ranksSize_of_right h.right
  have hallowed := h.allowed
  unfold updateRankRefused at hallowed
  unfold updatedRank
  cases demote with
  | true =>
    rw [if_pos rfl] at hallowed ⊢
    split at hallowed
    · cases hallowed
    · next hhigh =>
      split at hallowed
      · cases hallowed
      · next hlow =>
        have h1 : me.rankId < target.rankId := by
          apply UInt8.not_le.mp
          intro hle
          exact hhigh (decide_eq_true hle)
        grind
  | false =>
    rw [if_neg Bool.false_ne_true] at hallowed ⊢
    split at hallowed
    · cases hallowed
    · next hhigh =>
      have h1 : me.rankId + 1 < target.rankId := by
        apply UInt8.not_le.mp
        intro hle
        exact hhigh (decide_eq_true hle)
      rw [UInt8.lt_iff_toNat_lt] at h1 hlt
      have h2 : (me.rankId + 1).toNat = me.rankId.toNat + 1 := by
        have := g.getRanksSize.toNat_lt
        rw [UInt8.toNat_add]
        exact Nat.mod_eq_of_lt (by simp; omega)
      have h3 : (target.rankId - 1).toNat = target.rankId.toNat - 1 := by
        grind [UInt8.le_iff_toNat_le, UInt8.toNat_sub_of_le]
      rw [h2] at h1
      refine ⟨?_, ?_, (fun hd => nomatch hd), ?_⟩
      · rw [UInt8.lt_iff_toNat_lt]
        omega
      · rw [UInt8.lt_iff_toNat_lt, h3]
        omega
      · intro _
        rw [UInt8.lt_iff_toNat_lt, h3]
        omega

/-! ## HandleSetNewGuildMaster and HandleLeaveMember -/

/-- **`HandleSetNewGuildMaster`.** The guild is as before, or the member named leads it and
the leader of before is an officer. -/
theorem handleSetNewGuildMaster_cases {sent : Option CommandResult}
    (h : g.handleSetNewGuildMaster player name = some (g', sent)) :
    g' = g ∨ ∃ old new, g.getMember g.leaderGuid = some old ∧ g.isLeader player = true ∧
      g.getMemberByName name = some new ∧ g' = (g.setLeader new).setRank old.guid GR_OFFICER := by
  unfold handleSetNewGuildMaster at h
  grind

/-- **`HandleLeaveMember`.** A guild master stays unless alone, when the guild is disbanded;
anybody else is deleted. -/
theorem handleLeaveMember_cases {sent : Option CommandResult}
    (h : g.handleLeaveMember player = some (g', sent)) :
    g' = g ∨ g' = g.disband ∨ g.isLeader player = false ∧ g' = (g.deleteMember player).1 := by
  unfold handleLeaveMember at h
  grind

/-! ## Ranks -/

/-- **`ChangeMemberRank`.** Only existing ranks are given. -/
theorem changeMemberRank_cases (g : Guild) (guid : ObjectGuid) (newRank : UInt8) :
    (g.changeMemberRank guid newRank).1 = g ∨ newRank ≤ g.getLowestRankId ∧
      (∃ m, g.getMember guid = some m) ∧ (g.changeMemberRank guid newRank).1 = g.setRank guid newRank := by
  unfold changeMemberRank
  grind

/-- **`HandleRemoveRank`.** Nothing happens, or a guild with more ranks than the least number
loses all ranks from `rankId` on. -/
theorem handleRemoveRank_cases (g : Guild) (player : ObjectGuid) (rankId : UInt8) :
    g.handleRemoveRank player rankId = g ∨
      (GUILD_RANKS_MIN_COUNT < g.getRanksSize ∧ rankId < g.getRanksSize ∧ g.isLeader player = true) ∧
        g.handleRemoveRank player rankId = { g with ranks := g.ranks.take rankId.toNat } := by
  unfold handleRemoveRank
  grind

theorem createRank_cases (g : Guild) (rights : UInt32) :
    g.createRank rights = g ∨ g.getRanksSize < GUILD_RANKS_MAX_COUNT ∧
      g.createRank rights = { g with ranks := g.ranks ++ [RankInfo.new g.getRanksSize rights 0] } := by
  unfold createRank
  simp only
  split
  · exact Or.inl rfl
  · next h => exact Or.inr ⟨UInt8.not_le.mp h, rfl⟩

theorem handleAddNewRank_cases (g : Guild) (player : ObjectGuid) :
    g.handleAddNewRank player = g ∨ g.handleAddNewRank player = g.createRank defaultRights := by
  unfold handleAddNewRank
  split
  · exact Or.inl rfl
  · split
    · exact Or.inr rfl
    · exact Or.inl rfl

/-- Ranks `f` leaves the number of keep theirs. -/
theorem map_rankId_modify {f : RankInfo → RankInfo} (hf : ∀ i, (f i).rankId = i.rankId)
    (l : List RankInfo) (n : Nat) : (l.modify n f).map (·.rankId) = l.map (·.rankId) := by
  induction l generalizing n with
  | nil => rw [List.modify_nil]
  | cons i l ih =>
    cases n with
    | zero => simp [hf]
    | succ n => simp [ih]

/-- What a guild shows apart from the settings of its ranks. -/
def SameButRights (g g' : Guild) : Prop :=
  g'.leaderGuid = g.leaderGuid ∧ g'.members = g.members ∧ g'.disbanded = g.disbanded ∧
    g'.ranks.map (·.rankId) = g.ranks.map (·.rankId)

theorem SameButRights.refl (g : Guild) : SameButRights g g := ⟨rfl, rfl, rfl, rfl⟩

theorem SameButRights.trans {g₁ g₂ g₃ : Guild} (h : SameButRights g₁ g₂) (h' : SameButRights g₂ g₃) :
    SameButRights g₁ g₃ :=
  ⟨h'.1.trans h.1, h'.2.1.trans h.2.1, h'.2.2.1.trans h.2.2.1, h'.2.2.2.trans h.2.2.2⟩

theorem setRankInfo_same {f : RankInfo → RankInfo} (hf : ∀ i, (f i).rankId = i.rankId) (g : Guild)
    (rankId : UInt8) : SameButRights g (g.setRankInfo rankId f) := by
  unfold setRankInfo
  split
  · exact ⟨rfl, rfl, rfl, map_rankId_modify hf _ _⟩
  · exact SameButRights.refl g

theorem setRankBankTabs_same (g : Guild) (rankId : UInt8) (l : List GuildBankRightsAndSlots) :
    SameButRights g (l.foldl (fun g r => g.setRankBankTabRightsAndSlots rankId r) g) := by
  induction l generalizing g with
  | nil => exact SameButRights.refl g
  | cons r l ih =>
    refine SameButRights.trans ?_ (ih _)
    show SameButRights g (g.setRankBankTabRightsAndSlots rankId r)
    unfold setRankBankTabRightsAndSlots
    split
    · exact SameButRights.refl g
    · exact setRankInfo_same (f := (·.setBankTabSlotsAndRights r)) (fun _ => rfl) g rankId

/-- **`HandleSetRankInfo`** changes no roster and no rank's number. -/
theorem handleSetRankInfo_same (g : Guild) (player : ObjectGuid) (rankId : UInt8)
    (rights money : UInt32) (l : List GuildBankRightsAndSlots) :
    SameButRights g (g.handleSetRankInfo player rankId rights money l).1 := by
  unfold handleSetRankInfo
  split
  · exact SameButRights.refl g
  · split
    · exact SameButRights.refl g
    · have h1 : SameButRights g (g.setRankInfo rankId (·.setRights rights)) :=
        setRankInfo_same (f := (·.setRights rights)) (fun _ => rfl) g rankId
      have h2 : SameButRights _ ((g.setRankInfo rankId (·.setRights rights)).setRankInfo rankId
          (·.setBankMoneyPerDay money)) :=
        setRankInfo_same (f := (·.setBankMoneyPerDay money)) (fun _ => rfl) _ rankId
      exact (h1.trans h2).trans (setRankBankTabs_same _ rankId l)

/-! ## Creating a guild -/

/-- The five ranks of a new guild. -/
def defaultRanks : List RankInfo :=
  [.new 0 GR_RIGHT_ALL 0, .new 1 GR_RIGHT_ALL 0, .new 2 defaultRights 0, .new 3 defaultRights 0,
    .new 4 defaultRights 0]

theorem createDefaultGuildRanks_eq (hg : g.ranks = []) :
    g.createDefaultGuildRanks = { g with ranks := defaultRanks } := by
  cases g
  subst hg
  rfl

/-- **`Create`.** The leader is the only member of a new guild, with rank 0 of five. -/
theorem create_spec {order : Arrangement Member} {nameTaken : Bool} {leader : Candidate}
    (h : create order nameTaken name leader = some g) :
    g.leaderGuid = leader.guid ∧ g.disbanded = false ∧ g.ranks = defaultRanks ∧
      (∃ m, g.getMember leader.guid = some m ∧ m.rankId = GR_GUILDMASTER) ∧
      ∀ m ∈ g.members, m.rankId = GR_GUILDMASTER := by
  unfold create at h
  split at h
  · cases h
  · simp only at h
    rw [createDefaultGuildRanks_eq (g := { name, leaderGuid := leader.guid }) rfl] at h
    unfold addMember at h
    simp only at h
    split at h
    · cases h
    · split at h
      · cases h
      · next members hs =>
        split at h
        · cases h
        · cases h
          refine ⟨rfl, rfl, rfl, ⟨_, Table.get?_tryEmplace_self hs, rfl⟩, ?_⟩
          intro m hm
          rcases (Table.mem_tryEmplace hs).mp hm with rfl | hm
          · rfl
          · cases hm

end Guild

end EGServer.Guilds
