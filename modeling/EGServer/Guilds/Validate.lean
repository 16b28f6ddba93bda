import EGServer.Guilds.Ranks

/-!
# Validating a loaded guild

`Validate` repairs what the database holds of a guild: the ranks, the ranks of the members, the
leader, and guild masters beside the leader, each pass on what the one before left. It ends with
well-formed ranks and one leader, apart from one comparison: a member whose rank id is the number
of ranks is taken for sound.

What is written to the database is not modelled.
-/

namespace EGServer.Guilds

/-- Tabs that a rank has no rights for get the default ones. -/
def RankInfo.createMissingTabsIfNeeded (tabs : UInt8) (info : RankInfo) : RankInfo :=
  { info with
    bankTabRightsAndSlots := fun i =>
      let r := info.bankTabRightsAndSlots i
      if tabs ≤ i || r.tabId == i then r
      else if info.rankId = GR_GUILDMASTER then
        GuildBankRightsAndSlots.setGuildMasterValues { r with tabId := i }
      else { r with tabId := i } }

namespace Guild

variable (g : Guild)

/-- `broken_ranks`: there are too few ranks, too many, or one of another number. -/
def brokenRanks : Bool :=
  decide (g.getRanksSize < GUILD_RANKS_MIN_COUNT) ||
    decide (GUILD_RANKS_MAX_COUNT < g.getRanksSize) ||
    (g.ranks.take g.getRanksSize.toNat).zipIdx.any fun info =>
      decide (info.1.rankId ≠ UInt8.ofNat info.2)

/-- "Validate ranks data" -/
def validateRanks : Guild :=
  if g.brokenRanks then { g with ranks := [] }.createDefaultGuildRanks
  else
    { g with
      ranks := (g.ranks.take g.getRanksSize.toNat).map
          (·.createMissingTabsIfNeeded g.getPurchasedTabsSize) ++
        g.ranks.drop g.getRanksSize.toNat }

/-- The rank of a member as the pass over the members leaves it. -/
def validRank (m : Member) : Member :=
  if g.getRanksSize < m.rankId then m.changeRank g.getLowestRankId else m

theorem guid_validRank (m : Member) : (g.validRank m).guid = m.guid := by
  rw [validRank]
  split <;> rfl

/-- "Validate members' data" -/
def validateMembers : Guild := { g with members := g.members.map g.validRank g.guid_validRank }

/-- "Repair the structure of the guild." The answer is whether there still is one. -/
def validateLeader : Guild × Bool :=
  match g.getMember g.leaderGuid with
  | none => ((g.deleteMember g.leaderGuid).1, !(g.deleteMember g.leaderGuid).2)
  | some leader => if leader.isRank GR_GUILDMASTER then (g, true) else (g.setLeader leader, true)

/-- A guild master beside the leader becomes an officer. -/
def onlyGuildmaster (m : Member) : Member :=
  if m.isRank GR_GUILDMASTER && !m.isSamePlayer g.leaderGuid then m.changeRank GR_OFFICER else m

theorem guid_onlyGuildmaster (m : Member) : (g.onlyGuildmaster m).guid = m.guid := by
  rw [onlyGuildmaster]
  split <;> rfl

def validateGuildmasters (allowMultipleGuildMaster : Bool) : Guild :=
  if allowMultipleGuildMaster then g
  else { g with members := g.members.map g.onlyGuildmaster g.guid_onlyGuildmaster }

/-- `Validate`; false when the guild should be deleted. -/
def validate (allowMultipleGuildMaster : Bool) : Guild × Bool :=
  match g.validateRanks.validateMembers.validateLeader with
  | (g, false) => (g, false)
  | (g, true) => (g.validateGuildmasters allowMultipleGuildMaster, true)

end Guild

/-! ## What each pass leaves -/

variable {g : Guild} {m leader : Member} {p : ObjectGuid}

/-- How many ranks there are once the ranks are validated. -/
def validRanks (g : Guild) : Nat := if g.brokenRanks then 5 else g.ranks.length

/-- More ranks than a `uint8` counts, of which the first look right. -/
def Overfull (g : Guild) : Prop := g.brokenRanks = false ∧ 255 < g.ranks.length

namespace Guild

theorem ranks_of_not_broken (h : g.brokenRanks = false) (hfull : g.ranks.length ≤ 255) :
    5 ≤ g.ranks.length ∧ g.ranks.length ≤ 10 ∧ g.getRanksSize.toNat = g.ranks.length ∧
      g.ranks.map (·.rankId) = (List.range g.ranks.length).map UInt8.ofNat := by
  have hsize : g.getRanksSize.toNat = g.ranks.length :=
    UInt8.toNat_ofNat_of_lt' (Nat.lt_succ_of_le hfull)
  rw [brokenRanks, Bool.or_eq_false_iff, Bool.or_eq_false_iff, hsize, List.take_length] at h
  obtain ⟨⟨hmin, hmax⟩, hids⟩ := h
  have hmin := UInt8.le_iff_toNat_le.mp (UInt8.not_lt.mp (of_decide_eq_false hmin))
  have hmax := UInt8.le_iff_toNat_le.mp (UInt8.not_lt.mp (of_decide_eq_false hmax))
  rw [hsize] at hmin hmax
  refine ⟨hmin, hmax, hsize, ?_⟩
  apply List.ext_getElem?
  intro i
  rw [List.getElem?_map, List.getElem?_map]
  cases hi : g.ranks[i]? with
  | none =>
    rw [List.getElem?_eq_none_iff] at hi
    rw [List.getElem?_eq_none_iff.mpr (by simpa using hi)]
    rfl
  | some info =>
    have hlt : i < g.ranks.length := (List.getElem?_eq_some_iff.mp hi).1
    have hid := List.any_eq_false.mp hids (info, i) (List.mk_mem_zipIdx_iff_getElem?.mpr hi)
    rw [List.getElem?_range hlt]
    have hid : info.rankId = UInt8.ofNat i := by simpa using hid
    rw [Option.map_some, Option.map_some, hid]

/-- **The ranks**, unless there are more than can be counted. -/
theorem validateRanks_spec (h : ¬Overfull g) :
    5 ≤ validRanks g ∧ validRanks g ≤ 10 ∧ g.validateRanks.ranks.length = validRanks g ∧
      g.validateRanks.ranks.map (·.rankId) = (List.range (validRanks g)).map UInt8.ofNat := by
  unfold validRanks validateRanks
  cases hbroken : g.brokenRanks with
  | true =>
    have hdefault : ({ g with ranks := [] } : Guild).createDefaultGuildRanks =
        { g with ranks := defaultRanks } := createDefaultGuildRanks_eq rfl
    rw [if_pos rfl, if_pos rfl, hdefault]
    exact ⟨Nat.le_refl 5, by decide, rfl, rfl⟩
  | false =>
    have hfull : g.ranks.length ≤ 255 := Nat.not_lt.mp fun hlt => h ⟨hbroken, hlt⟩
    obtain ⟨hmin, hmax, hsize, hids⟩ := ranks_of_not_broken hbroken hfull
    rw [if_neg Bool.false_ne_true, if_neg Bool.false_ne_true, hsize, List.take_length,
      List.drop_length, List.append_nil]
    refine ⟨hmin, hmax, List.length_map _, ?_⟩
    rw [List.map_map]
    exact hids

theorem validateRanks_members (g : Guild) :
    g.validateRanks.members = g.members ∧ g.validateRanks.leaderGuid = g.leaderGuid := by
  unfold validateRanks
  split
  · have hdefault : ({ g with ranks := [] } : Guild).createDefaultGuildRanks =
        { g with ranks := defaultRanks } := createDefaultGuildRanks_eq rfl
    rw [hdefault]
    exact ⟨rfl, rfl⟩
  · exact ⟨rfl, rfl⟩

theorem validRank_cases {n : Nat} (hlength : g.ranks.length = n) (hmin : 5 ≤ n) (hmax : n ≤ 10)
    (m : Member) :
    m.rankId.toNat ≠ n ∧ (g.validRank m).rankId.toNat < n ∨
      m.rankId.toNat = n ∧ g.validRank m = m := by
  have hsize : g.getRanksSize.toNat = n := by
    rw [← hlength]
    exact toNat_getRanksSize (hlength ▸ hmax)
  have hlowest : g.getLowestRankId.toNat = n - 1 := by
    have hle : (1 : UInt8) ≤ g.getRanksSize := by
      rw [UInt8.le_iff_toNat_le, hsize]
      show 1 ≤ n
      omega
    show (g.getRanksSize - 1).toNat = n - 1
    rw [UInt8.toNat_sub_of_le _ _ hle, hsize]
    rfl
  unfold validRank
  split
  · next hlt =>
    rw [UInt8.lt_iff_toNat_lt, hsize] at hlt
    refine Or.inl ⟨Nat.ne_of_gt hlt, ?_⟩
    show g.getLowestRankId.toNat < n
    omega
  · next hle =>
    rw [UInt8.lt_iff_toNat_lt, hsize] at hle
    grind

theorem validateLeader_cases (g : Guild) :
    g.validateLeader.2 = false ∧ g.members.rows = [] ∨
      g.validateLeader.2 = true ∧ g.validateLeader.1.ranks = g.ranks ∧
        ∃ leader ∈ g.members, g.validateLeader.1.leaderGuid = leader.guid ∧
          (leader.guid = g.leaderGuid ∨ g.getMember g.leaderGuid = none ∧
            ∀ m ∈ g.members, leader.rankId ≤ m.rankId) ∧
          (g.validateLeader.1.getMember leader.guid = some (leader.changeRank GR_GUILDMASTER)) ∧
          ∀ p, p ≠ leader.guid → g.validateLeader.1.getMember p = g.getMember p := by
  unfold validateLeader
  cases hleader : g.getMember g.leaderGuid with
  | some leader =>
    have hmem := mem_of_getMember hleader
    have hguid := guid_of_getMember hleader
    refine Or.inr ?_
    dsimp only
    split
    · next hmaster =>
      refine ⟨rfl, rfl, leader, hmem, hguid.symm, Or.inl hguid, ?_, fun _ _ => rfl⟩
      have hrank : leader.changeRank GR_GUILDMASTER = leader := by
        rw [Member.changeRank, ← of_decide_eq_true hmaster]
      rw [hrank]
      exact getMember_guid hmem
    · exact ⟨rfl, rfl, leader, hmem, rfl, Or.inl hguid, getMember_setLeader_self hmem,
        fun p hp => getMember_setLeader_ne hp⟩
  | none =>
    have hother : ∀ m ∈ g.members, m.guid ≠ g.leaderGuid := by
      intro m hm heq
      rw [← heq, getMember_guid hm] at hleader
      cases hleader
    unfold deleteMember
    rw [if_pos rfl]
    cases hnew : newLeader g.leaderGuid g.members.rows none with
    | none =>
      have hnobody : g.members.rows = [] :=
        List.eq_nil_iff_forall_not_mem.mpr fun m hm => hother m hm ((newLeader_eq_none hnew).2 m hm)
      exact Or.inl ⟨rfl, hnobody⟩
    | some leader =>
      obtain ⟨hmem | hmem, hbest, -⟩ := newLeader_eq_some hnew
      · obtain ⟨hmem, hne⟩ := hmem
        have hleft : (g.setLeader leader).getMember g.leaderGuid = none :=
          (getMember_setLeader_ne hne.symm).trans hleader
        have herase : (g.setLeader leader).members.erase g.leaderGuid =
            (g.setLeader leader).members := Table.erase_of_none hleft
        have hin : (g.setLeader leader).getMember leader.guid =
            some (leader.changeRank GR_GUILDMASTER) := getMember_setLeader_self hmem
        have hrows : (g.setLeader leader).members.rows.isEmpty = false := by
          rw [List.isEmpty_eq_false_iff]
          exact List.ne_nil_of_mem (mem_of_getMember hin)
        dsimp only
        rw [eraseMember, herase]
        dsimp only
        rw [hrows]
        refine Or.inr ⟨rfl, rfl, leader, hmem, rfl, Or.inr ⟨rfl, ?_⟩, hin,
          fun p hp => getMember_setLeader_ne hp⟩
        exact fun m hm => hbest m hm (hother m hm)
      · cases hmem

/-- The guild as the leader pass finds it. -/
def withValidMembers (g : Guild) : Guild := g.validateRanks.validateMembers

theorem withValidMembers_ranks (g : Guild) :
    g.withValidMembers.ranks = g.validateRanks.ranks ∧
      g.withValidMembers.leaderGuid = g.leaderGuid :=
  ⟨rfl, (validateRanks_members g).2⟩

theorem mem_withValidMembers {m' : Member} :
    m' ∈ g.withValidMembers.members ↔ ∃ m ∈ g.members, g.validateRanks.validRank m = m' := by
  have hmem : m' ∈ g.withValidMembers.members ↔
      ∃ m ∈ g.validateRanks.members, g.validateRanks.validRank m = m' := List.mem_map
  rw [hmem, (validateRanks_members g).1]

theorem getMember_withValidMembers_eq_none :
    g.withValidMembers.getMember p = none ↔ g.getMember p = none := by
  rw [getMember, getMember, Table.get?_eq_none, Table.get?_eq_none]
  constructor
  · intro h m hm
    rw [← g.validateRanks.guid_validRank m]
    exact h _ (mem_withValidMembers.mpr ⟨m, hm, rfl⟩)
  · intro h m' hm'
    obtain ⟨m, hm, rfl⟩ := mem_withValidMembers.mp hm'
    rw [guid_validRank]
    exact h m hm

/-! ## Guild masters beside the leader -/

theorem mem_validateGuildmasters {allow : Bool} {m' : Member}
    (h : m' ∈ (g.validateGuildmasters allow).members) :
    ∃ m ∈ g.members, m'.guid = m.guid ∧
      (m' = m ∧ (allow = false → m.rankId = GR_GUILDMASTER → m.guid = g.leaderGuid) ∨
        m'.rankId = GR_OFFICER) := by
  cases allow with
  | true => exact ⟨m', h, rfl, Or.inl ⟨rfl, fun h => nomatch h⟩⟩
  | false =>
    have hmem : ∃ m ∈ g.members, g.onlyGuildmaster m = m' := List.mem_map.mp h
    obtain ⟨m, hm, rfl⟩ := hmem
    refine ⟨m, hm, guid_onlyGuildmaster g m, ?_⟩
    unfold onlyGuildmaster
    split
    · exact Or.inr rfl
    · next hno =>
      refine Or.inl ⟨rfl, fun _ hrank => ?_⟩
      simpa [Member.isRank, Member.isSamePlayer, hrank] using hno

theorem mem_validateGuildmasters_of {allow : Bool} (hm : m ∈ g.members)
    (h : m.rankId ≠ GR_GUILDMASTER ∨ m.guid = g.leaderGuid) :
    m ∈ (g.validateGuildmasters allow).members := by
  cases allow with
  | true => exact hm
  | false =>
    refine List.mem_map.mpr ⟨m, hm, ?_⟩
    unfold onlyGuildmaster
    rw [if_neg]
    rcases h with h | h
    · simp [Member.isRank, h]
    · simp [Member.isSamePlayer, h]

theorem validateGuildmasters_same (g : Guild) (allow : Bool) :
    (g.validateGuildmasters allow).ranks = g.ranks ∧
      (g.validateGuildmasters allow).leaderGuid = g.leaderGuid := by
  cases allow <;> exact ⟨rfl, rfl⟩

end Guild

/-! ## When the guild is repaired -/

/-- What `Validate` promises: well-formed ranks, a leader with the rank of one, and no other guild
master where only one is allowed. -/
structure Repaired (allowMultipleGuildMaster : Bool) (g : Guild) : Prop where
  ranks : RanksWellFormed g
  led : Led g
  onlyOne : allowMultipleGuildMaster = false →
    ∀ m ∈ g.members, m.rankId = GR_GUILDMASTER → m.guid = g.leaderGuid

/-- Nobody holds the rank after the last one, unless it is the leader, or the one who will be. -/
def NobodyBelow (g : Guild) : Prop :=
  ∀ m ∈ g.members, m.rankId.toNat = validRanks g →
    m.guid = g.leaderGuid ∨ g.getMember g.leaderGuid = none ∧ g.members.rows = [m]

theorem rows_eq_singleton (hne : g.members.rows ≠ []) (h : ∀ a ∈ g.members, a = m) :
    g.members.rows = [m] := by
  have hnodup := g.members.nodup
  cases hrows : g.members.rows with
  | nil => exact absurd hrows hne
  | cons a l =>
    have ha : a = m := h a (by rw [Table.mem_def, hrows]; exact List.mem_cons_self)
    cases l with
    | nil => rw [ha]
    | cons b l =>
      have hb : b = m := h b (by rw [Table.mem_def, hrows]; simp)
      rw [hrows, ha, hb] at hnodup
      simp at hnodup

theorem repaired_iff {allow : Bool} {n : Nat} (hmin : 5 ≤ n) (hmax : n ≤ 10)
    (hlength : g.ranks.length = n)
    (hids : g.ranks.map (·.rankId) = (List.range n).map UInt8.ofNat)
    (hleader : g.getMember g.leaderGuid = some m) (hmaster : m.rankId = GR_GUILDMASTER) :
    Repaired allow (g.validateGuildmasters allow) ↔ ∀ a ∈ g.members, a.rankId.toNat < n := by
  obtain ⟨hranks, hguid⟩ := Guild.validateGuildmasters_same g allow
  constructor
  · intro h a ha
    by_cases hrank : a.rankId = GR_GUILDMASTER
    · rw [hrank]
      show 0 < n
      omega
    · have hheld := h.ranks.held a (Guild.mem_validateGuildmasters_of ha (Or.inl hrank))
      rwa [hranks, hlength] at hheld
  · intro h
    refine ⟨⟨?_, ?_, ?_, ?_⟩, ?_, ?_⟩
    · rw [hranks, hlength]
      exact hmin
    · rw [hranks, hlength]
      exact hmax
    · rw [hranks, hlength]
      exact hids
    · intro a ha
      rw [hranks, hlength]
      obtain ⟨b, hb, -, ⟨rfl, -⟩ | hofficer⟩ := Guild.mem_validateGuildmasters ha
      · exact h a hb
      · rw [hofficer]
        show 1 < n
        omega
    · refine ⟨m, ?_, hmaster⟩
      have hin : m ∈ (g.validateGuildmasters allow).members :=
        Guild.mem_validateGuildmasters_of (Guild.mem_of_getMember hleader)
          (Or.inr (Guild.guid_of_getMember hleader))
      rw [hguid, ← Guild.guid_of_getMember hleader]
      exact Guild.getMember_guid hin
    · intro hallow a ha hrank
      obtain ⟨b, -, -, ⟨rfl, honly⟩ | hofficer⟩ := Guild.mem_validateGuildmasters ha
      · rw [hguid]
        exact honly hallow hrank
      · rw [hofficer] at hrank
        cases hrank

theorem validate_of_nil (allow : Bool) (h : g.members.rows = []) : (g.validate allow).2 = false := by
  rcases Guild.validateLeader_cases g.withValidMembers with ⟨hfalse, -⟩ | ⟨-, -, leader, hin, -⟩
  · have hpair : g.validateRanks.validateMembers.validateLeader =
        (g.withValidMembers.validateLeader.1, false) := Prod.ext rfl hfalse
    rw [Guild.validate, hpair]
  · obtain ⟨m, hm, -⟩ := Guild.mem_withValidMembers.mp hin
    rw [Table.mem_def, h] at hm
    cases hm

theorem validate_of_ne (allow : Bool) (hne : g.members.rows ≠ []) :
    g.withValidMembers.validateLeader.2 = true ∧
      g.validate allow = (g.withValidMembers.validateLeader.1.validateGuildmasters allow, true) := by
  have htrue : g.withValidMembers.validateLeader.2 = true := by
    rcases Guild.validateLeader_cases g.withValidMembers with ⟨-, hnil⟩ | ⟨htrue, -⟩
    · obtain ⟨m, hm⟩ := List.exists_mem_of_ne_nil _ hne
      have hin : g.validateRanks.validRank m ∈ g.withValidMembers.members :=
        Guild.mem_withValidMembers.mpr ⟨m, hm, rfl⟩
      rw [Table.mem_def, hnil] at hin
      cases hin
    · exact htrue
  refine ⟨htrue, ?_⟩
  have hpair : g.validateRanks.validateMembers.validateLeader =
      (g.withValidMembers.validateLeader.1, true) := Prod.ext rfl htrue
  rw [Guild.validate, hpair]

/-- **A guild with members** is repaired when nobody holds the rank after the last one. -/
theorem validate_of_members (allow : Bool) (hfull : ¬Overfull g) (hne : g.members.rows ≠ []) :
    Repaired allow (g.validate allow).1 ↔ NobodyBelow g := by
  obtain ⟨hmin, hmax, hlength, hids⟩ := Guild.validateRanks_spec hfull
  have hrank := Guild.validRank_cases hlength hmin hmax
  obtain ⟨hranks, hguid⟩ := Guild.withValidMembers_ranks g
  obtain ⟨htrue, hval⟩ := validate_of_ne allow hne
  rcases Guild.validateLeader_cases g.withValidMembers with
    ⟨hfalse, -⟩ | ⟨-, hsame, leader, hleader, hled, hchosen, hself, hother⟩
  · rw [htrue] at hfalse
    cases hfalse
  rw [hval]
  rw [repaired_iff hmin hmax (by rw [hsame, hranks, hlength]) (by rw [hsame, hranks, hids])
    (hled ▸ hself) rfl]
  rw [hguid, Guild.getMember_withValidMembers_eq_none] at hchosen
  -- a member other than the leader is as the pass over the members left it
  have hmem : ∀ m ∈ g.members, m.guid ≠ leader.guid →
      g.validateRanks.validRank m ∈ g.withValidMembers.validateLeader.1.members := by
    intro m hm hne
    have hin := Guild.getMember_guid (Guild.mem_withValidMembers.mpr ⟨m, hm, rfl⟩)
    rw [Guild.guid_validRank] at hin
    exact Guild.mem_of_getMember ((hother m.guid hne).trans hin)
  constructor
  · intro h
    have hlast : ∀ m ∈ g.members, m.rankId.toNat = validRanks g → m.guid = leader.guid := by
      grind
    intro m hm hn
    rcases hchosen with hold | ⟨hnone, hbest⟩
    · exact Or.inl ((hlast m hm hn).trans hold)
    · -- the successor has the last rank, so everybody has
      have hkeep : g.validateRanks.validRank m = m :=
        (hrank m).elim (fun h => absurd hn h.1) fun h => h.2
      have hm' : m ∈ g.withValidMembers.members := Guild.mem_withValidMembers.mpr ⟨m, hm, hkeep⟩
      have hleaderEq : leader = m := Table.eq_of_key hleader hm' (hlast m hm hn).symm
      refine Or.inr ⟨hnone, rows_eq_singleton hne fun a ha => ?_⟩
      have hle := UInt8.le_iff_toNat_le.mp (hbest _ (Guild.mem_withValidMembers.mpr ⟨a, ha, rfl⟩))
      rw [hleaderEq, hn] at hle
      rcases hrank a with ⟨-, hlt⟩ | ⟨ha', -⟩
      · exact absurd hlt (Nat.not_lt.mpr hle)
      · exact Table.eq_of_key ha hm ((hlast a ha ha').trans (hlast m hm hn).symm)
  · intro h a ha
    by_cases hself' : a.guid = leader.guid
    · have hsome := Guild.getMember_guid ha
      rw [hself', hself] at hsome
      cases hsome
      show 0 < validRanks g
      omega
    · have hsome := Guild.getMember_guid ha
      rw [hother a.guid hself'] at hsome
      obtain ⟨m, hm, rfl⟩ := Guild.mem_withValidMembers.mp (Guild.mem_of_getMember hsome)
      rw [Guild.guid_validRank] at hself'
      rcases hrank m with ⟨-, hlt⟩ | ⟨hn, -⟩
      · exact hlt
      · exfalso
        rcases h m hm hn with hold | ⟨-, hrows⟩
        · grind [Guild.getMember_guid]
        · obtain ⟨b, hb, rfl⟩ := Guild.mem_withValidMembers.mp hleader
          rw [Table.mem_def, hrows] at hb
          rw [List.mem_singleton.mp hb, Guild.guid_validRank] at hself'
          exact hself' rfl

theorem Overfull.not_repaired {allow : Bool} (h : Overfull g) (hne : g.members.rows ≠ []) :
    ¬Repaired allow (g.validate allow).1 := by
  intro hrepaired
  obtain ⟨htrue, hval⟩ := validate_of_ne allow hne
  rcases Guild.validateLeader_cases g.withValidMembers with ⟨hfalse, -⟩ | ⟨-, hsame, -⟩
  · rw [htrue] at hfalse
    cases hfalse
  have hmax := hrepaired.ranks.max
  have hlength : g.validateRanks.ranks.length = g.ranks.length := by
    rw [Guild.validateRanks, if_neg (by rw [h.1]; exact Bool.false_ne_true), List.length_append,
      List.length_map, ← List.length_append, List.take_append_drop]
  rw [hval, (Guild.validateGuildmasters_same _ allow).1, hsame, (Guild.withValidMembers_ranks g).1,
    hlength, GUILD_RANKS_MAX_COUNT_toNat] at hmax
  have hfull := h.2
  omega

/-- **Validate repairs or rejects** exactly when the guild is empty, or has no more ranks than can
be counted and nobody with the rank after the last one. -/
theorem validate_iff (g : Guild) (allow : Bool) :
    (((g.validate allow).2 = true → Repaired allow (g.validate allow).1) ∧
      ((g.validate allow).2 = false → g.members.rows = [])) ↔
    (g.members.rows = [] ∨ ¬Overfull g ∧ NobodyBelow g) := by
  by_cases hnil : g.members.rows = []
  · grind [validate_of_nil]
  · have htrue : (g.validate allow).2 = true := by rw [(validate_of_ne allow hnil).2]
    constructor
    · intro h
      have hrepaired := h.1 htrue
      have hfull : ¬Overfull g := fun hfull => hfull.not_repaired hnil hrepaired
      exact Or.inr ⟨hfull, (validate_of_members allow hfull hnil).mp hrepaired⟩
    · grind [validate_of_members]

/-- A guild of five ranks with a leader and one member, as it may be after a crash: the member
holds a rank that is gone. -/
def crashed (rankId : UInt8) : Guild where
  leaderGuid := 1
  ranks := Guild.defaultRanks
  members := ⟨[{ guid := 1, rankId := 0 }, { guid := 2, rankId := rankId }], by
    show ([1, 2] : List ObjectGuid).Nodup
    decide⟩

/-- Rank 5 is kept, where rank 6 becomes rank 4. -/
theorem crashed_not_repaired :
    ¬(∀ (g : Guild) (allow : Bool),
      ((g.validate allow).2 = true → Repaired allow (g.validate allow).1) ∧
        ((g.validate allow).2 = false → g.members.rows = [])) ∧
    ((crashed 6).validate false).1.members.rows.map (·.rankId) = [0, 4] := by
  refine ⟨fun h => ?_, by decide⟩
  have hheld := ((h (crashed 5) false).1 (by decide)).ranks.held { guid := 2, rankId := 5 }
    (by
      show _ ∈ ((crashed 5).validate false).1.members.rows
      exact List.mem_cons_of_mem _ List.mem_cons_self)
  revert hheld
  decide

end EGServer.Guilds
