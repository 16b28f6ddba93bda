import EGServer.Guilds.CommandSpec

/-!
# A guild and its guild master

Leadership is recorded twice, as the leader guid and as rank 0, and both records are written
by every operation that passes it on. They stay together as long as nobody passes the
leadership to the one who has it (the rank given to the former leader is then the last one
written) and no game master gives the leader another rank.
-/

namespace EGServer.Guilds

variable {g g' g₀ : Guild} {m : Member} {guid player : ObjectGuid} {name : String} {r : UInt8}
  {op : Operation}

/-- The leader guid is the guid of a member whose rank is `GR_GUILDMASTER`. -/
def Led (g : Guild) : Prop :=
  ∃ m, g.getMember g.leaderGuid = some m ∧ m.rankId = GR_GUILDMASTER

/-- The requests after which the leader has another rank: a guild master who hands the guild
to its leader, and a game master who gives the leader another existing rank. -/
def Dethrones (g : Guild) : Operation → Prop
  | .handleSetNewGuildMaster player name =>
    g.isLeader player = true ∧ ∃ m, g.getMemberByName name = some m ∧ m.guid = g.leaderGuid
  | .changeMemberRank guid newRank =>
    guid = g.leaderGuid ∧ newRank ≠ GR_GUILDMASTER ∧ newRank ≤ g.getLowestRankId
  | _ => False

instance : Decidable (Led g) :=
  decidable_of_iff ((g.getMember g.leaderGuid).any (·.isRank GR_GUILDMASTER) = true) <| by
    simp only [Option.any_eq_true, Member.isRank, decide_eq_true_eq, Led]

/-! ## What keeps a guild led -/

theorem led_setLeader (hm : m ∈ g.members) : Led (g.setLeader m) :=
  ⟨_, Guild.getMember_setLeader_self hm, rfl⟩

theorem Led.setRank_ne (h : Led g) (hne : guid ≠ g.leaderGuid) : Led (g.setRank guid r) := by
  obtain ⟨m, hm, hr⟩ := h
  exact ⟨m, (Guild.getMember_setRank_ne hne.symm).trans hm, hr⟩

theorem Led.eraseMember (h : Led g) (hne : guid ≠ g.leaderGuid)
    (hd : (g.eraseMember guid).1.disbanded = false) : Led (g.eraseMember guid).1 := by
  obtain ⟨m, hm, hr⟩ := h
  refine ⟨m, ?_, hr⟩
  rw [Guild.leaderGuid_eraseMember hd, Guild.getMember_eraseMember_ne hne.symm]
  exact hm

/-- **Succession.** A leader who is deleted has a successor, or the guild ends. -/
theorem Led.deleteMember (h : Led g) (hd : (g.deleteMember guid).1.disbanded = false) :
    Led (g.deleteMember guid).1 := by
  rcases Guild.deleteMember_cases g guid with
    ⟨hne, he⟩ | ⟨-, -, he⟩ | ⟨-, leader, hm, hne, -, he⟩ <;> rw [he] at hd ⊢
  · exact h.eraseMember (fun heq => hne heq.symm) hd
  · cases hd
  · exact (led_setLeader hm).eraseMember hne.symm hd

theorem Led.addMember {order : Arrangement Member} {c : Candidate} {rank : UInt8} (h : Led g) :
    Led (g.addMember order c rank).1 := by
  obtain ⟨m, hm, hr⟩ := h
  rw [Led, Guild.leaderGuid_addMember]
  exact ⟨m, Guild.getMember_addMember hm, hr⟩

theorem Led.sameButRights (h : Led g) (hs : Guild.SameButRights g g') : Led g' := by
  obtain ⟨m, hm, hr⟩ := h
  obtain ⟨hl, hmem, -, -⟩ := hs
  refine ⟨m, ?_, hr⟩
  rw [hl, Guild.getMember, hmem]
  exact hm

theorem Led.createRank {rights : UInt32} (h : Led g) : Led (g.createRank rights) := by
  rcases Guild.createRank_cases g rights with he | ⟨-, he⟩ <;> rw [he] <;> exact h

/-! ## Steps and runs -/

theorem Led.setNewGuildMaster {new old : Member} (hnew : new ∈ g.members)
    (hold : old.guid = g.leaderGuid) (hne : new.guid ≠ g.leaderGuid) :
    Led ((g.setLeader new).setRank old.guid GR_OFFICER) := by
  apply (led_setLeader hnew).setRank_ne
  rw [hold, Guild.leaderGuid_setLeader]
  exact hne.symm

/-- **One request** keeps a guild led unless it dethrones the leader. -/
theorem led_step (h : Led g) (hok : ¬ Dethrones g op) (hs : Step g op g')
    (hd : g'.disbanded = false) : Led g' := by
  obtain ⟨-, ha⟩ := hs
  cases op with
  | addMember order c =>
    cases ha
    exact h.addMember
  | deleteMember guid =>
    cases ha
    exact h.deleteMember hd
  | changeMemberRank guid newRank =>
    cases ha
    rcases Guild.changeMemberRank_cases g guid newRank with he | ⟨hle, -, he⟩
    · rw [he]
      exact h
    · rw [he]
      by_cases hg : guid = g.leaderGuid
      · by_cases h0 : newRank = GR_GUILDMASTER
        · obtain ⟨m, hm, -⟩ := h
          subst hg h0
          exact ⟨_, (Guild.getMember_setRank_self).trans (congrArg _ hm), rfl⟩
        · exact absurd ⟨hg, h0, hle⟩ hok
      · exact h.setRank_ne hg
  | handleLeaveMember player =>
    obtain ⟨⟨g1, sent⟩, ho, rfl⟩ := Option.map_eq_some_iff.mp ha
    rcases Guild.handleLeaveMember_cases ho with he | he | ⟨-, he⟩
    · rw [he]
      exact h
    · rw [he] at hd
      cases hd
    · rw [he] at hd ⊢
      exact h.deleteMember hd
  | handleRemoveMember player name =>
    cases ha
    rcases Guild.handleRemoveMember_cases g player name with ⟨he, -⟩ | ⟨me, target, -, he⟩
    · rw [he]
      exact h
    · rw [he] at hd ⊢
      exact h.deleteMember hd
  | handleUpdateMemberRank player name demote =>
    obtain ⟨⟨g1, sent⟩, ho, rfl⟩ := Option.map_eq_some_iff.mp ha
    obtain ⟨g2, sent', ho', hg⟩ := Guild.handleUpdateMemberRank_cases g player name demote
    cases ho.symm.trans ho'
    rcases hg with he | ⟨me, target, hacc, he⟩
    · rw [he]
      exact h
    · rw [he]
      apply h.setRank_ne
      -- nobody outranks the leader
      intro hl
      obtain ⟨m, hm, hr⟩ := h
      have ht := Guild.getMember_of_getMemberByName hacc.named
      rw [hl] at ht
      cases ht.symm.trans hm
      have hlt := hacc.ranks.1
      rw [hr] at hlt
      exact absurd hlt (UInt8.not_lt.mpr (UInt8.zero_le))
  | handleSetNewGuildMaster player name =>
    obtain ⟨⟨g1, sent⟩, ho, rfl⟩ := Option.map_eq_some_iff.mp ha
    rcases Guild.handleSetNewGuildMaster_cases ho with he | ⟨old, new, hold, hlead, hnew, he⟩
    · rw [he]
      exact h
    · rw [he]
      apply Led.setNewGuildMaster (Guild.mem_of_getMemberByName hnew) (Guild.guid_of_getMember hold)
      intro hl
      exact hok ⟨hlead, new, hnew, hl⟩
  | handleAddNewRank player =>
    cases ha
    rcases Guild.handleAddNewRank_cases g player with he | he <;> rw [he]
    · exact h
    · exact h.createRank
  | handleRemoveRank player rankId =>
    cases ha
    rcases Guild.handleRemoveRank_cases g player rankId with he | ⟨-, he⟩ <;> rw [he] <;> exact h
  | handleRemoveLowestRank player =>
    cases ha
    rcases Guild.handleRemoveRank_cases g player g.getLowestRankId with he | ⟨-, he⟩ <;>
      rw [Guild.handleRemoveLowestRank, he] <;> exact h
  | handleSetRankInfo player rankId rights money l =>
    cases ha
    exact h.sameButRights (Guild.handleSetRankInfo_same g player rankId rights money l)

theorem led_create {order : Arrangement Member} {nameTaken : Bool} {leader : Candidate}
    (h : Guild.create order nameTaken name leader = some g) : Led g := by
  obtain ⟨hl, -, -, hm, -⟩ := Guild.create_spec h
  rw [Led, hl]
  exact hm

/-- **A guild always has a guild master**, in every run in which nobody dethrones the leader. -/
theorem run_led {order : Arrangement Member} {nameTaken : Bool} {leader : Candidate}
    (h₀ : Guild.create order nameTaken name leader = some g₀)
    (h : Reaches Step (fun g op => ¬ Dethrones g op) g₀ g) (hd : g.disbanded = false) : Led g := by
  refine h.invariant (I := fun g => g.disbanded = false → Led g) (fun _ => led_create h₀) ?_ hd
  intro g g' op hi hok hs hd'
  exact led_step (hi hs.1) hok hs hd'

theorem Dethrones.not_led (h : Led g) (hdt : Dethrones g op) (hs : Step g op g') : ¬ Led g' := by
  obtain ⟨-, ha⟩ := hs
  obtain ⟨leader, hleader, -⟩ := h
  rintro ⟨m, hm, hr⟩
  cases op with
  | handleSetNewGuildMaster player name =>
    obtain ⟨hlead, new, hnew, hguid⟩ := hdt
    have hl : leader.guid = g.leaderGuid := Guild.guid_of_getMember hleader
    have hmem : (g.setLeader new).getMember leader.guid = some (new.changeRank GR_GUILDMASTER) := by
      rw [hl, ← hguid]
      exact Guild.getMember_setLeader_self (Guild.mem_of_getMemberByName hnew)
    simp only [Guild.apply, Guild.handleSetNewGuildMaster, hleader, hlead, hnew] at ha
    cases ha
    -- the former leader, who is the new one, is made an officer last
    have ho : Guild.getMember _ new.guid = some m := hm
    rw [hguid, ← hl, Guild.getMember_setRank_self, hmem] at ho
    cases ho
    cases hr
  | changeMemberRank guid newRank =>
    obtain ⟨rfl, h0, hle⟩ := hdt
    simp only [Guild.apply, Guild.changeMemberRank, if_pos hle, hleader] at ha
    cases ha
    have ho : Guild.getMember _ g.leaderGuid = some m := hm
    rw [Guild.getMember_setRank_self, hleader] at ho
    cases ho
    exact h0 hr
  | _ => exact hdt

/-- **Exactly the requests that dethrone the leader leave a guild without one.** -/
theorem led_step_iff (h : Led g) (hs : Step g op g') (hd : g'.disbanded = false) :
    Led g' ↔ ¬ Dethrones g op :=
  ⟨fun hled hdt => hdt.not_led h hs hled, fun hok => led_step h hok hs hd⟩

/-! ## A guild master who hands the guild to herself -/

def ann : Candidate := { guid := 1, name := "Ann" }
def bea : Candidate := { guid := 2, name := "Bea" }

/-- The guild Ann founds. -/
def annsGuild : Guild where
  name := "Anns"
  leaderGuid := 1
  ranks := Guild.defaultRanks
  members := ⟨[{ guid := 1, name := "Ann", rankId := 0 }], by decide⟩

theorem create_annsGuild :
    Guild.create (Arrangement.id Member) false "Anns" ann = some annsGuild := rfl

/-- Ann's guild after Bea has joined with the lowest rank. -/
def annAndBea : Guild := (annsGuild.addMember (Arrangement.id Member) bea GUILD_RANK_NONE).1

theorem annAndBea_led : Led annAndBea :=
  have hs : Step annsGuild (.addMember (Arrangement.id Member) bea) annAndBea := ⟨rfl, rfl⟩
  have hok : ¬ Dethrones annsGuild (.addMember (Arrangement.id Member) bea) := fun h => h
  run_led create_annsGuild (Reaches.next (Reaches.refl _) hok hs) rfl

/-- Ann's guild after she has named herself as her successor. -/
def annsHandover : Guild :=
  (annsGuild.setLeader ⟨1, "Ann", 0, fun _ => 0⟩).setRank 1 GR_OFFICER

/-- Named as her own successor, Ann ends up an officer, and the guild has no guild master. -/
theorem selfTransfer_not_led :
    Guild.create (Arrangement.id Member) false "Anns" ann = some annsGuild ∧
      Reaches Step (fun _ _ => True) annsGuild annsHandover ∧ annsHandover.disbanded = false ∧
      ¬ Led annsHandover := by
  have hs : Step annsGuild (.handleSetNewGuildMaster 1 "Ann") annsHandover := ⟨rfl, rfl⟩
  exact ⟨rfl, Reaches.next (Reaches.refl _) trivial hs, rfl, by decide⟩

theorem annsHandover_not_led : ¬ Led annsHandover := by
  have hs : Step annsGuild (.handleSetNewGuildMaster 1 "Ann") annsHandover := ⟨rfl, rfl⟩
  intro hled
  exact (led_step_iff (led_create create_annsGuild) hs rfl).mp hled ⟨rfl, _, rfl, rfl⟩

end EGServer.Guilds

/-!
# Well-formed ranks

A guild has between five and ten ranks, numbered in order, and every member holds one of
them. Removing a rank cuts the list of ranks and asks nothing about who holds them, so the
ranks stay well formed as long as only unheld ranks beyond the default ones are removed.
-/

namespace EGServer.Guilds

variable {g g' g₀ : Guild} {m : Member} {guid player : ObjectGuid} {name : String}
  {r rankId : UInt8} {op : Operation}

/-- The rules stated at `Validate`, and that every member holds an existing rank. -/
structure RanksWellFormed (g : Guild) : Prop where
  min : GUILD_RANKS_MIN_COUNT.toNat ≤ g.ranks.length
  max : g.ranks.length ≤ GUILD_RANKS_MAX_COUNT.toNat
  ids : g.ranks.map (·.rankId) = (List.range g.ranks.length).map UInt8.ofNat
  held : ∀ m ∈ g.members, m.rankId.toNat < g.ranks.length

/-- The checks of `HandleRemoveRank`. -/
def RankRemoved (g : Guild) (player : ObjectGuid) (rankId : UInt8) : Prop :=
  GUILD_RANKS_MIN_COUNT < g.getRanksSize ∧ rankId < g.getRanksSize ∧ g.isLeader player = true

/-- A rank is removed that is a default one, or that somebody holds, or below which somebody
holds one. -/
def RemovesNeededRank (g : Guild) (player : ObjectGuid) (rankId : UInt8) : Prop :=
  RankRemoved g player rankId ∧
    (rankId < GUILD_RANKS_MIN_COUNT ∨ ∃ m ∈ g.members, rankId ≤ m.rankId)

/-- The requests that leave the ranks broken. -/
def BreaksRanks (g : Guild) : Operation → Prop
  | .handleRemoveRank player rankId => RemovesNeededRank g player rankId
  | .handleRemoveLowestRank player => RemovesNeededRank g player g.getLowestRankId
  | _ => False

/-! ## Numbers -/

theorem GUILD_RANKS_MIN_COUNT_toNat : GUILD_RANKS_MIN_COUNT.toNat = 5 := rfl
theorem GUILD_RANKS_MAX_COUNT_toNat : GUILD_RANKS_MAX_COUNT.toNat = 10 := rfl

theorem toNat_getRanksSize (h : g.ranks.length ≤ GUILD_RANKS_MAX_COUNT.toNat) :
    g.getRanksSize.toNat = g.ranks.length := by
  rw [GUILD_RANKS_MAX_COUNT_toNat] at h
  apply UInt8.toNat_ofNat_of_lt'
  show g.ranks.length < 256
  omega

namespace RanksWellFormed

theorem toNat_lowest (h : RanksWellFormed g) : g.getLowestRankId.toNat = g.ranks.length - 1 := by
  have hmin := h.min
  rw [GUILD_RANKS_MIN_COUNT_toNat] at hmin
  have hsize : (UInt8.ofNat g.ranks.length).toNat = g.ranks.length := toNat_getRanksSize h.max
  grind [UInt8.toNat_sub_of_le, Guild.getLowestRankId, UInt8.le_iff_toNat_le]

theorem lt_of_le_lowest (h : RanksWellFormed g) (hr : r ≤ g.getLowestRankId) :
    r.toNat < g.ranks.length := by
  have hmin := h.min
  rw [GUILD_RANKS_MIN_COUNT_toNat] at hmin
  rw [UInt8.le_iff_toNat_le, h.toNat_lowest] at hr
  omega

theorem guildmaster_lt (h : RanksWellFormed g) : GR_GUILDMASTER.toNat < g.ranks.length := by
  have hmin := h.min
  rw [GUILD_RANKS_MIN_COUNT_toNat] at hmin
  show 0 < g.ranks.length
  omega

theorem officer_lt (h : RanksWellFormed g) : GR_OFFICER.toNat < g.ranks.length := by
  have hmin := h.min
  rw [GUILD_RANKS_MIN_COUNT_toNat] at hmin
  show 1 < g.ranks.length
  omega

/-! ## What keeps the ranks well formed -/

theorem of_members (h : RanksWellFormed g) (hr : g'.ranks = g.ranks)
    (hm : ∀ m ∈ g'.members, m ∈ g.members ∨ m.rankId.toNat < g.ranks.length) :
    RanksWellFormed g' where
  min := by
    rw [hr]
    exact h.min
  max := by
    rw [hr]
    exact h.max
  ids := by
    rw [hr]
    exact h.ids
  held m hmem := by
    rw [hr]
    exact (hm m hmem).elim (h.held m) id

theorem setRank (h : RanksWellFormed g) (hr : r.toNat < g.ranks.length) :
    RanksWellFormed (g.setRank guid r) := by
  apply h.of_members Guild.ranks_setRank
  intro m hm
  refine (Guild.mem_setRank hm).imp_right ?_
  intro he
  rwa [he]

theorem setLeader (h : RanksWellFormed g) : RanksWellFormed (g.setLeader m) :=
  have h' : RanksWellFormed { g with leaderGuid := m.guid } := ⟨h.min, h.max, h.ids, h.held⟩
  h'.setRank h.guildmaster_lt

theorem deleteMember (h : RanksWellFormed g) : RanksWellFormed (g.deleteMember guid).1 := by
  apply h.of_members Guild.ranks_deleteMember
  intro m hm
  refine (Guild.mem_deleteMember hm).imp_right ?_
  intro he
  rw [he]
  exact h.guildmaster_lt

theorem disband (h : RanksWellFormed g) : RanksWellFormed g.disband :=
  h.of_members rfl fun _ hm => nomatch hm

theorem addMember {order : Arrangement Member} {c : Candidate} (h : RanksWellFormed g) :
    RanksWellFormed (g.addMember order c GUILD_RANK_NONE).1 := by
  apply h.of_members Guild.ranks_addMember
  intro m hm
  refine (Guild.mem_addMember hm).imp_right ?_
  intro he
  rw [he, if_pos rfl]
  exact h.lt_of_le_lowest (UInt8.le_refl _)

theorem createRank {rights : UInt32} (h : RanksWellFormed g) :
    RanksWellFormed (g.createRank rights) := by
  rcases Guild.createRank_cases g rights with he | ⟨hlt, he⟩ <;> rw [he]
  · exact h
  · rw [UInt8.lt_iff_toNat_lt, toNat_getRanksSize h.max] at hlt
    constructor
    · show _ ≤ (g.ranks ++ _).length
      rw [List.length_append]
      exact h.min.trans (Nat.le_add_right _ _)
    · show (g.ranks ++ _).length ≤ _
      rw [List.length_append]
      exact hlt
    · show (g.ranks ++ _).map _ = (List.range (g.ranks ++ _).length).map _
      rw [List.map_append, h.ids, List.length_append, List.length_singleton, List.range_succ,
        List.map_append]
      rfl
    · intro m hm
      show _ < (g.ranks ++ _).length
      rw [List.length_append]
      exact (h.held m hm).trans_le (Nat.le_add_right _ _)

theorem removeRank (h : RanksWellFormed g) (hrem : RankRemoved g player rankId)
    (hok : ¬ RemovesNeededRank g player rankId) :
    RanksWellFormed { g with ranks := g.ranks.take rankId.toNat } := by
  rw [RemovesNeededRank, not_and_or, not_or] at hok
  obtain ⟨hmin, hheld⟩ := hok.resolve_left (not_not.mpr hrem)
  obtain ⟨-, hlt, -⟩ := hrem
  rw [UInt8.lt_iff_toNat_lt, toNat_getRanksSize h.max] at hlt
  have hlen : (g.ranks.take rankId.toNat).length = rankId.toNat := by
    rw [List.length_take]
    exact Nat.min_eq_left hlt.le
  constructor
  · show _ ≤ (g.ranks.take rankId.toNat).length
    rw [hlen, ← UInt8.le_iff_toNat_le]
    exact UInt8.not_lt.mp hmin
  · show (g.ranks.take rankId.toNat).length ≤ _
    rw [hlen]
    exact hlt.le.trans h.max
  · show (g.ranks.take rankId.toNat).map _ = (List.range (g.ranks.take rankId.toNat).length).map _
    rw [hlen, List.map_take, h.ids, ← List.map_take, List.take_range, Nat.min_eq_left hlt.le]
  · intro m hm
    show _ < (g.ranks.take rankId.toNat).length
    rw [hlen, ← UInt8.lt_iff_toNat_lt]
    apply UInt8.not_le.mp
    intro hle
    exact hheld ⟨m, hm, hle⟩

theorem handleRemoveRank (h : RanksWellFormed g) (hok : ¬ RemovesNeededRank g player rankId) :
    RanksWellFormed (g.handleRemoveRank player rankId) := by
  rcases Guild.handleRemoveRank_cases g player rankId with he | ⟨hrem, he⟩ <;> rw [he]
  · exact h
  · exact h.removeRank hrem hok

theorem sameButRights (h : RanksWellFormed g) (hs : Guild.SameButRights g g') :
    RanksWellFormed g' := by
  obtain ⟨-, hm, -, hr⟩ := hs
  have hlen : g'.ranks.length = g.ranks.length := by
    have := congrArg List.length hr
    rwa [List.length_map, List.length_map] at this
  constructor
  · rw [hlen]
    exact h.min
  · rw [hlen]
    exact h.max
  · rw [hlen, hr]
    exact h.ids
  · rw [hlen, hm]
    exact h.held

end RanksWellFormed

/-! ## Steps and runs -/

/-- **One request** keeps the ranks well formed unless it removes a rank that is needed. -/
theorem ranks_step (h : RanksWellFormed g) (hok : ¬ BreaksRanks g op) (hs : Step g op g') :
    RanksWellFormed g' := by
  obtain ⟨-, ha⟩ := hs
  cases op with
  | addMember order c =>
    cases ha
    exact h.addMember
  | deleteMember guid =>
    cases ha
    exact h.deleteMember
  | changeMemberRank guid newRank =>
    cases ha
    rcases Guild.changeMemberRank_cases g guid newRank with he | ⟨hle, -, he⟩ <;> rw [he]
    · exact h
    · exact h.setRank (h.lt_of_le_lowest hle)
  | handleLeaveMember player =>
    obtain ⟨⟨g1, sent⟩, ho, rfl⟩ := Option.map_eq_some_iff.mp ha
    rcases Guild.handleLeaveMember_cases ho with he | he | ⟨-, he⟩ <;> rw [he]
    · exact h
    · exact h.disband
    · exact h.deleteMember
  | handleRemoveMember player name =>
    cases ha
    rcases Guild.handleRemoveMember_cases g player name with ⟨he, -⟩ | ⟨me, target, -, he⟩ <;>
      rw [he]
    · exact h
    · exact h.deleteMember
  | handleUpdateMemberRank player name demote =>
    obtain ⟨⟨g1, sent⟩, ho, rfl⟩ := Option.map_eq_some_iff.mp ha
    obtain ⟨g2, sent', ho', hg⟩ := Guild.handleUpdateMemberRank_cases g player name demote
    cases ho.symm.trans ho'
    rcases hg with he | ⟨me, target, hacc, he⟩ <;> rw [he]
    · exact h
    · apply h.setRank
      obtain ⟨-, -, hdown, hup⟩ := hacc.ranks
      cases demote with
      | true => exact h.lt_of_le_lowest (hdown rfl).2
      | false =>
        have hlt := UInt8.lt_iff_toNat_lt.mp (hup rfl)
        exact hlt.trans (h.held target (Guild.mem_of_getMemberByName hacc.named))
  | handleSetNewGuildMaster player name =>
    obtain ⟨⟨g1, sent⟩, ho, rfl⟩ := Option.map_eq_some_iff.mp ha
    rcases Guild.handleSetNewGuildMaster_cases ho with he | ⟨old, new, -, -, -, he⟩ <;> rw [he]
    · exact h
    · exact h.setLeader.setRank h.officer_lt
  | handleAddNewRank player =>
    cases ha
    rcases Guild.handleAddNewRank_cases g player with he | he <;> rw [he]
    · exact h
    · exact h.createRank
  | handleRemoveRank player rankId =>
    cases ha
    exact h.handleRemoveRank hok
  | handleRemoveLowestRank player =>
    cases ha
    exact h.handleRemoveRank hok
  | handleSetRankInfo player rankId rights money l =>
    cases ha
    exact h.sameButRights (Guild.handleSetRankInfo_same g player rankId rights money l)

theorem ranks_create {order : Arrangement Member} {nameTaken : Bool} {leader : Candidate}
    (h : Guild.create order nameTaken name leader = some g) : RanksWellFormed g := by
  obtain ⟨-, -, hr, -, hm⟩ := Guild.create_spec h
  constructor
  · rw [hr]
    decide
  · rw [hr]
    decide
  · rw [hr]
    rfl
  · intro m hmem
    rw [hm m hmem, hr]
    decide

/-- **The ranks of a guild stay well formed** in every run in which no rank is removed that
is a default one or that somebody holds or ranks below. -/
theorem run_ranksWellFormed {order : Arrangement Member} {nameTaken : Bool} {leader : Candidate}
    (h₀ : Guild.create order nameTaken name leader = some g₀)
    (h : Reaches Step (fun g op => ¬ BreaksRanks g op) g₀ g) : RanksWellFormed g :=
  h.invariant (ranks_create h₀) fun hi hok hs => ranks_step hi hok hs

theorem RemovesNeededRank.broken (h : RanksWellFormed g) (hrem : RemovesNeededRank g player rankId) :
    ¬ RanksWellFormed (g.handleRemoveRank player rankId) := by
  obtain ⟨⟨hmin, hlt, hlead⟩, hneed⟩ := hrem
  have hcut : g.handleRemoveRank player rankId = { g with ranks := g.ranks.take rankId.toNat } := by
    unfold Guild.handleRemoveRank
    grind
  rw [hcut]
  intro h'
  rw [UInt8.lt_iff_toNat_lt, toNat_getRanksSize h.max] at hlt
  have hlen : (g.ranks.take rankId.toNat).length = rankId.toNat := by
    rw [List.length_take]
    exact Nat.min_eq_left hlt.le
  rcases hneed with hdef | ⟨m, hm, hle⟩
  · have hmin' : _ ≤ (g.ranks.take rankId.toNat).length := h'.min
    rw [hlen, ← UInt8.le_iff_toNat_le] at hmin'
    exact UInt8.not_lt.mpr hmin' hdef
  · have hheld : _ < (g.ranks.take rankId.toNat).length := h'.held m hm
    rw [hlen, ← UInt8.lt_iff_toNat_lt] at hheld
    exact UInt8.not_le.mpr hheld hle

theorem BreaksRanks.broken (h : RanksWellFormed g) (hb : BreaksRanks g op) (hs : Step g op g') :
    ¬ RanksWellFormed g' := by
  obtain ⟨-, ha⟩ := hs
  cases op with
  | handleRemoveRank player rankId =>
    cases ha
    exact RemovesNeededRank.broken h hb
  | handleRemoveLowestRank player =>
    cases ha
    exact RemovesNeededRank.broken h hb
  | _ => exact hb.elim

/-- **Exactly the requests that remove a rank which is needed spoil the ranks.** -/
theorem ranks_step_iff (h : RanksWellFormed g) (hs : Step g op g') :
    RanksWellFormed g' ↔ ¬ BreaksRanks g op :=
  ⟨fun hranks hb => hb.broken h hs hranks, fun hok => ranks_step h hok hs⟩

/-! ## A rank removed under its holder -/

theorem annAndBea_ranksWellFormed : RanksWellFormed annAndBea :=
  have hs : Step annsGuild (.addMember (Arrangement.id Member) bea) annAndBea := ⟨rfl, rfl⟩
  have hok : ¬ BreaksRanks annsGuild (.addMember (Arrangement.id Member) bea) := fun h => h
  run_ranksWellFormed create_annsGuild (Reaches.next (Reaches.refl _) hok hs)

/-- Ann adds a sixth rank, and Bea joins with it. -/
def sixRanks : Guild := annsGuild.handleAddNewRank 1
def beaSixth : Guild := (sixRanks.addMember (Arrangement.id Member) bea GUILD_RANK_NONE).1

/-- Ann removes the rank again. -/
def beaUnranked : Guild := beaSixth.handleRemoveLowestRank 1

/-- Bea keeps the number of a rank that no longer exists. -/
theorem removedRank_not_wellFormed :
    Guild.create (Arrangement.id Member) false "Anns" ann = some annsGuild ∧
      Reaches Step (fun _ _ => True) annsGuild beaUnranked ∧ ¬ RanksWellFormed beaUnranked := by
  have h1 : Step annsGuild (.handleAddNewRank 1) sixRanks := ⟨rfl, rfl⟩
  have h2 : Step sixRanks (.addMember (Arrangement.id Member) bea) beaSixth := ⟨rfl, rfl⟩
  have h3 : Step beaSixth (.handleRemoveLowestRank 1) beaUnranked := ⟨rfl, rfl⟩
  refine ⟨rfl, ?_, ?_⟩
  · exact (((Reaches.refl _).next trivial h1).next trivial h2).next trivial h3
  · intro h
    have hheld : ∀ m ∈ beaUnranked.members.rows, m.rankId.toNat < beaUnranked.ranks.length := h.held
    revert hheld
    decide

theorem sixRanks_wellFormed : RanksWellFormed sixRanks :=
  have hs : Step annsGuild (.handleAddNewRank 1) sixRanks := ⟨rfl, rfl⟩
  (ranks_step_iff (ranks_create create_annsGuild) hs).mpr id

end EGServer.Guilds
