import EGServer.Guilds.Ranks

/-!
# Rank authority

Members promote, demote and remove others by rank: a lower number outranks a higher one.
Whoever acts must outrank the target before and after, so a group of members acting in any
order gets nobody to the best rank any of them had at first. The one way around it is to
remove the leader while nobody holds rank 0: the checks look at the leader's rank alone, and
the successor is made guild master whoever removed the leader.
-/

namespace EGServer.Guilds

variable {g g' : Guild} {m me target : Member} {p player : ObjectGuid} {name : String}

/-- A request that one member makes about another. -/
inductive Request where
  | updateRank (player : ObjectGuid) (name : String) (demote : Bool)
  | remove (player : ObjectGuid) (name : String)

namespace Request

def actor : Request → ObjectGuid
  | updateRank player _ _ => player
  | remove player _ => player

def targetName : Request → String
  | updateRank _ name _ => name
  | remove _ name => name

/-- The right a request needs. -/
def right : Request → UInt32
  | updateRank _ _ demote => Guild.updateRankRight demote
  | remove _ _ => GR_RIGHT_REMOVE

def operation : Request → Operation
  | updateRank player name demote => .handleUpdateMemberRank player name demote
  | remove player name => .handleRemoveMember player name

end Request

/-- What becomes of the target of a request: a promoted one is still outranked by the actor,
a demoted one holds an existing rank, a removed one is gone. -/
def TargetWithin (g g' : Guild) (me target : Member) : Request → Prop
  | .updateRank _ _ false =>
    ∃ t, g'.getMember target.guid = some t ∧ t.rankId < target.rankId ∧ me.rankId < t.rankId
  | .updateRank _ _ true =>
    ∃ t, g'.getMember target.guid = some t ∧ target.rankId < t.rankId ∧ t.rankId ≤ g.getLowestRankId
  | .remove _ _ => g'.getMember target.guid = none

/-- A request that was carried out: the actor has the right and outranks the target, and
only the target changes. -/
structure CarriedOut (g g' : Guild) (req : Request) (me target : Member) : Prop where
  actor : g.getMember req.actor = some me
  right : g.getRankRights me.rankId &&& req.right ≠ GR_RIGHT_NONE
  named : g.getMemberByName req.targetName = some target
  outranks : me.rankId < target.rankId
  becomes : TargetWithin g g' me target req
  others : ∀ p, p ≠ target.guid → g'.getMember p = g.getMember p

/-- A request stays within the authority of the actor: nothing changes, or it was carried out
on the target alone; and nobody is promoted to rank 0. -/
def WithinAuthority (g g' : Guild) (req : Request) : Prop :=
  (g' = g ∨ ∃ me target, CarriedOut g g' req me target) ∧
    ∀ p m', g'.getMember p = some m' → m'.rankId = GR_GUILDMASTER →
      ∃ m, g.getMember p = some m ∧ m.rankId = GR_GUILDMASTER

/-- The leader, who does not hold rank 0, is removed while nobody else holds it either. -/
def Usurps (g : Guild) : Request → Prop
  | .updateRank _ _ _ => False
  | .remove player name =>
    ∃ me target, Guild.RemoveAccepted g player name me target ∧ target.guid = g.leaderGuid ∧
      ∀ m ∈ g.members, m.rankId ≠ GR_GUILDMASTER

/-! ## One request -/

theorem updateRank_within {demote : Bool}
    (h : Guild.UpdateAccepted g player name demote me target) :
    WithinAuthority g (g.setRank target.guid (Guild.updatedRank target demote))
      (.updateRank player name demote) := by
  obtain ⟨hout, hbelow, hdown, hup⟩ := h.ranks
  have ht : g.getMember target.guid = some target := Guild.getMember_of_getMemberByName h.named
  have hnew : (g.setRank target.guid (Guild.updatedRank target demote)).getMember target.guid =
      some (target.changeRank (Guild.updatedRank target demote)) := by
    rw [Guild.getMember_setRank_self, ht]
    rfl
  constructor
  · refine Or.inr ⟨me, target, h.actor, h.right, h.named, hout, ?_, ?_⟩
    · cases demote with
      | false => exact ⟨_, hnew, hup rfl, hbelow⟩
      | true => exact ⟨_, hnew, hdown rfl⟩
    · intro p hp
      exact Guild.getMember_setRank_ne hp
  · intro p m' hm' hr
    by_cases hp : p = target.guid
    · subst hp
      rw [hnew] at hm'
      cases hm'
      have hz : Guild.updatedRank target demote = GR_GUILDMASTER := hr
      rw [hz] at hbelow
      exact absurd hbelow (UInt8.not_lt.mpr UInt8.zero_le)
    · rw [Guild.getMember_setRank_ne hp] at hm'
      exact ⟨m', hm', hr⟩

theorem deleteMember_others (hkeep : target.guid = g.leaderGuid →
      ∃ m ∈ g.members, m.guid ≠ target.guid ∧ m.rankId = GR_GUILDMASTER) (hp : p ≠ target.guid) :
    (g.deleteMember target.guid).1.getMember p = g.getMember p := by
  rcases Guild.deleteMember_cases g target.guid with
    ⟨-, he⟩ | ⟨hl, hall, he⟩ | ⟨hl, leader, hleader, hne, hmin, he⟩
  · rw [he]
    exact Guild.getMember_eraseMember_ne hp
  · obtain ⟨m, hm, hmne, -⟩ := hkeep hl.symm
    exact absurd (hall m hm) hmne
  · obtain ⟨m, hm, hmne, hr⟩ := hkeep hl.symm
    have hzero : leader.rankId = GR_GUILDMASTER := by
      have hle := hmin m hm hmne
      rw [hr] at hle
      exact UInt8.le_antisymm hle UInt8.zero_le
    rw [he, Guild.getMember_eraseMember_ne hp]
    by_cases hpl : p = leader.guid
    · subst hpl
      rw [Guild.getMember_setLeader_self hleader, Guild.getMember_guid hleader, ← hzero]
      rfl
    · exact Guild.getMember_setLeader_ne hpl

theorem getMember_deleteMember_self {guid : ObjectGuid} :
    (g.deleteMember guid).1.getMember guid = none := by
  rcases Guild.deleteMember_cases g guid with ⟨-, he⟩ | ⟨-, -, he⟩ | ⟨-, leader, -, -, -, he⟩ <;>
    rw [he]
  · exact Guild.getMember_eraseMember_self
  · rfl
  · exact Guild.getMember_eraseMember_self

theorem remove_within (h : Guild.RemoveAccepted g player name me target)
    (hok : ¬ Usurps g (.remove player name)) :
    WithinAuthority g (g.deleteMember target.guid).1 (.remove player name) := by
  have hkeep : target.guid = g.leaderGuid →
      ∃ m ∈ g.members, m.guid ≠ target.guid ∧ m.rankId = GR_GUILDMASTER := by
    intro hl
    by_contra hn
    apply hok
    refine ⟨me, target, h, hl, ?_⟩
    intro m hm hr
    apply hn
    refine ⟨m, hm, ?_, hr⟩
    intro he
    have hmt : m = target :=
      Table.eq_of_key hm (Guild.mem_of_getMemberByName h.named) he
    exact h.notMaster (hmt ▸ hr)
  constructor
  · exact Or.inr ⟨me, target, h.actor, h.right, h.named, h.outranks, getMember_deleteMember_self,
      fun p hp => deleteMember_others hkeep hp⟩
  · grind [deleteMember_others, getMember_deleteMember_self]

theorem Usurps.not_within (h : Guild.RemoveAccepted g player name me target)
    (hl : target.guid = g.leaderGuid) (hnone : ∀ m ∈ g.members, m.rankId ≠ GR_GUILDMASTER) :
    ¬ WithinAuthority g (g.deleteMember target.guid).1 (.remove player name) := by
  rintro ⟨-, hzero⟩
  have hme : me ∈ g.members := Guild.mem_of_getMember h.actor
  have hother : me.guid ≠ target.guid := by
    intro he
    have hmt : me = target := Table.eq_of_key hme (Guild.mem_of_getMemberByName h.named) he
    have hlt := h.outranks
    rw [hmt] at hlt
    exact UInt8.lt_irrefl _ hlt
  rcases Guild.deleteMember_cases g target.guid with
    ⟨hne, -⟩ | ⟨-, hall, -⟩ | ⟨-, leader, hleader, hne, -, he⟩
  · exact hne hl.symm
  · exact hother (hall me hme)
  · obtain ⟨m, hm, hr⟩ := hzero leader.guid (leader.changeRank GR_GUILDMASTER) (by
      rw [he, Guild.getMember_eraseMember_ne hne]
      exact Guild.getMember_setLeader_self hleader) rfl
    exact hnone m (Guild.mem_of_getMember hm) hr

theorem WithinAuthority.refl (g : Guild) (req : Request) : WithinAuthority g g req :=
  ⟨Or.inl rfl, fun _ m' hm' hr => ⟨m', hm', hr⟩⟩

/-- **One request** is served, and it stays within the authority of the actor exactly when it
does not usurp the leadership. -/
theorem request_within_iff (g : Guild) (req : Request) :
    ∃ g', g.apply req.operation = some g' ∧ (WithinAuthority g g' req ↔ ¬ Usurps g req) := by
  cases req with
  | updateRank player name demote =>
    obtain ⟨g', sent, ho, hg⟩ := Guild.handleUpdateMemberRank_cases g player name demote
    refine ⟨g', Option.map_eq_some_iff.mpr ⟨_, ho, rfl⟩, ⟨fun _ h => h, fun _ => ?_⟩⟩
    grind [updateRank_within, WithinAuthority.refl]
  | remove player name =>
    refine ⟨_, rfl, ?_⟩
    rcases Guild.handleRemoveMember_cases g player name with ⟨he, hno⟩ | ⟨me, target, hacc, he⟩ <;>
      rw [he]
    · refine ⟨?_, fun _ => WithinAuthority.refl g _⟩
      rintro - ⟨me, target, hacc, -, -⟩
      exact hno ⟨me, target, hacc⟩
    · constructor
      · rintro hw ⟨me', target', hacc', hl, hnone⟩
        cases hacc.named.symm.trans hacc'.named
        exact Usurps.not_within hacc hl hnone hw
      · exact remove_within hacc

/-! ## Any number of requests -/

/-- One request to a guild. -/
def RequestStep (g : Guild) (req : Request) (g' : Guild) : Prop := g.apply req.operation = some g'

/-- Nobody got to rank `top` or above who was not as high before. -/
def NobodyRaised (top : UInt8) (g g' : Guild) : Prop :=
  ∀ p m', g'.getMember p = some m' →
    ∃ m, g.getMember p = some m ∧ (m.rankId ≤ m'.rankId ∨ top < m'.rankId)

/-- Whom an actor below `top` changes does not get to `top`. -/
theorem nobodyRaised_step {g₀ : Guild} {top : UInt8} {req : Request}
    (h : NobodyRaised top g₀ g) (hw : WithinAuthority g g' req)
    (htop : ∀ me, g.getMember req.actor = some me → top ≤ me.rankId) : NobodyRaised top g₀ g' := by
  rcases hw.1 with he | ⟨me, target, hc⟩
  · rw [he]
    exact h
  · intro p m' hm'
    by_cases hp : p = target.guid
    · subst hp
      have ht : g.getMember target.guid = some target := Guild.getMember_of_getMemberByName hc.named
      obtain ⟨m, hm, hcmp⟩ := h _ _ ht
      refine ⟨m, hm, ?_⟩
      have hme : top ≤ me.rankId := htop me hc.actor
      have hb := hc.becomes
      cases req with
      | remove player name =>
        have hgone : g'.getMember target.guid = none := hb
        rw [hgone] at hm'
        cases hm'
      | updateRank player name demote =>
        cases demote with
        | false =>
          obtain ⟨t, ht', -, hbelow⟩ := hb
          rw [ht'] at hm'
          cases hm'
          exact Or.inr (UInt8.lt_of_le_of_lt hme hbelow)
        | true =>
          obtain ⟨t, ht', hlower, -⟩ := hb
          grind
    · rw [hc.others p hp] at hm'
      exact h p m' hm'

/-- **Coalitions.** Players who act in any order, none of whom holds a rank above `top`, get
nobody to `top`: whoever rises stays below it. -/
theorem run_nobodyRaised {actors : Set ObjectGuid} {top : UInt8}
    (h₀ : ∀ p ∈ actors, ∀ m, g.getMember p = some m → top ≤ m.rankId)
    (h : Reaches RequestStep (fun g req => req.actor ∈ actors ∧ ¬ Usurps g req) g g') :
    NobodyRaised top g g' := by
  apply h.invariant (I := NobodyRaised top g)
  · intro p m hm
    exact ⟨m, hm, Or.inl (UInt8.le_refl _)⟩
  · intro g₁ g₂ req hi hok hs
    obtain ⟨g₃, ha, hiff⟩ := request_within_iff g₁ req
    cases ha.symm.trans hs
    refine nobodyRaised_step hi (hiff.mpr hok.2) ?_
    intro me hme
    obtain ⟨m, hm, hcmp⟩ := hi _ _ hme
    grind

/-- **Rank authority.** Every request stays within the authority of the actor exactly when it
does not remove a leader below rank 0 whose place nobody fills; and in every run of requests
that do not, players get nobody to the best rank any of them held at the start. -/
theorem rank_authority (g : Guild) :
    (∀ req : Request,
      ∃ g', g.apply req.operation = some g' ∧ (WithinAuthority g g' req ↔ ¬ Usurps g req)) ∧
    ∀ (g' : Guild) (actors : Set ObjectGuid) (top : UInt8),
      (∀ p ∈ actors, ∀ m, g.getMember p = some m → top ≤ m.rankId) →
      Reaches RequestStep (fun g req => req.actor ∈ actors ∧ ¬ Usurps g req) g g' →
      NobodyRaised top g g' :=
  ⟨request_within_iff g, fun _ _ _ h₀ h => run_nobodyRaised h₀ h⟩

/-- Ann promotes Bea, who stays below her. -/
theorem annPromotesBea :
    NobodyRaised 0 annAndBea (annAndBea.setRank 2 3) := by
  have hs : RequestStep annAndBea (.updateRank 1 "Bea" false) (annAndBea.setRank 2 3) := rfl
  have h₀ : ∀ p ∈ ({1} : Set ObjectGuid), ∀ m, annAndBea.getMember p = some m → 0 ≤ m.rankId :=
    fun _ _ _ _ => UInt8.zero_le
  apply (rank_authority annAndBea).2 _ {1} 0 h₀
  exact (Reaches.refl annAndBea).next (a := .updateRank 1 "Bea" false) ⟨rfl, fun h => h⟩ hs

/-! ## The leader removed by an officer -/

/-- Ann's guild after a game master has made Bea an officer and Ann an initiate. -/
def annInitiate : Guild := (annAndBea.setRank 2 GR_OFFICER).setRank 1 4

/-- The guild that Bea takes over. -/
def beasGuild : Guild := (annInitiate.deleteMember 1).1

theorem annInitiate_ranksWellFormed : RanksWellFormed annInitiate where
  min := by decide
  max := by decide
  ids := rfl
  held := by
    show ∀ m ∈ annInitiate.members.rows, m.rankId.toNat < annInitiate.ranks.length
    decide

/-- Bea, an officer, removes Ann, who still is the leader, and is guild master. -/
theorem beaUsurps :
    RanksWellFormed annInitiate ∧
      annInitiate.apply (Request.remove 2 "Ann").operation = some beasGuild ∧
      ¬ WithinAuthority annInitiate beasGuild (.remove 2 "Ann") ∧
      ¬ NobodyRaised 1 annInitiate beasGuild := by
  have hbea : ∃ m, beasGuild.getMember 2 = some m ∧ m.rankId = 0 := ⟨_, rfl, rfl⟩
  have hofficer : ∃ m, annInitiate.getMember 2 = some m ∧ m.rankId = 1 := ⟨_, rfl, rfl⟩
  obtain ⟨m', hm', hr'⟩ := hbea
  obtain ⟨m, hm, hr⟩ := hofficer
  refine ⟨annInitiate_ranksWellFormed, rfl, ?_, ?_⟩
  · rintro ⟨-, hzero⟩
    obtain ⟨m₀, hm₀, hr₀⟩ := hzero 2 m' hm' hr'
    cases hm.symm.trans hm₀
    rw [hr] at hr₀
    cases hr₀
  · intro hno
    obtain ⟨m₀, hm₀, hcmp⟩ := hno 2 m' hm'
    cases hm.symm.trans hm₀
    rw [hr, hr'] at hcmp
    revert hcmp
    decide

end EGServer.Guilds
