import EGServer.Guilds.RosterSpec

/-!
# Tearing a guild down

`Disband` and `DeleteMember` call each other: the loop that empties the member map deletes the last
member, and deleting the last member disbands the guild. Here the two are followed call by call,
with what the rest of the server sees of them, and with the `Guild` object, which `RemoveGuild`
destroys. What is read of it afterwards is taken to be what was there last.

The single step `Guild.disband` leaves the same guild. How often the teardown is run to get there
depends on whether a member is left when it begins.
-/

namespace EGServer.Guilds

/-- What is seen of a teardown. -/
inductive TeardownEvent where
  /-- `sScriptMgr->OnGuildDisband` -/
  | onGuildDisband
  /-- `m_members.erase` -/
  | removeMember (guid : ObjectGuid)
  /-- `_DeleteBankItems` -/
  | deleteBankItems
  /-- `sGuildMgr->RemoveGuild` -/
  | removeGuild
  deriving DecidableEq

/-- A guild while it is torn down. -/
structure Teardown where
  guild : Guild
  /-- The object is in the `GuildStore`. -/
  isStored : Bool := true
  /-- Not in the source: what has happened so far. -/
  events : List TeardownEvent := []
  /-- Not in the source: the object was used after it was destroyed. -/
  usedAfterFree : Bool := false

namespace Teardown

variable (t : Teardown)

/-- A member of the object is read or written. -/
def touch : Teardown := { t with usedAfterFree := t.usedAfterFree || !t.isStored }

def emit (event : TeardownEvent) : Teardown := { t.touch with events := t.events ++ [event] }

/-- `m_members.erase(guid)` -/
def erase (guid : ObjectGuid) : Teardown :=
  { t.emit (.removeMember guid) with
    guild := { t.guild with members := t.guild.members.erase guid } }

/-- `_DeleteBankItems(trans, true)` -/
def deleteBankItems : Teardown :=
  { t.emit .deleteBankItems with guild := { t.guild with bankTabs := [] } }

/-- `sGuildMgr->RemoveGuild(m_id)` -/
def removeGuild : Teardown :=
  { t.emit .removeGuild with guild := { t.guild with disbanded := true }, isStored := false }

mutual

/-- `Disband`; `none` when the fuel is used up. -/
def disband : Nat → Teardown → Option Teardown
  | 0, _ => none
  | fuel + 1, t => do
    let t ← removeMembers fuel (t.emit .onGuildDisband)
    some t.deleteBankItems.removeGuild

/-- `while (!m_members.empty())` -/
def removeMembers : Nat → Teardown → Option Teardown
  | 0, _ => none
  | fuel + 1, t =>
    match t.guild.members.rows with
    | [] => some t.touch
    | m :: _ => do
      let (t, _) ← deleteMember fuel t.touch m.guid true
      removeMembers fuel t

/-- `DeleteMember`; true when the guild is gone. -/
def deleteMember : Nat → Teardown → ObjectGuid → Bool → Option (Teardown × Bool)
  | 0, _, _, _ => none
  | fuel + 1, t, guid, isDisbanding =>
    let eraseMember (t : Teardown) : Option (Teardown × Bool) :=
      let t := t.erase guid
      if t.guild.members.rows.isEmpty then do
        let t ← disband fuel t
        some (t, true)
      else some (t, false)
    if t.guild.leaderGuid = guid ∧ isDisbanding = false then
      match Guild.newLeader guid t.guild.members.rows none with
      | none => do
        let t ← disband fuel t.touch
        some (t, true)
      | some leader => eraseMember { t.touch with guild := t.guild.setLeader leader }
    else eraseMember t.touch

end

/-! ## What the calls do -/

variable {t}

/-- The end of a teardown. -/
def finish (t : Teardown) : Teardown := t.deleteBankItems.removeGuild

theorem disband_succ (fuel : Nat) (t : Teardown) :
    disband (fuel + 1) t = (removeMembers fuel (t.emit .onGuildDisband)).map finish := by
  rw [disband]
  cases removeMembers fuel (t.emit .onGuildDisband) <;> rfl

theorem removeMembers_nil (fuel : Nat) (h : t.guild.members.rows = []) :
    removeMembers (fuel + 1) t = some t.touch := by
  rw [removeMembers, h]

theorem removeMembers_cons (fuel : Nat) {m : Member} {rest : List Member}
    (h : t.guild.members.rows = m :: rest) :
    removeMembers (fuel + 1) t = (deleteMember fuel t.touch m.guid true).bind
      fun after => removeMembers fuel after.1 := by
  rw [removeMembers, h]
  rfl

theorem disband_nil (fuel : Nat) (h : t.guild.members.rows = []) :
    disband (fuel + 2) t = some (t.emit .onGuildDisband).touch.finish := by
  rw [disband_succ, removeMembers_nil fuel (t := t.emit .onGuildDisband) h]
  rfl

/-- A member that is not the leader, or is removed by the loop of `Disband`. -/
theorem deleteMember_erase (fuel : Nat) {guid : ObjectGuid} {isDisbanding : Bool}
    (h : ¬(t.guild.leaderGuid = guid ∧ isDisbanding = false)) :
    deleteMember (fuel + 1) t guid isDisbanding =
      if (t.guild.members.erase guid).rows.isEmpty then
        (disband fuel (t.touch.erase guid)).map fun t => (t, true)
      else some (t.touch.erase guid, false) := by
  rw [deleteMember, if_neg h]
  show (if (t.guild.members.erase guid).rows.isEmpty then _ else _) = _
  split
  · cases disband fuel (t.touch.erase guid) <;> rfl
  · rfl

theorem deleteMember_leader (fuel : Nat) {guid : ObjectGuid} (h : t.guild.leaderGuid = guid)
    (hnew : Guild.newLeader guid t.guild.members.rows none = none) :
    deleteMember (fuel + 1) t guid false = (disband fuel t.touch).map fun t => (t, true) := by
  rw [deleteMember, if_pos ⟨h, rfl⟩, hnew]
  dsimp only
  cases disband fuel t.touch <;> rfl

theorem rows_erase_head {members : Table Member.guid} {m : Member} {rest : List Member}
    (h : members.rows = m :: rest) : (members.erase m.guid).rows = rest := by
  have hnodup := members.nodup
  rw [h, List.map_cons, List.nodup_cons] at hnodup
  show members.rows.filter (fun a => decide (a.guid ≠ m.guid)) = rest
  rw [h, List.filter_cons_of_neg (by simp)]
  apply List.filter_eq_self.mpr
  intro a ha
  apply decide_eq_true
  intro hguid
  exact hnodup.1 (hguid ▸ List.mem_map_of_mem ha)

/-- The three steps of a teardown. -/
def steps : List TeardownEvent := [.onGuildDisband, .deleteBankItems, .removeGuild]

/-- **The loop of `Disband`** over a guild that still has members: each is removed once, and the last
one takes a whole teardown with it, so the loop goes on with a guild that is gone. -/
theorem removeMembers_spec {rest : List Member} {m : Member} {fuel : Nat}
    (h : t.guild.members.rows = m :: rest) (hfuel : rest.length + 4 ≤ fuel)
    (hstored : t.isStored = true) (hused : t.usedAfterFree = false) :
    removeMembers fuel t = some
      { guild := t.guild.disband
        isStored := false
        events := t.events ++ (m :: rest).map (.removeMember ·.guid) ++ steps
        usedAfterFree := true } := by
  induction rest generalizing t m fuel with
  | nil =>
    obtain ⟨fuel, rfl⟩ := Nat.exists_eq_add_of_le' hfuel
    have herase : (t.guild.members.erase m.guid).rows = [] := rows_erase_head h
    have hempty : t.guild.members.erase m.guid = ∅ := Table.ext herase
    have hdelete : deleteMember (fuel + 3) t.touch m.guid true =
        some (((t.touch.touch.erase m.guid).emit .onGuildDisband).touch.finish, true) := by
      have hnot : ¬(t.touch.guild.leaderGuid = m.guid ∧ true = false) := fun h => nomatch h.2
      have hempty : (t.touch.guild.members.erase m.guid).rows.isEmpty = true :=
        List.isEmpty_iff.mpr herase
      rw [deleteMember_erase _ hnot, if_pos hempty,
        disband_nil fuel (t := t.touch.touch.erase m.guid) herase]
      rfl
    show removeMembers (fuel + 3 + 1) t = _
    rw [removeMembers_cons _ h]
    rw [hdelete, Option.bind_some, removeMembers_nil _ herase]
    simp [finish, deleteBankItems, removeGuild, emit, touch, Teardown.erase, Guild.disband, hempty,
      steps, hstored, hused]
  | cons m' rest ih =>
    obtain ⟨fuel, rfl⟩ := Nat.exists_eq_add_of_le' hfuel
    have herase : (t.guild.members.erase m.guid).rows = m' :: rest := rows_erase_head h
    have hfuel' : rest.length + 4 ≤ fuel + (rest.length + 4) := Nat.le_add_left _ _
    have hdelete : deleteMember (fuel + (rest.length + 4)) t.touch m.guid true =
        some (t.touch.touch.erase m.guid, false) := by
      have hnot : ¬(t.touch.guild.leaderGuid = m.guid ∧ true = false) := fun h => nomatch h.2
      have hne : ¬(t.touch.guild.members.erase m.guid).rows.isEmpty = true := by
        show ¬(t.guild.members.erase m.guid).rows.isEmpty = true
        rw [herase]
        exact Bool.false_ne_true
      show deleteMember (fuel + (rest.length + 3) + 1) _ _ _ = _
      rw [deleteMember_erase _ hnot, if_neg hne]
    rw [List.length_cons]
    show removeMembers (fuel + (rest.length + 4) + 1) t = _
    rw [removeMembers_cons _ h, hdelete, Option.bind_some]
    rw [ih (t := t.touch.touch.erase m.guid) herase hfuel' hstored
      (by simp [Teardown.erase, emit, touch, hstored, hused])]
    simp [Teardown.erase, emit, touch, Guild.disband]

/-- **`Disband`**, from a guild that is there. -/
theorem disband_spec {fuel : Nat} (hfuel : t.guild.members.rows.length + 4 ≤ fuel)
    (hstored : t.isStored = true) (hused : t.usedAfterFree = false) :
    disband fuel t = some
      { guild := t.guild.disband
        isStored := false
        events := t.events ++ .onGuildDisband ::
          t.guild.members.rows.map (.removeMember ·.guid) ++
            (if t.guild.members.rows.isEmpty then [] else steps) ++ [.deleteBankItems, .removeGuild]
        usedAfterFree := !t.guild.members.rows.isEmpty } := by
  cases hrows : t.guild.members.rows with
  | nil =>
    obtain ⟨fuel, rfl⟩ := Nat.exists_eq_add_of_le' hfuel
    have hempty : t.guild.members = ∅ := Table.ext hrows
    show disband (fuel + (t.guild.members.rows.length + 2) + 2) t = _
    rw [disband_nil _ hrows]
    simp [finish, deleteBankItems, removeGuild, emit, touch, Guild.disband, hempty, hstored, hused]
  | cons m rest =>
    rw [hrows, List.length_cons] at hfuel
    obtain ⟨fuel, rfl⟩ := Nat.exists_eq_add_of_le' hfuel
    show disband (fuel + (rest.length + 4) + 1) t = _
    rw [disband_succ, removeMembers_spec (t := t.emit .onGuildDisband) hrows (Nat.le_add_left _ _)
      hstored (by simp [emit, touch, hstored, hused])]
    simp [finish, deleteBankItems, removeGuild, emit, touch, Guild.disband, steps]

/-- **The leader is deleted and nobody is left to succeed it.** -/
theorem deleteMember_leader_spec {fuel : Nat} {guid : ObjectGuid} (hleader : t.guild.leaderGuid = guid)
    (hlast : ∀ m ∈ t.guild.members, m.guid = guid)
    (hfuel : t.guild.members.rows.length + 5 ≤ fuel) :
    deleteMember fuel t guid false = (disband (fuel - 1) t.touch).map fun t => (t, true) := by
  obtain ⟨fuel, rfl⟩ := Nat.exists_eq_add_of_le' (Nat.le_of_add_left_le hfuel : 5 ≤ fuel)
  have hnew : Guild.newLeader guid t.guild.members.rows none = none := by
    have hskip : ∀ rows : List Member, (∀ m ∈ rows, m.guid = guid) →
        Guild.newLeader guid rows none = none := by
      intro rows
      induction rows with
      | nil => exact fun _ => rfl
      | cons m rows ih =>
        intro h
        rw [Guild.newLeader, if_pos (h m List.mem_cons_self)]
        exact ih fun m hm => h m (List.mem_cons_of_mem _ hm)
    exact hskip _ hlast
  exact deleteMember_leader (fuel + 4) hleader hnew

/-- **The last member is deleted, and is not the leader.** -/
theorem deleteMember_erase_spec {fuel : Nat} {guid : ObjectGuid}
    (hleader : t.guild.leaderGuid ≠ guid) (hlast : ∀ m ∈ t.guild.members, m.guid = guid)
    (hfuel : 5 ≤ fuel) (hstored : t.isStored = true) (hused : t.usedAfterFree = false) :
    deleteMember fuel t guid false = some
      ({ guild := t.guild.disband
         isStored := false
         events := t.events ++ .removeMember guid :: steps
         usedAfterFree := false }, true) := by
  obtain ⟨fuel, rfl⟩ := Nat.exists_eq_add_of_le' hfuel
  have herase : (t.guild.members.erase guid).rows = [] := by
    apply List.filter_eq_nil_iff.mpr
    intro m hm
    simp [hlast m hm]
  have hspec := @disband_spec (t.touch.erase guid) (fuel + 4)
    ((congrArg (List.length · + 4) herase).trans_le (Nat.le_add_left _ _)) hstored
    (by simp [Teardown.erase, emit, touch, hstored, hused])
  have hrows : (t.touch.erase guid).guild.members.rows = [] := herase
  rw [hrows] at hspec
  show deleteMember (fuel + 4 + 1) t guid false = _
  rw [deleteMember_erase _ (fun h => hleader h.1), if_pos (List.isEmpty_iff.mpr herase), hspec]
  simp [steps, Teardown.erase, emit, touch, Guild.disband]

end Teardown

open Teardown

/-! ## Once -/

/-- A call that leaves nobody in the guild. -/
inductive TeardownCall where
  | disband
  | deleteMember (guid : ObjectGuid)

namespace TeardownCall

/-- The guild after the call, with what happened. -/
def run (g : Guild) (fuel : Nat) : TeardownCall → Option Teardown
  | disband => Teardown.disband fuel { guild := g }
  | deleteMember guid => (Teardown.deleteMember fuel { guild := g } guid false).map (·.1)

/-- `DeleteMember` is called for the last member. -/
def RemovesLast (g : Guild) : TeardownCall → Prop
  | disband => True
  | deleteMember guid => ∀ m ∈ g.members, m.guid = guid

/-- **Nobody is a member any more when `Disband` is entered**: it is called for an empty guild, or by
`DeleteMember` after somebody has been erased who is not the leader. -/
def EntersEmpty (g : Guild) : TeardownCall → Prop
  | disband => g.members.rows = []
  | deleteMember guid => g.leaderGuid ≠ guid ∨ g.members.rows = []

end TeardownCall

/-- **A guild is torn down once**: each step is run once, each member is removed once, and the object
is left alone after it has been destroyed. -/
structure TornDownOnce (g : Guild) (t : Teardown) : Prop where
  onGuildDisband : t.events.count .onGuildDisband = 1
  deleteBankItems : t.events.count .deleteBankItems = 1
  removeGuild : t.events.count .removeGuild = 1
  members : ∀ m ∈ g.members, t.events.count (.removeMember m.guid) = 1
  notUsed : t.usedAfterFree = false

/-- What `Disband` leaves behind. -/
def afterDisband (g : Guild) : Teardown where
  guild := g.disband
  isStored := false
  events := .onGuildDisband :: g.members.rows.map (.removeMember ·.guid) ++
    (if g.members.rows.isEmpty then [] else steps) ++ [.deleteBankItems, .removeGuild]
  usedAfterFree := !g.members.rows.isEmpty

/-- What `DeleteMember` leaves behind, when it erases the last member itself. -/
def afterErase (g : Guild) (guid : ObjectGuid) : Teardown where
  guild := g.disband
  isStored := false
  events := .removeMember guid :: steps

theorem once_afterDisband_iff (g : Guild) :
    TornDownOnce g (afterDisband g) ↔ g.members.rows = [] := by
  constructor
  · intro h
    have hused := h.notUsed
    rw [afterDisband, Bool.not_eq_false', List.isEmpty_iff] at hused
    exact hused
  · intro hrows
    have hevents : (afterDisband g).events = steps := by
      rw [afterDisband, hrows]
      rfl
    refine ⟨?_, ?_, ?_, ?_, ?_⟩
    · rw [hevents]
      rfl
    · rw [hevents]
      rfl
    · rw [hevents]
      rfl
    · intro m hm
      rw [Table.mem_def, hrows] at hm
      cases hm
    · rw [afterDisband, hrows]
      rfl

theorem once_afterErase {g : Guild} {guid : ObjectGuid} (hlast : ∀ m ∈ g.members, m.guid = guid) :
    TornDownOnce g (afterErase g guid) := by
  refine ⟨rfl, rfl, rfl, ?_, rfl⟩
  intro m hm
  rw [hlast m hm]
  simp [afterErase, steps]

/-- **A guild is torn down once exactly when nobody is left in it.** -/
theorem torn_down_once_iff (g : Guild) (call : TeardownCall) (hlast : call.RemovesLast g) :
    ∃ t, (∀ fuel, g.members.rows.length + 5 ≤ fuel → call.run g fuel = some t) ∧
      t.guild = g.disband ∧ (TornDownOnce g t ↔ call.EntersEmpty g) := by
  have hdisband : ∀ fuel, g.members.rows.length + 4 ≤ fuel →
      Teardown.disband fuel { guild := g } = some (afterDisband g) :=
    fun fuel h => @disband_spec { guild := g } fuel h rfl rfl
  cases call with
  | disband =>
    refine ⟨afterDisband g, ?_, rfl, once_afterDisband_iff g⟩
    intro fuel h
    exact hdisband fuel (Nat.le_of_succ_le h)
  | deleteMember guid =>
    by_cases hleader : g.leaderGuid = guid
    · -- `Disband` is entered with the leader still there
      refine ⟨afterDisband g, ?_, rfl, ?_⟩
      · intro fuel h
        have hdelete := @deleteMember_leader_spec { guild := g } fuel guid hleader hlast h
        have hrest : g.members.rows.length + 4 ≤ fuel - 1 := Nat.le_sub_one_of_lt h
        rw [TeardownCall.run, hdelete]
        show Option.map _ (Option.map _ (Teardown.disband (fuel - 1) { guild := g })) = _
        rw [hdisband _ hrest]
        rfl
      · rw [once_afterDisband_iff]
        exact ⟨Or.inr, fun h => h.resolve_left fun hne => hne hleader⟩
    · refine ⟨afterErase g guid, ?_, rfl, fun _ => Or.inl hleader, fun _ => once_afterErase hlast⟩
      intro fuel h
      have hdelete := @deleteMember_erase_spec { guild := g } fuel guid hleader hlast
        (Nat.le_of_add_left_le h) rfl rfl
      rw [TeardownCall.run, hdelete]
      rfl

/-- Bea is the last member of a guild whose leader is gone. -/
def beaAlone : Guild where
  leaderGuid := 1
  members := ⟨[{ guid := 2, rankId := 4 }], List.nodup_singleton _⟩

theorem torn_down_once_bea :
    ∃ t, (∀ fuel, 1 + 5 ≤ fuel → TeardownCall.run beaAlone fuel (.deleteMember 2) = some t) ∧
      t.guild = beaAlone.disband ∧
      (TornDownOnce beaAlone t ↔ TeardownCall.EntersEmpty beaAlone (.deleteMember 2)) :=
  torn_down_once_iff beaAlone (.deleteMember 2) fun m hm => by
    cases hm with
    | head => rfl
    | tail _ h => cases h

def annAlone : Guild where
  leaderGuid := 1
  members := ⟨[{ guid := 1, rankId := GR_GUILDMASTER }], List.nodup_singleton _⟩

/-- Ann leaves the guild that she is alone in: the teardown is run twice, and the second half of the
first one works with an object that is gone. -/
theorem torn_down_twice_ann :
    ∃ t, TeardownCall.run annAlone 6 .disband = some t ∧ t.events.count .onGuildDisband = 2 ∧
      t.events.count .deleteBankItems = 2 ∧ t.events.count .removeGuild = 2 ∧
      t.usedAfterFree = true ∧ ¬TornDownOnce annAlone t :=
  ⟨_, rfl, rfl, rfl, rfl, rfl, fun h => nomatch h.notUsed⟩

end EGServer.Guilds
