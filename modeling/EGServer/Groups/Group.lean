import EGServer.Lib.Table
import EGServer.Lib.GuardedRun
import Mathlib.Data.UInt
import Mathlib.Logic.Function.Basic
import Mathlib.Tactic.Common

/-!
# Groups: the roster

Who is in a `Group` is written down several times over: in its list of member slots, in the
counters of its sub-groups (once it is a raid), in the references that the online players
hold to it, in the table of the database that a login reads, and the leader in `m_leaderGuid`.
The operations of `Group.cpp` that change the roster, on a world of several groups: a player
may hold two references, one to its own group and one to the raid of a battleground or a
battlefield.

`m_memberMgr` is an intrusive list of the references to the group, so it is not stored: its
size is counted over the players. Packets, quests, auras and instance binds are not modelled,
and the loot rolls a leaving player takes part in have a module of their own.
-/

namespace EGServer.Groups

/-- The raw value of a player's `ObjectGuid`. -/
abbrev ObjectGuid := UInt64

/-- The number of a `Group` object; in the database, of its `m_dbStoreId`. -/
abbrev GroupId := Nat

/-! ## Constants -/

def MAX_GROUP_SIZE : Nat := 5
def MAX_RAID_SIZE : Nat := 40
def MAX_RAID_SUBGROUPS : UInt8 := 8

def GROUPTYPE_NORMAL : UInt8 := 0x00
def GROUPTYPE_BG : UInt8 := 0x01
def GROUPTYPE_RAID : UInt8 := 0x02
def GROUPTYPE_BGRAID : UInt8 := GROUPTYPE_BG ||| GROUPTYPE_RAID
def GROUPTYPE_LFG_RESTRICTED : UInt8 := 0x04
def GROUPTYPE_LFG : UInt8 := 0x08

def MEMBER_FLAG_ASSISTANT : UInt8 := 0x01
def MEMBER_FLAG_MAINTANK : UInt8 := 0x02
def MEMBER_FLAG_MAINASSIST : UInt8 := 0x04

inductive RemoveMethod where
  | default
  | kick
  | leave
  | kickLfg
  deriving DecidableEq

/-! ## References from players to groups -/

/-- A `GroupReference`; unlinking it keeps the sub-group. -/
structure GroupReference where
  target : Option GroupId := none
  iSubGroup : UInt8 := 0

namespace GroupReference

def link (toObj : GroupId) (subgroup : UInt8) : GroupReference where
  target := some toObj
  iSubGroup := subgroup

def unlink (ref : GroupReference) : GroupReference := { ref with target := none }

/-- What the destructor of group `g` leaves of a reference. -/
def invalidate (g : GroupId) (ref : GroupReference) : GroupReference :=
  if ref.target = some g then ref.unlink else ref

end GroupReference

/-- The two references a player holds. -/
structure PlayerRefs where
  m_group : GroupReference := {}
  m_originalGroup : GroupReference := {}

/-- A connected player. -/
structure Player where
  guid : ObjectGuid
  refs : PlayerRefs := {}

namespace PlayerRefs

def setGroup (r : PlayerRefs) : Option (GroupId × UInt8) → PlayerRefs
  | none => { r with m_group := r.m_group.unlink }
  | some (g, subgroup) => { r with m_group := .link g subgroup }

def setOriginalGroup (r : PlayerRefs) : Option (GroupId × UInt8) → PlayerRefs
  | none => { r with m_originalGroup := r.m_originalGroup.unlink }
  | some (g, subgroup) => { r with m_originalGroup := .link g subgroup }

def setBattlegroundOrBattlefieldRaid (r : PlayerRefs) (g : GroupId) (subgroup : UInt8) :
    PlayerRefs :=
  let r := r.setOriginalGroup (r.m_group.target.map fun g' => (g', r.m_group.iSubGroup))
  { r with m_group := .link g subgroup }

def removeFromBattlegroundOrBattlefieldRaid (r : PlayerRefs) : PlayerRefs :=
  let r := { r with m_group := r.m_group.unlink }
  let r := match r.m_originalGroup.target with
    | some g => { r with m_group := .link g r.m_originalGroup.iSubGroup }
    | none => r
  r.setOriginalGroup none

/-- `DelinkMember` for one of the group's references. Of two it takes the one linked last;
where it is called at most one is left. -/
def delink (r : PlayerRefs) (g : GroupId) : PlayerRefs :=
  if r.m_group.target = some g then r.setGroup none
  else if r.m_originalGroup.target = some g then r.setOriginalGroup none
  else r

/-- The references when the group has been deleted. -/
def invalidate (r : PlayerRefs) (g : GroupId) : PlayerRefs where
  m_group := r.m_group.invalidate g
  m_originalGroup := r.m_originalGroup.invalidate g

end PlayerRefs

/-! ## A group -/

structure MemberSlot where
  guid : ObjectGuid
  group : UInt8
  flags : UInt8 := 0

/-- A `Group`: the counters are an array of `MAX_RAID_SUBGROUPS`, once allocated. -/
structure Group where
  m_memberSlots : List MemberSlot := []
  m_leaderGuid : ObjectGuid := 0
  m_groupType : UInt8 := GROUPTYPE_NORMAL
  m_bgGroup : Bool := false
  m_bfGroup : Bool := false
  m_subGroupsCounts : Option (UInt8 → UInt8) := none

namespace Group

def isLFGGroup (G : Group) : Bool := G.m_groupType &&& GROUPTYPE_LFG != 0
def isRaidGroup (G : Group) : Bool := G.m_groupType &&& GROUPTYPE_RAID != 0
def isBGGroup (G : Group) : Bool := G.m_bgGroup
def isBFGroup (G : Group) : Bool := G.m_bfGroup

/-- The raid of a battleground or battlefield: players keep their own group beside it. -/
def isBGOrBF (G : Group) : Bool := G.isBGGroup || G.isBFGroup

def getMembersCount (G : Group) : Nat := G.m_memberSlots.length

def isFull (G : Group) : Bool :=
  if G.isRaidGroup then decide (MAX_RAID_SIZE ≤ G.getMembersCount)
  else decide (MAX_GROUP_SIZE ≤ G.getMembersCount)

/-- More slots than these are needed to remove a member; with fewer the group disbands. -/
def membersNeeded (G : Group) : Nat :=
  if G.isBGGroup || G.isLFGGroup || G.isBFGroup then 1 else 2

/-- The references that must be left after a removal. -/
def referencesNeeded (G : Group) : Nat := if G.isLFGGroup || G.isBGGroup then 1 else 2

/-- `_getMemberCSlot` and `_getMemberWSlot`: the first slot with the guid. -/
def getMemberSlot (G : Group) (guid : ObjectGuid) : Option MemberSlot :=
  G.m_memberSlots.find? fun m => decide (m.guid = guid)

def isMember (G : Group) (guid : ObjectGuid) : Bool := (G.getMemberSlot guid).isSome

def isLeader (G : Group) (guid : ObjectGuid) : Bool := decide (G.m_leaderGuid = guid)

def isAssistant (G : Group) (guid : ObjectGuid) : Bool :=
  match G.getMemberSlot guid with
  | some slot => slot.flags &&& MEMBER_FLAG_ASSISTANT == MEMBER_FLAG_ASSISTANT
  | none => false

def getMemberGroup (G : Group) (guid : ObjectGuid) : UInt8 :=
  match G.getMemberSlot guid with
  | some slot => slot.group
  | none => MAX_RAID_SUBGROUPS + 1

def hasFreeSlotSubGroup (G : Group) (subgroup : UInt8) : Bool :=
  match G.m_subGroupsCounts with
  | some counts => decide ((counts subgroup).toNat < MAX_GROUP_SIZE)
  | none => false

/-- A change of the slot that `_getMemberWSlot` finds. -/
def modifySlot (G : Group) (guid : ObjectGuid) (f : MemberSlot → MemberSlot) : Group :=
  { G with
    m_memberSlots :=
      G.m_memberSlots.modify (G.m_memberSlots.findIdx fun m => decide (m.guid = guid)) f }

/-! ### The sub-group counters -/

def initRaidSubGroupsCounter (G : Group) : Group :=
  { G with
    m_subGroupsCounts := some <| G.m_memberSlots.foldl
      (fun counts m => Function.update counts m.group (counts m.group + 1)) fun _ => 0 }

def subGroupCounterIncrease (G : Group) (subgroup : UInt8) : Group :=
  { G with
    m_subGroupsCounts := G.m_subGroupsCounts.map fun counts =>
      Function.update counts subgroup (counts subgroup + 1) }

def subGroupCounterDecrease (G : Group) (subgroup : UInt8) : Group :=
  { G with
    m_subGroupsCounts := G.m_subGroupsCounts.map fun counts =>
      Function.update counts subgroup (counts subgroup - 1) }

/-- "Get first not-full group": 0 without counters, `none` when a raid has no slot free. -/
def firstFreeSubGroup (G : Group) : Option UInt8 :=
  match G.m_subGroupsCounts with
  | none => some 0
  | some counts =>
    [0, 1, 2, 3, 4, 5, 6, 7].find? fun s => decide ((counts s).toNat < MAX_GROUP_SIZE)

/-! ### Changes to the slots alone -/

/-- The new slot of `AddMember`. -/
def addSlot (G : Group) (guid : ObjectGuid) (subGroup : UInt8) : Group :=
  Group.subGroupCounterIncrease
    { G with m_memberSlots := G.m_memberSlots ++ [{ guid, group := subGroup }] } subGroup

/-- "Update subgroups" of `RemoveMember`. -/
def eraseSlot (G : Group) (guid : ObjectGuid) : Group :=
  match G.getMemberSlot guid with
  | some slot =>
    { G.subGroupCounterDecrease slot.group with
      m_memberSlots := G.m_memberSlots.eraseP fun m => decide (m.guid = guid) }
  | none => G

def convertToRaid (G : Group) : Group :=
  Group.initRaidSubGroupsCounter { G with m_groupType := G.m_groupType ||| GROUPTYPE_RAID }

/-- The slot and the counters in `ChangeMembersGroup`. -/
def moveSlot (G : Group) (guid : ObjectGuid) (group : UInt8) : Group :=
  (G.modifySlot guid fun slot => { slot with group }).subGroupCounterIncrease group
    |>.subGroupCounterDecrease (G.getMemberGroup guid)

def toggleGroupMemberFlag (G : Group) (guid : ObjectGuid) (flag : UInt8) (apply : Bool) : Group :=
  G.modifySlot guid fun slot =>
    { slot with flags := if apply then slot.flags ||| flag else slot.flags &&& ~~~flag }

def removeUniqueGroupMemberFlag (G : Group) (flag : UInt8) : Group :=
  { G with
    m_memberSlots := G.m_memberSlots.map fun m =>
      if m.flags &&& flag != 0 then { m with flags := m.flags &&& ~~~flag } else m }

def setGroupMemberFlag (G : Group) (guid : ObjectGuid) (apply : Bool) (flag : UInt8) : Group :=
  if !G.isRaidGroup then G
  else if !G.isMember guid then G
  else if flag = MEMBER_FLAG_MAINASSIST ∨ flag = MEMBER_FLAG_MAINTANK then
    (G.removeUniqueGroupMemberFlag flag).toggleGroupMemberFlag guid flag apply
  else if flag = MEMBER_FLAG_ASSISTANT then G.toggleGroupMemberFlag guid flag apply
  else G

end Group

/-! ## The world -/

/-- The connected players, the groups, and for each player the row of `group_member`, whose
primary key is the player. -/
structure World where
  players : Table Player.guid := ∅
  groups : GroupId → Option Group := fun _ => none
  group_member : ObjectGuid → Option GroupId := fun _ => none

namespace World

variable (w : World)

def findConnectedPlayer (guid : ObjectGuid) : Option Player := w.players.get? guid

/-- Change the references of a player, if it is connected. -/
def relink (guid : ObjectGuid) (f : PlayerRefs → PlayerRefs) : World :=
  { w with players := w.players.modify guid (fun p => { p with refs := f p.refs }) fun _ => rfl }

def setGroupObject (g : GroupId) (G : Option Group) : World :=
  { w with groups := Function.update w.groups g G }

/-- `m_memberMgr.getSize()` of group `g`. -/
def memberMgrSize (g : GroupId) : Nat :=
  (w.players.rows.countP fun p => p.refs.m_group.target == some g) +
    w.players.rows.countP fun p => p.refs.m_originalGroup.target == some g

/-! ### Joining -/

/-- The references of a player that `AddMember` has given a slot. -/
def joined (g : GroupId) (G : Group) (subGroup : UInt8) (r : PlayerRefs) : PlayerRefs :=
  if r.m_group.target.isSome then
    if G.isBGOrBF then r.setBattlegroundOrBattlefieldRaid g subGroup
    else r.setOriginalGroup (some (g, subGroup))
  else r.setGroup (some (g, subGroup))

/-- `AddMember` of a connected player. The `INSERT` fails on a player that has a row. -/
def addMember (g : GroupId) (G : Group) (player : ObjectGuid) : World × Bool :=
  match G.firstFreeSubGroup with
  | none => (w, false)
  | some subGroup =>
    let w := (w.setGroupObject g (some (G.addSlot player subGroup))).relink player
      (joined g G subGroup)
    if G.isBGOrBF then (w, true)
    else
      ({ w with
        group_member := Function.update w.group_member player
          ((w.group_member player).or (some g)) }, true)

/-- What a new `Group` is made for, set up before `Create`. -/
inductive GroupKind where
  | normal
  | lfg
  | battleground
  | battlefield
  deriving DecidableEq

def GroupKind.newGroup : GroupKind → Group
  | .normal => {}
  | .lfg => { m_groupType := GROUPTYPE_LFG ||| GROUPTYPE_LFG_RESTRICTED }
  | .battleground => { m_bgGroup := true }
  | .battlefield => { m_bfGroup := true }

/-- The group that `Create` puts its leader into. -/
def GroupKind.created (kind : GroupKind) (leader : ObjectGuid) : Group :=
  let G := { kind.newGroup with m_leaderGuid := leader }
  let G := if G.isBGOrBF then { G with m_groupType := GROUPTYPE_BGRAID } else G
  if G.isRaidGroup then G.initRaidSubGroupsCounter else G

def create (g : GroupId) (kind : GroupKind) (leader : ObjectGuid) : World × Bool :=
  w.addMember g (kind.created leader) leader

/-! ### Leaving -/

def changeLeader (G : Group) (newLeaderGuid : ObjectGuid) : Group :=
  match G.getMemberSlot newLeaderGuid with
  | none => G
  | some slot =>
    if (w.findConnectedPlayer slot.guid).isNone then G
    else
      Group.toggleGroupMemberFlag { G with m_leaderGuid := slot.guid } newLeaderGuid
        MEMBER_FLAG_ASSISTANT false

/-- The references of a player that leaves group `g`. -/
def left (g : GroupId) (G : Group) (r : PlayerRefs) : PlayerRefs :=
  if G.isBGOrBF then r.removeFromBattlegroundOrBattlefieldRaid
  else if r.m_originalGroup.target = some g then r.setOriginalGroup none
  else r.setGroup none

/-- `Disband`, with the destructor of the group. -/
def disband (g : GroupId) (G : Group) : World :=
  let w := G.m_memberSlots.foldl (fun w m => w.relink m.guid (left g G)) w
  { players := w.players.map (fun p => { p with refs := p.refs.invalidate g }) fun _ => rfl
    groups := Function.update w.groups g none
    group_member := fun guid =>
      if !G.isBGOrBF && w.group_member guid == some g then none else w.group_member guid }

/-- What the dungeon finder and the leader's map answer about an LFG group of one. -/
structure DungeonCheck where
  dungeonMapId : Nat
  leaderAlive : Bool
  leaderMapId : Nat

/-- The slots after a removal, and the leader: the first member that is connected. -/
def withoutMember (G : Group) (guid : ObjectGuid) : Group :=
  let G' := G.eraseSlot guid
  if G'.m_leaderGuid = guid then
    match G'.m_memberSlots.find? fun m => (w.findConnectedPlayer m.guid).isSome with
    | some m => w.changeLeader G' m.guid
    | none => G'
  else G'

/-- The references and the database after a removal. -/
def unlinkMember (g : GroupId) (G : Group) (guid : ObjectGuid) : World :=
  let w := w.relink guid (left g G)
  if G.isBGOrBF then w
  else
    { w with group_member := Function.update w.group_member guid none }.relink guid (·.delink g)

def removeMember (g : GroupId) (G : Group) (guid : ObjectGuid) (method : RemoveMethod)
    (dungeon : DungeonCheck) : World × Bool :=
  -- a vote kick is handled by the scripts
  if G.isLFGGroup ∧ method = .kick then (w, !G.m_memberSlots.isEmpty)
  else if G.membersNeeded < G.getMembersCount then
    let w := w.unlinkMember g G guid
    let G := w.withoutMember G guid
    let w := w.setGroupObject g (some G)
    if G.isLFGGroup ∧ G.getMembersCount = 1 ∧
        (dungeon.dungeonMapId = 0 ∨ (w.findConnectedPlayer G.m_leaderGuid).isNone ∨
          (dungeon.leaderAlive ∧ dungeon.leaderMapId ≠ dungeon.dungeonMapId)) then
      (w.disband g G, false)
    else if w.memberMgrSize g < G.referencesNeeded then
      (w.disband g G, true)
    else (w, true)
  else (w.disband g G, false)

/-! ### Sub-groups -/

def changeMembersGroup (g : GroupId) (G : Group) (guid : ObjectGuid) (group : UInt8) : World :=
  if !G.isRaidGroup then w
  else if !G.isMember guid then w
  else if G.getMemberGroup guid = group then w
  else
    (w.setGroupObject g (some (G.moveSlot guid group))).relink guid fun r =>
      if r.m_group.target = some g then { r with m_group := { r.m_group with iSubGroup := group } }
      else { r with m_originalGroup := { r.m_originalGroup with iSubGroup := group } }

/-- `HandleGroupChangeSubGroupOpcode`: `named` is the player that the name stands for. -/
def handleGroupChangeSubGroup (sender : ObjectGuid) (named : Option ObjectGuid)
    (groupNr : UInt8) : World :=
  match (w.findConnectedPlayer sender).bind (·.refs.m_group.target) with
  | none => w
  | some g =>
    match w.groups g with
    | none => w
    | some G =>
      if MAX_RAID_SUBGROUPS ≤ groupNr then w
      else if !G.isLeader sender && !G.isAssistant sender then w
      else if !G.hasFreeSlotSubGroup groupNr then w
      else
        match named with
        | none => w
        | some guid => if guid = 0 then w else w.changeMembersGroup g G guid groupNr

/-! ### Going online and offline -/

/-- `_LoadGroup` links the player to the group of its row. -/
def loadGroup (guid : ObjectGuid) : PlayerRefs :=
  match w.group_member guid with
  | none => {}
  | some g =>
    match w.groups g with
    | none => {}
    | some G => { m_group := .link g (G.getMemberGroup guid) }

def logIn (guid : ObjectGuid) : World :=
  match w.players.tryEmplace (Arrangement.id _) { guid, refs := w.loadGroup guid } with
  | some players => { w with players }
  | none => w

/-- A member of a battleground or battlefield raid is back: the `IsMember` branch of
`AddOrSetPlayerToCorrectBgGroup` and `AddOrSetPlayerToCorrectBfGroup`. -/
def rejoinRaid (g : GroupId) (G : Group) (player : ObjectGuid) : World :=
  if G.isBGOrBF && G.isMember player then
    w.relink player (·.setBattlegroundOrBattlefieldRaid g (G.getMemberGroup player))
  else w

/-- The player object is deleted, its references with it. -/
def logOut (guid : ObjectGuid) : World := { w with players := w.players.erase guid }

end World

/-! ## Runs -/

inductive Operation where
  | create (g : GroupId) (kind : World.GroupKind) (leader : ObjectGuid)
  | addMember (g : GroupId) (player : ObjectGuid)
  | removeMember (g : GroupId) (guid : ObjectGuid) (method : RemoveMethod)
      (dungeon : World.DungeonCheck)
  | changeLeader (g : GroupId) (newLeaderGuid : ObjectGuid)
  | convertToRaid (g : GroupId)
  | changeSubGroup (sender : ObjectGuid) (named : Option ObjectGuid) (groupNr : UInt8)
  | setGroupMemberFlag (g : GroupId) (guid : ObjectGuid) (apply : Bool) (flag : UInt8)
  | logIn (player : ObjectGuid)
  | rejoinRaid (g : GroupId) (player : ObjectGuid)
  | logOut (player : ObjectGuid)

namespace World

/-- A method of group `g`, when there is one. -/
def onGroup (w : World) (g : GroupId) (f : Group → World) : World :=
  match w.groups g with
  | some G => f G
  | none => w

/-- An operation. A `Create` has a new group; the player that `Create` and `AddMember` get is
connected. -/
def exec (w : World) : Operation → World
  | .create g kind leader =>
    if (w.groups g).isNone ∧ (w.findConnectedPlayer leader).isSome then (w.create g kind leader).1
    else w
  | .addMember g player =>
    if (w.findConnectedPlayer player).isSome then w.onGroup g fun G => (w.addMember g G player).1
    else w
  | .removeMember g guid method dungeon =>
    w.onGroup g fun G => (w.removeMember g G guid method dungeon).1
  | .changeLeader g guid => w.onGroup g fun G => w.setGroupObject g (some (w.changeLeader G guid))
  | .convertToRaid g => w.onGroup g fun G => w.setGroupObject g (some G.convertToRaid)
  | .changeSubGroup sender named groupNr => w.handleGroupChangeSubGroup sender named groupNr
  | .setGroupMemberFlag g guid apply flag =>
    w.onGroup g fun G => w.setGroupObject g (some (G.setGroupMemberFlag guid apply flag))
  | .logIn player => w.logIn player
  | .rejoinRaid g player => w.onGroup g fun G => w.rejoinRaid g G player
  | .logOut player => w.logOut player

end World

end EGServer.Groups
