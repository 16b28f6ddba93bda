import EGServer.Lib.Table
import EGServer.Lib.GuardedRun
import Mathlib.Data.UInt
import Mathlib.Tactic.Common

/-!
# Guilds: members, ranks and the commands on them

The state of one `Guild` and the operations of `Guild.cpp` that change its roster: who is a
member, who leads, which ranks there are and who holds which. A rank is a position in
`m_ranks`, 0 the highest; a member holds a rank by number, and the leader is recorded twice,
by guid and by rank 0.

`m_members` is an `unordered_map`; its order is seen by the code that searches a name or the
best successor, so it is kept, and an insertion may rearrange it at will. Packets, logs and
the database are not modelled, except for the command result sent to the caller. An operation
that stops the server (a failed `ASSERT`, a null pointer) gives `none`.
-/

namespace EGServer.Guilds

/-- The raw value of an `ObjectGuid`. -/
abbrev ObjectGuid := UInt64

/-! ## Constants -/

def GUILD_BANK_MAX_TABS : UInt8 := 6
def GUILD_BANK_MAX_SLOTS : UInt8 := 98
def GUILD_RANKS_MIN_COUNT : UInt8 := 5
def GUILD_RANKS_MAX_COUNT : UInt8 := 10
def GUILD_RANK_NONE : UInt8 := 0xFF
def GUILD_WITHDRAW_MONEY_UNLIMITED : UInt32 := 0xFFFFFFFF
def GUILD_WITHDRAW_SLOT_UNLIMITED : UInt32 := 0xFFFFFFFF
def TAB_UNDEFINED : UInt8 := 0xFF

def GR_GUILDMASTER : UInt8 := 0
def GR_OFFICER : UInt8 := 1

def GR_RIGHT_NONE : UInt32 := 0x00000000
def GR_RIGHT_GCHATLISTEN : UInt32 := 0x00000001
def GR_RIGHT_GCHATSPEAK : UInt32 := 0x00000002
def GR_RIGHT_REMOVE : UInt32 := 0x00000020
def GR_RIGHT_LEAVE : UInt32 := 0x00000040
def GR_RIGHT_PROMOTE : UInt32 := 0x00000080
def GR_RIGHT_DEMOTE : UInt32 := 0x00000100
def GR_RIGHT_WITHDRAW_REPAIR : UInt32 := 0x00040000
def GR_RIGHT_WITHDRAW_GOLD : UInt32 := 0x00080000
def GR_RIGHT_ALL : UInt32 := 0x001DFFFF

def GUILD_BANK_RIGHT_VIEW_TAB : UInt8 := 0x01
def GUILD_BANK_RIGHT_PUT_ITEM : UInt8 := 0x02
def GUILD_BANK_RIGHT_DEPOSIT_ITEM : UInt8 := GUILD_BANK_RIGHT_VIEW_TAB ||| GUILD_BANK_RIGHT_PUT_ITEM
def GUILD_BANK_RIGHT_FULL : UInt8 := 0xFF

inductive GuildCommandType where
  | leaveGuild
  | promotePlayer
  | demotePlayer
  | removePlayer
  | changeLeader
  | changeRank
  deriving DecidableEq

/-- `GuildCommandError`; the source gives `leaderLeave` and `permissions` one number. -/
inductive GuildCommandError where
  | commandSuccess
  | nameInvalid
  | leaderLeave
  | permissions
  | rankTooHigh
  | rankTooLow
  deriving DecidableEq

/-- What `SendCommandResult` tells the caller. -/
structure CommandResult where
  command : GuildCommandType
  result : GuildCommandError
  name : String := ""
  deriving DecidableEq

/-! ## Ranks -/

structure GuildBankRightsAndSlots where
  tabId : UInt8 := TAB_UNDEFINED
  rights : UInt8 := 0
  slots : UInt32 := 0

def GuildBankRightsAndSlots.setGuildMasterValues (r : GuildBankRightsAndSlots) :
    GuildBankRightsAndSlots :=
  { r with rights := GUILD_BANK_RIGHT_FULL, slots := GUILD_WITHDRAW_SLOT_UNLIMITED }

/-- `RankInfo`; the array `m_bankTabRightsAndSlots` is a function of the tab. -/
structure RankInfo where
  rankId : UInt8
  rights : UInt32
  bankMoneyPerDay : UInt32
  bankTabRightsAndSlots : UInt8 → GuildBankRightsAndSlots := fun _ => {}

namespace RankInfo

def new (rankId : UInt8) (rights money : UInt32) : RankInfo where
  rankId := rankId
  rights := rights
  bankMoneyPerDay := if rankId ≠ GR_GUILDMASTER then money else GUILD_WITHDRAW_MONEY_UNLIMITED

def getBankTabRights (info : RankInfo) (tabId : UInt8) : UInt8 :=
  if tabId < GUILD_BANK_MAX_TABS then (info.bankTabRightsAndSlots tabId).rights else 0

def getBankTabSlotsPerDay (info : RankInfo) (tabId : UInt8) : Int32 :=
  if tabId < GUILD_BANK_MAX_TABS then (info.bankTabRightsAndSlots tabId).slots.toInt32 else 0

def setRights (info : RankInfo) (rights : UInt32) : RankInfo :=
  { info with rights := if info.rankId = GR_GUILDMASTER then GR_RIGHT_ALL else rights }

def setBankMoneyPerDay (info : RankInfo) (money : UInt32) : RankInfo :=
  { info with
    bankMoneyPerDay :=
      if info.rankId = GR_GUILDMASTER then GUILD_WITHDRAW_MONEY_UNLIMITED else money }

def setBankTabSlotsAndRights (info : RankInfo) (r : GuildBankRightsAndSlots) : RankInfo :=
  let r := if info.rankId = GR_GUILDMASTER then r.setGuildMasterValues else r
  { info with bankTabRightsAndSlots := Function.update info.bankTabRightsAndSlots r.tabId r }

end RankInfo

/-! ## Members -/

/-- A member; `m_bankWithdraw[GUILD_BANK_MAX_TABS]` is the money withdrawn today, the other
entries count the items taken out of each tab. -/
structure Member where
  guid : ObjectGuid
  name : String := ""
  rankId : UInt8
  bankWithdraw : UInt8 → Int32 := fun _ => 0

namespace Member

def changeRank (newRank : UInt8) (m : Member) : Member := { m with rankId := newRank }

def isRank (m : Member) (rankId : UInt8) : Bool := m.rankId = rankId
def isRankNotLower (m : Member) (rankId : UInt8) : Bool := m.rankId ≤ rankId
def isSamePlayer (m : Member) (guid : ObjectGuid) : Bool := m.guid = guid

def updateBankWithdrawValue (tabId : UInt8) (amount : UInt32) (m : Member) : Member :=
  { m with
    bankWithdraw :=
      Function.update m.bankWithdraw tabId (m.bankWithdraw tabId + amount.toInt32) }

/-- Guild masters have an unlimited amount, which is `-1` as an `int32`. -/
def getBankWithdrawValue (m : Member) (tabId : UInt8) : Int32 :=
  if m.isRank GR_GUILDMASTER then
    if tabId = GUILD_BANK_MAX_TABS then GUILD_WITHDRAW_MONEY_UNLIMITED.toInt32
    else GUILD_WITHDRAW_SLOT_UNLIMITED.toInt32
  else m.bankWithdraw tabId

@[simp] theorem guid_updateBankWithdrawValue (t : UInt8) (a : UInt32) (m : Member) :
    (m.updateBankWithdrawValue t a).guid = m.guid := rfl

end Member

/-- What `AddMember` finds out about a player: whether they are in a guild already, whether
they are online, and, when they are not, whether the stored character is sound. -/
structure Candidate where
  guid : ObjectGuid
  name : String
  inGuild : Bool := false
  online : Bool := true
  statsOk : Bool := true

/-! ## Items and bank tabs -/

/-- An item of the guild bank. -/
structure Item where
  guid : Nat
  entry : Nat
  count : Nat
  soulBound : Bool := false
  deriving DecidableEq

/-- `BankTab`; `m_items` is a function of the slot, of which the first
`GUILD_BANK_MAX_SLOTS` are used. -/
structure BankTab where
  items : UInt8 → Option Item := fun _ => none

/-! ## Guilds -/

structure Guild where
  name : String := ""
  leaderGuid : ObjectGuid
  bankMoney : UInt64 := 0
  ranks : List RankInfo := []
  members : Table Member.guid := ∅
  bankTabs : List BankTab := []
  disbanded : Bool := false

namespace Guild

variable (g : Guild)

def getRanksSize : UInt8 := UInt8.ofNat g.ranks.length
def getLowestRankId : UInt8 := UInt8.ofNat g.ranks.length - 1
def getPurchasedTabsSize : UInt8 := UInt8.ofNat g.bankTabs.length

def getRankInfo (rankId : UInt8) : Option RankInfo :=
  if rankId < g.getRanksSize then g.ranks[rankId.toNat]? else none

def getRankRights (rankId : UInt8) : UInt32 :=
  match g.getRankInfo rankId with
  | some info => info.rights
  | none => 0

def getMember (guid : ObjectGuid) : Option Member := g.members.get? guid

/-- `GetMember(name)`: the first member of that name. -/
def getMemberByName (name : String) : Option Member := g.members.rows.find? (·.name = name)

def hasRankRight (player : ObjectGuid) (right : UInt32) : Bool :=
  match g.getMember player with
  | some m => g.getRankRights m.rankId &&& right ≠ GR_RIGHT_NONE
  | none => false

/-- Guild masters are known by the leader guid or by their rank. -/
def isLeader (player : ObjectGuid) : Bool :=
  if player = g.leaderGuid then true else
    match g.getMember player with
    | some m => m.isRank GR_GUILDMASTER
    | none => false

/-- A member's rank is changed in place. -/
def setRank (guid : ObjectGuid) (newRank : UInt8) : Guild :=
  { g with members := g.members.modify guid (Member.changeRank newRank) (fun _ => rfl) }

def setLeader (leader : Member) : Guild :=
  { g with leaderGuid := leader.guid }.setRank leader.guid GR_GUILDMASTER

/-! ### Ranks -/

def createRank (rights : UInt32) : Guild :=
  let newRankId := g.getRanksSize
  if newRankId ≥ GUILD_RANKS_MAX_COUNT then g else
    -- the tabs bought so far are then added to `info`, not to the copy stored here
    { g with ranks := g.ranks ++ [RankInfo.new newRankId rights 0] }

def defaultRights : UInt32 := GR_RIGHT_GCHATLISTEN ||| GR_RIGHT_GCHATSPEAK ||| GR_RIGHT_LEAVE

def createDefaultGuildRanks : Guild :=
  ((((g.createRank GR_RIGHT_ALL).createRank GR_RIGHT_ALL).createRank defaultRights).createRank
    defaultRights).createRank defaultRights

def handleAddNewRank (player : ObjectGuid) : Guild :=
  if g.getRanksSize ≥ GUILD_RANKS_MAX_COUNT then g else
    if g.isLeader player then g.createRank defaultRights else g

/-- Every rank from `rankId` on is removed, not that one alone. -/
def handleRemoveRank (player : ObjectGuid) (rankId : UInt8) : Guild :=
  if g.getRanksSize ≤ GUILD_RANKS_MIN_COUNT ∨ rankId ≥ g.getRanksSize ∨ !g.isLeader player then g
  else { g with ranks := g.ranks.take rankId.toNat }

def handleRemoveLowestRank (player : ObjectGuid) : Guild :=
  g.handleRemoveRank player g.getLowestRankId

def setRankInfo (rankId : UInt8) (f : RankInfo → RankInfo) : Guild :=
  if rankId < g.getRanksSize then { g with ranks := g.ranks.modify rankId.toNat f } else g

def setRankBankTabRightsAndSlots (rankId : UInt8) (r : GuildBankRightsAndSlots) : Guild :=
  if r.tabId ≥ g.getPurchasedTabsSize then g else
    g.setRankInfo rankId (·.setBankTabSlotsAndRights r)

def handleSetRankInfo (player : ObjectGuid) (rankId : UInt8) (rights moneyPerDay : UInt32)
    (rightsAndSlots : List GuildBankRightsAndSlots) : Guild × Option CommandResult :=
  if !g.isLeader player then (g, some { command := .changeRank, result := .permissions }) else
    match g.getRankInfo rankId with
    | none => (g, none)
    | some _ =>
      let g := g.setRankInfo rankId (·.setRights rights)
      let g := g.setRankInfo rankId (·.setBankMoneyPerDay moneyPerDay)
      (rightsAndSlots.foldl (fun g r => g.setRankBankTabRightsAndSlots rankId r) g, none)

/-! ### Members -/

/-- Removing all members one by one leaves nothing of the guild. -/
def disband : Guild := { g with members := ∅, bankTabs := [], disbanded := true }

def addMember (order : Arrangement Member) (c : Candidate) (rankId : UInt8) : Guild × Bool :=
  if c.inGuild then (g, false) else
    let rankId := if rankId = GUILD_RANK_NONE then g.getLowestRankId else rankId
    match g.members.tryEmplace order { guid := c.guid, name := c.name, rankId } with
    | none => (g, false)
    | some members =>
      if !c.online && !c.statsOk then ({ g with members := members.erase c.guid }, false)
      else ({ g with members }, true)

/-- The better of the candidates for the leadership: the one seen first, unless its rank is
worse. -/
def betterLeader (best : Option Member) (m : Member) : Member :=
  match best with
  | none => m
  | some b => if b.rankId > m.rankId then m else b

/-- The walk of `DeleteMember` for a new leader, the member to be deleted aside. -/
def newLeader (guid : ObjectGuid) : List Member → Option Member → Option Member
  | [], best => best
  | m :: rest, best =>
    if m.guid = guid then newLeader guid rest best
    else newLeader guid rest (some (betterLeader best m))

/-- The end of `DeleteMember`, once a leader who is deleted has a successor. -/
def eraseMember (guid : ObjectGuid) : Guild × Bool :=
  let g := { g with members := g.members.erase guid }
  if g.members.rows.isEmpty then (g.disband, true) else (g, false)

/-- `DeleteMember` outside `Disband`; true when the guild is gone. -/
def deleteMember (guid : ObjectGuid) : Guild × Bool :=
  if g.leaderGuid = guid then
    match newLeader guid g.members.rows none with
    | none => (g.disband, true)
    | some leader => (g.setLeader leader).eraseMember guid
  else g.eraseMember guid

def changeMemberRank (guid : ObjectGuid) (newRank : UInt8) : Guild × Bool :=
  if newRank ≤ g.getLowestRankId then
    match g.getMember guid with
    | some _ => (g.setRank guid newRank, true)
    | none => (g, false)
  else (g, false)

def create (order : Arrangement Member) (nameTaken : Bool) (name : String)
    (leader : Candidate) : Option Guild :=
  if nameTaken then none else
    let g : Guild := { name, leaderGuid := leader.guid }
    let (g, ret) := g.createDefaultGuildRanks.addMember order leader GR_GUILDMASTER
    if ret then some g else none

/-! ### Commands of players -/

def handleSetNewGuildMaster (player : ObjectGuid) (name : String) :
    Option (Guild × Option CommandResult) :=
  match g.getMember g.leaderGuid with
  | none => none
  | some oldGuildMaster =>
    if !g.isLeader player then
      some (g, some { command := .changeLeader, result := .permissions })
    else
      match g.getMemberByName name with
      | none => some (g, none)
      | some newGuildMaster =>
        some ((g.setLeader newGuildMaster).setRank oldGuildMaster.guid GR_OFFICER, none)

def handleLeaveMember (player : ObjectGuid) : Option (Guild × Option CommandResult) :=
  if g.isLeader player then
    if g.members.rows.length > 1 then
      some (g, some { command := .leaveGuild, result := .leaderLeave })
    else some (g.disband, none)
  else
    -- `SendEventPlayerLeft` reads the member
    match g.getMember player with
    | none => none
    | some _ =>
      some ((g.deleteMember player).1,
        some { command := .leaveGuild, result := .commandSuccess, name := g.name })

def handleRemoveMember (player : ObjectGuid) (name : String) : Guild × Option CommandResult :=
  if !g.hasRankRight player GR_RIGHT_REMOVE then
    (g, some { command := .removePlayer, result := .permissions })
  else
    match g.getMemberByName name with
    | none => (g, none)
    | some member =>
      if member.isRank GR_GUILDMASTER then
        (g, some { command := .removePlayer, result := .leaderLeave })
      else
        match g.getMember player with
        | none => (g, some { command := .removePlayer, result := .rankTooHigh, name })
        | some memberMe =>
          if member.isRankNotLower memberMe.rankId then
            (g, some { command := .removePlayer, result := .rankTooHigh, name })
          else ((g.deleteMember member.guid).1, none)

/-- The command a promotion or a demotion is. -/
def updateRankCommand (demote : Bool) : GuildCommandType :=
  if demote then .demotePlayer else .promotePlayer

/-- The right a change of rank needs. -/
def updateRankRight (demote : Bool) : UInt32 := if demote then GR_RIGHT_DEMOTE else GR_RIGHT_PROMOTE

/-- The rank that `HandleUpdateMemberRank` gives. -/
def updatedRank (target : Member) (demote : Bool) : UInt8 :=
  if demote then target.rankId + 1 else target.rankId - 1

/-- The rank check of `HandleUpdateMemberRank`: the error of a refused request. -/
def updateRankRefused (rankId : UInt8) (member : Member) (demote : Bool) :
    Option GuildCommandError :=
  if demote then
    if member.isRankNotLower rankId then some .rankTooHigh
    else if member.rankId ≥ g.getLowestRankId then some .rankTooLow
    else none
  else
    -- the sum is a `uint8` again when it is passed on
    if member.isRankNotLower (rankId + 1) then some .rankTooHigh else none

def handleUpdateMemberRank (player : ObjectGuid) (name : String) (demote : Bool) :
    Option (Guild × Option CommandResult) :=
  let command := updateRankCommand demote
  if !g.hasRankRight player (updateRankRight demote) then
    some (g, some { command, result := .permissions })
  else
    match g.getMemberByName name with
    | none => some (g, none)
    | some member =>
      if member.isSamePlayer player then some (g, some { command, result := .nameInvalid }) else
        match g.getMember player with
        | none => none
        | some memberMe =>
          match g.updateRankRefused memberMe.rankId member demote with
          | some result => some (g, some { command, result, name })
          | none => some (g.setRank member.guid (updatedRank member demote), none)

end Guild

/-! ## Operations -/

/-- A request to a guild, with what the rest of the server answers while it is served. -/
inductive Operation where
  | addMember (order : Arrangement Member) (candidate : Candidate)
  | deleteMember (guid : ObjectGuid)
  | changeMemberRank (guid : ObjectGuid) (newRank : UInt8)
  | handleLeaveMember (player : ObjectGuid)
  | handleRemoveMember (player : ObjectGuid) (name : String)
  | handleUpdateMemberRank (player : ObjectGuid) (name : String) (demote : Bool)
  | handleSetNewGuildMaster (player : ObjectGuid) (name : String)
  | handleAddNewRank (player : ObjectGuid)
  | handleRemoveRank (player : ObjectGuid) (rankId : UInt8)
  | handleRemoveLowestRank (player : ObjectGuid)
  | handleSetRankInfo (player : ObjectGuid) (rankId : UInt8) (rights moneyPerDay : UInt32)
      (rightsAndSlots : List GuildBankRightsAndSlots)

/-- The guild after a request; members are added with the lowest rank. -/
def Guild.apply (g : Guild) : Operation → Option Guild
  | .addMember order c => some (g.addMember order c GUILD_RANK_NONE).1
  | .deleteMember guid => some (g.deleteMember guid).1
  | .changeMemberRank guid newRank => some (g.changeMemberRank guid newRank).1
  | .handleLeaveMember player => (g.handleLeaveMember player).map (·.1)
  | .handleRemoveMember player name => some (g.handleRemoveMember player name).1
  | .handleUpdateMemberRank player name demote =>
    (g.handleUpdateMemberRank player name demote).map (·.1)
  | .handleSetNewGuildMaster player name => (g.handleSetNewGuildMaster player name).map (·.1)
  | .handleAddNewRank player => some (g.handleAddNewRank player)
  | .handleRemoveRank player rankId => some (g.handleRemoveRank player rankId)
  | .handleRemoveLowestRank player => some (g.handleRemoveLowestRank player)
  | .handleSetRankInfo player rankId rights moneyPerDay rightsAndSlots =>
    some (g.handleSetRankInfo player rankId rights moneyPerDay rightsAndSlots).1

/-- One request to a guild that is not disbanded. -/
def Step (g : Guild) (op : Operation) (g' : Guild) : Prop :=
  g.disbanded = false ∧ g.apply op = some g'

end EGServer.Guilds
