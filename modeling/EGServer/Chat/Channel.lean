import EGServer.Lib.GuardedRun
import EGServer.Lib.Table
import Mathlib.Data.Finset.Basic
import Mathlib.Data.List.Sort
import Mathlib.Data.UInt
import Mathlib.Tactic.Common

/-!
# Chat channels

The members of a `Channel` and who owns it. The owner is written down three times over: in
`_ownerGuid`, in a flag of the owner's `PlayerInfo`, and `_isOwnerInvisible` says that the
entry of the owner is an invisible one, in which case the next player to join takes the
channel over. The operations of `Channel.cpp` that read or change any of these.

The code keeps references to entries of `_playersStore` while it changes the store. A use of
such a reference is `Channel.deref` or `Channel.write` here: both look the entry up by its
guid, and where it has been erased in between they set `usedErased` and go no further, as
nothing can be said about what the code does then. Packets, announcements, the list of
channels that a player keeps and the activity times for the database are not modelled.
-/

namespace EGServer.Chat

/-- The raw value of an `ObjectGuid`; zero is `ObjectGuid::Empty`. -/
abbrev ObjectGuid := UInt64

/-! ## Constants -/

def MEMBER_FLAG_NONE : UInt8 := 0x00
def MEMBER_FLAG_OWNER : UInt8 := 0x01
def MEMBER_FLAG_MODERATOR : UInt8 := 0x02
def MEMBER_FLAG_MUTED : UInt8 := 0x08

def CHANNEL_FLAG_CUSTOM : UInt8 := 0x01
def CHANNEL_FLAG_LFG : UInt8 := 0x40

def RBAC_PERM_TWO_SIDE_INTERACTION_CHANNEL : UInt32 := 26
def RBAC_PERM_CHANGE_CHANNEL_NOT_MODERATOR : UInt32 := 46

/-! ## Members -/

structure PlayerInfo where
  flags : UInt8 := MEMBER_FLAG_NONE
  invisible : Bool := false
  deriving DecidableEq

namespace PlayerInfo

def hasFlag (i : PlayerInfo) (flag : UInt8) : Bool := i.flags &&& flag != 0

def setFlag (i : PlayerInfo) (flag : UInt8) : PlayerInfo := { i with flags := i.flags ||| flag }

def removeFlag (i : PlayerInfo) (flag : UInt8) : PlayerInfo := { i with flags := i.flags &&& ~~~flag }

def isOwner (i : PlayerInfo) : Bool := i.hasFlag MEMBER_FLAG_OWNER

def setOwner (i : PlayerInfo) (state : Bool) : PlayerInfo :=
  if state then i.setFlag MEMBER_FLAG_OWNER else i.removeFlag MEMBER_FLAG_OWNER

def isModerator (i : PlayerInfo) : Bool := i.hasFlag MEMBER_FLAG_MODERATOR

def setModerator (i : PlayerInfo) (state : Bool) : PlayerInfo :=
  if state then i.setFlag MEMBER_FLAG_MODERATOR else i.removeFlag MEMBER_FLAG_MODERATOR

def isMuted (i : PlayerInfo) : Bool := i.hasFlag MEMBER_FLAG_MUTED

def setMuted (i : PlayerInfo) (state : Bool) : PlayerInfo :=
  if state then i.setFlag MEMBER_FLAG_MUTED else i.removeFlag MEMBER_FLAG_MUTED

def setInvisible (i : PlayerInfo) (on : Bool) : PlayerInfo := { i with invisible := on }

/-! ### Flags -/

variable (i : PlayerInfo) (f g : UInt8)

theorem or_and_of_disjoint (a : UInt8) {f g : UInt8} (h : f &&& g = 0) :
    (a ||| f) &&& g = a &&& g := by
  have hd : (a ||| f) &&& g = (a &&& g) ||| (f &&& g) := by
    apply UInt8.toBitVec_inj.mp
    apply BitVec.eq_of_getLsbD_eq
    grind [UInt8.toBitVec_or, UInt8.toBitVec_and]
  rw [hd, h, UInt8.or_zero]

theorem hasFlag_setFlag_of_disjoint {f g : UInt8} (h : f &&& g = 0) :
    (i.setFlag f).hasFlag g = i.hasFlag g := by
  show ((i.flags ||| f) &&& g != 0) = (i.flags &&& g != 0)
  rw [or_and_of_disjoint i.flags h]

theorem hasFlag_removeFlag_of_disjoint {f g : UInt8} (h : ~~~f &&& g = g) :
    (i.removeFlag f).hasFlag g = i.hasFlag g := by
  show (i.flags &&& ~~~f &&& g != 0) = (i.flags &&& g != 0)
  rw [UInt8.and_assoc, h]

theorem hasFlag_setFlag_self {f : UInt8} (h : f ≠ 0) : (i.setFlag f).hasFlag f = true := by
  have ha : (i.flags ||| f) &&& f = f := by
    apply UInt8.toBitVec_inj.mp
    apply BitVec.eq_of_getLsbD_eq
    grind [UInt8.toBitVec_or, UInt8.toBitVec_and]
  show ((i.flags ||| f) &&& f != 0) = true
  rw [ha]
  exact bne_iff_ne.mpr h

theorem hasFlag_removeFlag_self : (i.removeFlag f).hasFlag f = false := by
  have ha : i.flags &&& ~~~f &&& f = 0 := by
    apply UInt8.toBitVec_inj.mp
    apply BitVec.eq_of_getLsbD_eq
    intro k hk
    simp only [UInt8.toBitVec_and, UInt8.toBitVec_not, BitVec.getLsbD_and, BitVec.getLsbD_not]
    cases f.toBitVec.getLsbD k <;> simp
  show (i.flags &&& ~~~f &&& f != 0) = false
  rw [ha]
  rfl

@[simp] theorem invisible_setOwner (b : Bool) : (i.setOwner b).invisible = i.invisible := by
  cases b <;> rfl

@[simp] theorem invisible_setModerator (b : Bool) : (i.setModerator b).invisible = i.invisible := by
  cases b <;> rfl

@[simp] theorem invisible_setMuted (b : Bool) : (i.setMuted b).invisible = i.invisible := by
  cases b <;> rfl

@[simp] theorem isOwner_setOwner (b : Bool) : (i.setOwner b).isOwner = b := by
  cases b
  · exact hasFlag_removeFlag_self i MEMBER_FLAG_OWNER
  · exact hasFlag_setFlag_self i (by decide)

@[simp] theorem isOwner_setModerator (b : Bool) : (i.setModerator b).isOwner = i.isOwner := by
  cases b
  · exact hasFlag_removeFlag_of_disjoint i (by decide)
  · exact hasFlag_setFlag_of_disjoint i (by decide)

@[simp] theorem isOwner_setMuted (b : Bool) : (i.setMuted b).isOwner = i.isOwner := by
  cases b
  · exact hasFlag_removeFlag_of_disjoint i (by decide)
  · exact hasFlag_setFlag_of_disjoint i (by decide)

@[simp] theorem isModerator_setModerator (b : Bool) : (i.setModerator b).isModerator = b := by
  cases b
  · exact hasFlag_removeFlag_self i MEMBER_FLAG_MODERATOR
  · exact hasFlag_setFlag_self i (by decide)

@[simp] theorem isModerator_setOwner (b : Bool) : (i.setOwner b).isModerator = i.isModerator := by
  cases b
  · exact hasFlag_removeFlag_of_disjoint i (by decide)
  · exact hasFlag_setFlag_of_disjoint i (by decide)

end PlayerInfo

/-- What the channel asks a `Player` and its session. -/
structure Player where
  guid : ObjectGuid
  /-- A player has a guid. -/
  guid_ne : guid ≠ 0
  name : String
  team : UInt32
  hasPermission : UInt32 → Bool
  isGMVisible : Bool
  /-- The configuration, the account and the group together keep the player out of the
  channels for looking for a group. -/
  restrictedLFG : Bool

/-- One element of `_playersStore`. -/
abbrev Entry := ObjectGuid × PlayerInfo

/-- `std::map` keeps its elements by key: a new one stands before the first with a larger
guid. -/
def byGuid : Arrangement Entry where
  arrange
    | [] => []
    | e :: l => l.orderedInsert (fun a b => a.1 ≤ b.1) e
  perm
    | [] => List.Perm.refl []
    | e :: l => List.perm_orderedInsert _ e l

structure Channel where
  ownershipEnabled : Bool
  isOwnerInvisible : Bool
  channelFlags : UInt8
  channelId : UInt32
  ownerGuid : ObjectGuid
  channelPassword : String
  playersStore : Table (κ := ObjectGuid) (α := Entry) Prod.fst
  bannedStore : Finset ObjectGuid
  /-- A reference into `playersStore` was used after its entry had been erased. -/
  usedErased : Bool := false

namespace Channel

/-- A custom channel, as its constructor leaves it. -/
def custom (banList : Finset ObjectGuid) : Channel where
  ownershipEnabled := true
  isOwnerInvisible := false
  channelFlags := CHANNEL_FLAG_CUSTOM
  channelId := 0
  ownerGuid := 0
  channelPassword := ""
  playersStore := ∅
  bannedStore := banList

def isConstant (c : Channel) : Bool := c.channelId != 0

def hasFlag (c : Channel) (flag : UInt8) : Bool := c.channelFlags &&& flag != 0

def checkPassword (c : Channel) (password : String) : Bool :=
  c.channelPassword.isEmpty || c.channelPassword == password

/-- The entry of a guid, if it has one. -/
def find (c : Channel) (guid : ObjectGuid) : Option PlayerInfo :=
  (c.playersStore.get? guid).map Prod.snd

def isOn (c : Channel) (who : ObjectGuid) : Bool := (c.find who).isSome

def isBanned (c : Channel) (guid : ObjectGuid) : Bool := decide (guid ∈ c.bannedStore)

def isEmpty (c : Channel) : Bool := c.playersStore.rows.isEmpty

/-! ## References -/

/-- Going on with what a reference to an entry refers to. -/
def deref (c : Channel) (guid : ObjectGuid) (k : PlayerInfo → Channel) : Channel :=
  match c.find guid with
  | some info => k info
  | none => { c with usedErased := true }

/-- Changing an entry through a reference to it. -/
def write (c : Channel) (guid : ObjectGuid) (f : PlayerInfo → PlayerInfo) : Channel :=
  c.deref guid fun _ =>
    { c with playersStore := c.playersStore.modify guid (fun e => (e.1, f e.2)) fun _ => rfl }

/-! ## Operations -/

/-- `Channel::SetOwner(ObjectGuid const&, bool)`. -/
def setOwnerGuid (c : Channel) (guid : ObjectGuid) : Channel :=
  let c :=
    if c.ownerGuid != 0 && c.isOn c.ownerGuid then c.write c.ownerGuid (·.setOwner false) else c
  let c := { c with ownerGuid := guid }
  if c.ownerGuid != 0 then
    if c.isOn c.ownerGuid then
      c.write c.ownerGuid fun info => (info.setModerator true).setOwner true
    else c
  else c

/-- `_playersStore[guid]` for a guid without an entry. -/
def emplace (c : Channel) (guid : ObjectGuid) : Channel :=
  { c with playersStore := (c.playersStore.tryEmplace byGuid (guid, {})).getD c.playersStore }

def joinChannel (c : Channel) (player : Player) (pass : String) : Channel :=
  if c.isOn player.guid then c
  else if c.isBanned player.guid then c
  else if !c.checkPassword pass then c
  else if c.hasFlag CHANNEL_FLAG_LFG && player.restrictedLFG then c
  else
    let newChannel := c.isEmpty
    let c := (c.emplace player.guid).write player.guid (·.setInvisible !player.isGMVisible)
    if !c.isConstant then
      c.deref player.guid fun playerInfo =>
        if c.ownershipEnabled && (newChannel || !playerInfo.invisible) &&
            (c.ownerGuid == 0 || c.isOwnerInvisible) then
          let c := { c with isOwnerInvisible := playerInfo.invisible }
          (c.setOwnerGuid player.guid).write player.guid (·.setModerator true)
        else c
    else c

/-- The entry that the search of `LeaveChannel` ends at: the first visible one, else the
first. -/
def nextOwner (c : Channel) : Option Entry :=
  (c.playersStore.rows.find? fun e => !e.2.invisible) <|> c.playersStore.rows.head?

def leaveChannel (c : Channel) (player : Player) : Channel :=
  match c.find player.guid with
  | none => c
  | some info =>
    let c := { c with playersStore := c.playersStore.erase player.guid }
    let changeowner := info.isOwner
    if !c.isConstant then
      if changeowner && c.ownershipEnabled && !c.isEmpty then
        match c.nextOwner with
        | none => c
        | some (newOwner, _) =>
          let c := (c.write newOwner (·.setModerator true)).setOwnerGuid newOwner
          c.deref newOwner fun itr =>
            if itr.invisible then { c with isOwnerInvisible := true } else c
      else c
    else c

/-- `FindConnectedPlayerByName` when an operation is called. -/
abbrev Connected := String → Option Player

def kickOrBan (c : Channel) (online : Connected) (player : Player) (badname : String) (ban : Bool) :
    Channel :=
  let good := player.guid
  if !c.isOn good then c
  else
    c.deref good fun info =>
      if !info.isModerator && !player.hasPermission RBAC_PERM_CHANGE_CHANNEL_NOT_MODERATOR then c
      else
        match online badname with
        | none => c
        | some bad =>
          let victim := bad.guid
          if victim == 0 || !c.isOn victim then c
          else
            let changeowner := c.ownerGuid == victim
            if !player.hasPermission RBAC_PERM_CHANGE_CHANNEL_NOT_MODERATOR && changeowner &&
                good != c.ownerGuid then c
            else
              let c :=
                if ban && !c.isBanned victim then
                  { c with bannedStore := insert victim c.bannedStore }
                else c
              let c := { c with playersStore := c.playersStore.erase victim }
              if changeowner && c.ownershipEnabled && !c.isEmpty then
                -- `info` refers to the entry of the actor, whom the name may name as well
                (c.write good (·.setModerator true)).setOwnerGuid good
              else c

def unBan (c : Channel) (online : Connected) (player : Player) (badname : String) : Channel :=
  let good := player.guid
  if !c.isOn good then c
  else
    c.deref good fun info =>
      if !info.isModerator && !player.hasPermission RBAC_PERM_CHANGE_CHANNEL_NOT_MODERATOR then c
      else
        match online badname with
        | none => c
        | some bad =>
          let victim := bad.guid
          if victim == 0 || !c.isBanned victim then c
          else { c with bannedStore := c.bannedStore.erase victim }

def password (c : Channel) (player : Player) (pass : String) : Channel :=
  let guid := player.guid
  if !c.isOn guid then c
  else
    c.deref guid fun info =>
      if !info.isModerator && !player.hasPermission RBAC_PERM_CHANGE_CHANNEL_NOT_MODERATOR then c
      else { c with channelPassword := pass }

/-- The other player is of the same team, or both may talk across the teams. -/
def mayInteract (player newp : Player) : Bool :=
  player.team == newp.team ||
    player.hasPermission RBAC_PERM_TWO_SIDE_INTERACTION_CHANNEL &&
      newp.hasPermission RBAC_PERM_TWO_SIDE_INTERACTION_CHANNEL

/-- `Channel::SetModerator(ObjectGuid const&, bool)`. -/
def setModeratorGuid (c : Channel) (guid : ObjectGuid) (set : Bool) : Channel :=
  if !c.isOn guid then c
  else
    c.deref guid fun playerInfo =>
      if playerInfo.isModerator != set then c.write guid (·.setModerator set) else c

/-- `Channel::SetMute(ObjectGuid const&, bool)`. -/
def setMuteGuid (c : Channel) (guid : ObjectGuid) (set : Bool) : Channel :=
  if !c.isOn guid then c
  else
    c.deref guid fun playerInfo =>
      if playerInfo.isMuted != set then c.write guid (·.setMuted set) else c

def setMode (c : Channel) (online : Connected) (player : Player) (p2n : String) (mod set : Bool) :
    Channel :=
  let guid := player.guid
  if !c.isOn guid then c
  else
    c.deref guid fun info =>
      if !info.isModerator && !player.hasPermission RBAC_PERM_CHANGE_CHANNEL_NOT_MODERATOR then c
      else if guid == c.ownerGuid && p2n == player.name && mod then c
      else
        match online p2n with
        | none => c
        | some newp =>
          let victim := newp.guid
          if victim == 0 || !c.isOn victim || !mayInteract player newp then c
          else if c.ownerGuid == victim && c.ownerGuid != guid then c
          else if mod then c.setModeratorGuid newp.guid set
          else c.setMuteGuid newp.guid set

def setInvisible (c : Channel) (player : Player) (on : Bool) : Channel :=
  if !c.isOn player.guid then c
  else
    let c := c.write player.guid (·.setInvisible on)
    -- we happen to be owner too, update flag
    if c.ownerGuid == player.guid then { c with isOwnerInvisible := on } else c

/-- `Channel::SetOwner(Player const*, std::string const&)`. -/
def setOwner (c : Channel) (online : Connected) (player : Player) (newname : String) : Channel :=
  let guid := player.guid
  if !c.isOn guid then c
  else if !player.hasPermission RBAC_PERM_CHANGE_CHANNEL_NOT_MODERATOR && guid != c.ownerGuid then c
  else
    match online newname with
    | none => c
    | some newp =>
      let victim := newp.guid
      if victim == 0 || !c.isOn victim || !mayInteract player newp then c
      else (c.write victim (·.setModerator true)).setOwnerGuid victim

/-! ## Runs -/

/-- The calls that a channel gets. -/
inductive Op where
  | joinChannel (player : Player) (pass : String)
  | leaveChannel (player : Player)
  | kickOrBan (online : Connected) (player : Player) (badname : String) (ban : Bool)
  | unBan (online : Connected) (player : Player) (badname : String)
  | password (player : Player) (pass : String)
  | setMode (online : Connected) (player : Player) (p2n : String) (mod set : Bool)
  | setInvisible (player : Player) (on : Bool)
  | setOwner (online : Connected) (player : Player) (newname : String)

def run (c : Channel) : Op → Channel
  | .joinChannel player pass => c.joinChannel player pass
  | .leaveChannel player => c.leaveChannel player
  | .kickOrBan online player badname ban => c.kickOrBan online player badname ban
  | .unBan online player badname => c.unBan online player badname
  | .password player pass => c.password player pass
  | .setMode online player p2n mod set => c.setMode online player p2n mod set
  | .setInvisible player on => c.setInvisible player on
  | .setOwner online player newname => c.setOwner online player newname

def Step (c : Channel) (op : Op) (d : Channel) : Prop := d = c.run op

end Channel

end EGServer.Chat
