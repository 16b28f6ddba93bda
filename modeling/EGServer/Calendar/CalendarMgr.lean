import EGServer.Lib.IdPool
import Mathlib.Algebra.Ring.Nat
import Std.Data.ExtTreeMap

/-!
# The calendar

Events and invites of the calendar, the two pools their ids come from, and the handlers of the
client's packets. An event is stored under its address, since the set of events is one of
pointers; an invite is stored in the list of its event.

An id goes back to its pool when the destructor of the event or of the invite runs. `lost`
lists the invites created with `new` that are neither stored nor deleted.
-/

namespace EGServer.Calendar

abbrev ObjectGuid := UInt64

/-- Where an event was allocated. -/
abbrev Addr := Nat

/-- The ids are `uint64`. -/
def ID_SIZE : Nat := 2 ^ 64

def CALENDAR_FLAG_WITHOUT_INVITES : UInt32 := 0x040
def CALENDAR_FLAG_GUILD_EVENT : UInt32 := 0x400

def CALENDAR_STATUS_INVITED : UInt8 := 0
def CALENDAR_STATUS_SIGNED_UP : UInt8 := 6
def CALENDAR_STATUS_NOT_SIGNED_UP : UInt8 := 7
def CALENDAR_STATUS_TENTATIVE : UInt8 := 8

def CALENDAR_RANK_PLAYER : UInt8 := 0

def CALENDAR_MAX_EVENTS : Nat := 30
def CALENDAR_MAX_GUILD_EVENTS : Nat := 100

/-- `CALENDAR_OLD_EVENTS_DELETION_TIME`: a month, in seconds. -/
def CALENDAR_OLD_EVENTS_DELETION_TIME : Int := 30 * 24 * 60 * 60

/-- "01/01/2000 00:00:00". -/
def CALENDAR_DEFAULT_RESPONSE_TIME : Int := 946684800

/-- The errors that the handlers below report. -/
inductive CalendarError where
  | guildEventsExceeded
  | eventsExceeded
  | eventInvalid
  | internal
  | guildPlayerNotInGuild
  | notAllied
  | ignoringYou
  | eventPassed
  | deleteCreatorFailed
  | noInvite
  | noGuildInvites
  deriving DecidableEq

structure CalendarInvite where
  inviteId : Nat
  eventId : Nat
  inviteeGUID : ObjectGuid
  senderGUID : ObjectGuid
  responseTime : Int
  status : UInt8
  rank : UInt8
  note : String
  deriving DecidableEq

structure CalendarEvent where
  eventId : Nat
  ownerGUID : ObjectGuid
  guildId : Nat
  type : UInt8
  textureId : Int
  date : Int
  flags : UInt32
  title : String
  description : String
  lockDate : Int
  deriving DecidableEq

/-- `IsGuildEvent(flags)`. -/
def isGuildEvent (flags : UInt32) : Bool := flags &&& CALENDAR_FLAG_GUILD_EVENT ≠ 0

/-- `IsGuildAnnouncement(flags)`. -/
def isGuildAnnouncement (flags : UInt32) : Bool := flags &&& CALENDAR_FLAG_WITHOUT_INVITES ≠ 0

namespace CalendarEvent

variable (event : CalendarEvent)

def isGuildEvent : Bool := Calendar.isGuildEvent event.flags
def isGuildAnnouncement : Bool := Calendar.isGuildAnnouncement event.flags

/-- The event is one of its guild. -/
def isOfGuild : Bool := event.isGuildEvent || event.isGuildAnnouncement

end CalendarEvent

structure CalendarMgr where
  events : Std.ExtTreeMap Addr CalendarEvent compare
  invites : Std.ExtTreeMap Nat (List CalendarInvite) compare
  eventIds : IdPool
  inviteIds : IdPool
  lost : List CalendarInvite := []

/-- What the handlers read of the session and its player. -/
structure Session where
  guid : ObjectGuid
  guildId : Nat
  /-- `GetCalendarEventCreationCooldown() > GetGameTime()`. -/
  onCooldown : Bool

namespace CalendarMgr

variable (m : CalendarMgr)

/-! ## Ids -/

def freeEventId (id : Nat) : CalendarMgr := { m with eventIds := m.eventIds.release ID_SIZE id }

def freeInviteId (id : Nat) : CalendarMgr := { m with inviteIds := m.inviteIds.release ID_SIZE id }

def getFreeEventId : Nat × CalendarMgr :=
  ((m.eventIds.take ID_SIZE).1, { m with eventIds := (m.eventIds.take ID_SIZE).2 })

def getFreeInviteId : Nat × CalendarMgr :=
  ((m.inviteIds.take ID_SIZE).1, { m with inviteIds := (m.inviteIds.take ID_SIZE).2 })

/-- `~CalendarInvite`: "Free _inviteId only if it's a real invite". -/
def deleteInvite (invite : CalendarInvite) : CalendarMgr :=
  if invite.inviteId ≠ 0 ∧ invite.eventId ≠ 0 then m.freeInviteId invite.inviteId else m

/-! ## Lookups -/

/-- The event with an id, and where it is. -/
def findEvent (eventId : Nat) : Option (Addr × CalendarEvent) :=
  m.events.toList.find? fun e => e.2.eventId = eventId

def getEvent (eventId : Nat) : Option CalendarEvent := (m.findEvent eventId).map Prod.snd

/-- `GetEventInvites`; without an entry in the map there are none. -/
def getEventInvites (eventId : Nat) : List CalendarInvite := m.invites.getD eventId []

def allInvites : List CalendarInvite := m.invites.toList.flatMap Prod.snd

def getInvite (inviteId : Nat) : Option CalendarInvite :=
  m.allInvites.find? fun i => i.inviteId = inviteId

def getPlayerInvites (guid : ObjectGuid) : List CalendarInvite :=
  m.allInvites.filter fun i => i.inviteeGUID = guid

/-- `GetEventsCreatedBy(guid)`, without those of the guild. -/
def getEventsCreatedBy (guid : ObjectGuid) : List CalendarEvent :=
  m.events.values.filter fun e => e.ownerGUID = guid && !e.isOfGuild

def getGuildEvents (guildId : Nat) : List CalendarEvent :=
  if guildId = 0 then [] else m.events.values.filter fun e => e.isOfGuild && e.guildId = guildId

/-! ## Stores -/

/-- `AddEvent`, for an event allocated at an address. -/
def addEvent (address : Addr) (event : CalendarEvent) : CalendarMgr :=
  { m with events := m.events.insert address event }

/-- `AddInvite` for an invite created with `new`. A guild announcement has no invites: the
invite is not stored, and nobody deletes it. -/
def addNewInvite (event : CalendarEvent) (invite : CalendarInvite) : CalendarMgr :=
  if event.isGuildAnnouncement then { m with lost := invite :: m.lost }
  else
    let list := m.getEventInvites invite.eventId ++ [invite]
    { m with invites := m.invites.insert invite.eventId list }

/-- `RemoveEvent(calendarEvent, remover)`, for the event at an address. -/
def removeEventAt (address : Addr) : CalendarMgr :=
  match m.events[address]? with
  | none => m
  | some event =>
    let m := (m.getEventInvites event.eventId).foldl deleteInvite m
    let m := { m with invites := m.invites.erase event.eventId }
    let m := { m with events := m.events.erase address }
    m.freeEventId event.eventId

/-- `RemoveEvent(eventId, remover)`. -/
def removeEvent (eventId : Nat) : CalendarMgr × Option CalendarError :=
  match m.findEvent eventId with
  | none => (m, some .eventInvalid)
  | some event => (m.removeEventAt event.1, none)

def removeInvite (inviteId eventId : Nat) : CalendarMgr :=
  if (m.getEvent eventId).isNone then m
  else
    match (m.getEventInvites eventId).find? fun i => i.inviteId = inviteId with
    | none => m
    | some invite =>
      let rest := (m.getEventInvites eventId).eraseP fun i => i.inviteId = inviteId
      let m := m.deleteInvite invite
      { m with invites := m.invites.insert eventId rest }

/-- The loop takes the next event before it removes one. -/
def removeAllPlayerEventsAndInvites (guid : ObjectGuid) : CalendarMgr :=
  let events := m.events.toList.filter fun e => e.2.ownerGUID = guid
  let m := events.foldl (fun m e => m.removeEventAt e.1) m
  (m.getPlayerInvites guid).foldl (fun m i => m.removeInvite i.inviteId i.eventId) m

def deleteOldEvents (gameTime : Int) : CalendarMgr :=
  let oldEventsTime := gameTime - CALENDAR_OLD_EVENTS_DELETION_TIME
  let events := m.events.toList.filter fun e => e.2.date < oldEventsTime
  events.foldl (fun m e => m.removeEventAt e.1) m

/-! ## The handlers -/

/-- A time sent by the client, in the server's time zone. -/
structure ClientTime where
  unixTime : Int
  /-- The time is before now. -/
  isPast : Bool

structure CalendarAddEventInviteInfo where
  guid : ObjectGuid
  status : UInt8
  moderator : UInt8

structure CalendarAddEvent where
  eventType : UInt8
  textureId : Int
  time : ClientTime
  lockDate : Int
  flags : UInt32
  title : String
  description : String
  invites : List CalendarAddEventInviteInfo

/-- The limits on the events of a guild, and on those of a player. -/
def eventLimit (session : Session) (flags : UInt32) : Option CalendarError :=
  if Calendar.isGuildEvent flags || Calendar.isGuildAnnouncement flags then
    if CALENDAR_MAX_GUILD_EVENTS ≤ (m.getGuildEvents session.guildId).length then
      some .guildEventsExceeded
    else none
  else if CALENDAR_MAX_EVENTS ≤ (m.getEventsCreatedBy session.guid).length then
    some .eventsExceeded
  else none

/-- The checks of `HandleCalendarAddEvent`. -/
def addEventError (session : Session) (packet : CalendarAddEvent) : Option CalendarError :=
  if packet.time.isPast then some .eventPassed
  else if (Calendar.isGuildEvent packet.flags || Calendar.isGuildAnnouncement packet.flags) &&
      session.guildId = 0 then
    some .guildPlayerNotInGuild
  else
    match m.eventLimit session packet.flags with
    | some error => some error
    | none => if session.onCooldown then some .internal else none

/-- `new CalendarInvite(GetFreeInviteId(), …)`, and `AddInvite`. -/
def createInvite (event : CalendarEvent) (invite : Nat → CalendarInvite) : CalendarMgr :=
  let (inviteId, m) := m.getFreeInviteId
  m.addNewInvite event (invite inviteId)

/-- The loop over the invites of a new event. -/
def createInvites {β : Type} (event : CalendarEvent) (invite : β → Nat → CalendarInvite)
    (l : List β) : CalendarMgr :=
  l.foldl (fun m b => m.createInvite event (invite b)) m

/-- The event that is added; it is one of the player's guild if its flags say so. -/
def addedEvent (session : Session) (packet : CalendarAddEvent) (eventId : Nat) :
    CalendarEvent where
  eventId := eventId
  ownerGUID := session.guid
  guildId :=
    if Calendar.isGuildEvent packet.flags || Calendar.isGuildAnnouncement packet.flags then
      session.guildId
    else 0
  type := packet.eventType
  textureId := packet.textureId
  date := packet.time.unixTime
  flags := packet.flags
  title := packet.title
  description := packet.description
  lockDate := packet.lockDate

def addedInvite (session : Session) (event : CalendarEvent) (info : CalendarAddEventInviteInfo)
    (inviteId : Nat) : CalendarInvite where
  inviteId := inviteId
  eventId := event.eventId
  inviteeGUID := info.guid
  senderGUID := session.guid
  responseTime := CALENDAR_DEFAULT_RESPONSE_TIME
  status := info.status
  rank := info.moderator
  note := ""

/-- The invite that stands for a guild announcement: it has no id. -/
def announcementInvite (session : Session) (event : CalendarEvent) : CalendarInvite where
  inviteId := 0
  eventId := event.eventId
  inviteeGUID := 0
  senderGUID := session.guid
  responseTime := CALENDAR_DEFAULT_RESPONSE_TIME
  status := CALENDAR_STATUS_NOT_SIGNED_UP
  rank := CALENDAR_RANK_PLAYER
  note := ""

def handleCalendarAddEvent (session : Session) (address : Addr) (packet : CalendarAddEvent) :
    CalendarMgr × Option CalendarError :=
  match m.addEventError session packet with
  | some error => (m, some error)
  | none =>
    let (eventId, m) := m.getFreeEventId
    let event := addedEvent session packet eventId
    let m :=
      if event.isGuildAnnouncement then
        -- the invite is a local variable, and its destructor runs here
        m.deleteInvite (announcementInvite session event)
      else m.createInvites event (addedInvite session event) packet.invites
    (m.addEvent address event, none)

structure CalendarUpdateEvent where
  eventId : Nat
  eventType : UInt8
  textureId : Int
  time : ClientTime
  lockDate : Int
  flags : UInt32
  title : String
  description : String

/-- The client may send any flags. -/
def handleCalendarUpdateEvent (packet : CalendarUpdateEvent) :
    CalendarMgr × Option CalendarError :=
  if packet.time.isPast then (m, none)
  else
    match m.findEvent packet.eventId with
    | none => (m, some .eventInvalid)
    | some (address, event) =>
      let event := { event with
        type := packet.eventType, flags := packet.flags, date := packet.time.unixTime
        lockDate := packet.lockDate, textureId := packet.textureId
        title := packet.title, description := packet.description }
      ({ m with events := m.events.insert address event }, none)

def handleCalendarRemoveEvent (eventId : Nat) : CalendarMgr × Option CalendarError :=
  m.removeEvent eventId

/-- The checks of `HandleCalendarCopyEvent`, and the event they let pass. -/
def copyTarget (session : Session) (eventId : Nat) (date : ClientTime) :
    Except CalendarError CalendarEvent :=
  if date.isPast then .error .eventPassed
  else
    match m.getEvent eventId with
    | none => .error .eventInvalid
    | some oldEvent =>
      if oldEvent.isOfGuild && oldEvent.guildId ≠ session.guildId then .error .eventInvalid
      else if !oldEvent.isOfGuild && oldEvent.ownerGUID ≠ session.guid then .error .eventInvalid
      else
        match m.eventLimit session oldEvent.flags with
        | some error => .error error
        | none => if session.onCooldown then .error .internal else .ok oldEvent

def copiedEvent (oldEvent : CalendarEvent) (eventId : Nat) (date : ClientTime) : CalendarEvent :=
  { oldEvent with eventId := eventId, date := date.unixTime }

def copiedInvite (event : CalendarEvent) (invite : CalendarInvite) (inviteId : Nat) :
    CalendarInvite :=
  { invite with inviteId := inviteId, eventId := event.eventId }

def handleCalendarCopyEvent (session : Session) (address : Addr) (eventId : Nat)
    (date : ClientTime) : CalendarMgr × Option CalendarError :=
  match m.copyTarget session eventId date with
  | .error error => (m, some error)
  | .ok oldEvent =>
    let (newId, m) := m.getFreeEventId
    let newEvent := copiedEvent oldEvent newId date
    let m := m.addEvent address newEvent
    (m.createInvites newEvent (copiedInvite newEvent) (m.getEventInvites eventId), none)

/-- What is known about the invitee when `createInvite` runs. -/
structure Invitee where
  guid : ObjectGuid
  guildId : Nat
  isIgnoring : Bool
  /-- The teams are the same, or may interact. -/
  isAllied : Bool

/-- The checks of `HandleCalendarEventInvite` for an event that exists. -/
def inviteTarget (invitee : Invitee) (eventId : Nat) : Except CalendarError CalendarEvent :=
  if !invitee.isAllied then .error .notAllied
  else if invitee.isIgnoring then .error .ignoringYou
  else
    match m.getEvent eventId with
    | none => .error .eventInvalid
    | some event =>
      if event.isGuildEvent && event.guildId = invitee.guildId then .error .noGuildInvites
      else .ok event

def sentInvite (session : Session) (invitee : Invitee) (eventId inviteId : Nat) :
    CalendarInvite where
  inviteId := inviteId
  eventId := eventId
  inviteeGUID := invitee.guid
  senderGUID := session.guid
  responseTime := CALENDAR_DEFAULT_RESPONSE_TIME
  status := CALENDAR_STATUS_INVITED
  rank := CALENDAR_RANK_PLAYER
  note := ""

/-- The event is `none` while it is being created: the invite is then a local variable whose
id is not given back, since it has no event. -/
def handleCalendarEventInvite (session : Session) (invitee : Invitee) (isSignUp : Bool) :
    Option Nat → CalendarMgr × Option CalendarError
  | some eventId =>
    match m.inviteTarget invitee eventId with
    | .error error => (m, some error)
    | .ok event => (m.createInvite event (sentInvite session invitee eventId), none)
  | none =>
    if !invitee.isAllied then (m, some .notAllied)
    else if invitee.isIgnoring then (m, some .ignoringYou)
    else if isSignUp && invitee.guildId = session.guildId then (m, some .noGuildInvites)
    else
      let (inviteId, m) := m.getFreeInviteId
      (m.deleteInvite (sentInvite session invitee 0 inviteId), none)

/-- The checks of `HandleCalendarEventSignup`. -/
def signupTarget (session : Session) (eventId : Nat) : Except CalendarError CalendarEvent :=
  match m.getEvent eventId with
  | none => .error .eventInvalid
  | some event =>
    if event.isGuildEvent && event.guildId ≠ session.guildId then .error .guildPlayerNotInGuild
    else .ok event

def signupInvite (session : Session) (eventId : Nat) (tentative : Bool) (gameTime : Int)
    (inviteId : Nat) : CalendarInvite where
  inviteId := inviteId
  eventId := eventId
  inviteeGUID := session.guid
  senderGUID := session.guid
  responseTime := gameTime
  status := if tentative then CALENDAR_STATUS_TENTATIVE else CALENDAR_STATUS_SIGNED_UP
  rank := CALENDAR_RANK_PLAYER
  note := ""

def handleCalendarEventSignup (session : Session) (eventId : Nat) (tentative : Bool)
    (gameTime : Int) : CalendarMgr × Option CalendarError :=
  match m.signupTarget session eventId with
  | .error error => (m, some error)
  | .ok event =>
    (m.createInvite event (signupInvite session eventId tentative gameTime), none)

def handleCalendarEventRemoveInvite (inviteeGUID : ObjectGuid) (inviteId eventId : Nat) :
    CalendarMgr × Option CalendarError :=
  match m.getEvent eventId with
  | none => (m, some .noInvite)
  | some event =>
    if event.ownerGUID = inviteeGUID then (m, some .deleteCreatorFailed)
    else (m.removeInvite inviteId eventId, none)

end CalendarMgr

/-! ## Loading -/

/-- `LoadFromDB`: the rows of the events, each with the address it is allocated at, and the
rows of the invites. The guild of an event is looked up when it is one of a guild. -/
def loadFromDB (getCharacterGuildIdByGuid : ObjectGuid → Nat)
    (events : List (Addr × CalendarEvent)) (invites : List CalendarInvite) : CalendarMgr :=
  let load (event : CalendarEvent) : CalendarEvent :=
    { event with guildId := if event.isOfGuild then getCharacterGuildIdByGuid event.ownerGUID else 0 }
  let store := events.foldl (fun store row => store.insert row.1 (load row.2)) ∅
  let lists := invites.foldl
    (fun lists invite => lists.insert invite.eventId (lists.getD invite.eventId [] ++ [invite])) ∅
  let maxEventId := (events.map (·.2.eventId)).foldl max 0
  let maxInviteId := (invites.map (·.inviteId)).foldl max 0
  let m : CalendarMgr := {
    events := store, invites := lists
    eventIds := { maxId := maxEventId, freeIds := [] }
    inviteIds := { maxId := maxInviteId, freeIds := [] } }
  { m with
    eventIds := IdPool.below maxEventId fun id => (m.getEvent id).isSome
    inviteIds := IdPool.below maxInviteId fun id => (m.getInvite id).isSome }

/-! ## Runs -/

/-- A packet that is handled, or a call of `CalendarMgr`. -/
inductive Call where
  | addEvent (session : Session) (address : Addr) (packet : CalendarMgr.CalendarAddEvent)
  | updateEvent (packet : CalendarMgr.CalendarUpdateEvent)
  | removeEvent (eventId : Nat)
  | copyEvent (session : Session) (address : Addr) (eventId : Nat) (date : CalendarMgr.ClientTime)
  | eventInvite (session : Session) (invitee : CalendarMgr.Invitee) (isSignUp : Bool)
      (eventId : Option Nat)
  | eventSignup (session : Session) (eventId : Nat) (tentative : Bool) (gameTime : Int)
  | eventRemoveInvite (inviteeGUID : ObjectGuid) (inviteId eventId : Nat)
  | removeInvite (inviteId eventId : Nat)
  | removeAllPlayerEventsAndInvites (guid : ObjectGuid)
  | deleteOldEvents (gameTime : Int)

def CalendarMgr.handle (m : CalendarMgr) : Call → CalendarMgr × Option CalendarError
  | .addEvent session address packet => m.handleCalendarAddEvent session address packet
  | .updateEvent packet => m.handleCalendarUpdateEvent packet
  | .removeEvent eventId => m.handleCalendarRemoveEvent eventId
  | .copyEvent session address eventId date =>
    m.handleCalendarCopyEvent session address eventId date
  | .eventInvite session invitee isSignUp eventId =>
    m.handleCalendarEventInvite session invitee isSignUp eventId
  | .eventSignup session eventId tentative gameTime =>
    m.handleCalendarEventSignup session eventId tentative gameTime
  | .eventRemoveInvite inviteeGUID inviteId eventId =>
    m.handleCalendarEventRemoveInvite inviteeGUID inviteId eventId
  | .removeInvite inviteId eventId => (m.removeInvite inviteId eventId, none)
  | .removeAllPlayerEventsAndInvites guid => (m.removeAllPlayerEventsAndInvites guid, none)
  | .deleteOldEvents gameTime => (m.deleteOldEvents gameTime, none)

end EGServer.Calendar
