import EGServer.Calendar.CalendarIds
import EGServer.Lib.GuardedRun

/-!
# Runs of the calendar

From a loaded calendar on, whatever the handlers are called with, no two events and no two
invites share an id, and no id that is in use is handed out. Only an invite created for a guild
announcement is lost: `AddInvite` does not store it, and the handlers that create invites with
`new` do not look.
-/

namespace EGServer.Calendar

open CalendarMgr

/-! ## What is claimed of a state -/

/-- The ids are unique, and both pools are in order. -/
structure Consistent (m : CalendarMgr) : Prop where
  eventIds : ∀ (a b : Addr) (e f : CalendarEvent), m.events[a]? = some e → m.events[b]? = some f →
    e.eventId = f.eventId → a = b
  inviteIds : (m.allInvites.map (·.inviteId)).Nodup
  newEventId : m.eventIds.Room ID_SIZE 1 → ∀ (a : Addr) (e : CalendarEvent),
    m.events[a]? = some e → m.getFreeEventId.1 ≠ e.eventId
  newInviteId : m.inviteIds.Room ID_SIZE 1 → ∀ i, Live m.invites m.lost i →
    m.getFreeInviteId.1 ≠ i.inviteId
  freeEventIds : m.eventIds.freeIds.Nodup ∧ ∀ id ∈ m.eventIds.freeIds, id ≤ m.eventIds.maxId
  freeInviteIds : m.inviteIds.freeIds.Nodup ∧ ∀ id ∈ m.inviteIds.freeIds, id ≤ m.inviteIds.maxId
  notWrapped : m.eventIds.wrapped = false ∧ m.inviteIds.wrapped = false
  underEvent : ∀ eventId, ∀ i ∈ m.getEventInvites eventId, i.eventId = eventId

structure InOrder (m : CalendarMgr) : Prop where
  events : EventsOK m.events m.eventIds
  invites : InvitesOK m.invites m.inviteIds m.lost

theorem InOrder.consistent {m : CalendarMgr} (h : InOrder m) : Consistent m where
  eventIds := h.events.distinct
  inviteIds := by
    have hget : ∀ row ∈ m.invites.toList, m.invites.getD row.1 [] = row.2 := by
      grind [Std.ExtTreeMap.getD_eq_getD_getElem?]
    unfold allInvites
    rw [List.map_flatMap, List.nodup_flatMap]
    constructor
    · intro row hrow
      rw [← hget row hrow]
      exact h.invites.nodup row.1
    · apply List.Pairwise.imp_of_mem _ Std.ExtTreeMap.distinct_keys_toList
      intro row row' hrow hrow' hne id hid hid'
      obtain ⟨i, hi, heq⟩ := List.mem_map.mp hid
      obtain ⟨j, hj, heq'⟩ := List.mem_map.mp hid'
      rw [← hget row hrow] at hi
      rw [← hget row' hrow'] at hj
      have hkey := h.invites.apart row.1 row'.1 i hi j hj (heq.trans heq'.symm)
      exact hne (hkey ▸ Std.ReflCmp.compare_self)
  newEventId hroom a e he heq := h.events.pool.take_unused hroom ⟨a, e, he, heq.symm⟩
  newInviteId hroom i hi heq := h.invites.pool.take_unused hroom ⟨i, hi, heq.symm⟩
  freeEventIds := ⟨h.events.pool.nodup, fun id hid => (h.events.pool.freeRange id hid).2⟩
  freeInviteIds := ⟨h.invites.pool.nodup, fun id hid => (h.invites.pool.freeRange id hid).2⟩
  notWrapped := ⟨h.events.pool.notWrapped, h.invites.pool.notWrapped⟩
  underEvent := h.invites.underEvent

/-! ## The operations -/

variable {m : CalendarMgr}

theorem findEvent_spec {eventId : Nat} {row : Addr × CalendarEvent}
    (h : m.findEvent eventId = some row) :
    m.events[row.1]? = some row.2 ∧ row.2.eventId = eventId := by
  constructor
  · exact Std.ExtTreeMap.mem_toList_iff_getElem?_eq_some.mp (List.mem_of_find?_eq_some h)
  · simpa using List.find?_some h

/-- What the creation of invites changes. -/
structure Invited (m m' : CalendarMgr) : Prop where
  events : m'.events = m.events
  eventIds : m'.eventIds = m.eventIds
  invites : InvitesOK m'.invites m'.inviteIds m'.lost

theorem createInvite_spec (h : InvitesOK m.invites m.inviteIds m.lost)
    (hroom : m.inviteIds.Room ID_SIZE 1) (event : CalendarEvent) {invite : Nat → CalendarInvite}
    (hid : ∀ id, (invite id).inviteId = id) :
    Invited m (m.createInvite event invite) ∧
      (m.createInvite event invite).inviteIds = (m.inviteIds.take ID_SIZE).2 ∧
      (event.isGuildAnnouncement = false → (m.createInvite event invite).lost = m.lost) := by
  unfold createInvite getFreeInviteId addNewInvite
  dsimp only
  split
  · next hannounced =>
    refine ⟨⟨rfl, rfl, h.lose hroom (hid _)⟩, rfl, fun hnot => ?_⟩
    rw [hannounced] at hnot
    cases hnot
  · exact ⟨⟨rfl, rfl, h.store hroom (hid _)⟩, rfl, fun _ => rfl⟩

theorem createInvites_spec {β : Type} (l : List β) (event : CalendarEvent)
    {invite : β → Nat → CalendarInvite} (hid : ∀ b id, (invite b id).inviteId = id)
    (h : InvitesOK m.invites m.inviteIds m.lost) (hroom : m.inviteIds.Room ID_SIZE l.length) :
    Invited m (m.createInvites event invite l) ∧
      (event.isGuildAnnouncement = false ∨ l = [] →
        (m.createInvites event invite l).lost = m.lost) := by
  induction l generalizing m with
  | nil => exact ⟨⟨rfl, rfl, h⟩, fun _ => rfl⟩
  | cons b rest ih =>
    have hone : m.inviteIds.Room ID_SIZE 1 := by
      unfold IdPool.Room at hroom ⊢
      rw [List.length_cons] at hroom
      omega
    obtain ⟨hstep, hpool, hkept⟩ := createInvite_spec h hone event (hid b)
    have hroom' : (m.createInvite event (invite b)).inviteIds.Room ID_SIZE rest.length := by
      rw [hpool]
      exact IdPool.Room.take hroom
    obtain ⟨hrest, hlost⟩ := ih hstep.invites hroom'
    show Invited m ((m.createInvite event (invite b)).createInvites event invite rest) ∧
      (_ → ((m.createInvite event (invite b)).createInvites event invite rest).lost = m.lost)
    refine ⟨⟨?_, ?_, hrest.invites⟩, fun hnot => ?_⟩
    · rw [hrest.events, hstep.events]
    · rw [hrest.eventIds, hstep.eventIds]
    · cases hnot with
      | inl hnot => rw [hlost (.inl hnot), hkept hnot]
      | inr hnil => cases hnil

theorem removeEventAt_spec (h : InOrder m) (address : Addr) :
    InOrder (m.removeEventAt address) ∧ (m.removeEventAt address).lost = m.lost := by
  unfold removeEventAt
  split
  · exact ⟨h, rfl⟩
  · next event hget =>
    rw [foldl_deleteInvite]
    exact ⟨⟨h.events.erase hget, h.invites.eraseEvent event.eventId⟩, rfl⟩

theorem removeInvite_spec (h : InOrder m) (inviteId eventId : Nat) :
    InOrder (m.removeInvite inviteId eventId) ∧
      (m.removeInvite inviteId eventId).lost = m.lost := by
  unfold removeInvite
  split
  · exact ⟨h, rfl⟩
  split
  · exact ⟨h, rfl⟩
  · next invite hfind =>
    dsimp only
    rw [deleteInvite_eq]
    exact ⟨⟨h.events, h.invites.eraseInvite hfind⟩, rfl⟩

theorem foldl_spec {β : Type} (f : CalendarMgr → β → CalendarMgr)
    (hf : ∀ m b, InOrder m → InOrder (f m b) ∧ (f m b).lost = m.lost) (l : List β)
    (h : InOrder m) : InOrder (l.foldl f m) ∧ (l.foldl f m).lost = m.lost := by
  induction l generalizing m with
  | nil => exact ⟨h, rfl⟩
  | cons b rest ih =>
    grind

theorem removeAllPlayerEventsAndInvites_spec (h : InOrder m) (guid : ObjectGuid) :
    InOrder (m.removeAllPlayerEventsAndInvites guid) ∧
      (m.removeAllPlayerEventsAndInvites guid).lost = m.lost := by
  unfold removeAllPlayerEventsAndInvites
  dsimp only
  obtain ⟨hevents, hlost⟩ := foldl_spec (fun m (e : Addr × CalendarEvent) => m.removeEventAt e.1)
    (fun _ e hm => removeEventAt_spec hm e.1)
    (m.events.toList.filter fun e => e.2.ownerGUID = guid) h
  grind [removeInvite_spec, foldl_spec]

theorem deleteOldEvents_spec (h : InOrder m) (gameTime : Int) :
    InOrder (m.deleteOldEvents gameTime) ∧ (m.deleteOldEvents gameTime).lost = m.lost :=
  foldl_spec (fun m (e : Addr × CalendarEvent) => m.removeEventAt e.1)
    (fun _ e hm => removeEventAt_spec hm e.1) _ h

/-! ## The handlers -/

/-- The allocator returns an address that no event is at, and the ids do not run out. -/
def Call.Allowed (m : CalendarMgr) : Call → Prop
  | .addEvent _ address packet => m.events[address]? = none ∧ m.eventIds.Room ID_SIZE 1 ∧
    m.inviteIds.Room ID_SIZE packet.invites.length
  | .copyEvent _ address eventId _ => m.events[address]? = none ∧ m.eventIds.Room ID_SIZE 1 ∧
    m.inviteIds.Room ID_SIZE (m.getEventInvites eventId).length
  | .eventInvite .. => m.inviteIds.Room ID_SIZE 1
  | .eventSignup .. => m.inviteIds.Room ID_SIZE 1
  | _ => True

/-- No invite is created for a guild announcement. -/
def Call.Stores (m : CalendarMgr) : Call → Prop
  | .copyEvent session _ eventId date => ∀ event, m.copyTarget session eventId date = .ok event →
    event.isGuildAnnouncement = false ∨ m.getEventInvites eventId = []
  | .eventInvite _ invitee _ (some eventId) => ∀ event,
    m.inviteTarget invitee eventId = .ok event → event.isGuildAnnouncement = false
  | .eventSignup session eventId _ _ => ∀ event,
    m.signupTarget session eventId = .ok event → event.isGuildAnnouncement = false
  | _ => True

theorem handleCalendarAddEvent_spec (h : InOrder m) {session : Session} {address : Addr}
    {packet : CalendarAddEvent} (hroom : m.eventIds.Room ID_SIZE 1)
    (hroom' : m.inviteIds.Room ID_SIZE packet.invites.length) :
    InOrder (m.handleCalendarAddEvent session address packet).1 ∧
      (m.handleCalendarAddEvent session address packet).1.lost = m.lost := by
  unfold handleCalendarAddEvent
  split
  · exact ⟨h, rfl⟩
  dsimp only [getFreeEventId]
  generalize hevent : addedEvent session packet (m.eventIds.take ID_SIZE).1 = event
  have hid : event.eventId = (m.eventIds.take ID_SIZE).1 := hevent ▸ rfl
  split
  · rw [deleteInvite_eq]
    exact ⟨⟨h.events.insert hroom hid, h.invites⟩, rfl⟩
  · next hannounced =>
    obtain ⟨hinvited, hlost⟩ := @createInvites_spec
      { m with eventIds := (m.eventIds.take ID_SIZE).2 } _ packet.invites event
      (addedInvite session event) (fun _ _ => rfl) h.invites hroom'
    refine ⟨⟨?_, hinvited.invites⟩, hlost (.inl (Bool.eq_false_iff.mpr hannounced))⟩
    unfold addEvent
    dsimp only
    rw [hinvited.events, hinvited.eventIds]
    exact h.events.insert hroom hid

theorem handleCalendarUpdateEvent_spec (h : InOrder m) (packet : CalendarUpdateEvent) :
    InOrder (m.handleCalendarUpdateEvent packet).1 ∧
      (m.handleCalendarUpdateEvent packet).1.lost = m.lost := by
  unfold handleCalendarUpdateEvent
  split
  · exact ⟨h, rfl⟩
  split
  · exact ⟨h, rfl⟩
  · next address event hfind =>
    exact ⟨⟨h.events.update (findEvent_spec hfind).1 rfl, h.invites⟩, rfl⟩

theorem handleCalendarCopyEvent_spec (h : InOrder m) {session : Session} {address : Addr}
    {eventId : Nat} {date : ClientTime} (hroom : m.eventIds.Room ID_SIZE 1)
    (hroom' : m.inviteIds.Room ID_SIZE (m.getEventInvites eventId).length) :
    InOrder (m.handleCalendarCopyEvent session address eventId date).1 ∧
      (Call.Stores m (.copyEvent session address eventId date) →
        (m.handleCalendarCopyEvent session address eventId date).1.lost = m.lost) := by
  unfold handleCalendarCopyEvent
  split
  · exact ⟨h, fun _ => rfl⟩
  · next oldEvent htarget =>
    dsimp only [getFreeEventId, addEvent]
    generalize hevent : copiedEvent oldEvent (m.eventIds.take ID_SIZE).1 date = newEvent
    have hid : newEvent.eventId = (m.eventIds.take ID_SIZE).1 := hevent ▸ rfl
    have hflags : newEvent.isGuildAnnouncement = oldEvent.isGuildAnnouncement := hevent ▸ rfl
    obtain ⟨hinvited, hlost⟩ := @createInvites_spec { m with
      events := m.events.insert address newEvent, eventIds := (m.eventIds.take ID_SIZE).2 } _
      (m.getEventInvites eventId) newEvent (copiedInvite newEvent) (fun _ _ => rfl) h.invites hroom'
    refine ⟨⟨?_, hinvited.invites⟩, fun hstores => hlost ?_⟩
    · unfold getEventInvites at hinvited ⊢
      rw [hinvited.events, hinvited.eventIds]
      exact h.events.insert hroom hid
    · rw [hflags]
      exact hstores oldEvent htarget

theorem handleCalendarEventInvite_spec (h : InOrder m) {session : Session} {invitee : Invitee}
    {isSignUp : Bool} {eventId : Option Nat} (hroom : m.inviteIds.Room ID_SIZE 1) :
    InOrder (m.handleCalendarEventInvite session invitee isSignUp eventId).1 ∧
      (Call.Stores m (.eventInvite session invitee isSignUp eventId) →
        (m.handleCalendarEventInvite session invitee isSignUp eventId).1.lost = m.lost) := by
  cases eventId with
  | some eventId =>
    rw [handleCalendarEventInvite]
    split
    · exact ⟨h, fun _ => rfl⟩
    · next event htarget =>
      have hid : ∀ id, (sentInvite session invitee eventId id).inviteId = id := fun _ => rfl
      obtain ⟨hinvited, -, hlost⟩ := createInvite_spec h.invites hroom event hid
      refine ⟨⟨?_, hinvited.invites⟩, fun hstores => hlost (hstores event htarget)⟩
      rw [hinvited.events, hinvited.eventIds]
      exact h.events
  | none =>
    rw [handleCalendarEventInvite]
    split
    · exact ⟨h, fun _ => rfl⟩
    split
    · exact ⟨h, fun _ => rfl⟩
    split
    · exact ⟨h, fun _ => rfl⟩
    · dsimp only [getFreeInviteId]
      -- the invite has no event, so its destructor does not give the id back
      have hfreed : ∀ pool id, freed pool (sentInvite session invitee 0 id) = pool :=
        fun _ _ => if_neg fun hreal => hreal.2 rfl
      rw [deleteInvite_eq, hfreed]
      exact ⟨⟨h.events, h.invites.take hroom⟩, fun _ => rfl⟩

theorem handleCalendarEventSignup_spec (h : InOrder m) {session : Session} {eventId : Nat}
    {tentative : Bool} {gameTime : Int} (hroom : m.inviteIds.Room ID_SIZE 1) :
    InOrder (m.handleCalendarEventSignup session eventId tentative gameTime).1 ∧
      (Call.Stores m (.eventSignup session eventId tentative gameTime) →
        (m.handleCalendarEventSignup session eventId tentative gameTime).1.lost = m.lost) := by
  unfold handleCalendarEventSignup
  split
  · exact ⟨h, fun _ => rfl⟩
  · next event htarget =>
    have hid : ∀ id, (signupInvite session eventId tentative gameTime id).inviteId = id :=
      fun _ => rfl
    obtain ⟨hinvited, -, hlost⟩ := createInvite_spec h.invites hroom event hid
    refine ⟨⟨?_, hinvited.invites⟩, fun hstores => hlost (hstores event htarget)⟩
    rw [hinvited.events, hinvited.eventIds]
    exact h.events

/-- **Every call keeps the ids in order**, and loses an invite only when it creates one for a
guild announcement. -/
theorem handle_spec (h : InOrder m) (call : Call) (hallowed : call.Allowed m) :
    InOrder (m.handle call).1 ∧ (call.Stores m → (m.handle call).1.lost = m.lost) := by
  cases call with
  | addEvent session address packet =>
    obtain ⟨hok, hlost⟩ := handleCalendarAddEvent_spec h hallowed.2.1 hallowed.2.2
    exact ⟨hok, fun _ => hlost⟩
  | updateEvent packet =>
    obtain ⟨hok, hlost⟩ := handleCalendarUpdateEvent_spec h packet
    exact ⟨hok, fun _ => hlost⟩
  | removeEvent eventId =>
    unfold handle handleCalendarRemoveEvent removeEvent
    dsimp only
    split
    · exact ⟨h, fun _ => rfl⟩
    · obtain ⟨hok, hlost⟩ := removeEventAt_spec h _
      exact ⟨hok, fun _ => hlost⟩
  | copyEvent session address eventId date =>
    exact handleCalendarCopyEvent_spec h hallowed.2.1 hallowed.2.2
  | eventInvite session invitee isSignUp eventId => exact handleCalendarEventInvite_spec h hallowed
  | eventSignup session eventId tentative gameTime =>
    exact handleCalendarEventSignup_spec h hallowed
  | eventRemoveInvite inviteeGUID inviteId eventId =>
    unfold handle handleCalendarEventRemoveInvite
    dsimp only
    split
    · exact ⟨h, fun _ => rfl⟩
    split
    · exact ⟨h, fun _ => rfl⟩
    · obtain ⟨hok, hlost⟩ := removeInvite_spec h inviteId eventId
      exact ⟨hok, fun _ => hlost⟩
  | removeInvite inviteId eventId =>
    obtain ⟨hok, hlost⟩ := removeInvite_spec h inviteId eventId
    exact ⟨hok, fun _ => hlost⟩
  | removeAllPlayerEventsAndInvites guid =>
    obtain ⟨hok, hlost⟩ := removeAllPlayerEventsAndInvites_spec h guid
    exact ⟨hok, fun _ => hlost⟩
  | deleteOldEvents gameTime =>
    obtain ⟨hok, hlost⟩ := deleteOldEvents_spec h gameTime
    exact ⟨hok, fun _ => hlost⟩

/-! ## Loading -/

/-- The rows of the database: the ids are primary keys, and no two events are allocated at one
address. -/
structure Rows (events : List (Addr × CalendarEvent)) (invites : List CalendarInvite) : Prop where
  addresses : (events.map Prod.fst).Nodup
  eventIds : (events.map (·.2.eventId)).Nodup
  eventRange : ∀ row ∈ events, 0 < row.2.eventId ∧ row.2.eventId < ID_SIZE
  inviteIds : (invites.map (·.inviteId)).Nodup
  inviteRange : ∀ i ∈ invites, 0 < i.inviteId ∧ i.inviteId < ID_SIZE

theorem le_foldl_max (l : List Nat) (n : Nat) : n ≤ l.foldl max n ∧ ∀ id ∈ l, id ≤ l.foldl max n := by
  induction l generalizing n with
  | nil => exact ⟨Nat.le_refl n, fun id hid => by cases hid⟩
  | cons a rest ih =>
    grind

theorem foldl_max_lt {l : List Nat} {n size : Nat} (hn : n < size) (hl : ∀ id ∈ l, id < size) :
    l.foldl max n < size := by
  induction l generalizing n with
  | nil => exact hn
  | cons a rest ih =>
    grind

theorem getElem?_foldl_insert (load : CalendarEvent → CalendarEvent)
    (rows : List (Addr × CalendarEvent)) (store : EventStore) {a : Addr} {e : CalendarEvent}
    (h : (rows.foldl (fun store row => store.insert row.1 (load row.2)) store)[a]? = some e) :
    store[a]? = some e ∨ ∃ row ∈ rows, row.1 = a ∧ load row.2 = e := by
  induction rows generalizing store with
  | nil => exact .inl h
  | cons row rest ih =>
    rw [List.foldl_cons] at h
    cases ih _ h with
    | inl hstore =>
      grind
    | inr hrest =>
      obtain ⟨row', hmem, hrow⟩ := hrest
      exact .inr ⟨row', List.mem_cons_of_mem _ hmem, hrow⟩

theorem getD_foldl_push (rows : List CalendarInvite) (lists : InviteStore) (k : Nat) :
    (rows.foldl (fun lists invite =>
      lists.insert invite.eventId (lists.getD invite.eventId [] ++ [invite])) lists).getD k [] =
      lists.getD k [] ++ rows.filter fun i => i.eventId = k := by
  induction rows generalizing lists with
  | nil => simp
  | cons i rest ih =>
    rw [List.foldl_cons, ih, Std.ExtTreeMap.getD_insert]
    by_cases hk : i.eventId = k
    · simp [hk]
    · simp [hk]

theorem getEvent_isSome {a : Addr} {e : CalendarEvent} (h : m.events[a]? = some e) :
    (m.getEvent e.eventId).isSome = true := by
  unfold getEvent findEvent
  rw [Option.isSome_map, List.find?_isSome]
  exact ⟨(a, e), Std.ExtTreeMap.mem_toList_iff_getElem?_eq_some.mpr h, by simp⟩

theorem getInvite_isSome {k : Nat} {i : CalendarInvite} (h : i ∈ m.getEventInvites k) :
    (m.getInvite i.inviteId).isSome = true := by
  unfold getEventInvites at h
  rw [Std.ExtTreeMap.getD_eq_getD_getElem?] at h
  cases hlist : m.invites[k]? with
  | none =>
    rw [hlist] at h
    cases h
  | some list =>
    rw [hlist] at h
    unfold getInvite allInvites
    rw [List.find?_isSome]
    refine ⟨i, ?_, by simp⟩
    rw [List.mem_flatMap]
    exact ⟨(k, list), Std.ExtTreeMap.mem_toList_iff_getElem?_eq_some.mpr hlist, h⟩

/-- **A loaded calendar is in order.** -/
theorem loadFromDB_inOrder (getCharacterGuildIdByGuid : ObjectGuid → Nat)
    {events : List (Addr × CalendarEvent)} {invites : List CalendarInvite}
    (h : Rows events invites) :
    InOrder (loadFromDB getCharacterGuildIdByGuid events invites) ∧
      (loadFromDB getCharacterGuildIdByGuid events invites).lost = [] := by
  refine ⟨?_, rfl⟩
  unfold loadFromDB
  extract_lets load store lists maxEventId maxInviteId m
  have hstore : ∀ (a : Addr) (e : CalendarEvent), store[a]? = some e →
      ∃ row ∈ events, row.1 = a ∧ row.2.eventId = e.eventId := by
    intro a e he
    cases getElem?_foldl_insert load events ∅ he with
    | inl hnone => simp at hnone
    | inr hrow =>
      obtain ⟨row, hmem, ha, he⟩ := hrow
      exact ⟨row, hmem, ha, by rw [← he]⟩
  have hlists : ∀ k, lists.getD k [] = invites.filter fun i => i.eventId = k := by
    intro k
    have hpush := getD_foldl_push invites ∅ k
    simpa using hpush
  have hmem : ∀ k, ∀ i ∈ lists.getD k [], i ∈ invites ∧ i.eventId = k := by
    intro k i hi
    rw [hlists, List.mem_filter, decide_eq_true_eq] at hi
    exact hi
  obtain ⟨-, hmaxEvent⟩ := le_foldl_max (events.map (·.2.eventId)) 0
  obtain ⟨-, hmaxInvite⟩ := le_foldl_max (invites.map (·.inviteId)) 0
  constructor
  · constructor
    · apply IdPool.sound_below
      · apply foldl_max_lt (Nat.two_pow_pos 64)
        intro id hid
        obtain ⟨row, hrow, rfl⟩ := List.mem_map.mp hid
        exact (h.eventRange row hrow).2
      · intro id hused
        obtain ⟨a, e, he, rfl⟩ := hused
        obtain ⟨row, hrow, -, hid⟩ := hstore a e he
        rw [← hid]
        exact ⟨(h.eventRange row hrow).1, hmaxEvent _ (List.mem_map_of_mem hrow)⟩
      · intro id hused
        obtain ⟨a, e, he, rfl⟩ := hused
        exact @getEvent_isSome m a e he
    · intro a b e f ha hb heq
      obtain ⟨row, hrow, hra, hre⟩ := hstore a e ha
      obtain ⟨row', hrow', hrb, hrf⟩ := hstore b f hb
      have hsame := List.inj_on_of_nodup_map h.eventIds hrow hrow' (hre.trans (heq.trans hrf.symm))
      rw [← hra, ← hrb, hsame]
  · constructor
    · apply IdPool.sound_below
      · apply foldl_max_lt (Nat.two_pow_pos 64)
        intro id hid
        obtain ⟨i, hi, rfl⟩ := List.mem_map.mp hid
        exact (h.inviteRange i hi).2
      · intro id hused
        obtain ⟨i, hlive, rfl⟩ := hused
        cases hlive with
        | inl hstored =>
          obtain ⟨k, hk⟩ := hstored
          have hi := (hmem k i hk).1
          exact ⟨(h.inviteRange i hi).1, hmaxInvite _ (List.mem_map_of_mem hi)⟩
        | inr hlost => cases hlost
      · intro id hused
        obtain ⟨i, hlive, rfl⟩ := hused
        cases hlive with
        | inl hstored =>
          obtain ⟨k, hk⟩ := hstored
          exact @getInvite_isSome m k i hk
        | inr hlost => cases hlost
    · intro k
      show ((lists.getD k []).map _).Nodup
      rw [hlists]
      exact h.inviteIds.sublist (List.filter_sublist.map _)
    · intro k l i hi j hj heq
      have hsame := List.inj_on_of_nodup_map h.inviteIds (hmem k i hi).1 (hmem l j hj).1 heq
      rw [← (hmem k i hi).2, hsame, (hmem l j hj).2]
    · intro i _ j hj
      cases hj
    · exact fun k i hi => (hmem k i hi).2

/-! ## Runs -/

/-- One call. -/
def Step (m : CalendarMgr) (call : Call) (m' : CalendarMgr) : Prop := m' = (m.handle call).1

/-- **Ids stay unique, and only announcements lose invites**: in every run from a loaded
calendar the ids are consistent, and while no invite is created for a guild announcement every
event and every invite that was created is stored or deleted. -/
theorem calendar_consistent (getCharacterGuildIdByGuid : ObjectGuid → Nat)
    (events : List (Addr × CalendarEvent)) (invites : List CalendarInvite)
    (hrows : Rows events invites) (m : CalendarMgr) :
    (Reaches Step (fun m call => call.Allowed m)
      (loadFromDB getCharacterGuildIdByGuid events invites) m → Consistent m) ∧
    (Reaches Step (fun m call => call.Allowed m ∧ call.Stores m)
      (loadFromDB getCharacterGuildIdByGuid events invites) m → m.lost = []) := by
  obtain ⟨hloaded, hnone⟩ := loadFromDB_inOrder getCharacterGuildIdByGuid hrows
  constructor
  · intro hrun
    apply InOrder.consistent
    apply hrun.invariant hloaded
    intro s t call hs hallowed hstep
    rw [hstep]
    exact (handle_spec hs call hallowed).1
  · intro hrun
    have hinv : InOrder m ∧ m.lost = [] := by
      apply hrun.invariant (I := fun m => InOrder m ∧ m.lost = []) ⟨hloaded, hnone⟩
      intro s t call hs hok hstep
      obtain ⟨horder, hlost⟩ := handle_spec hs.1 call hok.1
      rw [hstep]
      exact ⟨horder, (hlost hok.2).trans hs.2⟩
    exact hinv.2

/-- An event of a guild, with one invite. -/
def raidNight : CalendarEvent where
  eventId := 2
  ownerGUID := 1
  guildId := 7
  type := 0
  textureId := -1
  date := 1000
  flags := CALENDAR_FLAG_GUILD_EVENT
  title := "Raid"
  description := ""
  lockDate := 0

def raidInvite : CalendarInvite where
  inviteId := 3
  eventId := 2
  inviteeGUID := 5
  senderGUID := 1
  responseTime := 0
  status := CALENDAR_STATUS_INVITED
  rank := CALENDAR_RANK_PLAYER
  note := ""

def raidCalendar : CalendarMgr := loadFromDB (fun _ => 7) [(100, raidNight)] [raidInvite]

/-- A member signs up for the raid. -/
def memberSignup : Call := .eventSignup { guid := 6, guildId := 7, onCooldown := false } 2 false 900

theorem raidRows : Rows [(100, raidNight)] [raidInvite] := by
  constructor <;> simp [raidNight, raidInvite, ID_SIZE]

theorem calendar_consistent_signup :
    Consistent (raidCalendar.handle memberSignup).1 ∧
      (raidCalendar.handle memberSignup).1.lost = [] := by
  have hok : memberSignup.Allowed raidCalendar ∧ memberSignup.Stores raidCalendar := by
    constructor
    · show 3 + 1 < ID_SIZE
      decide
    · intro event htarget
      have hevent : raidCalendar.signupTarget { guid := 6, guildId := 7, onCooldown := false } 2 =
          .ok raidNight := by decide +kernel
      rw [hevent] at htarget
      cases htarget
      decide
  obtain ⟨hconsistent, hlost⟩ := calendar_consistent (fun _ => 7) [(100, raidNight)] [raidInvite]
    raidRows (raidCalendar.handle memberSignup).1
  exact ⟨hconsistent ((Reaches.refl raidCalendar).next hok.1 rfl),
    hlost ((Reaches.refl raidCalendar).next hok rfl)⟩

/-- The client changed the raid to an announcement. -/
def announcedRaid : CalendarUpdateEvent where
  eventId := 2
  eventType := 0
  textureId := -1
  time := { unixTime := 1000, isPast := false }
  lockDate := 0
  flags := CALENDAR_FLAG_WITHOUT_INVITES
  title := "Raid"
  description := ""

/-- Two handlers that return, and an invite that is neither stored nor deleted. -/
theorem calendar_loses_invite :
    ¬∀ m, Reaches Step (fun m call => call.Allowed m) raidCalendar m →
      Consistent m ∧ m.lost = [] := by
  intro h
  have hupdated : Reaches Step (fun m call => call.Allowed m) raidCalendar
      (raidCalendar.handle (.updateEvent announcedRaid)).1 :=
    (Reaches.refl raidCalendar).next (a := .updateEvent announcedRaid) trivial rfl
  have hroom : memberSignup.Allowed (raidCalendar.handle (.updateEvent announcedRaid)).1 := by
    show 3 + 1 < ID_SIZE
    decide
  have hlost := (h _ (hupdated.next hroom rfl)).2
  exact absurd hlost (by decide +kernel)

end EGServer.Calendar
