import EGServer.Calendar.CalendarMgr
import Mathlib.Data.List.Perm.Subperm

/-!
# The ids in use

The events with the pool of their ids, and the invites with theirs, are kept in order
separately: an id that is stored is never in its pool, and no id is stored twice. Here each of
the small operations that the handlers are made of is shown to keep this.
-/

namespace EGServer.Calendar

abbrev EventStore := Std.ExtTreeMap Addr CalendarEvent compare
abbrev InviteStore := Std.ExtTreeMap Nat (List CalendarInvite) compare

/-! ## Events -/

/-- An id of a stored event. -/
def EventStore.Uses (events : EventStore) (id : Nat) : Prop :=
  ∃ (address : Addr) (event : CalendarEvent), events[address]? = some event ∧ event.eventId = id

structure EventsOK (events : EventStore) (pool : IdPool) : Prop where
  pool : pool.Sound ID_SIZE events.Uses
  distinct : ∀ (a b : Addr) (e f : CalendarEvent), events[a]? = some e → events[b]? = some f →
    e.eventId = f.eventId → a = b

section Events

variable {events : EventStore} {pool : IdPool} {address : Addr} {event event' : CalendarEvent}

theorem EventsOK.insert (h : EventsOK events pool) (hroom : pool.Room ID_SIZE 1)
    (hid : event.eventId = (pool.take ID_SIZE).1) :
    EventsOK (events.insert address event) (pool.take ID_SIZE).2 := by
  have hunused := h.pool.take_unused hroom
  constructor
  · apply (h.pool.take hroom).mono
    intro id hused
    obtain ⟨a, e, hget, he⟩ := hused
    rw [Std.ExtTreeMap.getElem?_insert] at hget
    split at hget
    · cases hget
      exact .inr (he.symm.trans hid)
    · exact .inl ⟨a, e, hget, he⟩
  · intro a b e f ha hb heq
    rw [Std.ExtTreeMap.getElem?_insert] at ha hb
    split at ha
    · next hka =>
      cases ha
      split at hb
      · grind
      · exact absurd ⟨b, f, hb, heq.symm.trans hid⟩ hunused
    · split at hb
      · cases hb
        exact absurd ⟨a, e, ha, heq.trans hid⟩ hunused
      · exact h.distinct a b e f ha hb heq

theorem EventsOK.update (h : EventsOK events pool) (hget : events[address]? = some event)
    (hid : event'.eventId = event.eventId) : EventsOK (events.insert address event') pool := by
  have hold : ∀ (a : Addr) (e : CalendarEvent), (events.insert address event')[a]? = some e →
      ∃ f : CalendarEvent, events[a]? = some f ∧ f.eventId = e.eventId := by
    grind
  constructor
  · apply h.pool.mono
    intro id hused
    obtain ⟨a, e, he, heq⟩ := hused
    obtain ⟨f, hf, hfe⟩ := hold a e he
    exact ⟨a, f, hf, hfe.trans heq⟩
  · intro a b e f ha hb heq
    obtain ⟨e', he', hee⟩ := hold a e ha
    obtain ⟨f', hf', hff⟩ := hold b f hb
    exact h.distinct a b e' f' he' hf' (hee.trans (heq.trans hff.symm))

theorem EventsOK.erase (h : EventsOK events pool) (hget : events[address]? = some event) :
    EventsOK (events.erase address) (pool.release ID_SIZE event.eventId) := by
  have hold : ∀ (a : Addr) (e : CalendarEvent), (events.erase address)[a]? = some e →
      a ≠ address ∧ events[a]? = some e := by
    grind
  constructor
  · apply (h.pool.release ⟨address, event, hget, rfl⟩).mono
    intro id hused
    obtain ⟨a, e, he, heq⟩ := hused
    obtain ⟨hne, hmem⟩ := hold a e he
    refine ⟨⟨a, e, hmem, heq⟩, fun hid => hne ?_⟩
    exact h.distinct a address e event hmem hget (heq.trans hid)
  · intro a b e f ha hb heq
    exact h.distinct a b e f (hold a e ha).2 (hold b f hb).2 heq

end Events

/-! ## Invites -/

/-- The invite is stored under some event. -/
def InviteStore.Stores (invites : InviteStore) (invite : CalendarInvite) : Prop :=
  ∃ eventId, invite ∈ invites.getD eventId []

/-- The invites that exist: those that are stored, and those that were lost. -/
def Live (invites : InviteStore) (lost : List CalendarInvite) (invite : CalendarInvite) : Prop :=
  invites.Stores invite ∨ invite ∈ lost

/-- An id of an invite that exists. -/
def UsesInviteId (invites : InviteStore) (lost : List CalendarInvite) (id : Nat) : Prop :=
  ∃ invite, Live invites lost invite ∧ invite.inviteId = id

structure InvitesOK (invites : InviteStore) (pool : IdPool) (lost : List CalendarInvite) : Prop where
  pool : pool.Sound ID_SIZE (UsesInviteId invites lost)
  nodup : ∀ k, ((invites.getD k []).map (·.inviteId)).Nodup
  apart : ∀ k l, ∀ i ∈ invites.getD k [], ∀ j ∈ invites.getD l [], i.inviteId = j.inviteId → k = l
  lostApart : ∀ i, invites.Stores i → ∀ j ∈ lost, i.inviteId ≠ j.inviteId
  underEvent : ∀ k, ∀ i ∈ invites.getD k [], i.eventId = k

section Invites

variable {invites invites' : InviteStore} {pool pool' : IdPool} {lost : List CalendarInvite}
  {invite : CalendarInvite}

theorem InvitesOK.store (h : InvitesOK invites pool lost) (hroom : pool.Room ID_SIZE 1)
    (hid : invite.inviteId = (pool.take ID_SIZE).1) :
    InvitesOK (invites.insert invite.eventId (invites.getD invite.eventId [] ++ [invite]))
      (pool.take ID_SIZE).2 lost := by
  have hunused := h.pool.take_unused hroom
  have hget : ∀ k i, i ∈ (invites.insert invite.eventId
      (invites.getD invite.eventId [] ++ [invite])).getD k [] ↔
      i ∈ invites.getD k [] ∨ (i = invite ∧ k = invite.eventId) := by
    grind
  have hnew : ∀ i, Live invites lost i → i.inviteId ≠ invite.inviteId :=
    fun i hi heq => hunused ⟨i, hi, heq.trans hid⟩
  constructor
  · apply (h.pool.take hroom).mono
    intro id hused
    obtain ⟨i, hlive, hi⟩ := hused
    cases hlive with
    | inl hstored =>
      obtain ⟨k, hk⟩ := hstored
      cases (hget k i).mp hk with
      | inl hmem => exact .inl ⟨i, .inl ⟨k, hmem⟩, hi⟩
      | inr hself => exact .inr (by rw [← hi, hself.1, hid])
    | inr hlost => exact .inl ⟨i, .inr hlost, hi⟩
  · intro k
    rw [Std.ExtTreeMap.getD_insert]
    split
    · rw [List.map_append, List.nodup_append]
      refine ⟨h.nodup _, List.nodup_singleton _, ?_⟩
      intro id hmem id' hmem' heq
      obtain ⟨i, hi, rfl⟩ := List.mem_map.mp hmem
      rw [List.map_singleton, List.mem_singleton] at hmem'
      exact hnew i (.inl ⟨_, hi⟩) (heq.trans hmem')
    · exact h.nodup k
  · intro k l i hi j hj heq
    cases (hget k i).mp hi with
    | inl hi =>
      cases (hget l j).mp hj with
      | inl hj => exact h.apart k l i hi j hj heq
      | inr hj => exact absurd (heq.trans (by rw [hj.1])) (hnew i (.inl ⟨k, hi⟩))
    | inr hi =>
      cases (hget l j).mp hj with
      | inl hj => exact absurd (heq.symm.trans (by rw [hi.1])) (hnew j (.inl ⟨l, hj⟩))
      | inr hj => exact hi.2.trans hj.2.symm
  · intro i hi j hj
    obtain ⟨k, hk⟩ := hi
    cases (hget k i).mp hk with
    | inl hmem => exact h.lostApart i ⟨k, hmem⟩ j hj
    | inr hself =>
      rw [hself.1]
      exact (hnew j (.inr hj)).symm
  · intro k i hi
    cases (hget k i).mp hi with
    | inl hmem => exact h.underEvent k i hmem
    | inr hself => rw [hself.1, hself.2]

theorem InvitesOK.lose (h : InvitesOK invites pool lost) (hroom : pool.Room ID_SIZE 1)
    (hid : invite.inviteId = (pool.take ID_SIZE).1) :
    InvitesOK invites (pool.take ID_SIZE).2 (invite :: lost) where
  pool := by
    apply (h.pool.take hroom).mono
    intro id hused
    obtain ⟨i, hlive, hi⟩ := hused
    cases hlive with
    | inl hstored => exact .inl ⟨i, .inl hstored, hi⟩
    | inr hlost =>
      cases List.mem_cons.mp hlost with
      | inl heq => exact .inr (by rw [← hi, heq, hid])
      | inr hlost => exact .inl ⟨i, .inr hlost, hi⟩
  nodup := h.nodup
  apart := h.apart
  lostApart i hi j hj := by
    cases List.mem_cons.mp hj with
    | inl heq =>
      rw [heq, hid]
      exact fun h' => h.pool.take_unused hroom ⟨i, .inl hi, h'⟩
    | inr hj => exact h.lostApart i hi j hj
  underEvent := h.underEvent

theorem InvitesOK.take (h : InvitesOK invites pool lost) (hroom : pool.Room ID_SIZE 1) :
    InvitesOK invites (pool.take ID_SIZE).2 lost :=
  ⟨(h.pool.take hroom).mono fun _ hused => .inl hused, h.nodup, h.apart, h.lostApart, h.underEvent⟩

/-! ## Deleting invites -/

/-- The pool after the destructor of an invite. -/
def freed (pool : IdPool) (invite : CalendarInvite) : IdPool :=
  if invite.inviteId ≠ 0 ∧ invite.eventId ≠ 0 then pool.release ID_SIZE invite.inviteId else pool

theorem deleteInvite_eq (m : CalendarMgr) (invite : CalendarInvite) :
    m.deleteInvite invite = { m with inviteIds := freed m.inviteIds invite } := by
  unfold CalendarMgr.deleteInvite freed
  split <;> rfl

theorem foldl_deleteInvite (m : CalendarMgr) (l : List CalendarInvite) :
    l.foldl CalendarMgr.deleteInvite m = { m with inviteIds := l.foldl freed m.inviteIds } := by
  induction l generalizing m with
  | nil => rfl
  | cons i rest ih => rw [List.foldl_cons, ih, deleteInvite_eq, List.foldl_cons]

theorem sound_freed {used : Nat → Prop} (h : pool.Sound ID_SIZE used)
    (hused : used invite.inviteId) :
    (freed pool invite).Sound ID_SIZE fun id => used id ∧ id ≠ invite.inviteId := by
  unfold freed
  split
  · exact h.release hused
  · exact h.mono fun _ hid => hid.1

theorem sound_foldl_freed {used : Nat → Prop} (l : List CalendarInvite)
    (h : pool.Sound ID_SIZE used) (hused : ∀ i ∈ l, used i.inviteId)
    (hnodup : (l.map (·.inviteId)).Nodup) :
    (l.foldl freed pool).Sound ID_SIZE fun id => used id ∧ id ∉ l.map (·.inviteId) := by
  induction l generalizing pool used with
  | nil => exact h.mono fun _ hid => hid.1
  | cons i rest ih =>
    rw [List.map_cons, List.nodup_cons] at hnodup
    have hstep := sound_freed h (hused i (List.mem_cons_self ..))
    apply (ih hstep ?_ hnodup.2).mono
    · grind
    · grind

theorem InvitesOK.shrink (h : InvitesOK invites pool lost)
    (hsub : ∀ k, (invites'.getD k []).Sublist (invites.getD k []))
    (hpool : pool'.Sound ID_SIZE (UsesInviteId invites' lost)) : InvitesOK invites' pool' lost where
  pool := hpool
  nodup k := (h.nodup k).sublist ((hsub k).map _)
  apart k l i hi j hj heq := h.apart k l i ((hsub k).subset hi) j ((hsub l).subset hj) heq
  lostApart i hi j hj := by
    obtain ⟨k, hk⟩ := hi
    exact h.lostApart i ⟨k, (hsub k).subset hk⟩ j hj
  underEvent k i hi := h.underEvent k i ((hsub k).subset hi)

theorem getD_erase_sublist (k eventId : Nat) :
    ((invites.erase eventId).getD k []).Sublist (invites.getD k []) := by
  rw [Std.ExtTreeMap.getD_erase]
  split
  · exact List.nil_sublist _
  · exact List.Sublist.refl _

theorem InvitesOK.eraseEvent (h : InvitesOK invites pool lost) (eventId : Nat) :
    InvitesOK (invites.erase eventId) ((invites.getD eventId []).foldl freed pool) lost := by
  apply h.shrink (fun k => getD_erase_sublist k eventId)
  have hused : ∀ i ∈ invites.getD eventId [], UsesInviteId invites lost i.inviteId :=
    fun i hi => ⟨i, .inl ⟨eventId, hi⟩, rfl⟩
  apply (sound_foldl_freed _ h.pool hused (h.nodup eventId)).mono
  intro id hid
  obtain ⟨i, hlive, rfl⟩ := hid
  cases hlive with
  | inl hstored =>
    obtain ⟨k, hk⟩ := hstored
    have hold := (getD_erase_sublist k eventId).subset hk
    refine ⟨⟨i, .inl ⟨k, hold⟩, rfl⟩, fun hmem => ?_⟩
    -- an id of the event's list stands under no other event
    obtain ⟨j, hj, heq⟩ := List.mem_map.mp hmem
    have hsame := h.apart eventId k j hj i hold heq
    rw [← hsame, Std.ExtTreeMap.getD_erase_self] at hk
    cases hk
  | inr hlost =>
    refine ⟨⟨i, .inr hlost, rfl⟩, fun hmem => ?_⟩
    obtain ⟨j, hj, heq⟩ := List.mem_map.mp hmem
    exact h.lostApart j ⟨eventId, hj⟩ i hlost heq

theorem ne_of_mem_eraseP {l : List CalendarInvite} {inviteId : Nat} {i : CalendarInvite}
    (hnodup : (l.map (·.inviteId)).Nodup)
    (hi : i ∈ l.eraseP fun j => j.inviteId = inviteId) : i.inviteId ≠ inviteId := by
  induction l with
  | nil => cases hi
  | cons j rest ih =>
    grind

theorem InvitesOK.eraseInvite (h : InvitesOK invites pool lost) {eventId inviteId : Nat}
    (hfind : (invites.getD eventId []).find? (fun i => i.inviteId = inviteId) = some invite) :
    InvitesOK
      (invites.insert eventId ((invites.getD eventId []).eraseP fun i => i.inviteId = inviteId))
      (freed pool invite) lost := by
  have hmem := List.mem_of_find?_eq_some hfind
  have hid : invite.inviteId = inviteId := by simpa using List.find?_some hfind
  have hsub : ∀ k, ((invites.insert eventId
      ((invites.getD eventId []).eraseP fun i => i.inviteId = inviteId)).getD k []).Sublist
      (invites.getD k []) := by
    grind
  apply h.shrink hsub
  apply (sound_freed h.pool ⟨invite, .inl ⟨eventId, hmem⟩, rfl⟩).mono
  intro id hused
  obtain ⟨i, hlive, rfl⟩ := hused
  cases hlive with
  | inl hstored =>
    obtain ⟨k, hk⟩ := hstored
    have hold := (hsub k).subset hk
    refine ⟨⟨i, .inl ⟨k, hold⟩, rfl⟩, fun heq => ?_⟩
    have hsame := h.apart k eventId i hold invite hmem heq
    rw [hsame, Std.ExtTreeMap.getD_insert_self] at hk
    -- the list has the id once, and that invite is the one erased
    exact ne_of_mem_eraseP (h.nodup eventId) hk (heq.trans hid)
  | inr hlost =>
    exact ⟨⟨i, .inr hlost, rfl⟩, fun heq => h.lostApart invite ⟨eventId, hmem⟩ i hlost heq.symm⟩

end Invites

end EGServer.Calendar
