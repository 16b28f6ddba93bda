import EGServer.Calendar.EventWalk

/-!
# What leaving takes from the calendar

What the removal of events, and of invites one by one, leaves of a calendar (`Removed`), and the
two functions that clear the calendar of a player who leaves a guild or is deleted. The first is
right where the player owns no event of a guild, the second where the player has no invite to an
event that does not exist, and nowhere else (`leaving_iff`).
-/

namespace EGServer.Calendar

open CalendarMgr

variable {m m' m₁ : CalendarMgr} {guid : ObjectGuid} {guildId : Nat} {invite : CalendarInvite}
  {event event' : CalendarEvent → Prop} {gone : Nat → CalendarInvite → Prop}

/-- There is an event with the id that meets a condition. -/
def HasEvent (m : CalendarMgr) (eventId : Nat) (event : CalendarEvent → Prop) : Prop :=
  ∃ (a : Addr) (e : CalendarEvent), m.events[a]? = some e ∧ e.eventId = eventId ∧ event e

/-- Exactly the events of a kind are gone, with the invites to them, and of the other invites
exactly those of a kind; the rest is unchanged. -/
structure Removed (m m' : CalendarMgr) (event : CalendarEvent → Prop)
    (gone : Nat → CalendarInvite → Prop) : Prop where
  events : ∀ (a : Addr) e, m'.events[a]? = some e ↔ m.events[a]? = some e ∧ ¬event e
  ordered : ∀ k, (m'.getEventInvites k).Sublist (m.getEventInvites k)
  invites : ∀ k i, i ∈ m'.getEventInvites k ↔
    i ∈ m.getEventInvites k ∧ ¬HasEvent m k event ∧ ¬gone k i

theorem HasEvent.getEvent (hnamed : Named m) {k : Nat} {a : Addr} {e : CalendarEvent}
    (hget : m.events[a]? = some e) (hid : e.eventId = k) : m.getEvent k = some e := by
  unfold CalendarMgr.getEvent
  cases hfind : m.findEvent k with
  | none =>
    have hno := List.find?_eq_none.mp hfind (a, e) (mem_toList.mpr hget)
    exact absurd (decide_eq_true hid) hno
  | some row =>
    obtain ⟨hrow, hrowId⟩ := findEvent_spec hfind
    have heq : row.1 = a := hnamed.events _ _ _ _ hrow hget (hrowId.trans hid.symm)
    rw [heq, hget] at hrow
    exact hrow.symm

theorem hasEvent_of_getEvent {k : Nat} {e : CalendarEvent} (h : m.getEvent k = some e) :
    ∃ a : Addr, m.events[a]? = some e ∧ e.eventId = k := by
  unfold CalendarMgr.getEvent at h
  obtain ⟨row, hfind, rfl⟩ := Option.map_eq_some_iff.mp h
  exact ⟨row.1, findEvent_spec hfind⟩

/-! ## Removing events -/

theorem getEventInvites_removeEventAt {address : Addr} {e : CalendarEvent}
    (hget : m.events[address]? = some e) (k : Nat) :
    (m.removeEventAt address).getEventInvites k =
      if e.eventId = k then [] else m.getEventInvites k := by
  unfold removeEventAt
  rw [hget]
  dsimp only
  rw [foldl_deleteInvite]
  show (m.invites.erase e.eventId).getD k [] = _
  rw [Std.ExtTreeMap.getD_erase]
  simp only [Std.LawfulEqCmp.compare_eq_iff_eq]
  rfl

theorem foldl_removeEventAt (l : List (Addr × CalendarEvent))
    (hstored : ∀ r ∈ l, m.events[r.1]? = some r.2) (hnodup : (l.map Prod.fst).Nodup) :
    (∀ a : Addr, (l.foldl (fun m r => m.removeEventAt r.1) m).events[a]? =
        if a ∈ l.map Prod.fst then none else m.events[a]?) ∧
      ∀ k, (l.foldl (fun m r => m.removeEventAt r.1) m).getEventInvites k =
        if k ∈ l.map (·.2.eventId) then [] else m.getEventInvites k := by
  induction l generalizing m with
  | nil => exact ⟨fun a => (if_neg List.not_mem_nil).symm, fun k => (if_neg List.not_mem_nil).symm⟩
  | cons row l ih =>
    rw [List.map_cons, List.nodup_cons] at hnodup
    have hrow := hstored row List.mem_cons_self
    have hrest : ∀ r ∈ l, (m.removeEventAt row.1).events[r.1]? = some r.2 := by
      intro r hr
      have hne : row.1 ≠ r.1 := by
        intro heq
        exact hnodup.1 (List.mem_map.mpr ⟨r, hr, heq.symm⟩)
      rw [getElem?_removeEventAt, if_neg hne]
      exact hstored r (List.mem_cons_of_mem row hr)
    obtain ⟨hevents, hinvites⟩ := ih hrest hnodup.2
    rw [List.foldl_cons]
    constructor
    · intro a
      rw [hevents, getElem?_removeEventAt]
      grind
    · intro k
      rw [hinvites, getEventInvites_removeEventAt hrow]
      grind

/-- The first loop of `RemoveAllPlayerEventsAndInvites`. -/
theorem removed_ownEvents (m : CalendarMgr) (guid : ObjectGuid) :
    Removed m ((m.events.toList.filter fun r => r.2.ownerGUID = guid).foldl
      (fun m r => m.removeEventAt r.1) m) (fun e => e.ownerGUID = guid) fun _ _ => False := by
  have hmem (r : Addr × CalendarEvent) :
      r ∈ m.events.toList.filter (fun r => r.2.ownerGUID = guid) ↔
        m.events[r.1]? = some r.2 ∧ r.2.ownerGUID = guid := by
    rw [List.mem_filter, decide_eq_true_eq]
    exact and_congr_left' mem_toList
  have hnodup : (m.events.toList.map Prod.fst).Nodup := by
    rw [Std.ExtTreeMap.map_fst_toList_eq_keys]
    exact Std.ExtTreeMap.nodup_keys
  obtain ⟨hevents, hinvites⟩ := foldl_removeEventAt
    (m.events.toList.filter fun r => r.2.ownerGUID = guid) (fun r hr => ((hmem r).mp hr).1)
    (hnodup.sublist (List.filter_sublist.map Prod.fst))
  constructor
  case events =>
    intro a e
    rw [hevents]
    split
    · grind
    · next hin =>
      refine ⟨fun hget => ⟨hget, fun howner => hin ?_⟩, fun hget => hget.1⟩
      exact List.mem_map.mpr ⟨(a, e), (hmem (a, e)).mpr ⟨hget, howner⟩, rfl⟩
  case ordered =>
    intro k
    rw [hinvites]
    split
    · exact List.nil_sublist _
    · exact List.Sublist.refl _
  case invites =>
    intro k i
    rw [hinvites]
    have hiff : k ∈ (m.events.toList.filter fun r => r.2.ownerGUID = guid).map (·.2.eventId) ↔
        HasEvent m k fun e => e.ownerGUID = guid := by
      constructor
      · intro hin
        obtain ⟨r, hr, rfl⟩ := List.mem_map.mp hin
        obtain ⟨hget, howner⟩ := (hmem r).mp hr
        exact ⟨r.1, r.2, hget, rfl, howner⟩
      · rintro ⟨a, e, hget, rfl, howner⟩
        exact List.mem_map.mpr ⟨(a, e), (hmem (a, e)).mpr ⟨hget, howner⟩, rfl⟩
    grind

/-! ## Removing invites -/

theorem mem_allInvites {i : CalendarInvite} : i ∈ m.allInvites ↔ ∃ k, i ∈ m.getEventInvites k := by
  unfold allInvites CalendarMgr.getEventInvites
  rw [List.mem_flatMap]
  constructor
  · rintro ⟨row, hrow, hi⟩
    refine ⟨row.1, ?_⟩
    grind [Std.ExtTreeMap.getD_eq_getD_getElem?]
  · rintro ⟨k, hi⟩
    rw [Std.ExtTreeMap.getD_eq_getD_getElem?] at hi
    cases hget : m.invites[k]? with
    | none =>
      rw [hget] at hi
      cases hi
    | some list =>
      rw [hget] at hi
      exact ⟨(k, list), Std.ExtTreeMap.mem_toList_iff_getElem?_eq_some.mpr hget, hi⟩

theorem mem_getPlayerInvites {i : CalendarInvite} :
    i ∈ m.getPlayerInvites guid ↔ (∃ k, i ∈ m.getEventInvites k) ∧ i.inviteeGUID = guid := by
  unfold getPlayerInvites
  rw [List.mem_filter, mem_allInvites, decide_eq_true_eq]

theorem Named.nodup_getPlayerInvites (h : Named m) (guid : ObjectGuid) :
    (m.getPlayerInvites guid).Nodup := by
  have hget : ∀ row ∈ m.invites.toList, m.getEventInvites row.1 = row.2 := by
    grind [Std.ExtTreeMap.getD_eq_getD_getElem?, CalendarMgr.getEventInvites]
  unfold getPlayerInvites allInvites
  apply List.Nodup.filter
  rw [List.nodup_flatMap]
  constructor
  · intro row hrow
    rw [← hget row hrow]
    exact (h.invites row.1).of_map
  · apply List.Pairwise.imp_of_mem _ Std.ExtTreeMap.distinct_keys_toList
    intro row row' hrow hrow' hne i hi hi'
    rw [← hget row hrow] at hi
    rw [← hget row' hrow'] at hi'
    have hkey := (h.underEvent row.1 i hi).symm.trans (h.underEvent row'.1 i hi')
    exact hne (hkey ▸ Std.ReflCmp.compare_self)

theorem eraseP_eq_filter (l : List CalendarInvite) (hnodup : (l.map (·.inviteId)).Nodup)
    (hmem : invite ∈ l) :
    l.eraseP (fun i => i.inviteId = invite.inviteId) = l.filter fun i => i ≠ invite := by
  induction l with
  | nil => cases hmem
  | cons i l ih =>
    rw [List.map_cons, List.nodup_cons] at hnodup
    by_cases hid : i.inviteId = invite.inviteId
    · have heq : i = invite := by
        grind
      have hrest : ∀ j ∈ l, decide (j ≠ invite) = true := by
        grind
      have herase := List.eraseP_cons_of_pos (p := fun i => decide (i.inviteId = invite.inviteId))
        (l := l) (decide_eq_true hid)
      rw [herase, List.filter_cons_of_neg (by simpa using heq), List.filter_eq_self.mpr hrest]
    · grind

theorem events_removeInvite (m : CalendarMgr) (inviteId eventId : Nat) :
    (m.removeInvite inviteId eventId).events = m.events := by
  unfold removeInvite
  split
  · rfl
  split
  · rfl
  · dsimp only
    rw [deleteInvite_eq]

/-- `RemoveInvite` takes a stored invite away if its event exists. -/
theorem getEventInvites_removeInvite (hnamed : Named m)
    (hmem : invite ∈ m.getEventInvites invite.eventId) (k : Nat) :
    (m.removeInvite invite.inviteId invite.eventId).getEventInvites k =
      (m.getEventInvites k).filter fun i =>
        !(decide (i = invite) && (m.getEvent i.eventId).isSome) := by
  have hkeep (hno : (m.getEvent invite.eventId).isSome = false) (k : Nat) :
      (m.getEventInvites k).filter (fun i =>
        !(decide (i = invite) && (m.getEvent i.eventId).isSome)) = m.getEventInvites k := by
    apply List.filter_eq_self.mpr
    grind
  unfold removeInvite
  cases hevent : m.getEvent invite.eventId with
  | none =>
    rw [Option.isNone_none, if_pos rfl]
    exact (hkeep (by rw [hevent]; rfl) k).symm
  | some e =>
    rw [Option.isNone_some, if_neg Bool.false_ne_true]
    cases hfind :
        (m.getEventInvites invite.eventId).find? fun i => i.inviteId = invite.inviteId with
    | none => exact absurd (decide_eq_true rfl) (List.find?_eq_none.mp hfind invite hmem)
    | some found =>
      dsimp only
      rw [deleteInvite_eq]
      show (m.invites.insert invite.eventId _).getD k [] = _
      rw [Std.ExtTreeMap.getD_insert]
      split
      · next hk =>
        rw [← Std.LawfulEqCmp.eq_of_compare hk,
          eraseP_eq_filter _ (hnamed.invites invite.eventId) hmem]
        grind
      · next hk =>
        symm
        apply List.filter_eq_self.mpr
        intro i hi
        have hne : i ≠ invite := by
          rintro rfl
          rw [hnamed.underEvent k i hi] at hk
          exact hk Std.ReflCmp.compare_self
        rw [decide_eq_false hne, Bool.false_and, Bool.not_false]

theorem getEvent_removeInvite (m : CalendarMgr) (inviteId eventId k : Nat) :
    (m.removeInvite inviteId eventId).getEvent k = m.getEvent k := by
  unfold CalendarMgr.getEvent findEvent
  rw [events_removeInvite]

theorem Named.removeInvite (hnamed : Named m) (hmem : invite ∈ m.getEventInvites invite.eventId) :
    Named (m.removeInvite invite.inviteId invite.eventId) where
  events := by
    rw [events_removeInvite]
    exact hnamed.events
  invites k := by
    rw [getEventInvites_removeInvite hnamed hmem]
    exact (hnamed.invites k).sublist (List.filter_sublist.map _)
  underEvent k i hi := by
    rw [getEventInvites_removeInvite hnamed hmem] at hi
    exact hnamed.underEvent k i (List.mem_of_mem_filter hi)

/-- **The loop over the pointers.** Each of them is of an invite that is still there, and exactly
those are removed whose event exists and meets the condition. -/
theorem removeInvites_spec (selected : Option CalendarEvent → Bool) (l : List CalendarInvite)
    (hnamed : Named m) (hnodup : l.Nodup) (hmem : ∀ i ∈ l, i ∈ m.getEventInvites i.eventId) :
    ∃ m', m.removeInvites selected l = some m' ∧
      m' = l.foldl (fun m i =>
        if selected (m.getEvent i.eventId) then m.removeInvite i.inviteId i.eventId else m) m ∧
      m'.events = m.events ∧
      ∀ k, m'.getEventInvites k = (m.getEventInvites k).filter fun i =>
        !(decide (i ∈ l) &&
          (selected (m.getEvent i.eventId) && (m.getEvent i.eventId).isSome)) := by
  induction l generalizing m with
  | nil =>
    refine ⟨m, rfl, rfl, rfl, fun k => (List.filter_eq_self.mpr fun i _ => ?_).symm⟩
    rw [decide_eq_false List.not_mem_nil, Bool.false_and, Bool.not_false]
  | cons invite l ih =>
    rw [List.nodup_cons] at hnodup
    have hinvite := hmem invite List.mem_cons_self
    rw [CalendarMgr.removeInvites, if_pos (mem_allInvites.mpr ⟨_, hinvite⟩), List.foldl_cons]
    by_cases hsel : selected (m.getEvent invite.eventId) = true
    · rw [if_pos hsel]
      have hkept := getEventInvites_removeInvite hnamed hinvite
      have hrest : ∀ i ∈ l, i ∈ (m.removeInvite invite.inviteId invite.eventId).getEventInvites
          i.eventId := by
        grind
      obtain ⟨m', hrun, hfold, hevents, hinvites⟩ :=
        ih (hnamed.removeInvite hinvite) hnodup.2 hrest
      refine ⟨m', hrun, hfold, hevents.trans (events_removeInvite _ _ _), fun k => ?_⟩
      rw [hinvites, hkept, List.filter_filter]
      grind [getEvent_removeInvite]
    · rw [if_neg hsel]
      grind [List.filter_congr]

theorem removed_invites (selected : Option CalendarEvent → Bool) (hnamed : Named m)
    (guid : ObjectGuid) :
    ∃ m', m.removeInvites selected (m.getPlayerInvites guid) = some m' ∧
      m' = (m.getPlayerInvites guid).foldl (fun m i =>
        if selected (m.getEvent i.eventId) then m.removeInvite i.inviteId i.eventId else m) m ∧
      Removed m m' (fun _ => False) fun k i => i.inviteeGUID = guid ∧
        HasEvent m k fun e => selected (some e) = true := by
  have hmem : ∀ i ∈ m.getPlayerInvites guid, i ∈ m.getEventInvites i.eventId := by
    intro i hi
    obtain ⟨⟨k, hk⟩, -⟩ := mem_getPlayerInvites.mp hi
    rw [hnamed.underEvent k i hk]
    exact hk
  obtain ⟨m', hrun, hfold, hevents, hinvites⟩ := removeInvites_spec selected
    (m.getPlayerInvites guid) hnamed (hnamed.nodup_getPlayerInvites guid) hmem
  have hsel (k : Nat) : (selected (m.getEvent k) && (m.getEvent k).isSome) = true ↔
      HasEvent m k fun e => selected (some e) = true := by
    rw [Bool.and_eq_true]
    constructor
    · rintro ⟨hsel, hsome⟩
      obtain ⟨e, he⟩ := Option.isSome_iff_exists.mp hsome
      obtain ⟨a, hget, hid⟩ := hasEvent_of_getEvent he
      rw [he] at hsel
      exact ⟨a, e, hget, hid, hsel⟩
    · rintro ⟨a, e, hget, hid, hsel⟩
      rw [HasEvent.getEvent hnamed hget hid]
      exact ⟨hsel, rfl⟩
  refine ⟨m', hrun, hfold, ?_⟩
  constructor
  case events =>
    intro a e
    rw [hevents, not_false_eq_true, and_true]
  case ordered =>
    intro k
    rw [hinvites]
    exact List.filter_sublist
  case invites =>
    intro k i
    have hno : ¬HasEvent m k fun _ => False := by
      rintro ⟨a, e, -, -, hfalse⟩
      exact hfalse
    rw [hinvites, List.mem_filter]
    apply and_congr_right
    intro hi
    have hplayer : i ∈ m.getPlayerInvites guid ↔ i.inviteeGUID = guid :=
      mem_getPlayerInvites.trans (and_iff_right ⟨k, hi⟩)
    rw [Bool.not_eq_true', ← Bool.not_eq_true, Bool.and_eq_true, hnamed.underEvent k i hi, hsel,
      decide_eq_true_eq, hplayer, and_iff_right hno]

/-! ## Leaving -/

theorem Removed.named (h : Removed m m' event gone) (hnamed : Named m) : Named m' where
  events a b e f ha hb := hnamed.events a b e f ((h.events a e).mp ha).1 ((h.events b f).mp hb).1
  invites k := (hnamed.invites k).sublist ((h.ordered k).map _)
  underEvent k i hi := hnamed.underEvent k i ((h.invites k i).mp hi).1

theorem Removed.trans {gone' : Nat → CalendarInvite → Prop}
    (h : Removed m m₁ event fun _ _ => False) (h' : Removed m₁ m' (fun _ => False) gone)
    (hgone : ∀ k i, i ∈ m.getEventInvites k → ¬HasEvent m k event → (gone k i ↔ gone' k i)) :
    Removed m m' event gone' where
  events a e := by rw [h'.events, h.events, not_false_eq_true, and_true]
  ordered k := (h'.ordered k).trans (h.ordered k)
  invites k i := by
    have hno : ¬HasEvent m₁ k fun _ => False := by
      rintro ⟨a, e, -, -, hfalse⟩
      exact hfalse
    rw [h'.invites, h.invites, not_false_eq_true, and_true, and_iff_right hno, and_assoc]
    apply and_congr_right
    intro hi
    apply and_congr_right
    intro hevent
    rw [hgone k i hi hevent]

/-- The loops of a walk end, and it does nothing undefined. -/
def Returns (m : CalendarMgr) (walk : Nat → Option (Option CalendarMgr)) (m' : CalendarMgr) :
    Prop :=
  ∀ turns, m.events.size < turns → walk turns = some (some m')

theorem Returns.unique {walk : Nat → Option (Option CalendarMgr)} (h : Returns m walk m')
    (h' : Returns m walk m₁) : m' = m₁ := by
  have heq := (h _ (Nat.lt_succ_self _)).symm.trans (h' _ (Nat.lt_succ_self _))
  exact Option.some.inj (Option.some.inj heq)

/-- What deleting a player should do to the calendar. -/
def LeavesWorld (m : CalendarMgr) (guid : ObjectGuid) : Prop :=
  ∃ m', Returns m (m.walkAll guid) m' ∧
    Removed m m' (fun e => e.ownerGUID = guid) fun _ i => i.inviteeGUID = guid

/-- What leaving a guild should do to the calendar. -/
def LeavesGuild (m : CalendarMgr) (guid : ObjectGuid) (guildId : Nat) : Prop :=
  ∃ m', Returns m (m.removePlayerGuildEventsAndSignups guid guildId) m' ∧
    Removed m m' (OwnsOfGuild guid) fun k i => i.inviteeGUID = guid ∧
      HasEvent m k fun e => e.isGuildEvent = true ∧ e.guildId = guildId

/-- `RemoveAllPlayerEventsAndInvites` is defined, and removes the invites whose event exists. -/
theorem walkAll_returns (hnamed : Named m) (guid : ObjectGuid) :
    Returns m (m.walkAll guid) (m.removeAllPlayerEventsAndInvites guid) ∧
      Removed m (m.removeAllPlayerEventsAndInvites guid) (fun e => e.ownerGUID = guid)
        fun k i => i.inviteeGUID = guid ∧ HasEvent m k fun _ => True := by
  have hfirst := removed_ownEvents m guid
  obtain ⟨m', hrun, hfold, hsecond⟩ :=
    removed_invites (fun _ => true) (hfirst.named hnamed) guid
  have heq : m' = m.removeAllPlayerEventsAndInvites guid := hfold
  rw [← heq]
  constructor
  · intro turns hturns
    rw [← Std.ExtTreeMap.length_toList] at hturns
    unfold walkAll beginEvents
    rw [run_ownEventTurn (ahead_begin m) hturns]
    exact congrArg some hrun
  · refine hfirst.trans hsecond fun k i hi hevent => and_congr_right' ?_
    constructor
    · rintro ⟨a, e, hget, hid, -⟩
      exact ⟨a, e, ((hfirst.events a e).mp hget).1, hid, trivial⟩
    · rintro ⟨a, e, hget, hid, -⟩
      exact ⟨a, e, (hfirst.events a e).mpr ⟨hget, fun howner => hevent ⟨a, e, hget, hid, howner⟩⟩,
        hid, rfl⟩

theorem leavesWorld_iff (hnamed : Named m) (guid : ObjectGuid) :
    LeavesWorld m guid ↔ ∀ k, ∀ i ∈ m.getEventInvites k, i.inviteeGUID = guid →
      HasEvent m k fun _ => True := by
  obtain ⟨hreturns, hremoved⟩ := walkAll_returns hnamed guid
  constructor
  · rintro ⟨m', hreturns', hremoved'⟩ k i hi hguid
    have heq := hreturns'.unique hreturns
    rw [heq] at hremoved'
    by_contra hno
    have hkept := (hremoved.invites k i).mpr ⟨hi, ?_, fun hgone => hno hgone.2⟩
    · exact ((hremoved'.invites k i).mp hkept).2.2 hguid
    · rintro ⟨a, e, hget, hid, -⟩
      exact hno ⟨a, e, hget, hid, trivial⟩
  · intro hall
    refine ⟨_, hreturns, hremoved.events, hremoved.ordered, fun k i => ?_⟩
    rw [hremoved.invites]
    apply and_congr_right
    intro hi
    rw [and_iff_left_of_imp (hall k i hi)]

theorem leavesGuild_iff (hnamed : Named m) (guid : ObjectGuid) (guildId : Nat) :
    LeavesGuild m guid guildId ↔ ∀ (a : Addr) e, m.events[a]? = some e → ¬OwnsOfGuild guid e := by
  constructor
  · rintro ⟨m', hreturns, -⟩ a e hget howns
    have hrun := run_guildEventTurn_undefined hnamed (ahead_begin m)
      ⟨(a, e), mem_toList.mpr hget, howns⟩ (Nat.lt_succ_self _)
    have hreturned := hreturns (m.events.toList.length + 1)
      (by rw [Std.ExtTreeMap.length_toList]; exact Nat.lt_succ_self _)
    unfold removePlayerGuildEventsAndSignups beginEvents at hreturned
    rw [hrun] at hreturned
    cases hreturned
  · intro hnone
    obtain ⟨m', hrun, -, hremoved⟩ := removed_invites (isGuildEventOf guildId) hnamed guid
    refine ⟨m', fun turns hturns => ?_, fun a e => ?_, hremoved.ordered, fun k i => ?_⟩
    · rw [← Std.ExtTreeMap.length_toList] at hturns
      unfold removePlayerGuildEventsAndSignups beginEvents
      rw [run_guildEventTurn (ahead_begin m) (fun r hr => hnone r.1 r.2 (mem_toList.mp hr)) hturns]
      exact congrArg some hrun
    · rw [hremoved.events, not_false_eq_true, and_true]
      exact ⟨fun hget => ⟨hget, hnone a e hget⟩, fun hget => hget.1⟩
    · have hnot (k : Nat) : ¬HasEvent m k (OwnsOfGuild guid) := by
        rintro ⟨a, e, hget, -, howns⟩
        exact hnone a e hget howns
      have hnever (k : Nat) : ¬HasEvent m k fun _ => False := by
        rintro ⟨a, e, -, -, hfalse⟩
        exact hfalse
      have hof : (fun e => isGuildEventOf guildId (some e) = true) =
          fun e : CalendarEvent => e.isGuildEvent = true ∧ e.guildId = guildId := by
        funext e
        rw [isGuildEventOf, Bool.and_eq_true, decide_eq_true_eq]
      rw [hremoved.invites, and_iff_right (hnever k), and_iff_right (hnot k), hof]

/-- **Leaving.** Of a calendar whose ids name one thing each, a player's deletion removes what
it should if and only if no invite of the player is to an event that does not exist, and a
player's leaving of a guild does if and only if the player owns no event of a guild. -/
theorem leaving_iff {m : CalendarMgr} (hnamed : Named m) (guid : ObjectGuid) (guildId : Nat) :
    (LeavesGuild m guid guildId ↔
        ∀ (a : Addr) e, m.events[a]? = some e → ¬OwnsOfGuild guid e) ∧
      (LeavesWorld m guid ↔ ∀ k, ∀ i ∈ m.getEventInvites k, i.inviteeGUID = guid →
        HasEvent m k fun _ => True) :=
  ⟨leavesGuild_iff hnamed guid guildId, leavesWorld_iff hnamed guid⟩

theorem raidCalendar_named : Named raidCalendar :=
  (loadFromDB_inOrder (fun _ => 7) raidRows).1.named

theorem events_raidCalendar (a : Addr) :
    raidCalendar.events[a]? = if 100 = a then some raidNight else none := by
  have hevents : raidCalendar.events = (∅ : EventStore).insert 100 raidNight := rfl
  grind

/-- The member who is invited to the raid leaves. -/
theorem leaving_iff_member : LeavesGuild raidCalendar 5 7 := by
  apply (leaving_iff raidCalendar_named 5 7).1.mpr
  intro a e hget howns
  rw [events_raidCalendar] at hget
  split at hget
  · cases hget
    exact absurd howns.1 (by decide)
  · cases hget

/-- The owner of the raid leaves the guild. -/
theorem leaving_undefined : ¬∀ m, Named m → ∀ guid guildId, LeavesGuild m guid guildId := by
  intro hall
  have hleaves := (leavesGuild_iff raidCalendar_named 1 7).mp (hall _ raidCalendar_named 1 7)
  have hget : raidCalendar.events[100]? = some raidNight := by
    rw [events_raidCalendar, if_pos rfl]
  exact hleaves 100 raidNight hget ⟨rfl, by decide⟩

end EGServer.Calendar
