import EGServer.Calendar.CalendarRun
import EGServer.Lib.Loop

/-!
# Walks over the calendar

The two functions that clear the calendar of a player, with the iterators and pointers they hold.
An iterator of `_events` is where its element is, or `none` for `end()`; incrementing one whose
element was erased is undefined, and so is reading an invite that was deleted: the result is then
`none`. Invites are stored one each, so that an invite stands for its pointer.

A walk is described by what is ahead of its iterator (`Ahead`). `RemoveAllPlayerEventsAndInvites`
increments before it erases and is always defined (`run_ownEventTurn`).
`RemovePlayerGuildEventsAndSignups` increments the iterator whose element it has erased.
-/

namespace EGServer.Calendar

namespace CalendarMgr

variable (m : CalendarMgr)

/-! ## Iterators -/

def beginEvents : Option Addr := m.events.toList.head?.map Prod.fst

/-- `++itr`: the next element of the ordered set. -/
def nextEvent (itr : Addr) : Option (Option Addr) :=
  if m.events[itr]?.isSome then
    some ((m.events.toList.find? fun row => itr < row.1).map Prod.fst)
  else none

/-- A round of the first loop of `RemoveAllPlayerEventsAndInvites`. -/
def ownEventTurn (guid : ObjectGuid) :
    CalendarMgr × Option Addr → Loop.Turn (CalendarMgr × Option Addr) (Option CalendarMgr)
  | (m, none) => .leave (some m)
  | (m, some itr) =>
    match m.events[itr]?, m.nextEvent itr with
    | some event, some next =>
      .again (if event.ownerGUID = guid then m.removeEventAt itr else m, next)
    | _, _ => .leave none

/-- A round of the first loop of `RemovePlayerGuildEventsAndSignups`. -/
def guildEventTurn (guid : ObjectGuid) :
    CalendarMgr × Option Addr → Loop.Turn (CalendarMgr × Option Addr) (Option CalendarMgr)
  | (m, none) => .leave (some m)
  | (m, some itr) =>
    match m.events[itr]? with
    | none => .leave none
    | some event =>
      let m :=
        if event.ownerGUID = guid && event.isOfGuild then (m.removeEvent event.eventId).1 else m
      match m.nextEvent itr with
      | some next => .again (m, next)
      | none => .leave none

/-- The second loops: over pointers to invites, of which those are removed whose event, if
there is one, meets a condition. -/
def removeInvites (selected : Option CalendarEvent → Bool) :
    CalendarMgr → List CalendarInvite → Option CalendarMgr
  | m, [] => some m
  | m, invite :: rest =>
    if invite ∈ m.allInvites then
      removeInvites selected
        (if selected (m.getEvent invite.eventId) then m.removeInvite invite.inviteId invite.eventId
          else m) rest
    else none

/-- The event is one of the guild, and no announcement. -/
def isGuildEventOf (guildId : Nat) : Option CalendarEvent → Bool
  | some event => event.isGuildEvent && event.guildId = guildId
  | none => false

/-- `RemoveAllPlayerEventsAndInvites`, for a number of rounds at most. -/
def walkAll (guid : ObjectGuid) (turns : Nat) : Option (Option CalendarMgr) :=
  (Loop.run (ownEventTurn guid) turns (m, m.beginEvents)).map fun left =>
    left.bind fun m => m.removeInvites (fun _ => true) (m.getPlayerInvites guid)

/-- For a number of rounds at most. -/
def removePlayerGuildEventsAndSignups (guid : ObjectGuid) (guildId : Nat) (turns : Nat) :
    Option (Option CalendarMgr) :=
  (Loop.run (guildEventTurn guid) turns (m, m.beginEvents)).map fun left =>
    left.bind fun m => m.removeInvites (isGuildEventOf guildId) (m.getPlayerInvites guid)

end CalendarMgr

open CalendarMgr

variable {m : CalendarMgr} {guid : ObjectGuid} {row : Addr × CalendarEvent}
  {todo : List (Addr × CalendarEvent)} {turns : Nat}

/-! ## The state -/

/-- Pointers and ids name one thing each, as they do in every calendar that is in order. -/
structure Named (m : CalendarMgr) : Prop where
  events : ∀ (a b : Addr) (e f : CalendarEvent), m.events[a]? = some e → m.events[b]? = some f →
    e.eventId = f.eventId → a = b
  invites : ∀ k, ((m.getEventInvites k).map (·.inviteId)).Nodup
  underEvent : ∀ k, ∀ i ∈ m.getEventInvites k, i.eventId = k

theorem InOrder.named (h : InOrder m) : Named m where
  events := h.events.distinct
  invites := h.invites.nodup
  underEvent := h.invites.underEvent

theorem getElem?_removeEventAt (m : CalendarMgr) (address b : Addr) :
    (m.removeEventAt address).events[b]? = if address = b then none else m.events[b]? := by
  unfold removeEventAt
  split
  · next hnone =>
    split
    · next heq => rw [← heq, hnone]
    · rfl
  · next event hget =>
    rw [foldl_deleteInvite]
    show (m.events.erase address)[b]? = _
    rw [Std.ExtTreeMap.getElem?_erase]
    simp only [Std.LawfulEqCmp.compare_eq_iff_eq]

theorem mem_toList {a : Addr} {e : CalendarEvent} :
    (a, e) ∈ m.events.toList ↔ m.events[a]? = some e :=
  Std.ExtTreeMap.mem_toList_iff_getElem?_eq_some

/-! ## What is ahead of an iterator -/

/-- The elements from the iterator on are `todo`; the others are before them. -/
structure Ahead (m : CalendarMgr) (todo : List (Addr × CalendarEvent)) : Prop where
  sorted : todo.Pairwise fun r s => r.1 < s.1
  stored : ∀ r ∈ todo, m.events[r.1]? = some r.2
  passed : ∀ a e, m.events[a]? = some e → (a, e) ∈ todo ∨ ∀ r ∈ todo, a < r.1

theorem ahead_begin (m : CalendarMgr) : Ahead m m.events.toList where
  sorted := Std.ExtTreeMap.ordered_keys_toList.imp fun h => Nat.compare_eq_lt.mp h
  stored _ hr := mem_toList.mp hr
  passed _ _ hget := .inl (mem_toList.mpr hget)

theorem Ahead.next (h : Ahead m (row :: todo)) :
    m.nextEvent row.1 = some (todo.head?.map Prod.fst) := by
  have hrow : m.events[row.1]? = some row.2 := h.stored row List.mem_cons_self
  obtain ⟨hfirst, hrest⟩ := List.pairwise_cons.mp h.sorted
  have hlater : ∀ r ∈ m.events.toList, row.1 < r.1 → r ∈ todo := by
    intro r hr hlt
    rcases h.passed r.1 r.2 (mem_toList.mp hr) with hmem | hbefore
    · rcases List.mem_cons.mp hmem with rfl | hmem
      · exact absurd hlt (Nat.lt_irrefl _)
      · exact hmem
    · exact absurd (hbefore row List.mem_cons_self) (Nat.lt_asymm hlt)
  unfold nextEvent
  rw [hrow, Option.isSome_some, if_pos rfl]
  cases todo with
  | nil =>
    grind
  | cons next todo =>
    have hnext : next ∈ m.events.toList :=
      mem_toList.mpr (h.stored next (List.mem_cons_of_mem row List.mem_cons_self))
    cases hfind : m.events.toList.find? fun r => decide (row.1 < r.1) with
    | none =>
      grind
    | some r =>
      -- both are the first of the elements behind `row`
      have hlt : row.1 < r.1 := by simpa using List.find?_some hfind
      obtain ⟨-, before, after, hlist, hbefore⟩ := List.find?_eq_some_iff_append.mp hfind
      have hsorted := (ahead_begin m).sorted
      rw [hlist] at hnext hsorted
      have hle : r.1 ≤ next.1 := by
        rcases List.mem_append.mp hnext with hmem | hmem
        · grind
        · rcases List.mem_cons.mp hmem with heq | hmem
          · exact Nat.le_of_eq (congrArg Prod.fst heq.symm)
          · have hbehind := (List.pairwise_append.mp hsorted).2.1
            exact Nat.le_of_lt ((List.pairwise_cons.mp hbehind).1 next hmem)
      have hge : next.1 ≤ r.1 := by
        rcases List.mem_cons.mp (hlater r (List.mem_of_find?_eq_some hfind) hlt) with heq | hmem
        · exact Nat.le_of_eq (congrArg Prod.fst heq.symm)
        · exact Nat.le_of_lt ((List.pairwise_cons.mp hrest).1 r hmem)
      show some (some r.1) = some (some next.1)
      rw [Nat.le_antisymm hle hge]

theorem Ahead.tail (h : Ahead m (row :: todo)) : Ahead m todo where
  sorted := (List.pairwise_cons.mp h.sorted).2
  stored r hr := h.stored r (List.mem_cons_of_mem row hr)
  passed a e hget := by
    rcases h.passed a e hget with hmem | hbefore
    · rcases List.mem_cons.mp hmem with rfl | hmem
      · exact .inr (List.pairwise_cons.mp h.sorted).1
      · exact .inl hmem
    · exact .inr fun r hr => hbefore r (List.mem_cons_of_mem row hr)

theorem Ahead.removeEventAt (h : Ahead m (row :: todo)) : Ahead (m.removeEventAt row.1) todo where
  sorted := h.tail.sorted
  stored r hr := by
    have hne : row.1 ≠ r.1 := Nat.ne_of_lt ((List.pairwise_cons.mp h.sorted).1 r hr)
    rw [getElem?_removeEventAt, if_neg hne]
    exact h.tail.stored r hr
  passed a e hget := by
    rw [getElem?_removeEventAt] at hget
    split at hget
    · cases hget
    · exact h.tail.passed a e hget

/-! ## The loops over the events -/

/-- **Incrementing first**: the loop erases the events of the player, and no iterator is of an
erased element. -/
theorem run_ownEventTurn (h : Ahead m todo) (hturns : todo.length < turns) :
    Loop.run (ownEventTurn guid) turns (m, todo.head?.map Prod.fst) =
      some (some ((todo.filter fun r => r.2.ownerGUID = guid).foldl
        (fun m r => m.removeEventAt r.1) m)) := by
  induction todo generalizing m turns with
  | nil =>
    obtain ⟨turns, rfl⟩ := Nat.exists_eq_succ_of_ne_zero (Nat.ne_of_gt hturns)
    exact Loop.run_of_leave rfl
  | cons row todo ih =>
    obtain ⟨turns, rfl⟩ := Nat.exists_eq_succ_of_ne_zero (Nat.ne_of_gt (Nat.zero_lt_of_lt hturns))
    have hrow : m.events[row.1]? = some row.2 := h.stored row List.mem_cons_self
    have hturn : ownEventTurn guid (m, some row.1) =
        .again (if row.2.ownerGUID = guid then m.removeEventAt row.1 else m,
          todo.head?.map Prod.fst) := by
      unfold ownEventTurn
      dsimp only
      rw [hrow, h.next]
    refine (Loop.run_of_again hturn).trans ?_
    rw [List.filter_cons]
    by_cases howner : row.2.ownerGUID = guid
    · rw [if_pos howner, if_pos (decide_eq_true howner), List.foldl_cons]
      exact ih h.removeEventAt (Nat.lt_of_succ_lt_succ hturns)
    · rw [if_neg howner, if_neg (by simpa using howner)]
      exact ih h.tail (Nat.lt_of_succ_lt_succ hturns)

/-- An event of a guild that the player owns. -/
def OwnsOfGuild (guid : ObjectGuid) (event : CalendarEvent) : Prop :=
  event.ownerGUID = guid ∧ event.isOfGuild = true

theorem guildEventTurn_of_not (h : Ahead m (row :: todo)) (hnot : ¬OwnsOfGuild guid row.2) :
    guildEventTurn guid (m, some row.1) = .again (m, todo.head?.map Prod.fst) := by
  have hcond : ¬(decide (row.2.ownerGUID = guid) && row.2.isOfGuild) = true := by
    rw [Bool.and_eq_true, decide_eq_true_eq]
    exact hnot
  unfold guildEventTurn
  dsimp only
  rw [h.stored row List.mem_cons_self]
  dsimp only
  rw [if_neg hcond, h.next]

theorem guildEventTurn_of_owns (hnamed : Named m) (h : Ahead m (row :: todo))
    (howns : OwnsOfGuild guid row.2) : guildEventTurn guid (m, some row.1) = .leave none := by
  have hrow : m.events[row.1]? = some row.2 := h.stored row List.mem_cons_self
  have hcond : (decide (row.2.ownerGUID = guid) && row.2.isOfGuild) = true := by
    rw [Bool.and_eq_true, decide_eq_true_eq]
    exact howns
  have herased : (m.removeEvent row.2.eventId).1.events[row.1]? = none := by
    unfold CalendarMgr.removeEvent
    cases hfind : m.findEvent row.2.eventId with
    | none =>
      have hno := List.find?_eq_none.mp hfind row (mem_toList.mpr hrow)
      exact absurd (decide_eq_true rfl) hno
    | some found =>
      obtain ⟨hget, hid⟩ := findEvent_spec hfind
      have heq : found.1 = row.1 := hnamed.events _ _ _ _ hget hrow hid
      dsimp only
      rw [getElem?_removeEventAt, if_pos heq]
  have hnext : (m.removeEvent row.2.eventId).1.nextEvent row.1 = none := by
    unfold nextEvent
    rw [herased]
    rfl
  unfold guildEventTurn
  dsimp only
  rw [hrow]
  dsimp only
  rw [if_pos hcond, hnext]

theorem run_guildEventTurn (h : Ahead m todo) (hnone : ∀ r ∈ todo, ¬OwnsOfGuild guid r.2)
    (hturns : todo.length < turns) :
    Loop.run (guildEventTurn guid) turns (m, todo.head?.map Prod.fst) = some (some m) := by
  induction todo generalizing turns with
  | nil =>
    obtain ⟨turns, rfl⟩ := Nat.exists_eq_succ_of_ne_zero (Nat.ne_of_gt hturns)
    exact Loop.run_of_leave rfl
  | cons row todo ih =>
    obtain ⟨turns, rfl⟩ := Nat.exists_eq_succ_of_ne_zero (Nat.ne_of_gt (Nat.zero_lt_of_lt hturns))
    have hturn := guildEventTurn_of_not h (hnone row List.mem_cons_self)
    refine (Loop.run_of_again hturn).trans ?_
    exact ih h.tail (fun r hr => hnone r (List.mem_cons_of_mem row hr))
      (Nat.lt_of_succ_lt_succ hturns)

/-- **Erasing first**: with the first event that is erased the loop is undefined. -/
theorem run_guildEventTurn_undefined (hnamed : Named m) (h : Ahead m todo)
    (hsome : ∃ r ∈ todo, OwnsOfGuild guid r.2) (hturns : todo.length < turns) :
    Loop.run (guildEventTurn guid) turns (m, todo.head?.map Prod.fst) = some none := by
  induction todo generalizing turns with
  | nil =>
    obtain ⟨r, hr, -⟩ := hsome
    cases hr
  | cons row todo ih =>
    obtain ⟨turns, rfl⟩ := Nat.exists_eq_succ_of_ne_zero (Nat.ne_of_gt (Nat.zero_lt_of_lt hturns))
    by_cases howns : OwnsOfGuild guid row.2
    · exact Loop.run_of_leave (guildEventTurn_of_owns hnamed h howns)
    · refine (Loop.run_of_again (guildEventTurn_of_not h howns)).trans ?_
      obtain ⟨r, hr, hown⟩ := hsome
      rcases List.mem_cons.mp hr with rfl | hr
      · exact absurd hown howns
      · exact ih h.tail ⟨r, hr, hown⟩ (Nat.lt_of_succ_lt_succ hturns)

end EGServer.Calendar
