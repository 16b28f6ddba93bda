import EGServer.Lib.StableQueue
import Mathlib.Tactic

/-!
# `EventMap`

A timer that scripts schedule events on. Time points are counted in milliseconds from
`TimePoint::min()`, where the timer starts and to which only whole milliseconds are ever added. The
overloads that take a minimum and a maximum draw a time and call the others.
-/

namespace EGServer.Scheduling

/-- `GroupMask(1u << (index - 1u))`, and the same for phases -/
def bitMask (index : UInt8) : UInt8 := 1 <<< (index - 1)

structure Event where
  id : UInt16 := 0
  groupMask : UInt8 := 0
  phaseMask : UInt8 := 0
deriving DecidableEq

def Event.new (id : UInt16) (groupIndex phaseIndex : UInt8) : Event where
  id := id
  groupMask := if groupIndex ≠ 0 then bitMask groupIndex else 0
  phaseMask := if phaseIndex ≠ 0 then bitMask phaseIndex else 0

structure EventMap where
  time : Nat := 0
  phaseMask : UInt8 := 0
  eventMap : Multimap Nat Event := .empty
  lastEvent : Event := {}

namespace EventMap

variable (M : EventMap)

def Reset : EventMap := { M with eventMap := .empty, time := 0, phaseMask := 0 }

def Update (time : Nat) : EventMap := { M with time := M.time + time }

/-! ## Phases -/

def SetPhase (phase : UInt8) : EventMap :=
  if phase = 0 then { M with phaseMask := 0 }
  else if phase ≤ 8 then { M with phaseMask := bitMask phase }
  else M

def AddPhase (phase : UInt8) : EventMap :=
  if phase ≠ 0 ∧ phase ≤ 8 then { M with phaseMask := M.phaseMask ||| bitMask phase } else M

def RemovePhase (phase : UInt8) : EventMap :=
  if phase ≠ 0 ∧ phase ≤ 8 then { M with phaseMask := M.phaseMask &&& ~~~bitMask phase } else M

/-! ## Scheduling -/

def ScheduleEvent (eventId : UInt16) (time : Nat) (group phase : UInt8) : EventMap :=
  if group > 8 then M
  else if phase > 8 then M
  else { M with eventMap := M.eventMap.insert (M.time + time) (.new eventId group phase) }

def CancelEvent (eventId : UInt16) : EventMap :=
  { M with eventMap := M.eventMap.eraseIf fun e => eventId = e.2.id }

def RescheduleEvent (eventId : UInt16) (time : Nat) (group phase : UInt8) : EventMap :=
  (M.CancelEvent eventId).ScheduleEvent eventId time group phase

def Repeat (time : Nat) : EventMap :=
  { M with eventMap := M.eventMap.insert (M.time + time) M.lastEvent }

def CancelEventGroup (group : UInt8) : EventMap :=
  if group = 0 ∨ group > 8 then M
  else { M with eventMap := M.eventMap.eraseIf fun e => e.2.groupMask &&& bitMask group ≠ 0 }

/-! ## Execution -/

/-- An event outside the phases of the map. -/
def outOfPhase (event : Event) : Bool :=
  M.phaseMask ≠ 0 && event.phaseMask ≠ 0 && event.phaseMask &&& M.phaseMask = 0

def ExecuteEvent (M : EventMap) : UInt16 × EventMap :=
  match _hfront : M.eventMap.toList[0]? with
  | none => (0, M)
  | some (due, event) =>
    if due > M.time then (0, M)
    else if M.outOfPhase event then ExecuteEvent { M with eventMap := M.eventMap.eraseAt 0 }
    else (event.id, { M with lastEvent := event, eventMap := M.eventMap.eraseAt 0 })
termination_by M.eventMap.toList.length
decreasing_by
  grind [Multimap.toList_eraseAt]

/-! ## Delays -/

/-- All nodes are moved out and inserted again, at the end as a hint. -/
def DelayEvents (delay : Nat) : EventMap :=
  { M with
    eventMap := Multimap.empty.insertRange (M.eventMap.toList.map fun e => (e.1 + delay, e.2)) }

def DelayEventsOf (delay : Nat) (group : UInt8) : EventMap :=
  if group = 0 ∨ group > 8 then M
  else
    let inGroup (e : Nat × Event) : Bool := e.2.groupMask &&& bitMask group ≠ 0
    let delayed : Multimap Nat Event := Multimap.empty.insertRange
      ((M.eventMap.toList.filter inGroup).map fun e => (e.1 + delay, e.2))
    { M with eventMap := (M.eventMap.eraseIf inGroup).insertRange delayed.toList }

/-- An event of the id that is due before `bound`. -/
def isEarly (eventId : UInt16) (bound : Nat) (e : Nat × Event) : Bool :=
  eventId = e.2.id && e.1 < bound

theorem toList_raise {m : Multimap Nat Event} {bound i : Nat} {e : Nat × Event}
    (h : m.toList[i]? = some e) (hlt : e.1 < bound) :
    m.toList = m.toList.take i ++ e :: m.toList.drop (i + 1) ∧
    (∀ x ∈ m.toList.take i, x.1 ≤ bound) ∧
    ((m.insert bound e.2).eraseAt i).toList =
      m.toList.take i ++ insertUpper (bound, e.2) (m.toList.drop (i + 1)) := by
  obtain ⟨hi, he⟩ := List.getElem?_eq_some_iff.mp h
  have hsplit : m.toList = m.toList.take i ++ e :: m.toList.drop (i + 1) := by
    rw [← he, ← List.drop_eq_getElem_cons hi, List.take_append_drop]
  have hfront : ∀ x ∈ m.toList.take i, x.1 ≤ bound := by
    have hsorted := m.sorted
    grind [List.mem_cons_self]
  refine ⟨hsplit, hfront, ?_⟩
  have hinsert : insertUpper (bound, e.2) m.toList =
      m.toList.take i ++ e :: insertUpper (bound, e.2) (m.toList.drop (i + 1)) := by
    conv_lhs => rw [hsplit]
    rw [insertUpper_append hfront, insertUpper, if_neg (by dsimp only; omega)]
  rw [Multimap.toList_eraseAt, Multimap.toList_insert, hinsert,
    List.eraseIdx_append_of_length_le (by rw [List.length_take]; omega), List.length_take,
    Nat.min_eq_left hi.le, Nat.sub_self, List.eraseIdx_cons_zero]

/-- The loop of `SetMinimalDelay`, with its iterator at position `i`. The node inserted again lies
behind the iterator, which meets it later and leaves it. -/
def minimalDelayLoop (eventId : UInt16) (bound : Nat) (m : Multimap Nat Event) (i : Nat) :
    Multimap Nat Event :=
  match hnode : m.toList[i]? with
  | none => m
  | some e =>
    if hearly : isEarly eventId bound e = true then
      minimalDelayLoop eventId bound ((m.insert bound e.2).eraseAt i) i
    else minimalDelayLoop eventId bound m (i + 1)
termination_by m.toList.countP (isEarly eventId bound) + (m.toList.length - i)
decreasing_by
  · have hlt : e.1 < bound := by simpa [isEarly] using (Bool.and_eq_true_iff.mp hearly).2
    obtain ⟨hsplit, -, hraise⟩ := toList_raise hnode hlt
    have hperm := insertUpper_perm (bound, e.2) (m.toList.drop (i + 1))
    have hnot : isEarly eventId bound (bound, e.2) = false := by simp [isEarly]
    have hcount := hperm.countP_eq (isEarly eventId bound)
    rw [List.countP_cons_of_neg (by rw [hnot]; decide)] at hcount
    have hlength := congrArg List.length hsplit
    rw [List.length_append, List.length_cons] at hlength
    have hbefore := congrArg (List.countP (isEarly eventId bound)) hsplit
    rw [List.countP_append, List.countP_cons_of_pos hearly] at hbefore
    rw [hraise, List.countP_append, hcount, List.length_append, hperm.length_eq, List.length_cons]
    omega
  · obtain ⟨hi, -⟩ := List.getElem?_eq_some_iff.mp hnode
    omega

def SetMinimalDelay (eventId : UInt16) (delay : Nat) : EventMap :=
  { M with eventMap := minimalDelayLoop eventId (M.time + delay) M.eventMap 0 }

/-! ## Queries -/

/-- `Milliseconds::max()`, which no difference of two time points is, is `none`. -/
def GetTimeUntilEvent (eventId : UInt16) : Option Int :=
  (M.eventMap.toList.find? fun e => eventId = e.2.id).map fun e => (e.1 : Int) - M.time

def HasEventScheduled (eventId : UInt16) : Bool := (M.GetTimeUntilEvent eventId).isSome

/-! ## Runs -/

inductive Op where
  | Reset
  | Update (time : Nat)
  | SetPhase (phase : UInt8)
  | AddPhase (phase : UInt8)
  | RemovePhase (phase : UInt8)
  | ScheduleEvent (eventId : UInt16) (time : Nat) (group phase : UInt8)
  | RescheduleEvent (eventId : UInt16) (time : Nat) (group phase : UInt8)
  | Repeat (time : Nat)
  | ExecuteEvent
  | DelayEvents (delay : Nat)
  | DelayEventsOf (delay : Nat) (group : UInt8)
  | SetMinimalDelay (eventId : UInt16) (delay : Nat)
  | CancelEvent (eventId : UInt16)
  | CancelEventGroup (group : UInt8)
  | GetTimeUntilEvent (eventId : UInt16)
  | HasEventScheduled (eventId : UInt16)

/-- What an operation returns. -/
inductive Output where
  | nothing
  | executed (eventId : UInt16)
  | timeUntil (time : Option Int)
  | scheduled (b : Bool)
deriving DecidableEq

def step : Op → Output × EventMap
  | .Reset => (.nothing, M.Reset)
  | .Update time => (.nothing, M.Update time)
  | .SetPhase phase => (.nothing, M.SetPhase phase)
  | .AddPhase phase => (.nothing, M.AddPhase phase)
  | .RemovePhase phase => (.nothing, M.RemovePhase phase)
  | .ScheduleEvent eventId time group phase => (.nothing, M.ScheduleEvent eventId time group phase)
  | .RescheduleEvent eventId time group phase =>
    (.nothing, M.RescheduleEvent eventId time group phase)
  | .Repeat time => (.nothing, M.Repeat time)
  | .ExecuteEvent => (.executed M.ExecuteEvent.1, M.ExecuteEvent.2)
  | .DelayEvents delay => (.nothing, M.DelayEvents delay)
  | .DelayEventsOf delay group => (.nothing, M.DelayEventsOf delay group)
  | .SetMinimalDelay eventId delay => (.nothing, M.SetMinimalDelay eventId delay)
  | .CancelEvent eventId => (.nothing, M.CancelEvent eventId)
  | .CancelEventGroup group => (.nothing, M.CancelEventGroup group)
  | .GetTimeUntilEvent eventId => (.timeUntil (M.GetTimeUntilEvent eventId), M)
  | .HasEventScheduled eventId => (.scheduled (M.HasEventScheduled eventId), M)

/-- The outputs of a run, and the map it ends with. -/
def run (M : EventMap) : List Op → List Output × EventMap
  | [] => ([], M)
  | op :: ops =>
    let (output, M) := M.step op
    let (outputs, M) := run M ops
    (output :: outputs, M)

end EventMap

end EGServer.Scheduling

/-!
# The queue an `EventMap` is meant to be

The entries stand in the order in which they were inserted; the queue's own order is theirs by due
time, entries of one time in the order of insertion. Groups and phases are sets of indexes. What an
operation does is said of the entries, without a position in the map.
-/

namespace EGServer.Scheduling

structure QueuedEvent where
  id : UInt16 := 0
  groups : Finset Nat := ∅
  phases : Finset Nat := ∅
deriving DecidableEq

structure EventQueue where
  now : Nat := 0
  phases : Finset Nat := ∅
  entries : List (Nat × QueuedEvent) := []
  /-- the event executed last -/
  last : QueuedEvent := {}

/-- An index 0 stands for none. -/
def indexSet (index : Nat) : Finset Nat := if index = 0 then ∅ else {index}

namespace EventQueue

variable (Q : EventQueue)

/-- The entries by due time, those of one time in the order of insertion. -/
def order : List (Nat × QueuedEvent) := stableOrder Q.entries

/-- An event whose phases match those of the queue, sets without phases matching all. -/
def matchesPhase (e : QueuedEvent) : Bool :=
  Q.phases = ∅ || e.phases = ∅ || e.phases ∩ Q.phases ≠ ∅

def due : List (Nat × QueuedEvent) := Q.order.takeWhile fun e => e.1 ≤ Q.now

/-- The first due event that matches. -/
def next? : Option (Nat × QueuedEvent) := Q.due.find? fun e => Q.matchesPhase e.2

/-- The due events before it. -/
def dropped : List (Nat × QueuedEvent) := Q.due.takeWhile fun e => !Q.matchesPhase e.2

def add (time : Nat) (e : QueuedEvent) : EventQueue :=
  { Q with entries := Q.entries ++ [(Q.now + time, e)] }

def cancel (p : QueuedEvent → Bool) : EventQueue :=
  { Q with entries := Q.entries.filter fun e => !p e.2 }

/-- The entries with `p` are inserted anew, in the order of the queue, at `f` of their time. -/
def reinsert (p : Nat × QueuedEvent → Bool) (f : Nat → Nat) : EventQueue :=
  { Q with entries := Q.entries.filter (!p ·) ++ (Q.order.filter p).map fun e => (f e.1, e.2) }

def isIndex (index : Nat) : Bool := index ≠ 0 && index ≤ 8

def schedule (eventId : UInt16) (time group phase : Nat) : EventQueue :=
  if group ≤ 8 ∧ phase ≤ 8 then Q.add time ⟨eventId, indexSet group, indexSet phase⟩ else Q

def execute : EventQueue :=
  { Q with
    entries := Q.entries.diff (Q.dropped ++ Q.next?.toList)
    last := (Q.next?.map Prod.snd).getD Q.last }

/-- The earliest due time of an event. -/
def earliest (eventId : UInt16) : Option Nat :=
  ((Q.entries.filter fun e => e.2.id = eventId).map Prod.fst).min?

open EventMap (Op Output)

/-- What each operation does. Only `ExecuteEvent` and the queries return something. -/
def step : Op → Output × EventQueue
  | .Reset => (.nothing, { Q with entries := [], now := 0, phases := ∅ })
  | .Update time => (.nothing, { Q with now := Q.now + time })
  | .SetPhase phase =>
    (.nothing, if phase.toNat ≤ 8 then { Q with phases := indexSet phase.toNat } else Q)
  | .AddPhase phase =>
    (.nothing, if isIndex phase.toNat then { Q with phases := insert phase.toNat Q.phases } else Q)
  | .RemovePhase phase =>
    (.nothing, if isIndex phase.toNat then { Q with phases := Q.phases.erase phase.toNat } else Q)
  | .ScheduleEvent eventId time group phase =>
    (.nothing, Q.schedule eventId time group.toNat phase.toNat)
  | .RescheduleEvent eventId time group phase =>
    (.nothing, (Q.cancel fun e => e.id = eventId).schedule eventId time group.toNat phase.toNat)
  | .Repeat time => (.nothing, Q.add time Q.last)
  | .ExecuteEvent => (.executed ((Q.next?.map fun e => e.2.id).getD 0), Q.execute)
  | .DelayEvents delay =>
    (.nothing, { Q with entries := Q.entries.map fun e => (e.1 + delay, e.2) })
  | .DelayEventsOf delay group =>
    (.nothing, Q.reinsert (fun e => isIndex group.toNat && group.toNat ∈ e.2.groups) (· + delay))
  | .SetMinimalDelay eventId delay =>
    (.nothing, Q.reinsert (fun e => e.2.id = eventId && e.1 < Q.now + delay)
      fun _ => Q.now + delay)
  | .CancelEvent eventId => (.nothing, Q.cancel fun e => e.id = eventId)
  | .CancelEventGroup group =>
    (.nothing, Q.cancel fun e => isIndex group.toNat && group.toNat ∈ e.groups)
  | .GetTimeUntilEvent eventId =>
    (.timeUntil ((Q.earliest eventId).map fun due : Nat => (due : Int) - Q.now), Q)
  | .HasEventScheduled eventId => (.scheduled (Q.entries.any fun e => e.2.id = eventId), Q)

/-- The outputs of a run, and the queue it ends with. -/
def run (Q : EventQueue) : List Op → List Output × EventQueue
  | [] => ([], Q)
  | op :: ops =>
    let (output, Q) := Q.step op
    let (outputs, Q) := run Q ops
    (output :: outputs, Q)

end EventQueue

end EGServer.Scheduling
