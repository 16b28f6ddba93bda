import EGServer.Lib.GuardedRun
import EGServer.Lib.StableQueue
import Mathlib.Algebra.Ring.Nat
import Mathlib.Logic.Function.Basic

/-!
# The event processor

`EventProcessor` runs events when their time has come. `Execute` and `Abort` of an event are code
of its owner that may call back into the processor, so a call of `Update` or `KillAllEvents` is
not one step: `Phase` says where in it the processor stands, and `step` goes on from there or
takes a call. What `Execute` returns and `IsDeletable` answers is part of the step.

An event is named by its address; the address of a deleted event names no other event. A node of
`m_events` is named by the number of its insertion, as an iterator names it.
-/

namespace EGServer.Scheduling

inductive AbortState where
  | running
  | abortScheduled
  | aborted
  deriving DecidableEq, Repr

/-- Where an event is. -/
inductive Place where
  | unborn
  | queued
  /-- taken out of the queue by `Update`, which is not done with it -/
  | current
  /-- taken out by an `Execute` that returned false and did not add it again -/
  | released
  | deleted
  deriving DecidableEq, Repr

/-- The code's event, and a record of what happened to it. -/
structure BasicEvent where
  abortState : AbortState := .running
  addTime : Nat := 0
  execTime : Nat := 0
  place : Place := .unborn
  /-- `ScheduleAbort` or `Abort` was called -/
  stopped : Bool := false
  aborts : Nat := 0
  deletes : Nat := 0

/-- A node of `m_events`. -/
structure Node where
  event : Nat
  stamp : Nat
  deriving DecidableEq, Repr

inductive Phase where
  | idle
  /-- at the head of the main event loop -/
  | updating
  | executing (event : Nat)
  | aborting (event : Nat)
  /-- at the head of the loop of `KillAllEvents`; no node is the end -/
  | killing (force : Bool) (itr : Option Nat)
  | killAborting (force : Bool) (itr : Nat)
  deriving DecidableEq, Repr

structure EventProcessor where
  time : Nat
  events : Multimap Nat Node
  heap : Nat → BasicEvent
  stamps : Nat
  phase : Phase

namespace EventProcessor

def start : EventProcessor where
  time := 0
  events := Multimap.empty
  heap := fun _ => {}
  stamps := 0
  phase := .idle

variable (p : EventProcessor)

def setEvent (event : Nat) (e : BasicEvent) : EventProcessor :=
  { p with heap := Function.update p.heap event e }

/-! ## The calls -/

def addEvent (event eTime : Nat) (setAddtime : Bool) : EventProcessor :=
  { p.setEvent event {
      p.heap event with
      addTime := if setAddtime then p.time else (p.heap event).addTime
      execTime := eTime
      place := .queued } with
    events := p.events.insert eTime ⟨event, p.stamps⟩
    stamps := p.stamps + 1 }

def modifyEventTime (event newTime : Nat) : EventProcessor :=
  match p.events.toList.find? (·.2.event = event) with
  | none => p
  | some itr =>
    { p.setEvent event { p.heap event with execTime := newTime } with
      events := (p.events.eraseIf (·.2.stamp = itr.2.stamp)).insert newTime ⟨event, p.stamps⟩
      stamps := p.stamps + 1 }

/-- `BasicEvent::ScheduleAbort`; `none` is its failed assertion. -/
def scheduleAbort (event : Nat) : Option EventProcessor :=
  if (p.heap event).abortState = .running then
    some (p.setEvent event { p.heap event with abortState := .abortScheduled, stopped := true })
  else none

/-! ## `Update` -/

def update (pTime : Nat) : EventProcessor :=
  { p with time := (p.time + pTime) % 2 ^ 64, phase := .updating }

def delete (event : Nat) : EventProcessor :=
  p.setEvent event {
    p.heap event with place := .deleted, deletes := (p.heap event).deletes + 1 }

/-- Non-deletable events are checked again at the next update tick. -/
def settle (event : Nat) (deletable : Bool) : EventProcessor :=
  if deletable then { p.delete event with phase := .updating }
  else { p.addEvent event ((p.time + 1) % 2 ^ 64) false with phase := .updating }

/-- Get and remove the event from the queue. -/
def popEvent (event : Nat) : EventProcessor :=
  { p.setEvent event { p.heap event with place := .current } with events := p.events.eraseAt 0 }

/-- The call of `event->Abort`. -/
def callAbort (event : Nat) : EventProcessor :=
  p.setEvent event { p.heap event with stopped := true, aborts := (p.heap event).aborts + 1 }

def updateRound (deletable : Bool) : EventProcessor :=
  match p.events.toList with
  | [] => { p with phase := .idle }
  | itr :: _ =>
    if itr.1 ≤ p.time then
      match (p.heap itr.2.event).abortState with
      | .running => { p.popEvent itr.2.event with phase := .executing itr.2.event }
      | .abortScheduled =>
        { (p.popEvent itr.2.event).callAbort itr.2.event with phase := .aborting itr.2.event }
      | .aborted => (p.popEvent itr.2.event).settle itr.2.event deletable
    else { p with phase := .idle }

/-- `Execute` returns. -/
def executed (event : Nat) (result : Bool) : EventProcessor :=
  if result then { p.delete event with phase := .updating }
  else if (p.heap event).place = .current then
    { p.setEvent event { p.heap event with place := .released } with phase := .updating }
  else { p with phase := .updating }

/-- `BasicEvent::SetAborted`; `none` is its failed assertion. -/
def setAborted (event : Nat) : Option EventProcessor :=
  if (p.heap event).abortState = .aborted then none
  else some (p.setEvent event { p.heap event with abortState := .aborted })

/-- `Abort` returns to `Update`. -/
def aborted (event : Nat) (deletable : Bool) : Option EventProcessor := do
  return (← p.setAborted event).settle event deletable

/-! ## `KillAllEvents` -/

/-- The node behind the one an iterator names. -/
def following (itr : Nat) : List (Nat × Node) → Option Nat
  | [] => none
  | x :: l => if x.2.stamp = itr then l.head?.map (·.2.stamp) else following itr l

def begin? : Option Nat := p.events.toList.head?.map (·.2.stamp)

def killAllEvents (force : Bool) : EventProcessor := { p with phase := .killing force p.begin? }

/-- The node that an iterator names; an iterator that names none dangles. -/
def node? (itr : Nat) : Option (Nat × Node) := p.events.toList.find? (·.2.stamp = itr)

/-- The end of a round of `KillAllEvents`, from the test for deletable events on. -/
def killSettle (force : Bool) (itr : Nat) (deletable : Bool) : Option EventProcessor := do
  let node ← p.node? itr
  let next := following itr p.events.toList
  if !force && !deletable then some { p with phase := .killing force next }
  else if force then some { p.delete node.2.event with phase := .killing force next }
  else
    some { p.delete node.2.event with
      events := p.events.eraseIf (·.2.stamp = itr)
      phase := .killing force next }

def killRound (force : Bool) (itr : Option Nat) (deletable : Bool) : Option EventProcessor :=
  match itr with
  | none =>
    if force then some { p with events := Multimap.empty, phase := .idle }
    else some { p with phase := .idle }
  | some itr => do
    let node ← p.node? itr
    if (p.heap node.2.event).abortState = .aborted then p.killSettle force itr deletable
    else
      let p ← p.setAborted node.2.event
      return { p.callAbort node.2.event with phase := .killAborting force itr }

/-! ## Steps -/

inductive Action where
  | addEvent (event eTime : Nat) (setAddtime : Bool)
  | modifyEventTime (event newTime : Nat)
  | scheduleAbort (event : Nat)
  | update (pTime : Nat)
  | killAllEvents (force : Bool)
  /-- The code goes on: `Execute` returns `result`, `IsDeletable` answers `deletable`. -/
  | proceed (result deletable : Bool)
  deriving DecidableEq, Repr

def step : Action → Option EventProcessor
  | .addEvent event eTime setAddtime => some (p.addEvent event eTime setAddtime)
  | .modifyEventTime event newTime => some (p.modifyEventTime event newTime)
  | .scheduleAbort event => p.scheduleAbort event
  | .update pTime => some (p.update pTime)
  | .killAllEvents force => some (p.killAllEvents force)
  | .proceed result deletable =>
    match p.phase with
    | .idle => none
    | .updating => some (p.updateRound deletable)
    | .executing event => some (p.executed event result)
    | .aborting event => p.aborted event deletable
    | .killing force itr => p.killRound force itr deletable
    | .killAborting force itr => p.killSettle force itr deletable

/-- Between the operations, or in a callback. -/
def MayCall : Prop :=
  match p.phase with
  | .idle | .executing _ | .aborting _ | .killAborting _ _ => True
  | .updating | .killing _ _ => False

/-- The event whose `Abort` `KillAllEvents` has called. -/
def IsKilled (event : Nat) : Prop :=
  match p.phase with
  | .killAborting _ itr => ∃ x ∈ p.events.toList, x.2.stamp = itr ∧ x.2.event = event
  | _ => False

/-- How owners may use the processor. Events that are added are new or were taken out, or it is
`Execute` that adds its own event again; `ScheduleAbort` is for running queued events; and the
event being aborted is not moved. -/
def Admissible : Action → Prop
  | .addEvent event _ _ =>
    p.MayCall ∧ ((p.heap event).place = .unborn ∨ (p.heap event).place = .released ∨
      (p.phase = .executing event ∧ (p.heap event).place = .current))
  | .modifyEventTime event _ =>
    p.MayCall ∧ (p.heap event).place ≠ .deleted ∧ ¬p.IsKilled event
  | .scheduleAbort event =>
    p.MayCall ∧ (p.heap event).place = .queued ∧ (p.heap event).abortState = .running
  | .update _ | .killAllEvents _ => p.phase = .idle
  | .proceed result _ =>
    ∀ event, p.phase = .executing event → result = true → (p.heap event).place ≠ .queued

def Step (p : EventProcessor) (a : Action) (q : EventProcessor) : Prop :=
  p.Admissible a ∧ p.step a = some q

end EventProcessor

end EGServer.Scheduling
