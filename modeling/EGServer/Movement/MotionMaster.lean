import EGServer.Lib.GuardedRun
import EGServer.Lib.SortedMap
import Mathlib.Algebra.Ring.Nat
import Mathlib.Logic.Function.Basic

/-!
# The motion master

`MotionMaster` owns the movement generators of a unit: one default generator, and the active ones
in a map from (priority, mode) to a list. The hooks of a generator may call back while `Update`
runs, and what they ask for is delayed, so `Update` is not one step: `Phase` says where in it the
motion master stands. What the hooks return is part of the step.

A generator is named by its address; the address of a deleted generator names no other. Reading a
deleted generator is undefined, and so is what a failed assertion leaves: `none`.
-/

namespace EGServer.Movement

/-! ## Movement generators -/

abbrev Address := Nat

/-- The one `IdleMovementGenerator` that all units share. -/
def idleGenerator : Address := 0

def isStatic (movement : Address) : Bool := movement = idleGenerator

inductive MovementSlot where
  | default
  | active
  | max
  deriving DecidableEq, Repr

def isInvalidMovementSlot (slot : MovementSlot) : Bool := slot = .max

def idleMotionType : Nat := 0
def randomMotionType : Nat := 1
def waypointMotionType : Nat := 2
def maxDbMotionType : Nat := 3
def maxMotionType : Nat := 20

def isInvalidMovementGeneratorType (type : Nat) : Bool :=
  type = maxDbMotionType || maxMotionType ≤ type

def motionModeDefault : Nat := 0
def motionPriorityNormal : Nat := 1
def unitStateRoaming : BitVec 32 := 0x10

/-- What the constructor of a generator sets for good. -/
structure MovementKind where
  mode : Nat
  priority : Nat
  type : Nat
  baseUnitState : BitVec 32
  immediate : Bool
  deriving DecidableEq, Repr

structure MovementGenerator extends MovementKind where
  initializationPending : Bool
  initialized : Bool
  deactivated : Bool
  finalized : Bool
  /-- how often `Finalize` was called -/
  finalizes : Nat
  /-- how often it was deleted -/
  deletes : Nat
  /-- deleted by `Add`, which did not take it -/
  refused : Bool
  deriving DecidableEq, Repr

namespace MovementGenerator

variable (a : MovementGenerator)

def key : Nat × Nat := (a.priority, a.mode)

def onInitialize : MovementGenerator :=
  { a with initializationPending := false, deactivated := false, initialized := true }

def onReset : MovementGenerator := { a with deactivated := false }

def onDeactivate : MovementGenerator := { a with deactivated := true }

def onFinalize : MovementGenerator := { a with finalized := true, finalizes := a.finalizes + 1 }

def delete : MovementGenerator := { a with deletes := a.deletes + 1 }

def refuse : MovementGenerator := { a with deletes := a.deletes + 1, refused := true }

/-- Initialized and not deactivated. -/
def awake : Bool := a.initialized && !a.deactivated

end MovementGenerator

/-- A new generator. -/
def MovementKind.create (kind : MovementKind) : MovementGenerator where
  toMovementKind := kind
  initializationPending := true
  initialized := false
  deactivated := false
  finalized := false
  finalizes := 0
  deletes := 0
  refused := false

def IdleMovementGenerator : MovementGenerator where
  mode := motionModeDefault
  priority := motionPriorityNormal
  type := idleMotionType
  baseUnitState := 0
  immediate := false
  initializationPending := false
  initialized := true
  deactivated := false
  finalized := false
  finalizes := 0
  deletes := 0
  refused := false

def RandomMovementGenerator : MovementKind where
  mode := motionModeDefault
  priority := motionPriorityNormal
  type := randomMotionType
  baseUnitState := unitStateRoaming
  immediate := false

def WaypointMovementGenerator : MovementKind where
  mode := motionModeDefault
  priority := motionPriorityNormal
  type := waypointMotionType
  baseUnitState := unitStateRoaming
  immediate := false

/-- What `FactorySelector::SelectMovementGenerator` makes: the registered factories. -/
inductive DefaultMovementType where
  | idle
  | random
  | waypoint
  deriving DecidableEq, Repr

/-! ## The container -/

/-- `MovementGeneratorComparator` -/
def keyComp (a b : Nat × Nat) : Bool :=
  if a.1 ≠ b.1 then decide (b.1 < a.1) else decide (b.2 < a.2)

abbrev MotionMasterContainer := List ((Nat × Nat) × List Address)

/-- `std::list::erase` of a generator under a key, and of the node when its list is empty. -/
def eraseFrom (key : Nat × Nat) (movement : Address) : MotionMasterContainer → MotionMasterContainer
  | [] => []
  | node :: rest =>
    if node.1 = key then
      if (node.2.erase movement).isEmpty then rest else (key, node.2.erase movement) :: rest
    else node :: eraseFrom key movement rest

inductive DelayedAction where
  | initializeMotion
  | add (movement : Address) (slot : MovementSlot)
  | remove (movement : Address) (slot : MovementSlot)
  | removeType (type : Nat) (slot : MovementSlot) (key : Nat × Nat)
  | clear
  | clearSlot (slot : MovementSlot)
  | clearFilter (filter : Address → MovementGenerator → Bool)

inductive InitializationState where
  | no
  | success
  | alreadyInitialized
  deriving DecidableEq, Repr

/-- Where in an operation the motion master stands. -/
inductive Phase where
  | idle
  /-- the hooks of `top` run in `Update` -/
  | updating (top : Address) (initializationState : InitializationState)
  /-- `Finalize` of the generator that `Update` pops runs -/
  | popping (movement : Address)
  /-- the delayed actions are resolved -/
  | resolving
  deriving DecidableEq, Repr

structure MotionMaster where
  heap : Address → MovementGenerator
  /-- the next free address -/
  next : Address
  defaultGenerator : Option Address
  generators : MotionMasterContainer
  baseUnitStatesMap : List (BitVec 32 × Address)
  /-- the state of the owner -/
  unitState : BitVec 32
  delayedActions : List DelayedAction
  updateInProgress : Bool
  staticInitializationPending : Bool
  initializationPending : Bool
  initializing : Bool
  staticPreventInitialization : Bool
  phase : Phase

namespace MotionMaster

/-- A new motion master; no other generator than the idle one exists. -/
def start : MotionMaster where
  heap _ := IdleMovementGenerator
  next := 1
  defaultGenerator := none
  generators := []
  baseUnitStatesMap := []
  unitState := 0
  delayedActions := []
  updateInProgress := false
  staticInitializationPending := false
  initializationPending := true
  initializing := false
  staticPreventInitialization := false
  phase := .idle

variable (p : MotionMaster)

/-- `HasFlag(MOTIONMASTER_FLAG_DELAYED)` -/
def isDelayed : Bool := p.updateInProgress || p.initializationPending

def isEmpty : Bool := p.defaultGenerator.isNone && p.generators.isEmpty

def currentMovementGenerator : Option Address :=
  match p.generators with
  | [] => p.defaultGenerator
  | node :: _ => node.2.head?

/-! ## Reading and writing generators -/

def setGenerator (movement : Address) (a : MovementGenerator) : MotionMaster :=
  { p with heap := Function.update p.heap movement a }

def read (movement : Address) : Option MovementGenerator :=
  if (p.heap movement).deletes = 0 then some (p.heap movement) else none

def modify (movement : Address) (f : MovementGenerator → MovementGenerator) :
    Option MotionMaster := do
  return p.setGenerator movement (f (← p.read movement))

def initializeHook (movement : Address) : Option MotionMaster :=
  p.modify movement MovementGenerator.onInitialize

def resetHook (movement : Address) : Option MotionMaster :=
  p.modify movement MovementGenerator.onReset

/-- `IdleMovementGenerator::Deactivate` does nothing. -/
def deactivateHook (movement : Address) : Option MotionMaster :=
  if isStatic movement then some p else p.modify movement MovementGenerator.onDeactivate

def finalizeHook (movement : Address) : Option MotionMaster :=
  p.modify movement MovementGenerator.onFinalize

/-- `MovementGeneratorPointerDeleter` -/
def pointerDeleter (movement : Address) : Option MotionMaster :=
  if isStatic movement then some p else p.modify movement MovementGenerator.delete

/-- `Add` deletes a generator that it does not take. -/
def refuse (movement : Address) : Option MotionMaster :=
  p.modify movement MovementGenerator.refuse

/-! ## The unit states -/

def addBaseUnitState (movement : Address) : Option MotionMaster := do
  let a ← p.read movement
  if a.baseUnitState = 0 then return p
  return { p with
    baseUnitStatesMap := (a.baseUnitState, movement) :: p.baseUnitStatesMap,
    unitState := p.unitState ||| a.baseUnitState }

def clearBaseUnitState (movement : Address) : Option MotionMaster := do
  let a ← p.read movement
  if a.baseUnitState = 0 then return p
  let map := p.baseUnitStatesMap.filter (· ≠ (a.baseUnitState, movement))
  return { p with
    baseUnitStatesMap := map,
    unitState :=
      if map.all (·.1 ≠ a.baseUnitState) then p.unitState &&& ~~~a.baseUnitState
      else p.unitState }

def clearBaseUnitStates : MotionMaster :=
  { p with
    baseUnitStatesMap := [],
    unitState :=
      p.unitState &&& ~~~(p.baseUnitStatesMap.foldl (fun unitState itr => unitState ||| itr.1) 0) }

/-! ## The private members -/

/-- `_Delete` after `Finalize`. -/
def release (movement : Address) : Option MotionMaster := do
  (← p.clearBaseUnitState movement).pointerDeleter movement

def delete (movement : Address) : Option MotionMaster := do
  (← p.finalizeHook movement).release movement

def deleteDefault (movement : Address) : Option MotionMaster := do
  let p ← p.finalizeHook movement
  MotionMaster.pointerDeleter
    { p with defaultGenerator := some idleGenerator, staticInitializationPending := true } movement

def erase (key : Nat × Nat) (movement : Address) : MotionMaster :=
  { p with generators := eraseFrom key movement p.generators }

/-- `_Remove` -/
def removeGenerator (key : Nat × Nat) (movement : Address) : Option MotionMaster :=
  (p.erase key movement).delete movement

def pop : Option MotionMaster :=
  match p.generators with
  | [] => some p
  | node :: _ => do p.removeGenerator node.1 (← node.2.head?)

/-- Pop until no active generator is left, `fuel` times at most. -/
def popAll : Nat → MotionMaster → Option MotionMaster
  | 0, p => if p.generators.isEmpty then some p else none
  | fuel + 1, p => if p.generators.isEmpty then some p else do popAll fuel (← p.pop)

/-- The active generators, the current one first. -/
def activeGenerators : List Address := p.generators.flatMap Prod.snd

def directClear : Option MotionMaster := do
  return (← popAll p.activeGenerators.length p).clearBaseUnitStates

def directClearDefault : Option MotionMaster :=
  match p.defaultGenerator with
  | none => some p
  | some movement => p.deleteDefault movement

/-- The inner loop of `_DirectClear(filter)`: `kept` is what stays of the list, and `pointer` the
generator erased last. -/
def clearList (filter : Address → MovementGenerator → Bool) :
    List Address → List Address → Option Address → MotionMaster →
      Option (List Address × Option Address × MotionMaster)
  | kept, [], pointer, p => some (kept, pointer, p)
  | kept, movement :: rest, pointer, p => do
    if filter movement (← p.read movement) then
      if rest.isEmpty && !kept.isEmpty then
        clearList filter kept rest (some movement) (← p.delete movement)
      else clearList filter kept rest (some movement) p
    else clearList filter (kept ++ [movement]) rest pointer p

/-- The outer loop of `_DirectClear(filter)`: what stays of the nodes. -/
def clearNodes (filter : Address → MovementGenerator → Bool) :
    MotionMasterContainer → MotionMaster → Option (MotionMasterContainer × MotionMaster)
  | [], p => some ([], p)
  | node :: rest, p => do
    let (kept, pointer, p) ← clearList filter [] node.2 none p
    if kept.isEmpty then clearNodes filter rest (← p.delete (← pointer))
    else
      let (nodes, p) ← clearNodes filter rest p
      return ((node.1, kept) :: nodes, p)

def directClearFilter (filter : Address → MovementGenerator → Bool) : Option MotionMaster := do
  let (nodes, p) ← clearNodes filter p.generators p
  return { p with generators := nodes }

def setDefault (movement : Address) : MotionMaster :=
  { p with
    defaultGenerator := some movement,
    staticInitializationPending := p.staticInitializationPending || isStatic movement }

def directAddDefault (movement : Address) : Option MotionMaster :=
  match p.defaultGenerator with
  | none => some (p.setDefault movement)
  | some existing => do ((← p.finalizeHook existing).setDefault movement).pointerDeleter existing

/-- `_DirectAdd` where `movement` takes the place of the generators under its key, `before` and
`rest` being the nodes on both sides. -/
def replaceExisting (movement : Address) (before : MotionMasterContainer)
    (node : (Nat × Nat) × List Address) (rest : MotionMasterContainer) : Option MotionMaster := do
  let existing ← node.2.head?
  let p ← { p with generators := before ++ (node.1, [movement]) :: rest }.delete existing
  p.addBaseUnitState movement

/-- The current generator is deactivated when no node is `before` the new one. -/
def deactivateTop (before : MotionMasterContainer) : Option MotionMaster :=
  match p.generators with
  | [] => do p.deactivateHook (← p.defaultGenerator)
  | node :: _ => if before.isEmpty then do p.deactivateHook (← node.2.head?) else some p

/-- `_DirectAdd` where `movement` does not replace a generator. -/
def insertGenerator (movement : Address) (a : MovementGenerator)
    (before rest : MotionMasterContainer) : Option MotionMaster := do
  let p ← p.deactivateTop before
  if a.immediate then (← p.finalizeHook movement).modify movement MovementGenerator.delete
  else
    MotionMaster.addBaseUnitState
      { p with generators := before ++ (a.key, [movement]) :: rest } movement

def directAddActive (movement : Address) : Option MotionMaster := do
  let a ← p.read movement
  let itr := SortedMap.lowerBound keyComp p.generators a.key
  match itr.2 with
  | [] => p.insertGenerator movement a itr.1 []
  | node :: rest =>
    if !a.immediate && !keyComp a.key node.1 then p.replaceExisting movement itr.1 node rest
    else p.insertGenerator movement a itr.1 (node :: rest)

def directAdd (movement : Address) : MovementSlot → Option MotionMaster
  | .default => p.directAddDefault movement
  | .active => p.directAddActive movement
  | .max => some p

/-! ## The operations -/

def delay (action : DelayedAction) : MotionMaster :=
  { p with delayedActions := p.delayedActions ++ [action] }

/-- The end of `Add`. -/
def file (movement : Address) (slot : MovementSlot) : Option MotionMaster :=
  if p.isDelayed then some (p.delay (.add movement slot)) else p.directAdd movement slot

def wouldBecomeTop (key : Nat × Nat) : Bool :=
  (SortedMap.lowerBound keyComp p.generators key).1.isEmpty

/-- `Add`; `ok` is what `Initialize` returns. -/
def add (movement : Address) (slot : MovementSlot) (ok : Bool) : Option MotionMaster := do
  if isInvalidMovementSlot slot then p.refuse movement
  else
    let a ← p.read movement
    if a.immediate && a.initializationPending then
      if p.wouldBecomeTop a.key then
        let p ← p.initializeHook movement
        if ok then p.file movement slot else p.refuse movement
      else p.refuse movement
    else p.file movement slot

/-- A new generator, at the next free address. -/
def create (kind : MovementKind) : MotionMaster :=
  { p with heap := Function.update p.heap p.next kind.create, next := p.next + 1 }

/-- `InitializeDefault` -/
def initializeDefault (type : DefaultMovementType) (ok : Bool) : Option MotionMaster :=
  match type with
  | .idle => p.add idleGenerator .default ok
  | .random => (p.create RandomMovementGenerator).add p.next .default ok
  | .waypoint => (p.create WaypointMovementGenerator).add p.next .default ok

def directInitialize (type : DefaultMovementType) (ok : Bool) : Option MotionMaster := do
  (← (← p.directClearDefault).directClear).initializeDefault type ok

/-- `Initialize` -/
def initializeMotion (type : DefaultMovementType) (ok : Bool) : Option MotionMaster :=
  if p.initializationPending then some p
  else if p.updateInProgress then some (p.delay .initializeMotion)
  else p.directInitialize type ok

/-- `Remove` by pointer. -/
def remove (movement : Address) (slot : MovementSlot) : Option MotionMaster :=
  if isInvalidMovementSlot slot then some p
  else if p.isDelayed then some (p.delay (.remove movement slot))
  else if p.isEmpty then some p
  else
    match slot with
    | .default =>
      if p.defaultGenerator = some movement then p.directClearDefault else some p
    | .active =>
      if p.generators.isEmpty then some p
      else do
        let a ← p.read movement
        match p.generators.find? (·.1 = a.key) with
        | none => return p
        | some node =>
          if movement ∈ node.2 then p.removeGenerator node.1 movement else return p
    | .max => some p

/-- The first generator of a list that has the type. -/
def findType (type : Nat) : List Address → Option (Option Address)
  | [] => some none
  | movement :: rest => do
    if (← p.read movement).type = type then return some movement
    findType type rest

/-- `Remove` by type. -/
def removeType (type : Nat) (slot : MovementSlot) (key : Nat × Nat) : Option MotionMaster :=
  if isInvalidMovementGeneratorType type || isInvalidMovementSlot slot then some p
  else if p.isDelayed then some (p.delay (.removeType type slot key))
  else if p.isEmpty then some p
  else
    match slot with
    | .default =>
      match p.defaultGenerator with
      | none => some p
      | some movement => do
        if (← p.read movement).type = type then p.directClearDefault else return p
    | .active =>
      match p.generators.find? (·.1 = key) with
      | none => some p
      | some node => do
        match ← p.findType type node.2 with
        | none => return p
        | some movement => p.removeGenerator node.1 movement
    | .max => some p

def clear : Option MotionMaster :=
  if p.isDelayed then some (p.delay .clear)
  else if p.isEmpty then some p
  else p.directClear

def clearSlot (slot : MovementSlot) : Option MotionMaster :=
  if isInvalidMovementSlot slot then some p
  else if p.isDelayed then some (p.delay (.clearSlot slot))
  else if p.isEmpty then some p
  else
    match slot with
    | .default => p.directClearDefault
    | .active => p.directClear
    | .max => some p

def clearFilter (filter : Address → MovementGenerator → Bool) : Option MotionMaster :=
  if p.isDelayed then some (p.delay (.clearFilter filter))
  else if p.isEmpty then some p
  else p.directClearFilter filter

def clearMode (mode : Nat) : Option MotionMaster :=
  if p.isEmpty then some p else p.clearFilter fun _ a => a.mode = mode

def clearPriority (priority : Nat) : Option MotionMaster :=
  if p.isEmpty then some p else p.clearFilter fun _ a => a.priority = priority

/-- `AddFlag(MOTIONMASTER_FLAG_STATIC_PREVENT_INITIALIZATION)` -/
def preventStaticInitialization : MotionMaster :=
  { p with staticPreventInitialization := true }

/-! ## The steps -/

/-- What the code of the owner and of the generators answers in a step. -/
structure Answers where
  initializeResult : Bool
  resetResult : Bool
  updateResult : Bool
  select : DefaultMovementType
  deriving DecidableEq, Repr

inductive Call where
  | initializeMotion
  /-- a new generator is passed to `Add` -/
  | add (kind : MovementKind) (slot : MovementSlot)
  | moveIdle
  | remove (movement : Address) (slot : MovementSlot)
  | removeType (type : Nat) (slot : MovementSlot) (key : Nat × Nat)
  | clear
  | clearSlot (slot : MovementSlot)
  | clearMode (mode : Nat)
  | clearPriority (priority : Nat)
  | clearFilter (filter : Address → MovementGenerator → Bool)
  | preventStaticInitialization

def call (answers : Answers) : Call → Option MotionMaster
  | .initializeMotion => p.initializeMotion answers.select answers.initializeResult
  | .add kind slot => (p.create kind).add p.next slot answers.initializeResult
  | .moveIdle => p.add idleGenerator .default answers.initializeResult
  | .remove movement slot => p.remove movement slot
  | .removeType type slot key => p.removeType type slot key
  | .clear => p.clear
  | .clearSlot slot => p.clearSlot slot
  | .clearMode mode => p.clearMode mode
  | .clearPriority priority => p.clearPriority priority
  | .clearFilter filter => p.clearFilter filter
  | .preventStaticInitialization => some p.preventStaticInitialization

/-- The closure of a delayed action. -/
def resolve (answers : Answers) : DelayedAction → Option MotionMaster
  | .initializeMotion => p.initializeMotion answers.select answers.initializeResult
  | .add movement slot => p.add movement slot answers.initializeResult
  | .remove movement slot => p.remove movement slot
  | .removeType type slot key => p.removeType type slot key
  | .clear => p.clear
  | .clearSlot slot => p.clearSlot slot
  | .clearFilter filter => p.clearFilter filter

/-- `AddToWorld` up to the delayed actions. -/
def addToWorld (answers : Answers) : Option MotionMaster :=
  if p.initializationPending then do
    let q ← { p with initializing := true, initializationPending := false }.directInitialize
      answers.select answers.initializeResult
    return { q with phase := .resolving }
  else some p

/-- The part of `Update` that is about the idle generator. -/
def initializeStatic (top : Address) : Option (MotionMaster × InitializationState) :=
  if p.staticInitializationPending && isStatic top then
    if p.staticPreventInitialization then
      some ({ p with staticInitializationPending := false, staticPreventInitialization := false },
        .alreadyInitialized)
    else do
      return (← { p with staticInitializationPending := false }.initializeHook top, .success)
  else some (p, .alreadyInitialized)

def initializePending (top : Address) (ok : Bool) (initializationState : InitializationState) :
    Option (MotionMaster × InitializationState) := do
  if (← p.read top).initializationPending then
    return (← p.initializeHook top, if ok then .success else .no)
  return (p, initializationState)

def resetDeactivated (top : Address) (ok : Bool) (initializationState : InitializationState) :
    Option (MotionMaster × InitializationState) := do
  if (← p.read top).deactivated then
    return (← p.resetHook top, if ok then .success else .no)
  return (p, initializationState)

/-- `Update` up to the end of `top`'s `Initialize` and `Reset`. -/
def update (answers : Answers) : Option MotionMaster :=
  if p.initializationPending || p.initializing then some p
  else do
    let top ← p.currentMovementGenerator
    let (p, state) ← { p with updateInProgress := true }.initializeStatic top
    let (p, state) ← p.initializePending top answers.initializeResult state
    let (p, state) ← p.resetDeactivated top answers.resetResult state
    let a ← p.read top
    if a.initializationPending || a.deactivated then none
    else return { p with phase := .updating top state }

/-- The end of `Update` before the delayed actions. -/
def updated : MotionMaster := { p with updateInProgress := false, phase := .resolving }

/-- `_Pop` of `Update`, up to `Finalize`; there is nothing to pop when the default generator is
current. -/
def popTop : Option MotionMaster :=
  match p.generators with
  | [] => some p.updated
  | node :: _ => do
    let movement ← node.2.head?
    let q ← (p.erase node.1 movement).finalizeHook movement
    return { q with phase := .popping movement }

/-- Go on with the operation. An action is taken off the queue first, which is the same as last,
as actions are only added behind. -/
def proceed (answers : Answers) : Option MotionMaster :=
  match p.phase with
  | .idle => none
  | .updating top state =>
    if state ≠ .success && !answers.updateResult then
      if p.currentMovementGenerator = some top then p.popTop else none
    else some p.updated
  | .popping movement => do return (← p.release movement).updated
  | .resolving =>
    match p.delayedActions with
    | [] => some { p with initializing := false, phase := .idle }
    | action :: rest => { p with delayedActions := rest }.resolve answers action

inductive Action where
  | addToWorld
  | update
  | call (call : Call)
  | proceed

/-- The owner takes one operation at a time; the hooks that `Update` calls may call back. A
pointer passed to `Remove` is that of a generator. -/
def Admissible : Action × Answers → Prop
  | (.addToWorld, _) | (.update, _) => p.phase = .idle
  | (.call (.remove movement _), _) =>
    p.phase ≠ .resolving ∧ movement < p.next ∧ (p.heap movement).deletes = 0
  | (.call _, _) => p.phase ≠ .resolving
  | (.proceed, _) => p.phase ≠ .idle

def step (act : Action × Answers) : Option MotionMaster :=
  match act.1 with
  | .addToWorld => p.addToWorld act.2
  | .update => p.update act.2
  | .call c => p.call act.2 c
  | .proceed => p.proceed act.2

end MotionMaster

/-- A step that is defined. -/
def Step (p : MotionMaster) (act : MotionMaster.Action × MotionMaster.Answers) (q : MotionMaster) :
    Prop :=
  p.Admissible act ∧ p.step act = some q

end EGServer.Movement
