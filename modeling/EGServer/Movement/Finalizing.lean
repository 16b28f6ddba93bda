import EGServer.Lib.Logged
import EGServer.Movement.MotionRun

/-!
# What generators are told

The operations of the motion master once more, with the arguments of every call of `Finalize`:
whether the generator was `active`, and whether it ended by itself (`movementInform`). Each of them
is the operation of `MotionMaster` without the log (`Erases`).
-/

namespace EGServer.Movement

/-- A call of `Finalize`. -/
structure FinalizeCall where
  movement : Address
  active : Bool
  movementInform : Bool
  deriving DecidableEq, Repr

abbrev Traced := Logged FinalizeCall

namespace Traced

/-! ## The private members -/

def finalizeHook (p : MotionMaster) (movement : Address) (active movementInform : Bool) :
    Traced MotionMaster :=
  .log ⟨movement, active, movementInform⟩ (p.finalizeHook movement)

/-- `_Delete` -/
def delete (p : MotionMaster) (movement : Address) (active movementInform : Bool) :
    Traced MotionMaster := do
  let p ← finalizeHook p movement active movementInform
  .lift (p.release movement)

/-- `_DeleteDefault` -/
def deleteDefault (p : MotionMaster) (movement : Address) (active movementInform : Bool) :
    Traced MotionMaster := do
  let p ← finalizeHook p movement active movementInform
  .lift (MotionMaster.pointerDeleter
    { p with defaultGenerator := some idleGenerator, staticInitializationPending := true } movement)

/-- `_Remove` -/
def removeGenerator (p : MotionMaster) (key : Nat × Nat) (movement : Address)
    (active movementInform : Bool) : Traced MotionMaster :=
  delete (p.erase key movement) movement active movementInform

/-- `_Pop` -/
def pop (p : MotionMaster) (active movementInform : Bool) : Traced MotionMaster :=
  match p.generators with
  | [] => pure p
  | node :: _ => do
    let movement ← .lift node.2.head?
    removeGenerator p node.1 movement active movementInform

/-- The pops of `_DirectClear`: the first is `active`, the others are not. -/
def popAll : Nat → Bool → MotionMaster → Traced MotionMaster
  | 0, _, p => if p.generators.isEmpty then pure p else .lift none
  | fuel + 1, active, p =>
    if p.generators.isEmpty then pure p
    else do
      let p ← pop p active false
      popAll fuel false p

def directClear (p : MotionMaster) : Traced MotionMaster := do
  let p ← popAll p.activeGenerators.length true p
  return p.clearBaseUnitStates

def directClearDefault (p : MotionMaster) : Traced MotionMaster :=
  match p.defaultGenerator with
  | none => pure p
  | some movement => deleteDefault p movement p.generators.isEmpty false

/-- The inner loop of `_DirectClear(filter)`. -/
def clearList (filter : Address → MovementGenerator → Bool) (top : Bool) :
    List Address → List Address → Option Address → MotionMaster →
      Traced (List Address × Option Address × MotionMaster)
  | kept, [], pointer, p => pure (kept, pointer, p)
  | kept, movement :: rest, pointer, p => do
    let a ← .lift (p.read movement)
    if filter movement a then
      if rest.isEmpty && !kept.isEmpty then do
        let p ← delete p movement top false
        clearList filter top kept rest (some movement) p
      else clearList filter top kept rest (some movement) p
    else clearList filter top (kept ++ [movement]) rest pointer p

/-- The outer loop of `_DirectClear(filter)`. `top` is computed for each node: no node stays before
it, so that it is `_generators.begin()`. -/
def clearNodes (filter : Address → MovementGenerator → Bool) :
    Bool → MotionMasterContainer → MotionMaster → Traced (MotionMasterContainer × MotionMaster)
  | _, [], p => pure ([], p)
  | top, node :: rest, p => do
    let list ← clearList filter top [] node.2 none p
    if list.1.isEmpty then do
      let pointer ← .lift list.2.1
      let p ← delete list.2.2 pointer top false
      clearNodes filter top rest p
    else do
      let nodes ← clearNodes filter false rest list.2.2
      return ((node.1, list.1) :: nodes.1, nodes.2)

def directClearFilter (p : MotionMaster) (filter : Address → MovementGenerator → Bool) :
    Traced MotionMaster := do
  let nodes ← clearNodes filter true p.generators p
  return { nodes.2 with generators := nodes.1 }

def directAddDefault (p : MotionMaster) (movement : Address) : Traced MotionMaster :=
  match p.defaultGenerator with
  | none => pure (p.setDefault movement)
  | some existing => do
    let q ← finalizeHook p existing p.generators.isEmpty false
    .lift ((q.setDefault movement).pointerDeleter existing)

/-- The generator that is replaced is active if its key is the first one. -/
def replaceExisting (p : MotionMaster) (movement : Address) (newKey : Nat × Nat)
    (before : MotionMasterContainer) (node : (Nat × Nat) × List Address)
    (rest : MotionMasterContainer) : Traced MotionMaster := do
  let existing ← .lift node.2.head?
  let p ← delete { p with generators := before ++ (node.1, [movement]) :: rest } existing
    (p.generators.head?.map Prod.fst = some newKey) false
  .lift (p.addBaseUnitState movement)

def insertGenerator (p : MotionMaster) (movement : Address) (a : MovementGenerator)
    (before rest : MotionMasterContainer) : Traced MotionMaster := do
  let p ← .lift (p.deactivateTop before)
  if a.immediate then do
    let p ← finalizeHook p movement true true
    .lift (p.modify movement MovementGenerator.delete)
  else
    .lift (MotionMaster.addBaseUnitState
      { p with generators := before ++ (a.key, [movement]) :: rest } movement)

def directAddActive (p : MotionMaster) (movement : Address) : Traced MotionMaster := do
  let a ← .lift (p.read movement)
  let itr := SortedMap.lowerBound keyComp p.generators a.key
  match itr.2 with
  | [] => insertGenerator p movement a itr.1 []
  | node :: rest =>
    if !a.immediate && !keyComp a.key node.1 then replaceExisting p movement a.key itr.1 node rest
    else insertGenerator p movement a itr.1 (node :: rest)

def directAdd (p : MotionMaster) (movement : Address) : MovementSlot → Traced MotionMaster
  | .default => directAddDefault p movement
  | .active => directAddActive p movement
  | .max => pure p

/-! ## The operations -/

def file (p : MotionMaster) (movement : Address) (slot : MovementSlot) : Traced MotionMaster :=
  if p.isDelayed then pure (p.delay (.add movement slot)) else directAdd p movement slot

def add (p : MotionMaster) (movement : Address) (slot : MovementSlot) (ok : Bool) :
    Traced MotionMaster :=
  if isInvalidMovementSlot slot then .lift (p.refuse movement)
  else do
    let a ← .lift (p.read movement)
    if a.immediate && a.initializationPending then
      if p.wouldBecomeTop a.key then do
        let p ← .lift (p.initializeHook movement)
        if ok then file p movement slot else .lift (p.refuse movement)
      else .lift (p.refuse movement)
    else file p movement slot

def initializeDefault (p : MotionMaster) (type : DefaultMovementType) (ok : Bool) :
    Traced MotionMaster :=
  match type with
  | .idle => add p idleGenerator .default ok
  | .random => add (p.create RandomMovementGenerator) p.next .default ok
  | .waypoint => add (p.create WaypointMovementGenerator) p.next .default ok

def directInitialize (p : MotionMaster) (type : DefaultMovementType) (ok : Bool) :
    Traced MotionMaster := do
  let p ← directClearDefault p
  let p ← directClear p
  initializeDefault p type ok

def initializeMotion (p : MotionMaster) (type : DefaultMovementType) (ok : Bool) :
    Traced MotionMaster :=
  if p.initializationPending then pure p
  else if p.updateInProgress then pure (p.delay .initializeMotion)
  else directInitialize p type ok

/-- `Remove` by pointer. -/
def remove (p : MotionMaster) (movement : Address) (slot : MovementSlot) : Traced MotionMaster :=
  if isInvalidMovementSlot slot then pure p
  else if p.isDelayed then pure (p.delay (.remove movement slot))
  else if p.isEmpty then pure p
  else
    match slot with
    | .default => if p.defaultGenerator = some movement then directClearDefault p else pure p
    | .active =>
      if p.generators.isEmpty then pure p
      else do
        let a ← .lift (p.read movement)
        match p.generators.find? (·.1 = a.key) with
        | none => pure p
        | some node =>
          if movement ∈ node.2 then
            removeGenerator p node.1 movement (p.currentMovementGenerator = some movement) false
          else pure p
    | .max => pure p

/-- `Remove` by type. -/
def removeType (p : MotionMaster) (type : Nat) (slot : MovementSlot) (key : Nat × Nat) :
    Traced MotionMaster :=
  if isInvalidMovementGeneratorType type || isInvalidMovementSlot slot then pure p
  else if p.isDelayed then pure (p.delay (.removeType type slot key))
  else if p.isEmpty then pure p
  else
    match slot with
    | .default =>
      match p.defaultGenerator with
      | none => pure p
      | some movement => do
        let a ← .lift (p.read movement)
        if a.type = type then directClearDefault p else pure p
    | .active =>
      match p.generators.find? (·.1 = key) with
      | none => pure p
      | some node => do
        match ← .lift (p.findType type node.2) with
        | none => pure p
        | some movement =>
          removeGenerator p node.1 movement (p.currentMovementGenerator = some movement) false
    | .max => pure p

def clear (p : MotionMaster) : Traced MotionMaster :=
  if p.isDelayed then pure (p.delay .clear)
  else if p.isEmpty then pure p
  else directClear p

def clearSlot (p : MotionMaster) (slot : MovementSlot) : Traced MotionMaster :=
  if isInvalidMovementSlot slot then pure p
  else if p.isDelayed then pure (p.delay (.clearSlot slot))
  else if p.isEmpty then pure p
  else
    match slot with
    | .default => directClearDefault p
    | .active => directClear p
    | .max => pure p

def clearFilter (p : MotionMaster) (filter : Address → MovementGenerator → Bool) :
    Traced MotionMaster :=
  if p.isDelayed then pure (p.delay (.clearFilter filter))
  else if p.isEmpty then pure p
  else directClearFilter p filter

def clearMode (p : MotionMaster) (mode : Nat) : Traced MotionMaster :=
  if p.isEmpty then pure p else clearFilter p fun _ a => a.mode = mode

def clearPriority (p : MotionMaster) (priority : Nat) : Traced MotionMaster :=
  if p.isEmpty then pure p else clearFilter p fun _ a => a.priority = priority

/-! ## The steps -/

def call (p : MotionMaster) (answers : MotionMaster.Answers) :
    MotionMaster.Call → Traced MotionMaster
  | .initializeMotion => initializeMotion p answers.select answers.initializeResult
  | .add kind slot => add (p.create kind) p.next slot answers.initializeResult
  | .moveIdle => add p idleGenerator .default answers.initializeResult
  | .remove movement slot => remove p movement slot
  | .removeType type slot key => removeType p type slot key
  | .clear => clear p
  | .clearSlot slot => clearSlot p slot
  | .clearMode mode => clearMode p mode
  | .clearPriority priority => clearPriority p priority
  | .clearFilter filter => clearFilter p filter
  | .preventStaticInitialization => pure p.preventStaticInitialization

def resolve (p : MotionMaster) (answers : MotionMaster.Answers) :
    DelayedAction → Traced MotionMaster
  | .initializeMotion => initializeMotion p answers.select answers.initializeResult
  | .add movement slot => add p movement slot answers.initializeResult
  | .remove movement slot => remove p movement slot
  | .removeType type slot key => removeType p type slot key
  | .clear => clear p
  | .clearSlot slot => clearSlot p slot
  | .clearFilter filter => clearFilter p filter

def addToWorld (p : MotionMaster) (answers : MotionMaster.Answers) : Traced MotionMaster :=
  if p.initializationPending then do
    let q ← directInitialize { p with initializing := true, initializationPending := false }
      answers.select answers.initializeResult
    return { q with phase := .resolving }
  else pure p

/-- `_Pop(true, true)` up to `Finalize`. -/
def popTop (p : MotionMaster) : Traced MotionMaster :=
  match p.generators with
  | [] => pure p.updated
  | node :: _ => do
    let movement ← .lift node.2.head?
    let q ← finalizeHook (p.erase node.1 movement) movement true true
    return { q with phase := .popping movement }

def proceed (p : MotionMaster) (answers : MotionMaster.Answers) : Traced MotionMaster :=
  match p.phase with
  | .idle => .lift none
  | .updating top state =>
    if state ≠ .success && !answers.updateResult then
      if p.currentMovementGenerator = some top then popTop p else .lift none
    else pure p.updated
  | .popping movement => do
    let q ← .lift (p.release movement)
    return q.updated
  | .resolving =>
    match p.delayedActions with
    | [] => pure { p with initializing := false, phase := .idle }
    | action :: rest => resolve { p with delayedActions := rest } answers action

def step (p : MotionMaster) (act : MotionMaster.Action × MotionMaster.Answers) :
    Traced MotionMaster :=
  match act.1 with
  | .addToWorld => addToWorld p act.2
  | .update => .lift (p.update act.2)
  | .call c => call p act.2 c
  | .proceed => proceed p act.2

/-! ## Without the log -/

section Erasure

open Logged (Erases)

variable {p : MotionMaster} {movement : Address} {active movementInform ok : Bool}
  {filter : Address → MovementGenerator → Bool} {slot : MovementSlot}
  {answers : MotionMaster.Answers}

theorem finalizeHook_erases :
    Erases (finalizeHook p movement active movementInform) (p.finalizeHook movement) :=
  Erases.log _ _

theorem delete_erases : Erases (delete p movement active movementInform) (p.delete movement) :=
  finalizeHook_erases.bind fun _ => Erases.lift _

theorem deleteDefault_erases :
    Erases (deleteDefault p movement active movementInform) (p.deleteDefault movement) :=
  finalizeHook_erases.bind fun _ => Erases.lift _

theorem pop_erases : Erases (pop p active movementInform) p.pop := by
  unfold pop MotionMaster.pop
  cases p.generators with
  | nil => exact Erases.pure _
  | cons node rest => exact (Erases.lift _).bind fun _ => delete_erases

theorem popAll_erases (fuel : Nat) (active : Bool) (p : MotionMaster) :
    Erases (popAll fuel active p) (MotionMaster.popAll fuel p) := by
  induction fuel generalizing active p with
  | zero => exact Erases.ite (Erases.pure _) (Erases.lift _)
  | succ fuel ih => exact Erases.ite (Erases.pure _) (pop_erases.bind fun q => ih false q)

theorem directClear_erases : Erases (directClear p) p.directClear :=
  (popAll_erases _ _ _).bind fun _ => Erases.pure _

theorem directClearDefault_erases : Erases (directClearDefault p) p.directClearDefault := by
  unfold directClearDefault MotionMaster.directClearDefault
  cases p.defaultGenerator with
  | none => exact Erases.pure _
  | some movement => exact deleteDefault_erases

theorem clearList_erases (top : Bool) (kept list : List Address) (pointer : Option Address)
    (p : MotionMaster) : Erases (clearList filter top kept list pointer p)
      (MotionMaster.clearList filter kept list pointer p) := by
  induction list generalizing kept pointer p with
  | nil => exact Erases.pure _
  | cons movement rest ih =>
    refine (Erases.lift _).bind fun a => Erases.ite (Erases.ite ?_ ?_) ?_
    · exact delete_erases.bind fun q => ih kept (some movement) q
    · exact ih kept (some movement) p
    · exact ih (kept ++ [movement]) pointer p

theorem clearNodes_erases (top : Bool) (nodes : MotionMasterContainer) (p : MotionMaster) :
    Erases (clearNodes filter top nodes p) (MotionMaster.clearNodes filter nodes p) := by
  induction nodes generalizing top p with
  | nil => exact Erases.pure _
  | cons node rest ih =>
    refine (clearList_erases top [] node.2 none p).bind fun list => Erases.ite ?_ ?_
    · exact (Erases.lift _).bind fun pointer => delete_erases.bind fun q => ih top q
    · exact (ih false list.2.2).bind fun nodes => Erases.pure _

theorem directClearFilter_erases :
    Erases (directClearFilter p filter) (p.directClearFilter filter) :=
  (clearNodes_erases _ _ _).bind fun _ => Erases.pure _

theorem directAdd_erases : Erases (directAdd p movement slot) (p.directAdd movement slot) := by
  have hinsert : ∀ a before rest, Erases (insertGenerator p movement a before rest)
      (p.insertGenerator movement a before rest) := fun a before rest =>
    (Erases.lift _).bind fun q =>
      Erases.ite (finalizeHook_erases.bind fun _ => Erases.lift _) (Erases.lift _)
  cases slot with
  | default =>
    unfold directAdd directAddDefault MotionMaster.directAdd MotionMaster.directAddDefault
    cases p.defaultGenerator with
    | none => exact Erases.pure _
    | some existing => exact finalizeHook_erases.bind fun _ => Erases.lift _
  | active =>
    refine (Erases.lift _).bind fun a => ?_
    dsimp only
    cases (SortedMap.lowerBound keyComp p.generators a.key).2 with
    | nil => exact hinsert a _ _
    | cons node rest =>
      refine Erases.ite ?_ (hinsert a _ _)
      exact (Erases.lift _).bind fun _ => delete_erases.bind fun _ => Erases.lift _
  | max => exact Erases.pure _

theorem add_erases : Erases (add p movement slot ok) (p.add movement slot ok) := by
  have hfile : ∀ q : MotionMaster, Erases (file q movement slot) (q.file movement slot) :=
    fun q => Erases.ite (Erases.pure _) directAdd_erases
  refine Erases.ite (Erases.lift _) ((Erases.lift _).bind fun a => ?_)
  refine Erases.ite (Erases.ite ?_ (Erases.lift _)) (hfile p)
  exact (Erases.lift _).bind fun q => Erases.ite (hfile q) (Erases.lift _)

theorem directInitialize_erases {type : DefaultMovementType} :
    Erases (directInitialize p type ok) (p.directInitialize type ok) := by
  refine directClearDefault_erases.bind fun q => directClear_erases.bind fun r => ?_
  cases type with
  | idle => exact add_erases
  | random => exact add_erases
  | waypoint => exact add_erases

theorem initializeMotion_erases {type : DefaultMovementType} :
    Erases (initializeMotion p type ok) (p.initializeMotion type ok) :=
  Erases.ite (Erases.pure _) (Erases.ite (Erases.pure _) directInitialize_erases)

theorem remove_erases : Erases (remove p movement slot) (p.remove movement slot) := by
  refine Erases.ite (Erases.pure _) (Erases.ite (Erases.pure _) (Erases.ite (Erases.pure _) ?_))
  cases slot with
  | default => exact Erases.ite directClearDefault_erases (Erases.pure _)
  | active =>
    refine Erases.ite (Erases.pure _) ((Erases.lift _).bind fun a => ?_)
    cases p.generators.find? (·.1 = a.key) with
    | none => exact Erases.pure _
    | some node => exact Erases.ite delete_erases (Erases.pure _)
  | max => exact Erases.pure _

theorem removeType_erases {type : Nat} {key : Nat × Nat} :
    Erases (removeType p type slot key) (p.removeType type slot key) := by
  refine Erases.ite (Erases.pure _) (Erases.ite (Erases.pure _) (Erases.ite (Erases.pure _) ?_))
  cases slot with
  | default =>
    dsimp only
    cases p.defaultGenerator with
    | none => exact Erases.pure _
    | some d =>
      exact (Erases.lift _).bind fun a => Erases.ite directClearDefault_erases (Erases.pure _)
  | active =>
    dsimp only
    cases p.generators.find? (·.1 = key) with
    | none => exact Erases.pure _
    | some node =>
      refine (Erases.lift _).bind fun found => ?_
      cases found with
      | none => exact Erases.pure _
      | some x => exact delete_erases
  | max => exact Erases.pure _

theorem clear_erases : Erases (clear p) p.clear :=
  Erases.ite (Erases.pure _) (Erases.ite (Erases.pure _) directClear_erases)

theorem clearSlot_erases : Erases (clearSlot p slot) (p.clearSlot slot) := by
  refine Erases.ite (Erases.pure _) (Erases.ite (Erases.pure _) (Erases.ite (Erases.pure _) ?_))
  grind [Erases.pure, directClear_erases, directClearDefault_erases]

theorem clearFilter_erases : Erases (clearFilter p filter) (p.clearFilter filter) :=
  Erases.ite (Erases.pure _) (Erases.ite (Erases.pure _) directClearFilter_erases)

theorem call_erases (c : MotionMaster.Call) : Erases (call p answers c) (p.call answers c) := by
  cases c with
  | initializeMotion => exact initializeMotion_erases
  | add kind slot => exact add_erases
  | moveIdle => exact add_erases
  | remove movement slot => exact remove_erases
  | removeType type slot key => exact removeType_erases
  | clear => exact clear_erases
  | clearSlot slot => exact clearSlot_erases
  | clearMode mode => exact Erases.ite (Erases.pure _) clearFilter_erases
  | clearPriority priority => exact Erases.ite (Erases.pure _) clearFilter_erases
  | clearFilter filter => exact clearFilter_erases
  | preventStaticInitialization => exact Erases.pure _

theorem resolve_erases (action : DelayedAction) :
    Erases (resolve p answers action) (p.resolve answers action) := by
  cases action with
  | initializeMotion => exact initializeMotion_erases
  | add movement slot => exact add_erases
  | remove movement slot => exact remove_erases
  | removeType type slot key => exact removeType_erases
  | clear => exact clear_erases
  | clearSlot slot => exact clearSlot_erases
  | clearFilter filter => exact clearFilter_erases

theorem proceed_erases : Erases (proceed p answers) (p.proceed answers) := by
  unfold proceed MotionMaster.proceed
  cases p.phase with
  | idle => exact Erases.lift _
  | updating top state =>
    refine Erases.ite (Erases.ite ?_ (Erases.lift _)) (Erases.pure _)
    unfold popTop MotionMaster.popTop
    cases p.generators with
    | nil => exact Erases.pure _
    | cons node rest =>
      exact (Erases.lift _).bind fun _ => finalizeHook_erases.bind fun _ => Erases.pure _
  | popping movement => exact (Erases.lift _).bind fun _ => Erases.pure _
  | resolving =>
    grind [resolve_erases, Erases.pure]

/-- **The log changes nothing**: a step with it is the step. -/
theorem step_erases (p : MotionMaster) (act : MotionMaster.Action × MotionMaster.Answers) :
    Erases (step p act) (p.step act) := by
  unfold step MotionMaster.step
  cases act.1 with
  | addToWorld =>
    exact Erases.ite (directInitialize_erases.bind fun _ => Erases.pure _) (Erases.pure _)
  | update => exact Erases.lift _
  | call c => exact call_erases c
  | proceed => exact proceed_erases

end Erasure

end Traced

end EGServer.Movement
