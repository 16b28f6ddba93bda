import EGServer.Combat.World

/-!
# Threat references and threat lists

The part of `ThreatManager` and `ThreatReference` that works on threat alone: it touches
neither combat references nor the AI, and so runs in `ThreatM`.

A threat reference is stored in three places: the owner's map and heap, and the victim's
map. The heap orders by the key it saw when it was last notified, so every change of a
key is followed by a notification that says which way the key went.
-/

namespace EGServer.Combat

open StateExcept

variable {U F : Type} [DecidableEq U] [RoundedArith F] (env : Env U F)

/-- Follow a pointer to a threat reference. -/
def derefThreat (id : ThreatId) : ThreatM U F (ThreatReference U F) := do
  match (← get).threats id with
  | some r => pure r
  | none => throw .dangling

def ThreatState.write (t : ThreatState U F) (id : ThreatId) (r : ThreatReference U F) :
    ThreatState U F :=
  { t with threats := Function.update t.threats id (some r) }

/-- The heap of `r.owner` learns that `id` now compares as `r`. -/
def ThreatState.resift (t : ThreatState U F) (d : Direction) (id : ThreatId)
    (r : ThreatReference U F) (seen : Key F) : ThreatState U F :=
  { t with
    sorted := Function.update t.sorted r.owner
      ((t.sorted r.owner).map fun e => if e.1 = id then (id, r.key) else e)
    notifications := t.notifications ++ [⟨d, seen, r.key⟩] }

/-- `HeapNotifyIncreased` and `HeapNotifyDecreased`. A handle that is not in the heap is a
dangling one. -/
def heapNotify (d : Direction) (id : ThreatId) : ThreatM U F Unit := do
  let r ← derefThreat id
  match ((← get).sorted r.owner).lookup id with
  | none => throw .dangling
  | some seen => modify fun t => t.resift d id r seen

/-! ## ThreatReference -/

/-- Store the changed fields of a reference, then tell the heap. -/
def rewrite (d : Direction) (id : ThreatId) (r : ThreatReference U F) : ThreatM U F Unit := do
  modify fun t => t.write id r
  heapNotify d id

def ThreatReference.addThreat (id : ThreatId) (amount : F) : ThreatM U F Unit := do
  if amount = 0 then pure () else do
    let r ← derefThreat id
    let r' := { r with baseAmount := max (r.baseAmount + amount) 0 }
    rewrite (if 0 < amount then .increased else .decreased) id r'

def ThreatReference.scaleThreat (id : ThreatId) (factor : F) : ThreatM U F Unit := do
  if factor = 1 then pure () else do
    let r ← derefThreat id
    let r' := { r with baseAmount := r.baseAmount * factor }
    rewrite (if 1 < factor then .increased else .decreased) id r'

def ThreatReference.shouldBeSuppressed (r : ThreatReference U F) : Bool :=
  !r.isTaunting && env.isImmuneOrBreakableCC r.owner r.victim

def registerForAIUpdate (owner guid : U) : ThreatM U F Unit :=
  modify fun t => { t with
    needsAIUpdate := Function.update t.needsAIUpdate owner (t.needsAIUpdate owner ++ [guid]) }

def ThreatReference.updateOffline (id : ThreatId) : ThreatM U F Unit := do
  let r ← derefThreat id
  let shouldBeOffline := env.shouldBeOffline r.owner r.victim
  if shouldBeOffline = r.isOffline then pure ()
  else if shouldBeOffline then
    rewrite .decreased id { r with online := .offline }
  else do
    rewrite .increased id
      { r with online := if r.shouldBeSuppressed env then .suppressed else .online }
    registerForAIUpdate r.owner r.victim

def ThreatReference.updateTauntState (id : ThreatId) (state : Nat) : ThreatM U F Unit := do
  let r ← derefThreat id
  let state :=
    if state < TAUNT_STATE_TAUNT ∧ env.hasDetauntFrom r.owner r.victim then TAUNT_STATE_DETAUNT
    else state
  if state = r.taunted then pure ()
  else rewrite (if state < r.taunted then .decreased else .increased) id { r with taunted := state }

/-! ## Membership in the lists -/

def putThreatListRef (owner guid : U) (id : ThreatId) : ThreatM U F Unit := do
  match (← get).myThreat owner guid with
  | some _ => throw .duplicate
  | none => do
    let r ← derefThreat id
    modify fun t => { t with
      myThreat := Function.update t.myThreat owner
        (Function.update (t.myThreat owner) guid (some id))
      sorted := Function.update t.sorted owner (t.sorted owner ++ [(id, r.key)]) }

def purgeThreatListRef (owner guid : U) : ThreatM U F Unit := do
  match (← get).myThreat owner guid with
  | none => pure ()
  | some id => modify fun t => { t with
      myThreat := Function.update t.myThreat owner (Function.update (t.myThreat owner) guid none)
      sorted := Function.update t.sorted owner ((t.sorted owner).filter (·.1 ≠ id))
      fixate := Function.update t.fixate owner
        (if t.fixate owner = some id then none else t.fixate owner)
      currentVictim := Function.update t.currentVictim owner
        (if t.currentVictim owner = some id then none else t.currentVictim owner) }

def putThreatenedByMeRef (victim guid : U) (id : ThreatId) : ThreatM U F Unit := do
  match (← get).threatenedByMe victim guid with
  | some _ => throw .duplicate
  | none => modify fun t => { t with
      threatenedByMe := Function.update t.threatenedByMe victim
        (Function.update (t.threatenedByMe victim) guid (some id)) }

def purgeThreatenedByMeRef (victim guid : U) : ThreatM U F Unit :=
  modify fun t => { t with
    threatenedByMe := Function.update t.threatenedByMe victim
      (Function.update (t.threatenedByMe victim) guid none) }

/-- `new ThreatReferenceImpl(mgr, victim)`: offline, without threat, untouched by auras. -/
def newThreatReference (owner victim : U) : ThreatM U F ThreatId := do
  let id := (← get).nextThreat
  modify fun t => { t with
    threats := Function.update t.threats id (some
      { owner, victim, online := .offline, baseAmount := 0, tempModifier := 0,
        taunted := TAUNT_STATE_NONE })
    nextThreat := id + 1 }
  pure id

def ThreatReference.unregisterAndFree (id : ThreatId) : ThreatM U F Unit := do
  let r ← derefThreat id
  purgeThreatListRef r.owner r.victim
  purgeThreatenedByMeRef r.victim r.owner
  modify fun t => { t with threats := Function.update t.threats id none }

/-! ## ThreatManager -/

/-- One of the two maps of a threat manager. -/
def ThreatState.entries (t : ThreatState U F) : ThreatMap → U → U → Option ThreatId
  | .myThreatList => t.myThreat
  | .threatenedByMe => t.threatenedByMe

/-- The values of a map in iteration order. -/
def ThreatState.refsOf (t : ThreatState U F) (k : ThreatMap) (u : U) : List ThreatId :=
  (env.threatOrder t k u).filterMap (t.entries k u)

/-- One turn of the loop of `EvaluateSuppressed`. -/
def evaluateSuppressedRef (canExpire : Bool) (id : ThreatId) : ThreatM U F Unit := do
  let r ← derefThreat id
  let shouldBeSuppressed := r.shouldBeSuppressed env
  if r.isOnline && shouldBeSuppressed then
    rewrite .decreased id { r with online := .suppressed }
  else if canExpire && r.isSuppressed && !shouldBeSuppressed then
    rewrite .increased id { r with online := .online }
  else pure ()

def evaluateSuppressed (u : U) (canExpire : Bool) : ThreatM U F Unit := do
  forEach ((← get).refsOf env .threatenedByMe u) (evaluateSuppressedRef env canExpire)

def scaleThreat (u target : U) (factor : F) : ThreatM U F Unit := do
  match (← get).myThreat u target with
  | some id => ThreatReference.scaleThreat id (max factor 0)
  | none => pure ()

/-- `tauntStates[guid]`: later effects overwrite earlier ones of the same caster. -/
def tauntState (casters : List U) (guid : U) : Nat :=
  (casters.zipIdx.foldl
    (fun found c => if c.1 = guid then some (TAUNT_STATE_TAUNT + c.2) else found)
    none).getD TAUNT_STATE_NONE

def tauntUpdate (u : U) : ThreatM U F Unit := do
  forEach ((← get).refsOf env .myThreatList u) fun id => do
    let r ← derefThreat id
    ThreatReference.updateTauntState env id (tauntState (env.tauntCasters u) r.victim)
  -- a taunt update also re-evaluates all suppressed states
  evaluateSuppressed env u true

def resetAllThreat (u : U) : ThreatM U F Unit := do
  forEach ((← get).refsOf env .myThreatList u) fun id => ThreatReference.scaleThreat id 0

def fixateTarget (u : U) (target : Option U) : ThreatM U F Unit :=
  modify fun t => { t with
    fixate := Function.update t.fixate u (target.bind (t.myThreat u)) }

/-- The direction is decided once, from the first reference, and announced for all. -/
def updateMyTempModifiers (u : U) : ThreatM U F Unit := do
  let mod := (env.threatAuras u).sum
  match (← get).refsOf env .threatenedByMe u with
  | [] => pure ()
  | first :: rest => do
    let r ← derefThreat first
    let isIncrease : Bool := r.tempModifier < mod
    forEach (first :: rest) fun id => do
      let r ← derefThreat id
      rewrite (if isIncrease then .increased else .decreased) id { r with tempModifier := mod }

/-! ### Selecting a victim -/

/-- The weight `1.1f`. -/
def WEIGHT_110 : F := ((110 : Int) : F) / ((100 : Int) : F)

/-- The weight `1.3f`. -/
def WEIGHT_130 : F := ((130 : Int) : F) / ((100 : Int) : F)

/-- Walk down the heap for a melee target that breaks 110% of the old victim. -/
def selectMelee (u : U) (oldVictim : ThreatId) : List ThreatId → ThreatM U F (Option ThreatId)
  | [] => throw .desync
  | next :: rest => do
    if next = oldVictim then pure (some next) else do
      let old ← derefThreat oldVictim
      let r ← derefThreat next
      if !compareReferencesLT old.key r.key WEIGHT_110 then pure (some oldVictim)
      else if env.isWithinMeleeRange u r.victim then pure (some next)
      else selectMelee u oldVictim rest

/-- The available reference behind a pointer, if any. -/
def availableRef : Option ThreatId → ThreatM U F (Option ThreatId)
  | none => pure none
  | some id => do
    let r ← derefThreat id
    pure (if r.isAvailable then some id else none)

/-- The choice among the references once their online states are up to date. -/
def selectVictim (u : U) : ThreatM U F (Option ThreatId) := do
  let t ← get
  match ← availableRef (t.fixate u) with
  | some fixated => pure (some fixated)
  | none => do
    let oldVictim ← availableRef (t.currentVictim u)
    match env.heapOrder t u with
    | [] => pure none
    | highest :: rest => do
      let top ← derefThreat highest
      if !top.isAvailable then pure none else
        match oldVictim with
        | none => pure (some highest)
        | some oldVictim => do
          let old ← derefThreat oldVictim
          if highest = oldVictim then pure (some highest)
          else if !compareReferencesLT old.key top.key WEIGHT_110 then pure (some oldVictim)
          else if compareReferencesLT old.key top.key WEIGHT_130 then pure (some highest)
          else if env.isWithinMeleeRange u top.victim then pure (some highest)
          else selectMelee env u oldVictim (highest :: rest)

def reselectVictim (u : U) : ThreatM U F (Option ThreatId) := do
  if ((← get).sorted u).isEmpty then pure none else do
    forEach ((← get).refsOf env .myThreatList u) (ThreatReference.updateOffline env)
    selectVictim env u

def setCurrentVictim (u : U) (victim : Option ThreatId) : ThreatM U F Unit :=
  modify fun t => { t with currentVictim := Function.update t.currentVictim u victim }

def clearAllThreat (u : U) : ThreatM U F Unit :=
  whileSome .outOfFuel (fun t => (t.refsOf env .myThreatList u).head?)
    ThreatReference.unregisterAndFree env.fuel

end EGServer.Combat
