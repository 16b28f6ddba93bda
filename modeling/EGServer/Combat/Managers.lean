import EGServer.Combat.ThreatList

/-!
# Combat managers and threat managers together

`CombatReference`, `CombatManager` and the part of `ThreatManager` that starts combat or
calls the AI. An AI is a program over the whole world, so at every hand-off it may call
back into the managers; `handOff` first records the state that it is shown.
-/

namespace EGServer.Combat

open StateExcept

variable {U F : Type} [DecidableEq U] [RoundedArith F]

/-- What the creatures and players do when they are told of a change. -/
abbrev AI (U F : Type) := Hook U → WorldM U F Unit

variable (env : Env U F) (ai : AI U F)

/-! ## The AI -/

/-- The unit whose AI a hook belongs to. -/
def Hook.owner : Hook U → U
  | .justEnteredCombat me _ => me
  | .justExitedCombat me => me
  | .justStartedThreateningMe me _ => me

/-- Pass control to an AI hook, if the unit has an AI. -/
def handOff (hook : Hook U) : WorldM U F Unit := do
  if env.hasAI hook.owner then do
    modify fun w => { w with handOffs := w.handOffs ++ [⟨hook, w.combat, w.threat⟩] }
    ai hook
  else pure ()

/-- The AI that does nothing. -/
def silentAI : AI U F := fun _ => pure ()

/-! ## Combat references -/

/-- Follow a pointer to a combat reference. -/
def derefCombat (id : RefId) : CombatM U (CombatReference U) := do
  match (← get).refs id with
  | some r => pure r
  | none => throw .dangling

def CombatState.write (c : CombatState U) (id : RefId) (r : CombatReference U) : CombatState U :=
  { c with refs := Function.update c.refs id (some r) }

/-- One map entry set or erased. -/
def CombatState.setEntry (c : CombatState U) (pvp : Bool) (u v : U) (id : Option RefId) :
    CombatState U :=
  { c with combatRefs := fun p a b =>
      if p = pvp ∧ a = u ∧ b = v then id else c.combatRefs p a b }

/-- Does the reference at an entry keep its owner in combat? -/
def entryInCombat (owner : U) (pvp : Bool) (guid : U) : CombatM U Bool := do
  match (← get).combatRefs pvp owner guid with
  | none => pure false
  | some id => do
    let r ← derefCombat id
    pure (!r.isSuppressedFor owner)

/-- `HasPvECombat` and `HasPvPCombat`. -/
def hasCombatIn (pvp : Bool) (owner : U) : CombatM U Bool := do
  anyOf (env.combatOrder (← get) pvp owner) (entryInCombat owner pvp)

def hasCombat (owner : U) : CombatM U Bool := do
  if ← hasCombatIn env false owner then pure true else hasCombatIn env true owner

/-- Sets or removes `UNIT_FLAG_IN_COMBAT`; did it change? -/
def updateOwnerCombatState (owner : U) : CombatM U Bool := do
  let combatState ← hasCombat env owner
  if combatState = (← get).inCombat owner then pure false else do
    modify fun c => { c with inCombat := Function.update c.inCombat owner combatState }
    pure true

def putReference (owner guid : U) (id : RefId) : CombatM U Unit := do
  let r ← derefCombat id
  match (← get).combatRefs r.isPvP owner guid with
  | some _ => throw .duplicate
  | none => modify fun c => c.setEntry r.isPvP owner guid (some id)

def purgeReference (owner guid : U) (pvp : Bool) : CombatM U Unit :=
  modify fun c => c.setEntry pvp owner guid none

def newCombatReference (r : CombatReference U) : CombatM U RefId := do
  let id := (← get).nextRef
  modify fun c => { c with refs := Function.update c.refs id (some r), nextRef := id + 1 }
  pure id

/-- `delete this` -/
def deleteCombatReference (id : RefId) : CombatM U Unit := do
  let _ ← derefCombat id
  modify fun c => { c with refs := Function.update c.refs id none }

def isInCombatWith (owner guid : U) : CombatM U Bool := do
  let c ← get
  pure ((c.combatRefs false owner guid).isSome || (c.combatRefs true owner guid).isSome)

def canBeginCombat (a b : U) : Bool := a ≠ b && env.isValidCombat a b

/-- `PvPCombatReference::RefreshTimer` -/
def refreshTimer (id : RefId) : CombatM U Unit := do
  let r ← derefCombat id
  modify fun c => c.write id { r with combatTimer := PVP_COMBAT_TIMEOUT }

/-- `Refresh` for the first unit: does its AI have to be told? -/
def unsuppressFirst (id : RefId) : CombatM U Bool := do
  let r ← derefCombat id
  if r.suppressFirst then do
    modify fun c => c.write id { r with suppressFirst := false }
    updateOwnerCombatState env r.first
  else pure false

/-- `Refresh` for the second unit. -/
def unsuppressSecond (id : RefId) : CombatM U Bool := do
  let r ← derefCombat id
  if r.suppressSecond then do
    modify fun c => c.write id { r with suppressSecond := false }
    updateOwnerCombatState env r.second
  else pure false

/-- `CombatManager::NotifyAICombat`, where the combat state of `me` changed. -/
def notifyAICombat (need : Bool) (me other : U) : WorldM U F Unit :=
  if need then handOff env ai (.justEnteredCombat me other) else pure ()

/-- `JustExitedCombat`, where the combat state of `me` changed. -/
def notifyExitedCombat (need : Bool) (me : U) : WorldM U F Unit :=
  if need then handOff env ai (.justExitedCombat me) else pure ()

/-- The end of `Refresh`, for a unit whose combat state changed. The units are read from the
reference, which the hook of the other unit may have deleted. -/
def notifyRefreshed (need : Bool) (id : RefId) (me other : CombatReference U → U) :
    WorldM U F Unit :=
  if need then do
    let r ← onCombat (derefCombat id)
    notifyAICombat env ai true (me r) (other r)
  else pure ()

/-- `CombatReference::Refresh` -/
def refresh (id : RefId) : WorldM U F Unit := do
  let needFirstAI ← onCombat (unsuppressFirst env id)
  let needSecondAI ← onCombat (unsuppressSecond env id)
  notifyRefreshed env ai needFirstAI id (·.first) (·.second)
  notifyRefreshed env ai needSecondAI id (·.second) (·.first)

/-- Create a reference and insert it into both managers. -/
def createReference (owner who : U) (addSecondUnitSuppressed : Bool) : CombatM U Unit := do
  let pvp := env.isControlledByPlayer owner && env.isControlledByPlayer who
  let r : CombatReference U := { first := owner, second := who, isPvP := pvp }
  let id ← newCombatReference (if addSecondUnitSuppressed then r.suppress who else r)
  putReference owner who id
  putReference who owner id

def setInCombatWith (owner who : U) (addSecondUnitSuppressed : Bool) : WorldM U F Bool := do
  let c := (← get).combat
  match c.combatRefs true owner who with
  | some existingPvpRef => do
    onCombat (refreshTimer existingPvpRef)
    refresh env ai existingPvpRef
    pure true
  | none =>
    match c.combatRefs false owner who with
    | some existingPveRef => do
      refresh env ai existingPveRef
      pure true
    | none =>
      if !canBeginCombat env owner who then pure false else do
        onCombat (createReference env owner who addSecondUnitSuppressed)
        let needSelfAI ← onCombat (updateOwnerCombatState env owner)
        let needOtherAI ← onCombat (updateOwnerCombatState env who)
        notifyAICombat env ai needSelfAI owner who
        notifyAICombat env ai needOtherAI who owner
        onCombat (isInCombatWith owner who)

/-! ## Victims and the AI -/

/-- The loop of `ProcessAIUpdates`: a guid whose reference is gone by now is skipped. -/
def notifyThreatening (u guid : U) : WorldM U F Unit := do
  match (← get).threat.myThreat u guid with
  | none => pure ()
  | some id => do
    let r ← onThreat (derefThreat id)
    handOff env ai (.justStartedThreateningMe u r.victim)

def processAIUpdates (u : U) : WorldM U F Unit := do
  let v := (← get).threat.needsAIUpdate u
  onThreat (modify fun t => { t with needsAIUpdate := Function.update t.needsAIUpdate u [] })
  forEach v (notifyThreatening env ai u)

def updateVictim (u : U) : WorldM U F Unit := do
  onThreat do
    let newVictim ← reselectVictim env u
    setCurrentVictim u newVictim
  processAIUpdates env ai u

/-- `ThreatManager::ClearThreat(ThreatReference*)` of `u`'s manager. -/
def clearThreatRef (u : U) (id : ThreatId) : WorldM U F Unit := do
  onThreat (ThreatReference.unregisterAndFree id)
  match (← get).threat.currentVictim u with
  | none => updateVictim env ai u
  | some _ => pure ()

/-- `ThreatManager::ClearThreat(Unit*)`. -/
def clearThreat (u target : U) : WorldM U F Unit := do
  match (← get).threat.myThreat u target with
  | none => pure ()
  | some id => clearThreatRef env ai u id

/-! ## Ending combat -/

/-- The second half of `EndCombat`: the pair loses its reference. -/
def removeReference (id : RefId) (r : CombatReference U) : WorldM U F Unit := do
  -- ...then, remove the references from both managers...
  onCombat (purgeReference r.first r.second r.isPvP)
  onCombat (purgeReference r.second r.first r.isPvP)
  -- ...update the combat state, and notify the AI if IN_COMBAT was removed...
  let needFirstAI ← onCombat (updateOwnerCombatState env r.first)
  let needSecondAI ← onCombat (updateOwnerCombatState env r.second)
  notifyExitedCombat env ai needFirstAI r.first
  notifyExitedCombat env ai needSecondAI r.second
  -- ...and finally clean up the reference object
  onCombat (deleteCombatReference id)

/-- `CombatReference::EndCombat` -/
def endCombat (id : RefId) : WorldM U F Unit := do
  -- first, get rid of any threat that still exists...
  let r ← onCombat (derefCombat id)
  clearThreat env ai r.first r.second
  clearThreat env ai r.second r.first
  removeReference env ai id r

/-- One turn of the loops that erase a reference from the owner's map before they end it. -/
def eraseAndEnd (owner : U) (pvp : Bool) (expired : CombatReference U → Bool) (guid : U) :
    WorldM U F Unit := do
  match (← get).combat.combatRefs pvp owner guid with
  | none => pure ()
  | some id => do
    let r ← onCombat (derefCombat id)
    if expired r then do
      -- erase manually here to avoid iterator invalidation
      onCombat (purgeReference owner guid pvp)
      endCombat env ai id
    else pure ()

/-- The loops of `EndCombatBeyondRange` and `RevalidateCombat`. -/
def eraseAndEndAll (owner : U) (pvp : Bool) (expired : CombatReference U → Bool) :
    WorldM U F Unit := do
  forEach (env.combatOrder (← get).combat pvp owner) (eraseAndEnd env ai owner pvp expired)

/-- Out of the range, for the range tests that the environment answers. -/
def beyondRange (r : CombatReference U) : Bool := !env.isWithinDistInMap r.first r.second

def endCombatBeyondRange (owner : U) (includingPvP : Bool) : WorldM U F Unit := do
  eraseAndEndAll env ai owner false (beyondRange env)
  if includingPvP then eraseAndEndAll env ai owner true (beyondRange env) else pure ()

/-- Combat that could not begin today. -/
def invalidated (owner : U) (r : CombatReference U) : Bool :=
  !canBeginCombat env owner (r.getOther owner)

def revalidateCombat (owner : U) : WorldM U F Unit := do
  eraseAndEndAll env ai owner false (invalidated env owner)
  eraseAndEndAll env ai owner true (invalidated env owner)

/-- `PvPCombatReference::Update`, by the first unit only; has the timer run out? -/
def tickReference (owner : U) (tdiff : Nat) (id : RefId) : CombatM U Bool := do
  let r ← derefCombat id
  if r.first ≠ owner then pure false
  else if r.combatTimer ≤ tdiff then pure true
  else do
    modify fun c => c.write id { r with combatTimer := r.combatTimer - tdiff }
    pure false

def updateEntry (owner : U) (tdiff : Nat) (guid : U) : WorldM U F Unit := do
  match (← get).combat.combatRefs true owner guid with
  | none => pure ()
  | some id => do
    if ← onCombat (tickReference owner tdiff id) then do
      -- remove it from our refs first to prevent invalidation
      onCombat (purgeReference owner guid true)
      endCombat env ai id
    else pure ()

/-- `CombatManager::Update`. -/
def combatUpdate (owner : U) (tdiff : Nat) : WorldM U F Unit := do
  forEach (env.combatOrder (← get).combat true owner) (updateEntry env ai owner tdiff)

/-- `CombatReference::SuppressFor`. -/
def suppressFor (id : RefId) (who : U) : WorldM U F Unit := do
  let needAI ← onCombat do
    let r ← derefCombat id
    modify fun c => c.write id (r.suppress who)
    updateOwnerCombatState env who
  notifyExitedCombat env ai needAI who

/-- The loop of `SuppressPvPCombat`. -/
def suppressEntry (owner guid : U) : CombatM U Unit := do
  match (← get).combatRefs true owner guid with
  | none => pure ()
  | some id => do
    let r ← derefCombat id
    modify fun c => c.write id (r.suppress owner)

def suppressPvPCombat (owner : U) : WorldM U F Unit := do
  let needAI ← onCombat do
    forEach (env.combatOrder (← get) true owner) (suppressEntry owner)
    updateOwnerCombatState env owner
  notifyExitedCombat env ai needAI owner

/-- The loop of `InheritCombatStatesFrom`, over one of `who`'s maps. Only the loop over the
PvE map skips the units that `owner` fights already. -/
def inheritEntry (owner who : U) (pvp : Bool) (guid : U) : WorldM U F Unit := do
  let c := (← get).combat
  match c.combatRefs pvp who guid with
  | none => pure ()
  | some id => do
    let known ← onCombat (isInCombatWith owner guid)
    let r ← onCombat (derefCombat id)
    let target := r.getOther who
    if (!pvp && known) || (env.isImmuneToPC owner && env.isPlayerControlled target)
        || (env.isImmuneToNPC owner && !env.isPlayerControlled target) then pure ()
    else do
      let _ ← setInCombatWith env ai owner target false

def inheritCombatStatesFrom (owner who : U) : WorldM U F Unit := do
  forEach (env.combatOrder (← get).combat false who) (inheritEntry env ai owner who false)
  forEach (env.combatOrder (← get).combat true who) (inheritEntry env ai owner who true)

/-- `_pveRefs.begin()` or `_pvpRefs.begin()`. -/
def firstReference (pvp : Bool) (owner : U) (c : CombatState U) : Option RefId :=
  ((env.combatOrder c pvp owner).filterMap (c.combatRefs pvp owner)).head?

/-- `while (!refs.empty()) refs.begin()->second->EndCombat();` -/
def endAllIn (pvp : Bool) (owner : U) : WorldM U F Unit :=
  whileSome .outOfFuel (fun w => firstReference env pvp owner w.combat) (endCombat env ai) env.fuel

/-- `_threatenedByMe.begin()`. -/
def firstThreatened (u : U) (t : ThreatState U F) : Option ThreatId :=
  (t.refsOf env .threatenedByMe u).head?

def removeMeFromThreatLists (u : U) : WorldM U F Unit :=
  whileSome .outOfFuel (fun w => firstThreatened env u w.threat)
    (fun id => do
      let r ← onThreat (derefThreat id)
      clearThreat env ai r.owner u)
    env.fuel

def endAllPvECombat (owner : U) : WorldM U F Unit := do
  -- cannot have threat without combat
  removeMeFromThreatLists env ai owner
  onThreat (clearAllThreat env owner)
  endAllIn env ai false owner

def endAllPvPCombat (owner : U) : WorldM U F Unit := endAllIn env ai true owner

end EGServer.Combat
