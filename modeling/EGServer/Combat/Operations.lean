import EGServer.Combat.Managers

/-!
# Adding threat, and runs of operations

`AddThreat` is where the two managers meet: it redirects threat along vehicles, personal
spawns and redirection effects, starts combat, and only then creates a reference. With it
the interface is complete; an `Op` is one call from outside, and `run` a sequence of calls,
each with the answers that the rest of the server gives while it runs.
-/

namespace EGServer.Combat

open StateExcept

variable {U F : Type} [DecidableEq U] [RoundedArith F] (env : Env U F) (ai : AI U F)

/-! ## AddThreat -/

/-- Without a threat list, the owner is just put in combat with the target and those the
target redirects its threat to. -/
def enterCombatOnly (owner target : U) : WorldM U F Unit := do
  if !(← setInCombatWith env ai owner target false) then pure () else
    forEach (env.redirectInfo target) fun pair => do
      if ← onCombat (isInCombatWith owner pair.1) then pure () else
        match env.getUnit owner pair.1 with
        | none => pure ()
        | some redirTarget => do
          let _ ← setInCombatWith env ai owner redirTarget false

/-- `CalculatePct` -/
def calculatePct (base : F) (pct : Nat) : F := base * ((pct : Int) : F) / ((100 : Int) : F)

/-- Where a redirection leads: the owner's own list is looked at first. -/
def redirectTarget (owner guid : U) : ThreatM U F (Option U) := do
  match (← get).myThreat owner guid with
  | some id => do
    let r ← derefThreat id
    pure (some r.victim)
  | none => pure (env.getUnit owner guid)

/-- The redirection loop; `add` is the nested `AddThreat`. Returns what is left of `amount`. -/
def redirectThreat (add : U → F → WorldM U F Unit) (owner : U) (origAmount : F) :
    List (U × Nat) → F → WorldM U F F
  | [], amount => pure amount
  | (guid, pct) :: rest, amount => do
    match ← onThreat (redirectTarget env owner guid) with
    | none => redirectThreat add owner origAmount rest amount
    | some redirTarget => do
      let amountRedirected := calculatePct origAmount pct
      add redirTarget amountRedirected
      redirectThreat add owner origAmount rest (amount - amountRedirected)

/-- All threat goes to `other`, if there is one; returns what is left for the target itself. -/
def passThreat (add : U → F → WorldM U F Unit) (other : Option U) (amount : F) :
    WorldM U F F := do
  match other with
  | none => pure amount
  | some other => do
    add other amount
    pure 0

/-- Suppressed references come back online when they cause threat. -/
def bringBackOnline (id : ThreatId) : ThreatM U F Unit := do
  let r ← derefThreat id
  if r.isSuppressed && !r.shouldBeSuppressed env then
    rewrite .increased id { r with online := .online }
  else pure ()

/-- An entry that exists already. -/
def raiseThreat (id : ThreatId) (amount : F) : ThreatM U F Unit := do
  bringBackOnline env id
  let r ← derefThreat id
  if r.isOnline then ThreatReference.addThreat id amount else pure ()

/-- A new entry, in the owner's list and the victim's. -/
def createThreat (owner target : U) (amount : F) : ThreatM U F Unit := do
  let id ← newThreatReference owner target
  putThreatListRef owner target id
  putThreatenedByMeRef target owner id
  ThreatReference.updateOffline env id
  let r ← derefThreat id
  -- we only add the threat if the ref is currently available
  if r.isOnline then ThreatReference.addThreat id amount else pure ()

/-- The end of `AddThreat`, once owner and target are in combat. -/
def applyThreat (owner target : U) (amount : F) : WorldM U F Unit := do
  match (← get).threat.myThreat owner target with
  | some id => onThreat (raiseThreat env id amount)
  | none => do
    onThreat (createThreat env owner target amount)
    match (← get).threat.currentVictim owner with
    | none => updateVictim env ai owner
    | some _ => processAIUpdates env ai owner

/-- The spell attributes that stop `AddThreat` at once. -/
def causesNoThreat (owner : U) : Option SpellInfo → Bool
  | none => false
  | some spell => spell.noThreat || (!env.isEngaged owner && spell.noInitialAggro)

/-- `ThreatManager::AddThreat`; the first argument bounds the depth of the recursion. -/
def addThreat : Nat → U → U → F → Option SpellInfo → Bool → Bool → WorldM U F Unit
  | 0, _, _, _, _, _, _ => throw .outOfFuel
  | fuel + 1, owner, target, amount, spell, ignoreModifiers, ignoreRedirects => do
    if causesNoThreat env owner spell then pure () else do
      let addTo : U → F → WorldM U F Unit := fun other amount =>
        addThreat fuel owner other amount spell ignoreModifiers ignoreRedirects
      -- while riding a vehicle, all threat goes to the vehicle, not the pilot
      let amount ← passThreat addTo (env.vehicleBase target) amount
      if (env.vehicleBase target).isSome && env.isAccessory target then pure () else do
        -- if victim is personal spawn, redirect all aggro to summoner
        let amount ← passThreat addTo (env.privateObjectOwner owner target) amount
        if !env.canHaveThreatList owner then enterCombatOnly env ai owner target else do
          let amount :=
            if ignoreModifiers then amount else env.calculateModifiedThreat amount target spell
          let redirections :=
            if !ignoreRedirects && decide (0 < amount) then env.redirectInfo target else []
          let amount ← redirectThreat env
            (fun redirTarget amount => addThreat fuel owner redirTarget amount spell true true)
            owner amount redirections amount
          -- ensure we're in combat (threat implies combat!)
          if ← setInCombatWith env ai owner target false then applyThreat env ai owner target amount
          else pure ()

/-- The highest reference, unless it taunts and the one below it has more threat. -/
def highestThreat (u : U) : ThreatM U F (Option F) := do
  match env.heapOrder (← get) u with
  | [] => pure none
  | top :: rest => do
    let highest ← derefThreat top
    if !highest.isAvailable then pure none
    else match highest.isTaunting, rest with
      | true, next :: _ => do
        let a ← derefThreat next
        pure (some (if a.isAvailable && decide (highest.getThreat < a.getThreat) then a.getThreat
          else highest.getThreat))
      | _, _ => pure (some highest.getThreat)

/-- `GetThreat(who, true)` -/
def getThreat (u who : U) : ThreatM U F F := do
  match (← get).myThreat u who with
  | none => pure 0
  | some id => do
    let r ← derefThreat id
    pure r.getThreat

def matchUnitThreatToHighestThreat (u target : U) : WorldM U F Unit := do
  match ← onThreat (highestThreat env u) with
  | none => pure ()
  | some highest => do
    let own ← onThreat (getThreat u target)
    addThreat env ai env.fuel u target (highest - own) none true true

/-- The owners of a list of references. -/
def ownersOf : List ThreatId → ThreatM U F (List U)
  | [] => pure []
  | id :: ids => do
    let r ← derefThreat id
    let owners ← ownersOf ids
    pure (r.owner :: owners)

def forwardThreatForAssistingMe (u assistant : U) (baseAmount : F) (spell : Option SpellInfo)
    (ignoreModifiers : Bool) : WorldM U F Unit := do
  if (spell.map (·.noThreat)).getD false then pure () else do
  let owners ← onThreat do ownersOf ((← get).refsOf env .threatenedByMe u)
  let canBeThreatened := owners.filter (!env.isUnderControl ·)
  let cannotBeThreatened := owners.filter (env.isUnderControl ·)
  -- targets under CC cannot gain assist threat - split evenly among the rest
  let perTarget := baseAmount / ((canBeThreatened.length : Int) : F)
  forEach canBeThreatened fun threatened =>
    addThreat env ai env.fuel threatened assistant perTarget spell ignoreModifiers false
  forEach cannotBeThreatened fun threatened =>
    addThreat env ai env.fuel threatened assistant 0 spell true false

/-- `ThreatManager::Update`. -/
def threatUpdate (u : U) (tdiff : Nat) : WorldM U F Unit := do
  let t := (← get).threat
  if !env.canHaveThreatList u || (t.sorted u).isEmpty then pure ()
  else if t.updateTimer u ≤ tdiff then do
    updateVictim env ai u
    onThreat (modify fun t => { t with
      updateTimer := Function.update t.updateTimer u THREAT_UPDATE_INTERVAL })
  else
    onThreat (modify fun t => { t with
      updateTimer := Function.update t.updateTimer u (t.updateTimer u - tdiff) })

/-! ## Runs -/

/-- The calls that the rest of the server makes into the two managers. References are
named by the two units that share them. -/
inductive Op (U F : Type) where
  | setInCombatWith (owner who : U) (addSecondUnitSuppressed : Bool)
  | addThreat (owner target : U) (amount : F) (spell : Option SpellInfo)
      (ignoreModifiers ignoreRedirects : Bool)
  | endCombat (pvp : Bool) (owner who : U)
  | suppressFor (pvp : Bool) (who other : U)
  | suppressPvPCombat (owner : U)
  | endCombatBeyondRange (owner : U) (includingPvP : Bool)
  | revalidateCombat (owner : U)
  | endAllPvECombat (owner : U)
  | endAllPvPCombat (owner : U)
  | combatUpdate (owner : U) (tdiff : Nat)
  | inheritCombatStatesFrom (owner who : U)
  | clearThreat (owner target : U)
  | clearAllThreat (owner : U)
  | removeMeFromThreatLists (owner : U)
  | scaleThreat (owner target : U) (factor : F)
  | matchUnitThreatToHighestThreat (owner target : U)
  | resetAllThreat (owner : U)
  | fixateTarget (owner : U) (target : Option U)
  | tauntUpdate (owner : U)
  | evaluateSuppressed (owner : U) (canExpire : Bool)
  | updateMyTempModifiers (owner : U)
  | forwardThreatForAssistingMe (owner assistant : U) (baseAmount : F) (spell : Option SpellInfo)
      (ignoreModifiers : Bool)
  | threatUpdate (owner : U) (tdiff : Nat)
  | updateVictim (owner : U)

/-- Call `f` on the reference that two units share, if there is one. -/
def withReference (pvp : Bool) (u v : U) (f : RefId → WorldM U F Unit) : WorldM U F Unit := do
  match (← get).combat.combatRefs pvp u v with
  | none => pure ()
  | some id => f id

def exec : Op U F → WorldM U F Unit
  | .setInCombatWith owner who suppressed => do
    let _ ← setInCombatWith env ai owner who suppressed
  | .addThreat owner target amount spell ignoreModifiers ignoreRedirects =>
    addThreat env ai env.fuel owner target amount spell ignoreModifiers ignoreRedirects
  | .endCombat pvp owner who => withReference pvp owner who (endCombat env ai)
  | .suppressFor pvp who other => withReference pvp who other fun id => suppressFor env ai id who
  | .suppressPvPCombat owner => suppressPvPCombat env ai owner
  | .endCombatBeyondRange owner includingPvP => endCombatBeyondRange env ai owner includingPvP
  | .revalidateCombat owner => revalidateCombat env ai owner
  | .endAllPvECombat owner => endAllPvECombat env ai owner
  | .endAllPvPCombat owner => endAllPvPCombat env ai owner
  | .combatUpdate owner tdiff => combatUpdate env ai owner tdiff
  | .inheritCombatStatesFrom owner who => inheritCombatStatesFrom env ai owner who
  | .clearThreat owner target => clearThreat env ai owner target
  | .clearAllThreat owner => onThreat (clearAllThreat env owner)
  | .removeMeFromThreatLists owner => removeMeFromThreatLists env ai owner
  | .scaleThreat owner target factor => onThreat (scaleThreat owner target factor)
  | .matchUnitThreatToHighestThreat owner target =>
    matchUnitThreatToHighestThreat env ai owner target
  | .resetAllThreat owner => onThreat (resetAllThreat env owner)
  | .fixateTarget owner target => onThreat (fixateTarget owner target)
  | .tauntUpdate owner => onThreat (tauntUpdate env owner)
  | .evaluateSuppressed owner canExpire => onThreat (evaluateSuppressed env owner canExpire)
  | .updateMyTempModifiers owner => onThreat (updateMyTempModifiers env owner)
  | .forwardThreatForAssistingMe owner assistant baseAmount spell ignoreModifiers =>
    forwardThreatForAssistingMe env ai owner assistant baseAmount spell ignoreModifiers
  | .threatUpdate owner tdiff => threatUpdate env ai owner tdiff
  | .updateVictim owner => updateVictim env ai owner

/-- A call, with the environment it runs in. -/
structure Step (U F : Type) where
  env : Env U F
  op : Op U F

/-- A sequence of calls. The AI may differ from environment to environment. -/
def run (ai : Env U F → AI U F) : List (Step U F) → WorldM U F Unit
  | [] => pure ()
  | step :: steps => do
    exec step.env (ai step.env) step.op
    run ai steps

end EGServer.Combat
