import EGServer.Lib.RoundedArith
import EGServer.Lib.StateExcept
import Mathlib.Data.List.Nodup
import Mathlib.Logic.Function.Basic

/-!
# The state of the combat and threat managers

Every unit owns a `CombatManager` and a `ThreatManager`. The reference objects they share
are heap-allocated in the source; here they live in two object stores and the managers'
maps hold their addresses (`RefId`, `ThreatId`), so that "the same reference" is equality
of addresses and a pointer to a deleted object is a lookup that fails.

The two halves of the state are kept apart (`CombatState`, `ThreatState`): code that only
works on one of them runs in that half's monad, and leaves the other alone by its type.
What the source asserts, or would read through a dead pointer, is an `Abort`.
-/

namespace EGServer.Combat

/-! ## References -/

/-- Address of a `CombatReference`. -/
abbrev RefId := Nat

/-- Address of a `ThreatReference`. -/
abbrev ThreatId := Nat

/-- `PvPCombatReference::PVP_COMBAT_TIMEOUT`, in milliseconds. -/
def PVP_COMBAT_TIMEOUT : Nat := 5000

/-- A combat state between two units. The timer is only used when `isPvP`. -/
structure CombatReference (U : Type) where
  first : U
  second : U
  isPvP : Bool
  suppressFirst : Bool := false
  suppressSecond : Bool := false
  combatTimer : Nat := PVP_COMBAT_TIMEOUT
  deriving DecidableEq

inductive OnlineState where
  | offline
  | suppressed
  | online
  deriving DecidableEq

/-- The numeric value of `ThreatReference::OnlineState`. -/
def OnlineState.toNat : OnlineState → Nat
  | .offline => 0
  | .suppressed => 1
  | .online => 2

def TAUNT_STATE_DETAUNT : Nat := 0
def TAUNT_STATE_NONE : Nat := 1
def TAUNT_STATE_TAUNT : Nat := 2

/-- An entry of `owner`'s threat list for `victim`. -/
structure ThreatReference (U F : Type) where
  owner : U
  victim : U
  online : OnlineState
  baseAmount : F
  tempModifier : Int
  taunted : Nat
  deriving DecidableEq

/-- What the heap compares: online state, then taunt state, then threat. -/
structure Key (F : Type) where
  online : OnlineState
  taunted : Nat
  threat : F
  deriving DecidableEq

section references

variable {U F : Type} [DecidableEq U] [RoundedArith F]

def CombatReference.getOther (r : CombatReference U) (me : U) : U :=
  if r.first = me then r.second else r.first

def CombatReference.isSuppressedFor (r : CombatReference U) (who : U) : Bool :=
  if who = r.first then r.suppressFirst else r.suppressSecond

def CombatReference.suppress (r : CombatReference U) (who : U) : CombatReference U :=
  if who = r.first then { r with suppressFirst := true } else { r with suppressSecond := true }

def ThreatReference.getThreat (r : ThreatReference U F) : F :=
  max (r.baseAmount + (r.tempModifier : F)) 0

def ThreatReference.isOnline (r : ThreatReference U F) : Bool := r.online = .online
def ThreatReference.isAvailable (r : ThreatReference U F) : Bool := r.online ≠ .offline
def ThreatReference.isSuppressed (r : ThreatReference U F) : Bool := r.online = .suppressed
def ThreatReference.isOffline (r : ThreatReference U F) : Bool := r.online = .offline
def ThreatReference.isTaunting (r : ThreatReference U F) : Bool := TAUNT_STATE_TAUNT ≤ r.taunted

def ThreatReference.key (r : ThreatReference U F) : Key F :=
  { online := r.online, taunted := r.taunted, threat := r.getThreat }

/-- `ThreatManager::CompareReferencesLT`: is `a`, its threat weighted, lower on the list than `b`? -/
def compareReferencesLT (a b : Key F) (aWeight : F) : Bool :=
  if a.online ≠ b.online then a.online.toNat < b.online.toNat
  else if a.taunted ≠ b.taunted then a.taunted < b.taunted
  else a.threat * aWeight < b.threat

/-- The order of the heap, `CompareThreatLessThan`. -/
def Key.lt (a b : Key F) : Bool := compareReferencesLT a b 1

end references

/-! ## The two halves of the state -/

/-- The combat managers of all units: `combatRefs false u` is `u`'s `_pveRefs`,
`combatRefs true u` its `_pvpRefs`, and `inCombat u` its `UNIT_FLAG_IN_COMBAT`. -/
structure CombatState (U : Type) where
  refs : RefId → Option (CombatReference U)
  nextRef : RefId
  combatRefs : Bool → U → U → Option RefId
  inCombat : U → Bool

inductive Direction where
  | increased
  | decreased
  deriving DecidableEq

/-- A call of `HeapNotifyIncreased` or `HeapNotifyDecreased`: the key the heap saw last and
the key it finds now. -/
structure Notification (F : Type) where
  direction : Direction
  seen : Key F
  now : Key F

/-- The threat managers of all units. `sorted u` holds the elements of `u`'s heap, each with
the key the heap saw last; `notifications` is a history variable. -/
structure ThreatState (U F : Type) where
  threats : ThreatId → Option (ThreatReference U F)
  nextThreat : ThreatId
  myThreat : U → U → Option ThreatId
  threatenedByMe : U → U → Option ThreatId
  sorted : U → List (ThreatId × Key F)
  currentVictim : U → Option ThreatId
  fixate : U → Option ThreatId
  needsAIUpdate : U → List U
  updateTimer : U → Nat
  notifications : List (Notification F)

/-- A point at which the managers pass control to a `UnitAI`. -/
inductive Hook (U : Type) where
  | justEnteredCombat (me other : U)
  | justExitedCombat (me : U)
  | justStartedThreateningMe (me who : U)
  deriving DecidableEq

/-- The state in which a hook was called. -/
structure HandOff (U F : Type) where
  hook : Hook U
  combat : CombatState U
  threat : ThreatState U F

/-- Everything the managers own. `handOffs` is a history variable. -/
structure World (U F : Type) where
  combat : CombatState U
  threat : ThreatState U F
  handOffs : List (HandOff U F)

/-- Why an operation does not return. -/
inductive Abort where
  /-- `ASSERT(!inMap, "Duplicate ... reference")`. -/
  | duplicate
  /-- A pointer to an object that is gone. -/
  | dangling
  /-- `ABORT_MSG("Current victim not found in sorted threat list ...")`. -/
  | desync
  /-- Loops and recursions are unrolled this far and no further. -/
  | outOfFuel
  deriving DecidableEq

abbrev CombatM (U : Type) := StateT (CombatState U) (Except Abort)
abbrev ThreatM (U F : Type) := StateT (ThreatState U F) (Except Abort)
abbrev WorldM (U F : Type) := StateT (World U F) (Except Abort)

/-- `ThreatManager::THREAT_UPDATE_INTERVAL`, in milliseconds. -/
def THREAT_UPDATE_INTERVAL : Nat := 1000

def CombatState.init {U : Type} : CombatState U where
  refs _ := none
  nextRef := 0
  combatRefs _ _ _ := none
  inCombat _ := false

def ThreatState.init {U F : Type} : ThreatState U F where
  threats _ := none
  nextThreat := 0
  myThreat _ _ := none
  threatenedByMe _ _ := none
  sorted _ := []
  currentVictim _ := none
  fixate _ := none
  needsAIUpdate _ := []
  updateTimer _ := THREAT_UPDATE_INTERVAL
  notifications := []

/-- Units as their constructors leave them: no references anywhere. -/
def World.init {U F : Type} : World U F where
  combat := .init
  threat := .init
  handOffs := []

/-- Run combat-manager code that touches no threat. -/
def onCombat {U F α : Type} (m : CombatM U α) : WorldM U F α :=
  StateExcept.zoom (·.combat) (fun c w => { w with combat := c }) m

/-- Run threat-manager code that touches no combat state. -/
def onThreat {U F α : Type} (m : ThreatM U F α) : WorldM U F α :=
  StateExcept.zoom (·.threat) (fun t w => { w with threat := t }) m

/-! ## The environment -/

/-- The maps a threat manager iterates over. -/
inductive ThreatMap where
  | myThreatList
  | threatenedByMe

/-- The attributes of a spell that `AddThreat` tests. -/
structure SpellInfo where
  /-- `SPELL_ATTR1_NO_THREAT` -/
  noThreat : Bool
  /-- `SPELL_ATTR3_NO_INITIAL_AGGRO` -/
  noInitialAggro : Bool
  /-- the spell's id and school, as far as the threat modifiers look at it -/
  id : Nat

/-- What the rest of the server answers while one operation runs. The unordered maps are
iterated in an order of the environment's choosing, which may depend on the state. -/
structure Env (U F : Type) where
  /-- how far loops and recursions are unrolled -/
  fuel : Nat
  /-- the tests of `CanBeginCombat` that follow `a == b` -/
  isValidCombat : U → U → Bool
  isControlledByPlayer : U → Bool
  isImmuneToPC : U → Bool
  isImmuneToNPC : U → Bool
  /-- `HasUnitFlag(UNIT_FLAG_PLAYER_CONTROLLED)` -/
  isPlayerControlled : U → Bool
  isWithinDistInMap : U → U → Bool
  hasAI : U → Bool
  canHaveThreatList : U → Bool
  /-- `ThreatReference::ShouldBeOffline`, from owner to victim -/
  shouldBeOffline : U → U → Bool
  /-- the tests of `ThreatReference::ShouldBeSuppressed` that follow `IsTaunting` -/
  isImmuneOrBreakableCC : U → U → Bool
  /-- the victim carries `SPELL_AURA_MOD_DETAUNT` cast by the owner -/
  hasDetauntFrom : U → U → Bool
  isWithinMeleeRange : U → U → Bool
  isEngaged : U → Bool
  vehicleBase : U → Option U
  /-- `UNIT_MASK_ACCESSORY` -/
  isAccessory : U → Bool
  /-- the summoner that takes the aggro when the owner cannot see a personal spawn -/
  privateObjectOwner : U → U → Option U
  redirectInfo : U → List (U × Nat)
  /-- `ObjectAccessor::GetUnit(*owner, guid)` -/
  getUnit : U → U → Option U
  getUnit_eq : ∀ {u v x}, getUnit u v = some x → x = v
  calculateModifiedThreat : F → U → Option SpellInfo → F
  /-- casters of the `SPELL_AURA_MOD_TAUNT` effects on a unit, oldest first -/
  tauntCasters : U → List U
  /-- amounts of the `SPELL_AURA_MOD_TOTAL_THREAT` effects on a unit -/
  threatAuras : U → List Int
  /-- `HasUnitState(UNIT_STATE_CONTROLLED)` -/
  isUnderControl : U → Bool
  /-- iteration order of a combat map -/
  combatOrder : CombatState U → Bool → U → List U
  mem_combatOrder : ∀ c b u v, v ∈ combatOrder c b u
  nodup_combatOrder : ∀ c b u, (combatOrder c b u).Nodup
  /-- iteration order of a threat map -/
  threatOrder : ThreatState U F → ThreatMap → U → List U
  mem_threatOrder : ∀ t k u v, v ∈ threatOrder t k u
  nodup_threatOrder : ∀ t k u, (threatOrder t k u).Nodup
  /-- `ordered_begin()` to `ordered_end()` of a unit's heap -/
  heapOrder : ThreatState U F → U → List ThreatId
  heapOrder_perm : ∀ t u, (heapOrder t u).Perm ((t.sorted u).map Prod.fst)

end EGServer.Combat
