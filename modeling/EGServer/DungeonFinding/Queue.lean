import EGServer.DungeonFinding.Roles
import Mathlib.Data.Finset.Basic
import Mathlib.Logic.Function.Basic

/-!
# The keys of the compatibility cache

The result for a list of queue entries is cached under a string: the guids of the list in
ascending order without repetitions, written in decimal and joined by `|`. Two lists share
a key exactly when they name the same entries, and the search for a guid in a key finds
the entries of the list it was made from.
-/

namespace EGServer.DungeonFinding

/-- The characters of the `std::string` a result is cached under. -/
abbrev CompatibleKey := List Char

/-- `std::to_string(guid.GetRawValue())`. -/
def guidToken (guid : ObjectGuid) : List Char := Nat.toDigits 10 guid.toNat

/-- `GuidSet guids(check.begin(), check.end())`, in the order it is iterated in. -/
def guidSet (check : List ObjectGuid) : List ObjectGuid :=
  (Std.ExtTreeSet.ofList check compare).toList

/-- `ConcatenateGuids`. -/
def concatenateGuids (check : List ObjectGuid) : CompatibleKey :=
  ['|'].intercalate ((guidSet check).map guidToken)

/-- `LFGQueue::CompatibleKeyContainsGuid`. -/
def compatibleKeyContainsGuid (key : CompatibleKey) (guid : ObjectGuid) : Bool :=
  (key.splitOn '|').contains (guidToken guid)

example : concatenateGuids [12, 7, 12] = "7|12".toList := by decide +kernel

variable {a b check : List ObjectGuid} {guid : ObjectGuid}

@[simp] theorem mem_guidSet : guid ∈ guidSet check ↔ guid ∈ check := by
  rw [guidSet, Std.ExtTreeSet.mem_toList, Std.ExtTreeSet.mem_ofList, List.contains_iff_mem]

theorem guidSet_congr (h : ∀ g, g ∈ a ↔ g ∈ b) : guidSet a = guidSet b := by
  have hset : Std.ExtTreeSet.ofList a compare = Std.ExtTreeSet.ofList b compare := by
    apply Std.ExtTreeSet.ext_mem
    grind
  rw [guidSet, guidSet, hset]

theorem guidToken_injective : Function.Injective guidToken := by
  intro g h heq
  have hnat : g.toNat = h.toNat := by
    rw [← Nat.ofDigitChars_ten_toDigits (n := g.toNat),
      ← Nat.ofDigitChars_ten_toDigits (n := h.toNat)]
    exact congrArg (Nat.ofDigitChars 10 · 0) heq
  exact UInt64.toNat_inj.mp hnat

theorem separator_notMem_guidToken (g : ObjectGuid) : '|' ∉ guidToken g := by
  intro h
  have hdigit := Nat.isDigit_of_mem_toDigits (by decide) (by decide) h
  exact absurd hdigit (by decide)

theorem splitOn_concatenateGuids (hne : check ≠ []) :
    (concatenateGuids check).splitOn '|' = (guidSet check).map guidToken := by
  apply List.splitOn_intercalate
  · intro token htoken
    obtain ⟨g, _, rfl⟩ := List.mem_map.mp htoken
    exact separator_notMem_guidToken g
  · obtain ⟨g, hg⟩ := List.exists_mem_of_ne_nil check hne
    have hmem : g ∈ guidSet check := mem_guidSet.mpr hg
    grind [List.map_eq_nil_iff]

/-- **A key names a set of entries.** -/
theorem concatenateGuids_eq_iff (ha : a ≠ []) (hb : b ≠ []) :
    concatenateGuids a = concatenateGuids b ↔ ∀ g, g ∈ a ↔ g ∈ b := by
  constructor
  · intro h g
    have htokens := congrArg (List.splitOn '|') h
    rw [splitOn_concatenateGuids ha, splitOn_concatenateGuids hb] at htokens
    have hsets := List.map_injective_iff.mpr guidToken_injective htokens
    rw [← mem_guidSet, hsets, mem_guidSet]
  · intro h
    rw [concatenateGuids, concatenateGuids, guidSet_congr h]

theorem compatibleKeyContainsGuid_iff (hne : check ≠ []) :
    compatibleKeyContainsGuid (concatenateGuids check) guid = true ↔ guid ∈ check := by
  rw [compatibleKeyContainsGuid, splitOn_concatenateGuids hne, List.contains_iff_mem,
    List.mem_map]
  constructor
  · rintro ⟨g, hg, heq⟩
    exact guidToken_injective heq ▸ mem_guidSet.mp hg
  · intro h
    exact ⟨guid, mem_guidSet.mpr h, rfl⟩

end EGServer.DungeonFinding

/-!
# The dungeon finder queue

The state of one `LFGQueue`: the entries with the dungeons and roles they queued for, the
cache of compatibility results, the two lists an entry waits in, the entries to be matched
again after a failed proposal, and what is left of the budget of the running search.

What only feeds the queue status shown to a player (join times, wait times, the best
compatible combination) is not modelled: no decision of the queue depends on it.
-/

namespace EGServer.DungeonFinding

/-- A dungeon of the dungeon finder. -/
abbrev DungeonId := Nat

/-- Why each dungeon is locked for a player, by dungeon entry. -/
abbrev LfgLockMap := List (Nat × Nat)

/-- `LfgLockPartyMap`: the locks of each player, in the order they are visited. -/
abbrev LfgLockPartyMap := List (ObjectGuid × LfgLockMap)

/-- `LFG_MATCH_CHECK_BUDGET`. -/
def LFG_MATCH_CHECK_BUDGET : Nat := 20000

/-- What a list of entries is to each other, in the order of the source: values under
`withLessPlayers` are not compatible. -/
inductive LfgCompatibility where
  | pending
  | wrongGroupSize
  | tooMuchPlayers
  | multipleLfgGroups
  | hasIgnores
  | noRoles
  | noDungeons
  | withLessPlayers
  | badStates
  | matched
  deriving DecidableEq

/-- `compatibility < LFG_COMPATIBLES_WITH_LESS_PLAYERS`. -/
def LfgCompatibility.isIncompatible : LfgCompatibility → Bool
  | .withLessPlayers | .badStates | .matched => false
  | _ => true

structure LfgQueueData where
  dungeons : Finset DungeonId
  roles : LfgRolesMap

structure LFGQueue where
  queueDataStore : ObjectGuid → Option LfgQueueData
  compatibleMapStore : CompatibleKey → Option LfgCompatibility
  currentQueueStore : List ObjectGuid
  newToQueueStore : List ObjectGuid
  rematchStore : List ObjectGuid
  remainingChecks : Nat
  lockedOut : ObjectGuid → ObjectGuid → Option LfgLockMap

/-- `std::list::remove`. -/
def removeGuid (l : List ObjectGuid) (guid : ObjectGuid) : List ObjectGuid :=
  l.filter (· ≠ guid)

@[simp] theorem mem_removeGuid {l : List ObjectGuid} {g guid : ObjectGuid} :
    g ∈ removeGuid l guid ↔ g ∈ l ∧ g ≠ guid := by
  simp [removeGuid]

theorem removeGuid_sublist (l : List ObjectGuid) (guid : ObjectGuid) :
    (removeGuid l guid).Sublist l :=
  List.filter_sublist

/-! ## The lists -/

namespace LFGQueue

variable (q : LFGQueue) (guid : ObjectGuid)

/-- A queue as the server starts with it. -/
def empty : LFGQueue where
  queueDataStore _ := none
  compatibleMapStore _ := none
  currentQueueStore := []
  newToQueueStore := []
  rematchStore := []
  remainingChecks := 0
  lockedOut _ _ := none

def removeFromNewQueue : LFGQueue :=
  { q with newToQueueStore := removeGuid q.newToQueueStore guid }

def removeFromCurrentQueue : LFGQueue :=
  { q with currentQueueStore := removeGuid q.currentQueueStore guid }

/-- `_rematchStore.remove(guid)`. -/
def removeFromRematch : LFGQueue :=
  { q with rematchStore := removeGuid q.rematchStore guid }

def addToNewQueue : LFGQueue :=
  { q with
    currentQueueStore := removeGuid q.currentQueueStore guid
    newToQueueStore := removeGuid q.newToQueueStore guid ++ [guid] }

def addToCurrentQueue : LFGQueue :=
  { q with
    newToQueueStore := removeGuid q.newToQueueStore guid
    currentQueueStore := removeGuid q.currentQueueStore guid ++ [guid] }

def addToFrontCurrentQueue : LFGQueue :=
  { q with
    newToQueueStore := removeGuid q.newToQueueStore guid
    currentQueueStore := guid :: removeGuid q.currentQueueStore guid }

/-! ## The cache -/

/-- `LFGQueue::RemoveFromCompatibles`. -/
def removeFromCompatibles : LFGQueue :=
  { q with
    compatibleMapStore := fun key =>
      if compatibleKeyContainsGuid key guid then none else q.compatibleMapStore key }

/-- `LFGQueue::InvalidateCompatibleData`, less the status it recomputes. -/
def invalidateCompatibleData : LFGQueue :=
  q.removeFromCompatibles guid

def setCompatibles (key : CompatibleKey) (compatibles : LfgCompatibility) : LFGQueue :=
  { q with compatibleMapStore := Function.update q.compatibleMapStore key (some compatibles) }

def getCompatibles (key : CompatibleKey) : LfgCompatibility :=
  (q.compatibleMapStore key).getD .pending

/-- `CompatibleMapStore.clear()`. -/
def clearCompatibles : LFGQueue :=
  { q with compatibleMapStore := fun _ => none }

/-- `if (_remainingChecks) --_remainingChecks;` -/
def spendCheck : LFGQueue :=
  { q with remainingChecks := q.remainingChecks - 1 }

/-! ## The entries -/

def eraseQueueData : LFGQueue :=
  { q with queueDataStore := Function.update q.queueDataStore guid none }

def isQueued : Bool := (q.queueDataStore guid).isSome

def addToQueue (reAdd : Bool) : LFGQueue :=
  if (q.queueDataStore guid).isNone then q
  else if reAdd then
    let q := q.addToFrontCurrentQueue guid
    { q with rematchStore := removeGuid q.rematchStore guid ++ [guid] }
  else q.addToNewQueue guid

def removeFromQueue : LFGQueue :=
  let q := q.removeFromNewQueue guid
  let q := q.removeFromCurrentQueue guid
  let q := q.removeFromRematch guid
  let q := q.eraseQueueData guid
  q.invalidateCompatibleData guid

/-- `LFGQueue::RemoveQueueData` does the same as `RemoveFromQueue`. -/
def removeQueueData : LFGQueue := q.removeFromQueue guid

def addQueueData (dungeons : Finset DungeonId) (rolesMap : LfgRolesMap) : LFGQueue :=
  let q := q.removeFromNewQueue guid
  let q := q.removeFromCurrentQueue guid
  let q := q.removeFromRematch guid
  let q := q.eraseQueueData guid
  let q := q.invalidateCompatibleData guid
  let data : LfgQueueData := { dungeons := dungeons, roles := rolesMap }
  let q := { q with queueDataStore := Function.update q.queueDataStore guid (some data) }
  q.addToQueue guid false

/-- The roles of an entry. -/
def rolesOf : LfgRolesMap := ((q.queueDataStore guid).map (·.roles)).getD ∅

/-- The dungeons of an entry. -/
def dungeonsOf : Finset DungeonId := ((q.queueDataStore guid).map (·.dungeons)).getD ∅

variable {q guid} in
theorem rolesOf_eq {data : LfgQueueData} (h : q.queueDataStore guid = some data) :
    q.rolesOf guid = data.roles := by
  rw [rolesOf, h]; rfl

variable {q guid} in
theorem dungeonsOf_eq {data : LfgQueueData} (h : q.queueDataStore guid = some data) :
    q.dungeonsOf guid = data.dungeons := by
  rw [dungeonsOf, h]; rfl

/-! ## What the operations leave in the queue -/

variable {q guid}

theorem removeGuid_removeGuid (l : List ObjectGuid) :
    removeGuid (removeGuid l guid) guid = removeGuid l guid := by
  simp [removeGuid, List.filter_filter]

theorem queueDataStore_addQueueData (dungeons : Finset DungeonId) (roles : LfgRolesMap) :
    (q.addQueueData guid dungeons roles).queueDataStore =
      Function.update q.queueDataStore guid (some { dungeons := dungeons, roles := roles }) := by
  simp [addQueueData, addToQueue, addToNewQueue, eraseQueueData, invalidateCompatibleData,
    removeFromCompatibles, removeFromRematch, removeFromCurrentQueue, removeFromNewQueue]

theorem newToQueueStore_addQueueData (dungeons : Finset DungeonId) (roles : LfgRolesMap) :
    (q.addQueueData guid dungeons roles).newToQueueStore =
      removeGuid q.newToQueueStore guid ++ [guid] := by
  simp [addQueueData, addToQueue, addToNewQueue, eraseQueueData, invalidateCompatibleData,
    removeFromCompatibles, removeFromRematch, removeFromCurrentQueue, removeFromNewQueue,
    removeGuid_removeGuid]

theorem currentQueueStore_addQueueData (dungeons : Finset DungeonId) (roles : LfgRolesMap) :
    (q.addQueueData guid dungeons roles).currentQueueStore =
      removeGuid q.currentQueueStore guid := by
  simp [addQueueData, addToQueue, addToNewQueue, eraseQueueData, invalidateCompatibleData,
    removeFromCompatibles, removeFromRematch, removeFromCurrentQueue, removeFromNewQueue,
    removeGuid_removeGuid]

theorem rematchStore_addQueueData (dungeons : Finset DungeonId) (roles : LfgRolesMap) :
    (q.addQueueData guid dungeons roles).rematchStore = removeGuid q.rematchStore guid := by
  simp [addQueueData, addToQueue, addToNewQueue, eraseQueueData, invalidateCompatibleData,
    removeFromCompatibles, removeFromRematch, removeFromCurrentQueue, removeFromNewQueue]

theorem compatibleMapStore_addQueueData (dungeons : Finset DungeonId) (roles : LfgRolesMap)
    (key : CompatibleKey) :
    (q.addQueueData guid dungeons roles).compatibleMapStore key =
      if compatibleKeyContainsGuid key guid then none else q.compatibleMapStore key := by
  simp [addQueueData, addToQueue, addToNewQueue, eraseQueueData, invalidateCompatibleData,
    removeFromCompatibles, removeFromRematch, removeFromCurrentQueue, removeFromNewQueue]

theorem isQueued_addQueueData (dungeons : Finset DungeonId) (roles : LfgRolesMap)
    (g : ObjectGuid) :
    (q.addQueueData guid dungeons roles).isQueued g = (g = guid || q.isQueued g) := by
  rw [isQueued, queueDataStore_addQueueData, Function.update_apply]
  by_cases h : g = guid
  · simp [h]
  · simp [h, isQueued]

theorem rolesOf_addQueueData (dungeons : Finset DungeonId) (roles : LfgRolesMap)
    (g : ObjectGuid) :
    (q.addQueueData guid dungeons roles).rolesOf g = if g = guid then roles else q.rolesOf g := by
  rw [rolesOf, queueDataStore_addQueueData, Function.update_apply]
  by_cases h : g = guid
  · simp [h]
  · simp [h, rolesOf]

end LFGQueue

end EGServer.DungeonFinding
