import EGServer.DungeonFinding.Queue
import EGServer.Lib.StateExcept

/-!
# Match making

`findGroups` searches, for each entry that is new or was added again, for entries of the
current queue that form a group with it. `checkCompatibility` decides about one list of
entries, caches what it found, and hands a full group to `LFGMgr::AddProposal`;
`findNewGroups` enumerates the lists, and prunes those that the selected roles or the
dungeons cannot complete.

Everything the search asks of the rest of the server is in `LfgEnv`. The loops and the
recursion of the search are unrolled on fuel that the queue itself provides.
-/

namespace EGServer.DungeonFinding

/-! ## Proposals -/

inductive LfgState where
  | none
  | rolecheck
  | queued
  | proposal
  | dungeon
  | finishedDungeon
  | raidbrowser
  deriving DecidableEq

inductive LfgAnswer where
  | pending
  | deny
  | agree
  deriving DecidableEq

inductive LfgProposalState where
  | initiating
  | failed
  | success
  deriving DecidableEq

/-- `LFG_TIME_PROPOSAL`, in seconds. -/
def LFG_TIME_PROPOSAL : Nat := 45

structure LfgProposalPlayer where
  role : UInt8
  accept : LfgAnswer := .pending
  group : ObjectGuid
  deriving DecidableEq

structure LfgProposal where
  id : Nat
  dungeonId : DungeonId
  state : LfgProposalState
  group : ObjectGuid
  leader : ObjectGuid
  cancelTime : Nat
  isNew : Bool
  queues : List ObjectGuid
  players : Std.ExtTreeMap ObjectGuid LfgProposalPlayer

/-- A call of `LFGMgr::AddProposal`: the queue it found, and its argument. -/
structure AddProposalCall where
  queue : LFGQueue
  proposal : LfgProposal

/-- Who may not be matched with whom. -/
structure LfgRules where
  isLfgGroup : ObjectGuid → Bool
  hasIgnore : ObjectGuid → ObjectGuid → Bool
  hasIgnore_comm : ∀ a b, hasIgnore a b = hasIgnore b a

/-- What the search reads of the rest of the server. The coins and the choice of the
dungeon are those of the proposal with the given number. -/
structure LfgEnv extends LfgRules where
  getOldState : ObjectGuid → LfgState
  allQueued : List ObjectGuid → Bool
  getCompatibleDungeons : Finset DungeonId → List ObjectGuid → Bool →
    Finset DungeonId × LfgLockPartyMap
  getCompatibleDungeons_subset : ∀ dungeons players isContinue,
    (getCompatibleDungeons dungeons players isContinue).1 ⊆ dungeons
  gameTime : Nat
  selectDungeon : Nat → Finset DungeonId → DungeonId
  selectDungeon_mem : ∀ id dungeons, dungeons.Nonempty → selectDungeon id dungeons ∈ dungeons
  urand : Nat → ObjectGuid → Bool

/-- The state the search works on. `stoppedSearches` is the log of the searches that used up
their budget without a match. -/
structure LfgWorld where
  queue : LFGQueue
  lfgProposalId : Nat
  addProposalCalls : List AddProposalCall
  stoppedSearches : List ObjectGuid

inductive Stuck where
  | outOfFuel
  deriving DecidableEq

abbrev LfgM := StateT LfgWorld (Except Stuck)

def onQueue (f : LFGQueue → LFGQueue) : LfgM Unit :=
  modify fun w => { w with queue := f w.queue }

/-- `SetCompatibles(strGuids, compatibles); return compatibles;` -/
def record (check : List ObjectGuid) (compatibles : LfgCompatibility) :
    LfgM LfgCompatibility := do
  onQueue fun q => q.setCompatibles (concatenateGuids check) compatibles
  pure compatibles

/-! ## `LFGQueue::CheckCompatibility` -/

/-- What the first loop gathers about the entries. -/
structure Tally where
  numPlayers : UInt8 := 0
  numLfgGroups : Nat := 0
  group : ObjectGuid := 0
  proposalGroups : Std.ExtTreeMap ObjectGuid ObjectGuid := ∅

def Tally.addEntry (t : Tally) (isLfgGroup : Bool) (guid : ObjectGuid) (roles : LfgRolesMap) :
    Tally where
  numPlayers := t.numPlayers + UInt8.ofNat roles.size
  numLfgGroups := if isLfgGroup then t.numLfgGroups + 1 else t.numLfgGroups
  group := if isLfgGroup && t.numLfgGroups = 0 then guid else t.group
  proposalGroups := roles.keys.foldl
    (fun groups player => groups.insert player (if guid.isGroup then guid else 0))
    t.proposalGroups

/-- Counts players and LFG groups; an `error` is an entry that is not queued. -/
def tallyEntries (env : LfgEnv) (q : LFGQueue) :
    List ObjectGuid → Tally → Except ObjectGuid Tally
  | [], t => .ok t
  | guid :: rest, t =>
    if t.numLfgGroups < 2 ∧ t.numPlayers.toNat ≤ MAX_GROUP_SIZE then
      match q.queueDataStore guid with
      | none => .error guid
      | some data =>
        tallyEntries env q rest (t.addEntry (env.isLfgGroup guid) guid data.roles)
    else .ok t

/-- A player that ignores one of the players already there, or is ignored, is left out. -/
def insertPlayer (env : LfgEnv) (proposalRoles : LfgRolesMap) (player : ObjectGuid × UInt8) :
    LfgRolesMap :=
  if proposalRoles.keys.any fun other => other ≠ player.1 ∧ env.hasIgnore player.1 other then
    proposalRoles
  else proposalRoles.insert player.1 player.2

def mergeRoles (env : LfgEnv) (q : LFGQueue) (check : List ObjectGuid) : LfgRolesMap :=
  check.foldl (fun merged guid => (q.rolesOf guid).toList.foldl (insertPlayer env) merged) ∅

def commonDungeons (q : LFGQueue) : List ObjectGuid → Finset DungeonId
  | [] => ∅
  | guid :: rest => rest.foldl (fun common other => common ∩ q.dungeonsOf other) (q.dungeonsOf guid)

/-- `proposalRoles` before the solver runs on them. -/
def proposalRoles (env : LfgEnv) (q : LFGQueue) (check : List ObjectGuid) : LfgRolesMap :=
  if 1 < check.length then mergeRoles env q check else q.rolesOf (check.headD 0)

/-- The roles and dungeons of the proposal, or why there is none. A single entry was checked
before it joined. -/
def proposalData (env : LfgEnv) (q : LFGQueue) (check : List ObjectGuid) (numPlayers : UInt8) :
    Except LfgCompatibility (LfgRolesMap × Finset DungeonId) :=
  let roles := proposalRoles env q check
  let dungeons := commonDungeons q check
  if 1 < check.length ∧ numPlayers - UInt8.ofNat roles.size ≠ 0 then .error .hasIgnores
  else if 1 < check.length ∧ ¬(checkGroupRoles roles).1 then .error .noRoles
  else if dungeons = ∅ then .error .noDungeons
  else .ok ((checkGroupRoles roles).2, dungeons)

/-- The entry that a player is part of. -/
def queueGuidOf (tally : Tally) (player : ObjectGuid) : ObjectGuid :=
  let group := tally.proposalGroups.getD player 0
  if group.isEmpty then player else group

/-- Erases the dungeons that are locked for a player from an entry, and notes the locks when
no dungeon is left. -/
def pruneEntry (q : LFGQueue) (queueGuid player : ObjectGuid) (locks : LfgLockMap) : LFGQueue :=
  match q.queueDataStore queueGuid with
  | none => q
  | some data =>
    let dungeons := locks.foldl (fun d entry => d.erase (entry.1 &&& 0x00FFFFFF)) data.dungeons
    if dungeons = data.dungeons then q
    else
      let data := { data with dungeons := dungeons }
      let q := { q with queueDataStore := Function.update q.queueDataStore queueGuid (some data) }
      let q := q.invalidateCompatibleData queueGuid
      if dungeons = ∅ then
        let lockedOut := Function.update (q.lockedOut queueGuid) player (some locks)
        { q with lockedOut := Function.update q.lockedOut queueGuid lockedOut }
      else q

/-- The body of the loop over `lockUpdates`; the matched group keeps its own dungeons. -/
def pruneLocked (tally : Tally) (isNew : Bool) (q : LFGQueue)
    (lock : ObjectGuid × LfgLockMap) : LFGQueue :=
  let queueGuid := queueGuidOf tally lock.1
  if !isNew && queueGuid = tally.group then q else pruneEntry q queueGuid lock.1 lock.2

/-- The loop that picks the leader: `leader` tells whether a player with the flag was seen. -/
def chooseLeader (urand : ObjectGuid → Bool) :
    List (ObjectGuid × UInt8) → Bool → ObjectGuid → ObjectGuid
  | [], _, chosen => chosen
  | (player, role) :: rest, leader, chosen =>
    if role &&& PLAYER_ROLE_LEADER ≠ 0 then
      let pick := !leader || chosen.isEmpty || urand player
      chooseLeader urand rest true (if pick then player else chosen)
    else
      let pick := !leader && (chosen.isEmpty || urand player)
      chooseLeader urand rest leader (if pick then player else chosen)

def proposalPlayer (tally : Tally) (isNew : Bool) (player : ObjectGuid) (role : UInt8) :
    LfgProposalPlayer :=
  let group := tally.proposalGroups.getD player 0
  { role := role
    group := group
    accept := if !isNew && !group.isEmpty && group = tally.group then .agree else .pending }

def createProposal (env : LfgEnv) (id : Nat) (check : List ObjectGuid) (tally : Tally)
    (isNew : Bool) (roles : LfgRolesMap) (dungeons : Finset DungeonId) : LfgProposal where
  id := id
  dungeonId := env.selectDungeon id dungeons
  state := .initiating
  group := tally.group
  leader := chooseLeader (env.urand id) roles.toList false 0
  cancelTime := env.gameTime + LFG_TIME_PROPOSAL
  isNew := isNew
  queues := check
  players := roles.map (proposalPlayer tally isNew)

/-- "Mark proposal members as not queued (but not remove queue data)". -/
def LFGQueue.unlist (q : LFGQueue) (queues : List ObjectGuid) : LFGQueue :=
  queues.foldl (fun q guid => (q.removeFromNewQueue guid).removeFromCurrentQueue guid) q

/-- `LFGMgr::AddProposal`. -/
def addProposal (proposal : LfgProposal) : LfgM Unit :=
  modify fun w => { w with
    lfgProposalId := w.lfgProposalId + 1
    addProposalCalls := w.addProposalCalls ++ [{ queue := w.queue, proposal := proposal }] }

/-- Is it a new group, or players for the dungeon that a matched group is in? -/
def isNewProposal (env : LfgEnv) (tally : Tally) : Bool :=
  tally.numLfgGroups ≠ 1 ∨ env.getOldState tally.group ≠ .dungeon

/-- `proposalDungeons` after the saves were validated again. -/
def validatedDungeons (env : LfgEnv) (roles : LfgRolesMap) (dungeons : Finset DungeonId)
    (isNew : Bool) : Finset DungeonId :=
  let filteredDungeons := (env.getCompatibleDungeons dungeons roles.keys (!isNew)).1
  if filteredDungeons.card < dungeons.card then filteredDungeons else dungeons

/-- The part of `CheckCompatibility` for a full group. -/
def propose (env : LfgEnv) (check : List ObjectGuid) (tally : Tally) (roles : LfgRolesMap)
    (dungeons : Finset DungeonId) : LfgM LfgCompatibility :=
  let isNew := isNewProposal env tally
  let validated := validatedDungeons env roles dungeons isNew
  if env.allQueued check = false then record check .badStates
  else if validated = ∅ then do
    let lockUpdates := (env.getCompatibleDungeons dungeons roles.keys (!isNew)).2
    onQueue fun q => lockUpdates.foldl (pruneLocked tally isNew) q
    record check .badStates
  else do
    let w ← get
    onQueue fun q => q.unlist check
    addProposal (createProposal env (w.lfgProposalId + 1) check tally isNew roles validated)
    record check .matched

/-- What the entries themselves say. -/
inductive Examination where
  | notQueued (guid : ObjectGuid)
  | verdict (compatibles : LfgCompatibility)
  | full (tally : Tally) (roles : LfgRolesMap) (dungeons : Finset DungeonId)

/-- The checks of `CheckCompatibility` up to "Enough players?". -/
def examine (env : LfgEnv) (q : LFGQueue) (check : List ObjectGuid) : Examination :=
  match tallyEntries env q check {} with
  | .error guid => .notQueued guid
  | .ok tally =>
    if check.length = 1 ∧ tally.numPlayers.toNat ≠ MAX_GROUP_SIZE then .verdict .withLessPlayers
    else if tally.numLfgGroups > 1 then .verdict .multipleLfgGroups
    else if tally.numPlayers.toNat > MAX_GROUP_SIZE then .verdict .tooMuchPlayers
    else
      match proposalData env q check tally.numPlayers with
      | .error compatibles => .verdict compatibles
      | .ok (roles, dungeons) =>
        if tally.numPlayers.toNat ≠ MAX_GROUP_SIZE then .verdict .withLessPlayers
        else .full tally roles dungeons

/-- The part of `CheckCompatibility` that looks at the entries themselves. -/
def checkEntries (env : LfgEnv) (check : List ObjectGuid) : LfgM LfgCompatibility := do
  let w ← get
  match examine env w.queue check with
  | .notQueued guid => do
    onQueue fun q => q.removeFromQueue guid
    pure .pending
  | .verdict compatibles => record check compatibles
  | .full tally roles dungeons => propose env check tally roles dungeons

/-- `LFGQueue::CheckCompatibility`; a list of more than two entries is checked without its
first one before. -/
def checkCompatibility (env : LfgEnv) : List ObjectGuid → LfgM LfgCompatibility
  | [] => do
    onQueue fun q => q.spendCheck
    pure .wrongGroupSize
  | front :: rest => do
    onQueue fun q => q.spendCheck
    if rest.length + 1 > MAX_GROUP_SIZE then pure .wrongGroupSize
    else if rest.length + 1 > 2 then do
      let child ← checkCompatibility env rest
      if child.isIncompatible then record (front :: rest) child
      else checkEntries env (front :: rest)
    else checkEntries env (front :: rest)

/-! ## `LfgRoleCoverage` -/

/-- How many players selected a role, or one of two roles. -/
structure LfgRoleCoverage where
  tank : Nat := 0
  healer : Nat := 0
  damage : Nat := 0
  tankOrHealer : Nat := 0
  tankOrDamage : Nat := 0
  healerOrDamage : Nat := 0
  players : Nat := 0

namespace LfgRoleCoverage

def addPlayer (c : LfgRoleCoverage) (roles : UInt8) : LfgRoleCoverage :=
  let tank : Bool := selects roles .tank
  let healer : Bool := selects roles .healer
  let damage : Bool := selects roles .damage
  { tank := c.tank + tank.toNat
    healer := c.healer + healer.toNat
    damage := c.damage + damage.toNat
    tankOrHealer := c.tankOrHealer + (tank || healer).toNat
    tankOrDamage := c.tankOrDamage + (tank || damage).toNat
    healerOrDamage := c.healerOrDamage + (healer || damage).toNat
    players := c.players + 1 }

/-- `Add(LfgRolesMap const&)`. -/
def addRoles (c : LfgRoleCoverage) (roles : LfgRolesMap) : LfgRoleCoverage :=
  roles.toList.foldl (fun c player => c.addPlayer player.2) c

/-- `Add(LfgRoleCoverage const&)`. -/
def add (c other : LfgRoleCoverage) : LfgRoleCoverage where
  tank := c.tank + other.tank
  healer := c.healer + other.healer
  damage := c.damage + other.damage
  tankOrHealer := c.tankOrHealer + other.tankOrHealer
  tankOrDamage := c.tankOrDamage + other.tankOrDamage
  healerOrDamage := c.healerOrDamage + other.healerOrDamage
  players := c.players + other.players

def canCompleteGroupWith (c other : LfgRoleCoverage) : Bool :=
  c.tank + other.tank ≥ LFG_TANKS_NEEDED
    && c.healer + other.healer ≥ LFG_HEALERS_NEEDED
    && c.damage + other.damage ≥ LFG_DPS_NEEDED
    && c.tankOrHealer + other.tankOrHealer ≥ LFG_TANKS_NEEDED + LFG_HEALERS_NEEDED
    && c.tankOrDamage + other.tankOrDamage ≥ LFG_TANKS_NEEDED + LFG_DPS_NEEDED
    && c.healerOrDamage + other.healerOrDamage ≥ LFG_HEALERS_NEEDED + LFG_DPS_NEEDED
    && c.players + other.players ≥ MAX_GROUP_SIZE

end LfgRoleCoverage

/-! ## `LFGQueue::FindNewGroups` -/

/-- An entry that may extend the list: `candidates[i]`, the dungeons it had when the
candidates were collected, and `candidateCoverage[i]`. -/
structure Candidate where
  guid : ObjectGuid
  dungeons : Finset DungeonId
  coverage : LfgRoleCoverage

/-- The entries of `all` that can extend the list at all. -/
def collectCandidates (env : LfgEnv) (dungeons : Finset DungeonId) (coverage : LfgRoleCoverage)
    (hasLfgGroup : Bool) : List ObjectGuid → LfgM (List Candidate)
  | [] => pure []
  | guid :: rest => do
    let w ← get
    match w.queue.queueDataStore guid with
    | none => do
      onQueue fun q => q.removeFromQueue guid
      collectCandidates env dungeons coverage hasLfgGroup rest
    | some data =>
      if coverage.players + data.roles.size > MAX_GROUP_SIZE
          ∨ (hasLfgGroup ∧ env.isLfgGroup guid) ∨ data.dungeons ∩ dungeons = ∅ then
        collectCandidates env dungeons coverage hasLfgGroup rest
      else do
        let candidates ← collectCandidates env dungeons coverage hasLfgGroup rest
        pure ({ guid := guid, dungeons := data.dungeons,
                coverage := ({} : LfgRoleCoverage).addRoles data.roles } :: candidates)

/-- `suffix[d][i]`, where `candidates` are those from the `i`-th on. -/
def suffixCoverage (d : DungeonId) : List Candidate → LfgRoleCoverage
  | [] => {}
  | c :: rest =>
    if d ∈ c.dungeons then (suffixCoverage d rest).add c.coverage else suffixCoverage d rest

/-- The loop over the candidates; `self` is the recursive call. -/
def tryCandidates (env : LfgEnv)
    (self : List ObjectGuid → List ObjectGuid → Finset DungeonId → LfgRoleCoverage → Bool →
      LfgM LfgCompatibility)
    (check : List ObjectGuid) (dungeons : Finset DungeonId) (coverage : LfgRoleCoverage)
    (hasLfgGroup : Bool) (compatibles : LfgCompatibility) :
    List Candidate → LfgM LfgCompatibility
  | [] => pure compatibles
  | c :: rest => do
    let w ← get
    if w.queue.remainingChecks = 0 then pure compatibles
    else if ¬∃ d ∈ dungeons, coverage.canCompleteGroupWith (suffixCoverage d (c :: rest)) then
      pure compatibles
    else
      let nextCoverage := coverage.add c.coverage
      let nextDungeons := dungeons ∩ w.queue.dungeonsOf c.guid
      if ¬∃ d ∈ dungeons, d ∈ nextDungeons ∧
          nextCoverage.canCompleteGroupWith (suffixCoverage d rest) then
        tryCandidates env self check dungeons coverage hasLfgGroup compatibles rest
      else do
        let sub ← self (check ++ [c.guid]) (rest.map (·.guid)) nextDungeons nextCoverage
          (hasLfgGroup || env.isLfgGroup c.guid)
        if sub = .matched then pure .matched
        else tryCandidates env self check dungeons coverage hasLfgGroup compatibles rest

/-- The cached result, unless it has to be computed again. -/
def cachedOrChecked (env : LfgEnv) (check : List ObjectGuid) : LfgM LfgCompatibility := do
  let w ← get
  let compatibles := w.queue.getCompatibles (concatenateGuids check)
  if compatibles = .pending ∨ compatibles = .matched ∨ compatibles = .badStates then
    checkCompatibility env check
  else pure compatibles

/-- The recursive `FindNewGroups`, unrolled on fuel. -/
def findNewGroupsFuel (env : LfgEnv) : Nat → List ObjectGuid → List ObjectGuid →
    Finset DungeonId → LfgRoleCoverage → Bool → LfgM LfgCompatibility
  | 0, _, _, _, _, _ => throw .outOfFuel
  | fuel + 1, check, all, dungeons, coverage, hasLfgGroup => do
    let compatibles ← cachedOrChecked env check
    if compatibles ≠ .withLessPlayers then pure compatibles
    else do
      let w ← get
      if w.queue.remainingChecks = 0 then pure compatibles
      else do
        let candidates ← collectCandidates env dungeons coverage hasLfgGroup all
        tryCandidates env (findNewGroupsFuel env fuel) check dungeons coverage hasLfgGroup
          compatibles candidates

/-- What the outer `FindNewGroups` gathers about the entries of `check`. -/
def gatherCheck (env : LfgEnv) (q : LFGQueue) (check : List ObjectGuid) :
    Finset DungeonId × LfgRoleCoverage × Bool :=
  let queued := check.filter fun guid => q.isQueued guid
  (commonDungeons q queued,
    queued.foldl (fun coverage guid => coverage.addRoles (q.rolesOf guid)) {},
    queued.any env.isLfgGroup)

/-- The warning about a search that was cut off. -/
def logStopped (check : List ObjectGuid) (compatibles : LfgCompatibility) : LfgM Unit :=
  modify fun w =>
    if compatibles ≠ .matched ∧ w.queue.remainingChecks = 0 then
      { w with stoppedSearches := w.stoppedSearches ++ [check.headD 0] }
    else w

/-- `LFGQueue::FindNewGroups`. -/
def findNewGroups (env : LfgEnv) (check all : List ObjectGuid) : LfgM LfgCompatibility := do
  let w ← get
  let gathered := gatherCheck env w.queue check
  onQueue fun q => { q with remainingChecks := LFG_MATCH_CHECK_BUDGET }
  let compatibles ← findNewGroupsFuel env (all.length + 1) check all
    gathered.1 gathered.2.1 gathered.2.2
  logStopped check compatibles
  pure compatibles

/-! ## `LFGQueue::FindGroups` -/

/-- A turn of the loop over `_rematchStore`. -/
def rematch (env : LfgEnv) (guid : ObjectGuid) (proposals : UInt8) : LfgM UInt8 := do
  onQueue fun q => { q with rematchStore := q.rematchStore.tail }
  let w ← get
  if guid ∈ w.queue.currentQueueStore then do
    let compatibles ← findNewGroups env [guid] (removeGuid w.queue.currentQueueStore guid)
    pure (if compatibles = .matched then proposals + 1 else proposals)
  else pure proposals

/-- A turn of the loop over `newToQueueStore`. -/
def matchNew (env : LfgEnv) (frontguid : ObjectGuid) (proposals : UInt8) : LfgM UInt8 := do
  onQueue fun q => q.removeFromNewQueue frontguid
  let w ← get
  let compatibles ← findNewGroups env [frontguid] w.queue.currentQueueStore
  if compatibles = .matched then pure (proposals + 1)
  else do
    onQueue fun q => q.addToCurrentQueue frontguid
    pure proposals

/-- `LFGQueue::FindGroups`, with the number of proposals it reports. -/
def findGroups (env : LfgEnv) : LfgM UInt8 := do
  onQueue fun q => q.clearCompatibles
  let w ← get
  let proposals ← StateExcept.whileAcc .outOfFuel (fun w => w.queue.rematchStore.head?)
    (rematch env) w.queue.rematchStore.length 0
  let w ← get
  StateExcept.whileAcc .outOfFuel (fun w => w.queue.newToQueueStore.head?)
    (matchNew env) w.queue.newToQueueStore.length proposals

end EGServer.DungeonFinding
