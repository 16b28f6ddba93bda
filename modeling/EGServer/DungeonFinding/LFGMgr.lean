import EGServer.DungeonFinding.Matching

/-!
# Players and groups in the dungeon finder

The state that `LFGMgr` keeps of each player and each group, the proposals, and the queues. A
state that somebody can be left in is latched in `m_OldState`, and restored from there when a
role check or a proposal comes to nothing.
-/

namespace EGServer.DungeonFinding

/-! ## What is known about players and groups -/

/-- The states that `m_OldState` is ever set to. -/
def LfgState.isLatched : LfgState → Bool
  | .none | .dungeon | .finishedDungeon => true
  | _ => false

theorem LfgState.none_isLatched : LfgState.none.isLatched = true := rfl

/-- The latched state is one that a player or a group can be left in. -/
structure LfgPlayerData where
  state : LfgState := .none
  oldState : LfgState := .none
  team : UInt8 := 0
  roles : UInt8 := 0
  comment : String := ""
  selectedDungeons : Finset DungeonId := ∅
  latched : oldState.isLatched = true := by rfl

def LFG_GROUP_MAX_KICKS : Nat := 3

structure LfgGroupData where
  state : LfgState := .none
  oldState : LfgState := .none
  players : List ObjectGuid := []
  dungeon : DungeonId := 0
  kicksLeft : Nat := LFG_GROUP_MAX_KICKS
  latched : oldState.isLatched = true := by rfl

namespace LfgPlayerData

def setState (data : LfgPlayerData) (state : LfgState) : LfgPlayerData :=
  match state with
  | .none => { data with
      roles := 0, comment := "", selectedDungeons := ∅
      state := .none, oldState := .none, latched := rfl }
  | .finishedDungeon => { data with
      roles := 0, comment := "", selectedDungeons := ∅
      state := .finishedDungeon, oldState := .finishedDungeon, latched := rfl }
  | .dungeon => { data with state := .dungeon, oldState := .dungeon, latched := rfl }
  | state => { data with state := state }

def restoreState (data : LfgPlayerData) : LfgPlayerData :=
  let data := if data.oldState = .none then { data with selectedDungeons := ∅, roles := 0 } else data
  { data with state := data.oldState }

@[simp] theorem setState_queued_state (data : LfgPlayerData) :
    (data.setState .queued).state = .queued := rfl

@[simp] theorem setState_queued_oldState (data : LfgPlayerData) :
    (data.setState .queued).oldState = data.oldState := rfl

@[simp] theorem setState_queued_team (data : LfgPlayerData) :
    (data.setState .queued).team = data.team := rfl

@[simp] theorem restoreState_state (data : LfgPlayerData) :
    data.restoreState.state = data.oldState := by
  unfold restoreState
  split <;> rfl

@[simp] theorem restoreState_oldState (data : LfgPlayerData) :
    data.restoreState.oldState = data.oldState := by
  unfold restoreState
  split <;> rfl

@[simp] theorem restoreState_team (data : LfgPlayerData) :
    data.restoreState.team = data.team := by
  unfold restoreState
  split <;> rfl

end LfgPlayerData

namespace LfgGroupData

def setState (data : LfgGroupData) (state : LfgState) : LfgGroupData :=
  match state with
  | .none => { data with
      dungeon := 0, kicksLeft := LFG_GROUP_MAX_KICKS
      state := .none, oldState := .none, latched := rfl }
  | .finishedDungeon => { data with
      state := .finishedDungeon, oldState := .finishedDungeon, latched := rfl }
  | .dungeon => { data with state := .dungeon, oldState := .dungeon, latched := rfl }
  | state => { data with state := state }

def restoreState (data : LfgGroupData) : LfgGroupData :=
  { data with state := data.oldState }

@[simp] theorem setState_queued_state (data : LfgGroupData) :
    (data.setState .queued).state = .queued := rfl

@[simp] theorem setState_queued_oldState (data : LfgGroupData) :
    (data.setState .queued).oldState = data.oldState := rfl

end LfgGroupData

/-! ## The dungeon finder -/

/-- The parts of `LFGMgr` that a failed proposal changes. -/
structure LFGMgr where
  playersStore : ObjectGuid → Option LfgPlayerData
  groupsStore : ObjectGuid → Option LfgGroupData
  proposalsStore : Nat → Option LfgProposal
  queuesStore : UInt8 → LFGQueue

namespace LFGMgr

variable (m : LFGMgr)

/-- Unknown players and groups are as a new one is. -/
def getPlayerData (guid : ObjectGuid) : LfgPlayerData := (m.playersStore guid).getD {}

def getGroupData (guid : ObjectGuid) : LfgGroupData := (m.groupsStore guid).getD {}

def getState (guid : ObjectGuid) : LfgState :=
  if guid.isGroup then (m.getGroupData guid).state else (m.getPlayerData guid).state

def getOldState (guid : ObjectGuid) : LfgState :=
  if guid.isGroup then (m.getGroupData guid).oldState else (m.getPlayerData guid).oldState

/-- The data is created when there is none. -/
def setState (guid : ObjectGuid) (state : LfgState) : LFGMgr :=
  if guid.isGroup then
    let data := (m.getGroupData guid).setState state
    { m with groupsStore := Function.update m.groupsStore guid (some data) }
  else
    let data := (m.getPlayerData guid).setState state
    { m with playersStore := Function.update m.playersStore guid (some data) }

/-- "Restoring the state of unknown LFG data must not create it." -/
def restoreState (guid : ObjectGuid) : LFGMgr :=
  if guid.isGroup then
    let data := (m.groupsStore guid).map LfgGroupData.restoreState
    { m with groupsStore := Function.update m.groupsStore guid data }
  else
    let data := (m.playersStore guid).map LfgPlayerData.restoreState
    { m with playersStore := Function.update m.playersStore guid data }

def getTeam (guid : ObjectGuid) : UInt8 := (m.getPlayerData guid).team

/-- The queue of a group is that of its first player. -/
def getQueueId (guid : ObjectGuid) : UInt8 :=
  if guid.isGroup then
    let pguid := (m.getGroupData guid).players.headD 0
    if pguid.isEmpty then m.getTeam guid else m.getTeam pguid
  else m.getTeam guid

def getQueue (guid : ObjectGuid) : LFGQueue := m.queuesStore (m.getQueueId guid)

/-- `QueuesStore[queueId] = queue`. -/
def setQueue (queueId : UInt8) (queue : LFGQueue) : LFGMgr :=
  { m with queuesStore := Function.update m.queuesStore queueId queue }

end LFGMgr

/-! ## What setting and restoring a state changes -/

namespace LFGMgr

variable (m : LFGMgr) (guid x : ObjectGuid)

theorem getState_setState_queued :
    (m.setState guid .queued).getState x = if x = guid then .queued else m.getState x := by
  unfold setState getState getGroupData getPlayerData
  by_cases hx : x = guid
  · subst hx
    cases h : x.isGroup <;> simp
  · cases h : guid.isGroup <;> simp [hx]

@[simp] theorem getOldState_setState_queued :
    (m.setState guid .queued).getOldState x = m.getOldState x := by
  unfold setState getOldState getGroupData getPlayerData
  by_cases hx : x = guid
  · subst hx
    cases h : x.isGroup <;> simp
  · cases h : guid.isGroup <;> simp [hx]

theorem getState_restoreState :
    (m.restoreState guid).getState x = if x = guid then m.getOldState x else m.getState x := by
  unfold restoreState getState getOldState getGroupData getPlayerData
  by_cases hx : x = guid
  · subst hx
    cases h : x.isGroup
    · cases hd : m.playersStore x <;> simp
    · cases hd : m.groupsStore x <;> simp [LfgGroupData.restoreState]
  · cases h : guid.isGroup <;> simp [hx]

@[simp] theorem getOldState_restoreState :
    (m.restoreState guid).getOldState x = m.getOldState x := by
  unfold restoreState getOldState getGroupData getPlayerData
  by_cases hx : x = guid
  · subst hx
    cases h : x.isGroup
    · cases hd : m.playersStore x <;> simp
    · cases hd : m.groupsStore x <;> simp [LfgGroupData.restoreState]
  · cases h : guid.isGroup <;> simp [hx]

@[simp] theorem getTeam_setState_queued :
    (m.setState guid .queued).getTeam x = m.getTeam x := by
  unfold setState getTeam getPlayerData
  by_cases hx : x = guid
  · subst hx
    cases h : x.isGroup <;> simp
  · cases h : guid.isGroup <;> simp [hx]

@[simp] theorem getTeam_restoreState : (m.restoreState guid).getTeam x = m.getTeam x := by
  unfold restoreState getTeam getPlayerData
  by_cases hx : x = guid
  · subst hx
    cases h : x.isGroup
    · cases hd : m.playersStore x <;> simp
    · simp
  · cases h : guid.isGroup <;> simp [hx]

@[simp] theorem queuesStore_setState (state : LfgState) :
    (m.setState guid state).queuesStore = m.queuesStore := by
  unfold setState
  split <;> rfl

@[simp] theorem queuesStore_restoreState : (m.restoreState guid).queuesStore = m.queuesStore := by
  unfold restoreState
  split <;> rfl

@[simp] theorem proposalsStore_setState (state : LfgState) :
    (m.setState guid state).proposalsStore = m.proposalsStore := by
  unfold setState
  split <;> rfl

@[simp] theorem proposalsStore_restoreState :
    (m.restoreState guid).proposalsStore = m.proposalsStore := by
  unfold restoreState
  split <;> rfl

theorem getOldState_isLatched : (m.getOldState x).isLatched = true := by
  unfold getOldState
  split
  · exact (m.getGroupData x).latched
  · exact (m.getPlayerData x).latched

end LFGMgr

end EGServer.DungeonFinding
