import EGServer.Reputation.Factions

/-!
# The reputation manager

`ReputationMgr` as it records the standings of one player: `Initialize`, the setters with the
spillover of `SetReputation`, `LoadFromDB` and `SaveToDB`. A `FactionState*` is the key of a
record in `_factions`. The four counters are `uint8`; `wrapped` is no field of the source, it
notes that a counter has been decremented below 0.

Packets, achievements and script hooks are left out.
-/

namespace EGServer.Reputation

open ReputationFlags

structure ReputationMgr where
  factions : Table FactionState.reputationListID := ∅
  visibleFactionCount : UInt8 := 0
  honoredFactionCount : UInt8 := 0
  reveredFactionCount : UInt8 := 0
  exaltedFactionCount : UInt8 := 0
  sendFactionIncreased : Bool := false
  wrapped : Bool := false

/-- A row of `character_reputation`, of which there is one for each faction. -/
structure SavedRow where
  faction : UInt16
  standing : Int32
  flags : UInt16

abbrev SavedRows := Table SavedRow.faction

/-- What is written of a record. -/
def FactionState.toRow (f : FactionState) : SavedRow where
  faction := f.ID.toUInt16
  standing := f.standing
  flags := f.flags.toUInt16

/-! ## Spillover -/

/-- A line of a `RepSpilloverTemplate`; it is not used when its faction is 0, and loading has
checked that any other is in the store. -/
structure SpilloverLine where
  faction : UInt32
  faction_rank : UInt32

/-- The tables of `SetReputation` and the products of a standing with a float, each cut to an
`int32`: `standing * faction_rate[i]`, `spillOverRepOut` for the parent, `spillOverRepOut *
ParentFactionMod[0]` for the sister at a place of its list, and the gain at the rate of the
world. -/
structure Spillover where
  getRepSpilloverTemplate : UInt32 → Option (List SpilloverLine)
  getFactionTeamList : UInt32 → Option (List UInt32)
  templateRep : Nat → Int32
  parentRep : Int32
  sisterRep : Nat → Int32
  gain : Int32 → Int32

namespace ReputationMgr

/-! ## Reading -/

section Reading

variable (p : Player) (m : ReputationMgr) (e : FactionEntry)

def getState : Option FactionState :=
  if e.canHaveReputation then m.factions.get? e.listID else none

/-- 0 for a faction without recorded reputation. -/
def getReputation : Int32 :=
  match m.getState e with
  | some f => p.getBaseReputation e + f.standing
  | none => 0

def getRank : ReputationRank := reputationToRank (m.getReputation p e)

/-- `GetRank(sFactionStore.AssertEntry(faction->ID))`; whatever is recorded is in the store. -/
def assertedRank (store : FactionStore) (f : FactionState) : ReputationRank :=
  match store.lookupEntry f.ID with
  | some e => m.getRank p e
  | none => REP_HATED

end Reading

/-! ## Changing -/

/-- The record under a key is changed in place. -/
def update (m : ReputationMgr) (id : RepListID) (g : FactionState → FactionState)
    (hg : ∀ f, (g f).reputationListID = f.reputationListID) : ReputationMgr :=
  { m with factions := m.factions.modify id g hg }

/-- One counter, which the old rank counted for or not, and the new one does or not. -/
def countRank (rank old_rank new_rank : ReputationRank) (count : UInt8) : UInt8 :=
  let count := if old_rank ≥ rank then count - 1 else count
  if new_rank ≥ rank then count + 1 else count

def updateRankCounters (m : ReputationMgr) (old_rank new_rank : ReputationRank) :
    ReputationMgr :=
  { m with
    exaltedFactionCount := countRank REP_EXALTED old_rank new_rank m.exaltedFactionCount
    reveredFactionCount := countRank REP_REVERED old_rank new_rank m.reveredFactionCount
    honoredFactionCount := countRank REP_HONORED old_rank new_rank m.honoredFactionCount
    wrapped := m.wrapped || (old_rank ≥ REP_EXALTED && m.exaltedFactionCount = 0) ||
      (old_rank ≥ REP_REVERED && m.reveredFactionCount = 0) ||
      (old_rank ≥ REP_HONORED && m.honoredFactionCount = 0) }

/-- `SetVisible(FactionState*)`. -/
def setVisibleState (m : ReputationMgr) (id : RepListID) : ReputationMgr :=
  match m.factions.get? id with
  | none => m
  | some f =>
    if f.canShow then
      { m.update id FactionState.makeVisible (fun _ => rfl) with
        visibleFactionCount := m.visibleFactionCount + 1 }
    else m

section Setters

variable (store : FactionStore) (p : Player)

/-- `SetAtWar(FactionState*, bool)`. -/
def setAtWarState (m : ReputationMgr) (id : RepListID) (atWar : Bool) : ReputationMgr :=
  m.update id (fun f => f.setAtWar (m.assertedRank p store f) atWar) (by
    intro f
    unfold FactionState.setAtWar
    split
    · rfl
    · split <;> rfl)

/-- `SetInactive(FactionState*, bool)`. -/
def setInactiveState (m : ReputationMgr) (id : RepListID) (inactive : Bool) : ReputationMgr :=
  m.update id (fun f => f.setInactive inactive) (by
    intro f
    unfold FactionState.setInactive
    split
    · rfl
    · split <;> rfl)

/-- `SetVisible(FactionEntry const*)`. -/
def setVisible (m : ReputationMgr) (e : FactionEntry) : ReputationMgr :=
  if e.canHaveReputation then m.setVisibleState e.listID else m

/-- `SetVisible(FactionTemplateEntry const*)`: never show factions of the opposing team. -/
def setVisibleTemplate (m : ReputationMgr) (faction : UInt32) : ReputationMgr :=
  if faction = 0 then m else
    match store.lookupEntry faction with
    | none => m
    | some e =>
      if e.reputationRaceMask 1 &&& p.raceMask ≠ 0 && e.reputationBase 1 = reputation_Bottom then m
      else m.setVisible e

/-- `SetAtWar(RepListID, bool)`. -/
def setAtWar (m : ReputationMgr) (id : RepListID) (on : Bool) : ReputationMgr :=
  match m.factions.get? id with
  | none => m
  | some f =>
    -- always invisible or hidden faction can't change war state
    if f.flags.hasFlag (Hidden ||| Header) then m else m.setAtWarState store p id on

/-- `SetInactive(RepListID, bool)`. -/
def setInactive (m : ReputationMgr) (id : RepListID) (on : Bool) : ReputationMgr :=
  m.setInactiveState id on

def sendState (m : ReputationMgr) : ReputationMgr :=
  { m with
    sendFactionIncreased := false
    factions := m.factions.map (fun f => { f with needSend := false }) (fun _ => rfl) }

/-- The standing within the bounds. -/
def clamp (standing : Int32) : Int32 :=
  if standing > reputation_Cap then reputation_Cap
  else if standing < reputation_Bottom then reputation_Bottom
  else standing

def setOneFactionReputation (gain : Int32 → Int32) (m : ReputationMgr) (e : FactionEntry)
    (standing : Int32) (incremental : Bool) : ReputationMgr × Bool :=
  match m.factions.get? e.listID with
  | none => (m, false)
  | some f =>
    let baseRep := p.getBaseReputation e
    let standing := if incremental then gain standing + (f.standing + baseRep) else standing
    let standing := clamp standing
    let old_rank := reputationToRank (f.standing + baseRep)
    let new_rank := reputationToRank standing
    let m := m.update e.listID (FactionState.setStanding (standing - baseRep)) (fun _ => rfl)
    let m := m.setVisibleState e.listID
    let m := if new_rank ≤ REP_HOSTILE then m.setAtWarState store p e.listID true
      else if new_rank > old_rank then m.setAtWarState store p e.listID false
      else m
    let m := if new_rank > old_rank then { m with sendFactionIncreased := true } else m
    (m.updateRankCounters old_rank new_rank, true)

/-! ## SetReputation -/

/-- The lines of a spillover template, with their places. -/
def spillTemplate (env : Spillover) (incremental : Bool) :
    List (SpilloverLine × Nat) → ReputationMgr → ReputationMgr
  | [], m => m
  | (line, i) :: lines, m =>
    let m :=
      match store.lookupEntry line.faction with
      | none => m
      | some e =>
        if m.getRank p e ≤ (line.faction_rank.toNat : Int) then
          -- bonuses are already given, so just modify standing by rate
          (m.setOneFactionReputation store p env.gain e (env.templateRep i) incremental).1
        else m
    spillTemplate env incremental lines m

/-- The affiliated factions, with their places in the list. -/
def spillSisters (env : Spillover) (e : FactionEntry) (incremental : Bool) :
    List (UInt32 × Nat) → ReputationMgr × Bool → ReputationMgr × Bool
  | [], r => r
  | (id, i) :: rest, (m, res) =>
    let r :=
      match store.lookupEntry id with
      | none => (m, res)
      | some sister =>
        if sister.ID = e.ID || m.getRank p sister > (sister.parentFactionCap.toNat : Int) then
          (m, res)
        else if env.sisterRep i ≠ 0 || !incremental then
          m.setOneFactionReputation store p env.gain sister (env.sisterRep i) incremental
        else (m, res)
    spillSisters env e incremental rest r

/-- What spills over from `e`: by its template, or to its team, its parent or its sisters. -/
def spillOver (env : Spillover) (m : ReputationMgr) (e : FactionEntry) (incremental : Bool) :
    ReputationMgr × Bool :=
  match env.getRepSpilloverTemplate e.ID with
  | some lines => (m.spillTemplate store p env incremental lines.zipIdx, false)
  | none =>
    let team := env.getFactionTeamList e.ID
    let (m, flist) :=
      if team.isNone && e.parentFactionID ≠ 0 && e.spillsToParent then
        match store.lookupEntry e.parentFactionID with
        | none => (m, team)
        | some parent =>
          match m.factions.get? parent.listID with
          | some f =>
            -- some team factions have own reputation standing
            if f.flags.hasFlag HeaderShowsBar then
              ((m.setOneFactionReputation store p env.gain parent env.parentRep incremental).1,
                team)
            else (m, env.getFactionTeamList e.parentFactionID)
          | none => (m, env.getFactionTeamList e.parentFactionID)
      else (m, team)
    match flist with
    | none => (m, false)
    | some sisters => spillSisters store p env e incremental sisters.zipIdx (m, false)

def setReputation (env : Spillover) (m : ReputationMgr) (e : FactionEntry) (standing : Int32)
    (incremental spillOverOnly : Bool) : ReputationMgr × Bool :=
  let (m, res) := m.spillOver store p env e incremental
  match m.factions.get? e.listID with
  | none => (m, res)
  | some _ =>
    let (m, res) :=
      if spillOverOnly then (m, res)
      else m.setOneFactionReputation store p env.gain e standing incremental
    -- only this faction gets reported to client, even if it has no own visible standing
    (m.sendState, res)

/-! ## Loading and saving -/

/-- What `Initialize` records of one faction. -/
def initialState (e : FactionEntry) : FactionState where
  ID := e.ID
  reputationListID := e.listID
  standing := 0
  flags := p.getDefaultStateFlags e
  needSend := true
  needSave := true

def initializeFaction (m : ReputationMgr) (e : FactionEntry) : ReputationMgr :=
  if e.canHaveReputation then
    let newFaction := initialState p e
    let m :=
      if newFaction.flags.hasFlag Visible then
        { m with visibleFactionCount := m.visibleFactionCount + 1 }
      else m
    let m := m.updateRankCounters REP_HOSTILE (p.getBaseRank e)
    { m with factions := m.factions.insertOrAssign newFaction }
  else m

def Initialize : ReputationMgr := store.entries.foldl (initializeFaction p) {}

/-- The flags under a key. -/
def flagsAt (m : ReputationMgr) (id : RepListID) : ReputationFlags :=
  match m.factions.get? id with
  | some f => f.flags
  | none => .None

/-- The war flag of a row: it is set for whoever is hostile, and can only be removed from a
visible faction. -/
def loadWar (m : ReputationMgr) (e : FactionEntry) (dbFactionFlags : ReputationFlags) :
    ReputationMgr :=
  let m :=
    if dbFactionFlags.hasFlag AtWar then m.setAtWarState store p e.listID true
    else if (m.flagsAt e.listID).hasFlag Visible then m.setAtWarState store p e.listID false
    else m
  -- set atWar for hostile
  if m.getRank p e ≤ REP_HOSTILE then m.setAtWarState store p e.listID true else m

/-- One row of `LoadFromDB`; `Initialize` has recorded every faction that can be loaded. -/
def loadRow (m : ReputationMgr) (row : SavedRow) : ReputationMgr :=
  match store.lookupEntry row.faction.toUInt32 with
  | none => m
  | some e =>
    if e.canHaveReputation then
      let id := e.listID
      -- update standing to current
      let m := m.update id (FactionState.loadStanding row.standing) (fun _ => rfl)
      -- update counters
      let baseRep := p.getBaseReputation e
      let m := m.updateRankCounters (reputationToRank baseRep)
        (reputationToRank (baseRep + row.standing))
      let dbFactionFlags : ReputationFlags := row.flags.toUInt8
      let m := if dbFactionFlags.hasFlag Visible then m.setVisibleState id else m
      let m := if dbFactionFlags.hasFlag Inactive then m.setInactiveState id true else m
      let m := m.loadWar store p e dbFactionFlags
      -- reset changed flag if values similar to saved in DB
      if m.flagsAt id = dbFactionFlags then
        m.update id FactionState.settle (fun _ => rfl)
      else m
    else m

def loadFromDB (rows : SavedRows) : ReputationMgr :=
  rows.rows.foldl (loadRow store p) (Initialize store p)

end Setters

/-- The rows of the factions that need it are deleted and inserted anew. -/
def saveToDB (m : ReputationMgr) (rows : SavedRows) : ReputationMgr × SavedRows :=
  ({ m with factions := m.factions.map (fun f => { f with needSave := false }) (fun _ => rfl) },
    m.factions.rows.foldl (fun rows f => if f.needSave then rows.insertOrAssign f.toRow else rows)
      rows)

end ReputationMgr

/-! ## Runs -/

/-- What happens to a manager between loading and saving. -/
inductive Change where
  | setReputation (env : Spillover) (faction : UInt32) (standing : Int32)
      (incremental spillOverOnly : Bool)
  | setOneFactionReputation (gain : Int32 → Int32) (faction : UInt32) (standing : Int32)
      (incremental : Bool)
  | setVisible (faction : UInt32)
  | setVisibleTemplate (faction : UInt32)
  | setAtWar (id : RepListID) (on : Bool)
  | setInactive (id : RepListID) (on : Bool)

namespace ReputationMgr

variable (store : FactionStore) (p : Player)

/-- The callers look the faction up in the store. -/
def change (m : ReputationMgr) : Change → ReputationMgr
  | .setReputation env faction standing incremental spillOverOnly =>
    match store.lookupEntry faction with
    | none => m
    | some e => (m.setReputation store p env e standing incremental spillOverOnly).1
  | .setOneFactionReputation gain faction standing incremental =>
    match store.lookupEntry faction with
    | none => m
    | some e => (m.setOneFactionReputation store p gain e standing incremental).1
  | .setVisible faction =>
    match store.lookupEntry faction with
    | none => m
    | some e => m.setVisible e
  | .setVisibleTemplate faction => m.setVisibleTemplate store p faction
  | .setAtWar id on => m.setAtWar store p id on
  | .setInactive id on => m.setInactive id on

def Changes (m : ReputationMgr) (c : Change) (m' : ReputationMgr) : Prop :=
  m' = m.change store p c

/-- A change, or saving (`none`), of a manager beside the rows of its player. -/
def Session (s : ReputationMgr × SavedRows) (c : Option Change) (s' : ReputationMgr × SavedRows) :
    Prop :=
  match c with
  | some c => s' = (s.1.change store p c, s.2)
  | none => s' = s.1.saveToDB s.2

end ReputationMgr

end EGServer.Reputation
