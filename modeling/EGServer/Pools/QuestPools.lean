import EGServer.Lib.Sampling
import EGServer.Lib.Table
import Mathlib.Data.Finset.Basic
import Mathlib.Data.UInt
import Mathlib.Tactic

/-!
# Quest pools

`QuestPoolMgr::LoadFromDB`: the rows of the tables make pools whose members are groups of quests, the
saved quests are put back if they are those of as many members as are asked for, and otherwise the
active members are drawn. What is written to `pool_quest_save` is left out.
-/

namespace EGServer.Pools

/-! ## The tables -/

/-- A row of `quest_pool_members`. -/
structure QuestPoolMember where
  questId : UInt32
  poolId : UInt32
  poolIndex : UInt8

/-- A row of the query, which joins the template. -/
structure QuestPoolFields where
  questId : UInt32
  poolId : UInt32
  poolIndex : Option UInt8
  numActive : Option UInt32

structure SavedQuest where
  pool_id : UInt32
  quest_id : UInt32

/-- The tables, with their primary keys, and the templates of the quests. -/
structure QuestPoolTables where
  quest_pool_members : Table QuestPoolMember.questId
  /-- `numActive` by pool id. -/
  quest_pool_template : UInt32 → Option UInt32
  pool_quest_save : List SavedQuest
  /-- `GetQuestTemplate`: whether the quest is daily, weekly and monthly. -/
  quest_template : UInt32 → Option (Bool × Bool × Bool)

namespace QuestPoolTables

/-- The result of the query: a pool without a template has no `numActive`. -/
def query (tables : QuestPoolTables) : List QuestPoolFields :=
  tables.quest_pool_members.rows.map fun row =>
    ⟨row.questId, row.poolId, some row.poolIndex, tables.quest_pool_template row.poolId⟩

end QuestPoolTables

/-! ## The pools -/

structure QuestPool where
  poolId : UInt32
  numActive : UInt32
  members : List (List UInt32) := []
  activeQuests : Finset UInt32 := ∅

/-- The vector that a pool is in. -/
inductive QuestPoolKind where
  | daily
  | weekly
  | monthly
  deriving DecidableEq

/-- An entry of `lookup`, with the pool that it is for. -/
structure PooledQuests where
  kind : QuestPoolKind
  pool : QuestPool

def PooledQuests.poolId (e : PooledQuests) : UInt32 := e.pool.poolId


structure QuestPoolMgr where
  pools : List PooledQuests
  /-- The id of the pool that a quest is in. -/
  _poolLookup : UInt32 → Option UInt32 := fun _ => none

def QuestPoolMgr.isQuestPooled (mgr : QuestPoolMgr) (questId : UInt32) : Bool :=
  (mgr._poolLookup questId).isSome

namespace QuestPool

/-- `members[poolIndex].push_back(questId)`, after a `resize` if there is none at the index. -/
def addQuest (members : List (List UInt32)) (poolIndex : Nat) (questId : UInt32) : List (List UInt32) :=
  let members := if poolIndex < members.length then members
    else members ++ List.replicate (poolIndex + 1 - members.length) []
  members.modify poolIndex (· ++ [questId])

def pushQuest (poolIndex : Nat) (questId : UInt32) (pool : QuestPool) : QuestPool :=
  { pool with members := addQuest pool.members poolIndex questId }

end QuestPool

namespace PooledQuests

def addQuest (poolIndex : Nat) (questId : UInt32) (e : PooledQuests) : PooledQuests :=
  { e with pool := e.pool.pushQuest poolIndex questId }

theorem poolId_addQuest (poolIndex : Nat) (questId : UInt32) (e : PooledQuests) :
    (e.addQuest poolIndex questId).poolId = e.poolId := rfl

/-- `activeQuests.insert(questId)` -/
def addActive (questId : UInt32) (e : PooledQuests) : PooledQuests :=
  { e with pool := { e.pool with activeQuests := insert questId e.pool.activeQuests } }

theorem poolId_addActive (questId : UInt32) (e : PooledQuests) :
    (e.addActive questId).poolId = e.poolId := rfl

end PooledQuests

abbrev QuestPoolLookup := Table PooledQuests.poolId

/-- `lookup[poolId]`, with a new pool if there is none. -/
def QuestPoolLookup.ensure (lookup : QuestPoolLookup) (kind : QuestPoolKind) (poolId numActive : UInt32) :
    QuestPoolLookup :=
  match lookup.get? poolId with
  | none => lookup.insertOrAssign ⟨kind, { poolId, numActive }⟩
  | some _ => lookup

namespace QuestPool

/-! ## Drawing the active members -/

/-- The body of the loop of `RegeneratePool`. -/
def regenerateStep (draw : Nat → Nat) (pool : QuestPool) (i : Nat) : QuestPool :=
  let n := pool.members.length - 1
  let j := Sampling.between (Sampling.skip draw i) i n
  let members := if i ≠ j then pool.members.swap i j else pool.members
  { pool with members, activeQuests := pool.activeQuests ∪ ((members[i]?).getD []).toFinset }

/-- `RegeneratePool`; there is no result where an `ASSERT` fails. -/
def regeneratePool (draw : Nat → Nat) (pool : QuestPool) : Option QuestPool :=
  if pool.members.isEmpty then none
  else if pool.members.length < pool.numActive.toNat then none
  else
    some ((List.range pool.numActive.toNat).foldl (regenerateStep draw) { pool with activeQuests := ∅ })

/-! ## Restoring the saved ones -/

/-- The variables of the loop over the members. -/
structure Restoring where
  members : List (List UInt32)
  activeQuests : Finset UInt32
  accountedFor : Finset UInt32 := ∅
  activeCount : Nat := 0

/-- A quest of the member other than the first. -/
def restoreOther (status : Bool) (r : Restoring) (quest : UInt32) : Restoring :=
  { r with
    activeQuests := r.activeQuests.erase quest
    accountedFor := if status then insert quest r.accountedFor else r.accountedFor }

def restoreMember (r : Restoring) (i : Nat) : Restoring :=
  match r.members[i]? with
  | none => r
  -- "Index removed."
  | some [] => { r with members := Sampling.swapPop r.members i }
  | some (first :: others) =>
    let status := decide (first ∈ r.activeQuests)
    let r := if status then
        { r with
          activeQuests := r.activeQuests.erase first
          accountedFor := insert first r.accountedFor }
      else r
    let r := others.foldl (restoreOther status) r
    if status then { r with activeCount := r.activeCount + 1 } else r

/-- The loop goes from the last member to the first. -/
def restore (pool : QuestPool) : Restoring :=
  (List.range pool.members.length).reverse.foldl restoreMember
    { members := pool.members, activeQuests := pool.activeQuests }

/-- "post-processing and sanity checks" -/
def check (draw : Nat → Nat) (pool : QuestPool) : Option QuestPool :=
  let pool := if pool.members.length < pool.numActive.toNat then
      { pool with numActive := UInt32.ofNat pool.members.length }
    else pool
  if pool.activeQuests = ∅ then pool.regeneratePool draw
  else
    let r := pool.restore
    let pool := { pool with members := r.members, activeQuests := r.accountedFor }
    if r.activeCount ≠ pool.numActive.toNat then pool.regeneratePool draw else some pool

end QuestPool

namespace QuestPoolTables

variable (tables : QuestPoolTables)

/-! ## Loading -/

def loadRow (lookup : QuestPoolLookup) (fields : QuestPoolFields) : QuestPoolLookup :=
  -- `fields[2]`
  match fields.poolIndex with
  | none => lookup
  | some poolIndex =>
    match tables.quest_template fields.questId with
    | none => lookup
    | some (isDaily, isWeekly, isMonthly) =>
      if !(isDaily || isWeekly) && !isMonthly then lookup
      else
        let kind := if isDaily then QuestPoolKind.daily else if isWeekly then .weekly else .monthly
        (QuestPoolLookup.ensure lookup kind fields.poolId (fields.numActive.getD 0)).modify fields.poolId
          (PooledQuests.addQuest poolIndex.toNat fields.questId) (PooledQuests.poolId_addQuest _ _)

/-- A row of `pool_quest_save`; one of an unknown pool changes nothing. -/
def loadSaved (lookup : QuestPoolLookup) (row : SavedQuest) : QuestPoolLookup :=
  lookup.modify row.pool_id (PooledQuests.addActive row.quest_id) (PooledQuests.poolId_addActive _)

/-- The quests of a pool are put into `_poolLookup`, unless they are there. -/
def addToLookup (poolLookup : UInt32 → Option UInt32) (pool : QuestPool) : UInt32 → Option UInt32 :=
  pool.members.flatten.foldl
    (fun poolLookup quest =>
      if (poolLookup quest).isSome then poolLookup
      else Function.update poolLookup quest (some pool.poolId))
    poolLookup

/-- The loop over `lookup`. Every pool is given random numbers of its own. -/
def checkPools (draw : UInt32 → Nat → Nat) : List PooledQuests → QuestPoolMgr → Option QuestPoolMgr
  | [], mgr => some mgr
  | e :: rest, mgr =>
    match e.pool.check (draw e.pool.poolId) with
    | none => none
    | some pool =>
      checkPools draw rest
        { pools := mgr.pools ++ [{ e with pool }], _poolLookup := addToLookup mgr._poolLookup pool }

/-- `LoadFromDB`; `order` is the order in which `lookup` is walked through. -/
def loadFromDB (order : Arrangement PooledQuests) (draw : UInt32 → Nat → Nat) : Option QuestPoolMgr :=
  let lookup := tables.query.foldl tables.loadRow ∅
  let lookup := tables.pool_quest_save.foldl loadSaved lookup
  checkPools draw (order.arrange lookup.rows) { pools := [] }

end QuestPoolTables

end EGServer.Pools
