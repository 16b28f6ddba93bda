import EGServer.Lib.Sampling
import EGServer.Lib.Table
import Mathlib.Data.UInt
import Mathlib.Tactic

/-!
# Pools

A pool is a set of creatures, gameobjects and other pools of which at most `MaxLimit` are
spawned at a time. This is the whole of `PoolMgr.cpp` that spawns and despawns, and
`ActivePoolData`, the record of what is spawned.

The class templates are instantiated at three types, the members `T` of a pool; they are the
constructors of `Kind` here. Chances are rationals where the code has floats: they are only
subtracted from an arbitrary roll and compared with 0.
-/

namespace EGServer.Pools

/-- The types at which `PoolGroup` is instantiated. -/
inductive Kind where
  | Creature
  | GameObject
  | Pool
  deriving DecidableEq

/-! ## What is spawned -/

/-- `mSpawnedPools` has an entry for every active pool, and its value counts the active
members of that pool. -/
structure ActivePoolData where
  mSpawnedCreatures : Finset UInt32 := ∅
  mSpawnedGameobjects : Finset UInt32 := ∅
  mSpawnedPools : UInt32 → Option UInt32 := fun _ => none

namespace ActivePoolData

variable (d : ActivePoolData)

def getActiveObjectCount (pool_id : UInt32) : UInt32 := (d.mSpawnedPools pool_id).getD 0

def isActiveObject : Kind → UInt32 → Bool
  | .Creature, db_guid => decide (db_guid ∈ d.mSpawnedCreatures)
  | .GameObject, db_guid => decide (db_guid ∈ d.mSpawnedGameobjects)
  | .Pool, sub_pool_id => (d.mSpawnedPools sub_pool_id).isSome

/-- `mSpawnedPools[pool_id] = count`. -/
def setCount (pool_id count : UInt32) : ActivePoolData :=
  { d with mSpawnedPools := Function.update d.mSpawnedPools pool_id (some count) }

/-- `++mSpawnedPools[pool_id]`, which makes the entry when there is none. -/
def increment (pool_id : UInt32) : ActivePoolData :=
  d.setCount pool_id (d.getActiveObjectCount pool_id + 1)

/-- The counter goes down unless it is 0; the entry is made when there is none. -/
def decrement (pool_id : UInt32) : ActivePoolData :=
  let val := d.getActiveObjectCount pool_id
  d.setCount pool_id (if val > 0 then val - 1 else val)

def activateObject : Kind → UInt32 → UInt32 → ActivePoolData
  | .Creature, db_guid, pool_id =>
    { d with mSpawnedCreatures := insert db_guid d.mSpawnedCreatures }.increment pool_id
  | .GameObject, db_guid, pool_id =>
    { d with mSpawnedGameobjects := insert db_guid d.mSpawnedGameobjects }.increment pool_id
  | .Pool, sub_pool_id, pool_id => (d.setCount sub_pool_id 0).increment pool_id

/-- What `RemoveObject` erases before it looks at the counter. -/
def eraseObject : Kind → UInt32 → ActivePoolData
  | .Creature, db_guid => { d with mSpawnedCreatures := d.mSpawnedCreatures.erase db_guid }
  | .GameObject, db_guid => { d with mSpawnedGameobjects := d.mSpawnedGameobjects.erase db_guid }
  | .Pool, sub_pool_id =>
    { d with mSpawnedPools := Function.update d.mSpawnedPools sub_pool_id none }

def removeObject (T : Kind) (guid pool_id : UInt32) : ActivePoolData :=
  (d.eraseObject T guid).decrement pool_id

end ActivePoolData

/-! ## The groups of a pool -/

structure PoolObject where
  guid : UInt32
  chance : ℚ

structure PoolGroup where
  ExplicitlyChanced : List PoolObject := []
  EqualChanced : List PoolObject := []

namespace PoolGroup

def isEmpty (G : PoolGroup) : Bool := G.ExplicitlyChanced.isEmpty && G.EqualChanced.isEmpty

/-- The objects in the order in which every loop walks through them. -/
def objects (G : PoolGroup) : List PoolObject := G.EqualChanced ++ G.ExplicitlyChanced

def guids (G : PoolGroup) : List UInt32 := G.objects.map PoolObject.guid

end PoolGroup

/-- The tables of `PoolMgr` that are filled by `LoadFromDB`. A pool that has no group of a
type is given an empty one: wherever a group is looked up, both are passed over alike. -/
structure PoolTables where
  MaxLimit : UInt32 → UInt32
  groups : Kind → UInt32 → PoolGroup
  /-- Sub-pools with their mother pools. -/
  mPoolSearchMap : Table (Prod.fst : UInt32 × UInt32 → UInt32)

namespace PoolTables

def guids (M : PoolTables) (T : Kind) (pool_id : UInt32) : List UInt32 :=
  (M.groups T pool_id).guids

def SubPool (M : PoolTables) (mother child : UInt32) : Prop := child ∈ M.guids .Pool mother

/-- `IsPartOfAPool<Pool>`. -/
def isPartOfAPool (M : PoolTables) (pool_id : UInt32) : UInt32 :=
  ((M.mPoolSearchMap.get? pool_id).map Prod.snd).getD 0

end PoolTables

/-- A loaded hierarchy in which every object is in at most one pool and no pool contains
itself. -/
structure PoolMgr extends PoolTables where
  nodup : ∀ T p, (toPoolTables.guids T p).Nodup
  unique : ∀ T p q g, g ∈ toPoolTables.guids T p → g ∈ toPoolTables.guids T q → p = q
  search : ∀ child mother, mPoolSearchMap.get? child = some (child, mother) ↔
    toPoolTables.SubPool mother child
  acyclic : ∀ p, ¬ Relation.TransGen toPoolTables.SubPool p p

/-! ## The state of a run -/

/-- What is spawned, and the random numbers still to be drawn.

The last two fields are ghosts that nothing in the code reads: the values that the calls of
`RemoveObject` have found in the counter, and the calls of `SpawnObject` that have returned,
each with what was spawned then. -/
structure PoolState where
  mSpawnedData : ActivePoolData := {}
  chances : Nat → ℚ
  draws : Nat → Nat
  found : List UInt32 := []
  returns : List (Kind × UInt32 × ActivePoolData) := []

namespace PoolState

variable (s : PoolState)

def isActiveObject (T : Kind) (guid : UInt32) : Bool := s.mSpawnedData.isActiveObject T guid

def activateObject (T : Kind) (guid pool_id : UInt32) : PoolState :=
  { s with mSpawnedData := s.mSpawnedData.activateObject T guid pool_id }

def removeObject (T : Kind) (guid pool_id : UInt32) : PoolState :=
  { s with
    mSpawnedData := s.mSpawnedData.removeObject T guid pool_id
    found := (s.mSpawnedData.eraseObject T guid).getActiveObjectCount pool_id :: s.found }

/-- A chance and `n` numbers have been drawn. -/
def drawn (n : Nat) : PoolState :=
  { s with chances := fun i => s.chances (i + 1), draws := Sampling.skip s.draws n }

def returned (T : Kind) (pool_id : UInt32) : PoolState :=
  { s with returns := (T, pool_id, s.mSpawnedData) :: s.returns }

end PoolState

/-! ## Despawning -/

/-- `Despawn1Object`, which recurses for a pool. -/
def despawn1Object (despawnPool : UInt32 → PoolState → PoolState) :
    Kind → UInt32 → PoolState → PoolState
  | .Pool, child_pool_id => despawnPool child_pool_id
  | _, _ => id

def despawnObject (despawnPool : UInt32 → PoolState → PoolState) (poolId : UInt32) (T : Kind)
    (guid : UInt32) (s : PoolState) : PoolState :=
  if s.isActiveObject T guid then
    (despawn1Object despawnPool T guid s).removeObject T guid poolId
  else s

def despawnAllObjects (despawnPool : UInt32 → PoolState → PoolState) (M : PoolTables)
    (poolId : UInt32) (T : Kind) (s : PoolState) : PoolState :=
  (M.guids T poolId).foldl (fun s guid => despawnObject despawnPool poolId T guid s) s

/-! ## Spawning -/

/-- `int32 count = x`. -/
def toInt32 (x : UInt32) : Int := x.toBitVec.toInt

/-- The walk that takes the chances off the roll: the index of the object it stops at. -/
def explicitRoll : ℚ → List PoolObject → Option Nat
  | _, [] => none
  | roll, candidate :: rest =>
    if candidate.chance > 0 then
      if roll - candidate.chance < 0 then some 0
      else (explicitRoll (roll - candidate.chance) rest).map (· + 1)
    else (explicitRoll roll rest).map (· + 1)

/-- `Trinity::Containers::RandomResize`. -/
def randomResize (draw : Nat → Nat) (container : List PoolObject) (requestedSize : Nat) :
    List PoolObject :=
  if container.length ≤ requestedSize then container
  else Sampling.select draw requestedSize container

/-- The objects that `SpawnObject` selects out of the candidates, at most `count` of them. -/
def rolledObjects (G : PoolGroup) (roll : ℚ) (draw : Nat → Nat) (count : Nat)
    (candidates : List PoolObject) : List PoolObject :=
  let explicit := if G.ExplicitlyChanced.isEmpty then none else explicitRoll roll candidates
  let rolled := (explicit.bind (candidates[·]?)).toList
  let rest := match explicit with
    | some i => Sampling.swapPop candidates i
    | none => candidates
  let remainingCount := count - rolled.length
  if remainingCount > 0 && !rest.isEmpty then rolled ++ randomResize draw rest remainingCount
  else rolled

/-- `Spawn1Object`, which recurses for a pool. -/
def spawn1Object (spawnPool : UInt32 → PoolState → PoolState) :
    Kind → UInt32 → PoolState → PoolState
  | .Pool, child_pool_id => spawnPool child_pool_id
  | _, _ => id

/-- The objects of the group that are not active. -/
def candidates (G : PoolGroup) (T : Kind) (d : ActivePoolData) : List PoolObject :=
  G.objects.filter fun obj => !d.isActiveObject T obj.guid

/-- The loop that spawns the objects that were selected. -/
def spawnRolled (spawnPool : UInt32 → PoolState → PoolState) (poolId : UInt32) (T : Kind)
    (rolled : List PoolObject) (s : PoolState) : PoolState :=
  rolled.foldl
    (fun s obj => spawn1Object spawnPool T obj.guid (s.activateObject T obj.guid poolId)) s

/-- `SpawnObject` once the trigger has been cleared: a chance and at most as many numbers as
there are candidates are drawn. -/
def fill (spawnPool : UInt32 → PoolState → PoolState) (M : PoolTables) (poolId : UInt32)
    (T : Kind) (s : PoolState) : PoolState :=
  let G := M.groups T poolId
  let count := toInt32 (M.MaxLimit poolId - s.mSpawnedData.getActiveObjectCount poolId)
  let candidates := candidates G T s.mSpawnedData
  if count ≤ 0 then s
  else if candidates.isEmpty then s
  else
    spawnRolled spawnPool poolId T
      (rolledObjects G (s.chances 0) s.draws count.toNat candidates)
      (s.drawn candidates.length)

def spawnObject (despawnPool spawnPool : UInt32 → PoolState → PoolState) (M : PoolTables)
    (poolId : UInt32) (T : Kind) (triggerFrom : UInt32) (s : PoolState) : PoolState :=
  let s := if triggerFrom ≠ 0 then despawnObject despawnPool poolId T triggerFrom s else s
  (fill spawnPool M poolId T s).returned T poolId

/-- `SpawnPool<T>`. -/
def spawnGroup (despawnPool spawnPool : UInt32 → PoolState → PoolState) (M : PoolTables)
    (pool_id : UInt32) (T : Kind) (triggerFrom : UInt32) (s : PoolState) : PoolState :=
  if (M.groups T pool_id).isEmpty then s
  else spawnObject despawnPool spawnPool M pool_id T triggerFrom s

/-! ## The recursion through the hierarchy

A pool is spawned and despawned by recursion through its sub-pools. `depth` bounds the levels
that are gone down, and the number of sub-pools is enough of it. -/

namespace PoolTables

variable (M : PoolTables)

/-- `DespawnPool`, down to a depth. -/
def despawnPoolAt : Nat → UInt32 → PoolState → PoolState
  | 0, _ => id
  | depth + 1, pool_id => fun s =>
    [Kind.Creature, .GameObject, .Pool].foldl
      (fun s T => if (M.groups T pool_id).isEmpty then s
        else despawnAllObjects (despawnPoolAt depth) M pool_id T s) s

/-- `SpawnPool`, down to a depth. No trigger is passed on, so nothing is despawned here. -/
def spawnPoolAt : Nat → UInt32 → PoolState → PoolState
  | 0, _ => id
  | depth + 1, pool_id => fun s =>
    [Kind.Pool, .GameObject, .Creature].foldl
      (fun s T => spawnGroup (M.despawnPoolAt depth) (spawnPoolAt depth) M pool_id T 0 s) s

/-- One level more than there are sub-pools. -/
def depth : Nat := M.mPoolSearchMap.rows.length + 1

def despawnPool (pool_id : UInt32) (s : PoolState) : PoolState :=
  M.despawnPoolAt M.depth pool_id s

def spawnPool (pool_id : UInt32) (s : PoolState) : PoolState := M.spawnPoolAt M.depth pool_id s

/-- `UpdatePool<T>`: a sub-pool is handed to its mother pool, as the object to be replaced. -/
def updatePool (T : Kind) (pool_id db_guid_or_pool_id : UInt32) (s : PoolState) : PoolState :=
  let motherpoolid := M.isPartOfAPool pool_id
  if motherpoolid ≠ 0 then
    spawnGroup M.despawnPool M.spawnPool M motherpoolid .Pool pool_id s
  else spawnGroup M.despawnPool M.spawnPool M pool_id T db_guid_or_pool_id s

end PoolTables

end EGServer.Pools

/-!
# The hierarchy of the pools

Which pools lie under which, how deep the recursion through them goes, and the members of one
pool, creatures, gameobjects and sub-pools together.
-/

namespace EGServer.Pools

namespace PoolMgr

variable (M : PoolMgr) {p q c : UInt32}

/-- `q` is `p` or a pool somewhere below it. -/
def Under (p q : UInt32) : Prop := Relation.ReflTransGen M.SubPool p q

variable {M}

theorem Under.refl (p : UInt32) : M.Under p p := Relation.ReflTransGen.refl

theorem under_of_subPool (h : M.SubPool p c) (hq : M.Under c q) : M.Under p q :=
  Relation.ReflTransGen.head h hq

theorem not_under_of_subPool (h : M.SubPool p c) : ¬ M.Under c p := by
  intro hunder
  exact M.acyclic p (Relation.TransGen.head' h hunder)

/-! ## How deep it is -/

variable (M)

/-- The pools strictly below `p`. -/
def below (p : UInt32) : Set UInt32 := {q | Relation.TransGen M.SubPool p q}

/-- The number of pools below, as a measure of the recursion. -/
noncomputable def height (p : UInt32) : Nat := (M.below p).ncard

variable {M}

theorem below_subset (p : UInt32) :
    M.below p ⊆ ↑(M.mPoolSearchMap.rows.map Prod.fst).toFinset := by
  intro q hq
  obtain ⟨m, hm⟩ : ∃ m, M.SubPool m q := by
    cases hq with
    | single h => exact ⟨_, h⟩
    | tail _ h => exact ⟨_, h⟩
  have hrow := (Table.get?_eq_some.mp ((M.search q m).mpr hm)).1
  rw [Finset.mem_coe, List.mem_toFinset]
  exact List.mem_map.mpr ⟨(q, m), hrow, rfl⟩

theorem height_lt (h : M.SubPool p c) : M.height c < M.height p := by
  apply Set.ncard_lt_ncard _ ((Finset.finite_toSet _).subset (below_subset p))
  constructor
  · intro q hq
    exact Relation.TransGen.head h hq
  · -- `c` itself is below `p` and not below `c`
    intro hsub
    exact M.acyclic c (hsub (Relation.TransGen.single h))

theorem height_lt_depth (p : UInt32) : M.height p < M.depth := by
  have hle : M.height p ≤ (M.mPoolSearchMap.rows.map Prod.fst).toFinset.card := by
    rw [← Set.ncard_coe_finset]
    exact Set.ncard_le_ncard (below_subset p) (Finset.finite_toSet _)
  have hlen := List.toFinset_card_le (M.mPoolSearchMap.rows.map Prod.fst)
  rw [List.length_map] at hlen
  exact Nat.lt_succ_of_le (hle.trans hlen)

end PoolMgr

/-! ## Members -/

namespace PoolTables

variable (M : PoolTables)

/-- The members of a pool, of all types. -/
def members (p : UInt32) : List (Kind × UInt32) :=
  [Kind.Creature, .GameObject, .Pool].flatMap fun T => (M.guids T p).map fun g => (T, g)

@[simp] theorem mem_members {p : UInt32} {o : Kind × UInt32} :
    o ∈ M.members p ↔ o.2 ∈ M.guids o.1 p := by
  obtain ⟨T, g⟩ := o
  cases T <;> simp [members]

/-- The number of members that are active. -/
def activeCount (d : ActivePoolData) (p : UInt32) : Nat :=
  (M.members p).countP fun o => d.isActiveObject o.1 o.2

end PoolTables

namespace PoolMgr

variable {M : PoolMgr} {p q : UInt32} {d d' : ActivePoolData}

theorem nodup_members (p : UInt32) : (M.members p).Nodup := by
  apply List.nodup_flatMap.mpr
  constructor
  · intro T _
    exact (M.nodup T p).map fun a b h => (Prod.mk.inj h).2
  · have hdisjoint : ∀ T T' : Kind, T ≠ T' → List.Disjoint ((M.guids T p).map fun g => (T, g))
        ((M.guids T' p).map fun g => (T', g)) := by
      intro T T' hne o ho ho'
      grind
    simp [Function.onFun, hdisjoint]

theorem owner_unique {o : Kind × UInt32} (hp : o ∈ M.members p) (hq : o ∈ M.members q) :
    p = q :=
  M.unique o.1 p q o.2 (M.mem_members.mp hp) (M.mem_members.mp hq)

theorem activeCount_congr
    (h : ∀ o ∈ M.members p, d'.isActiveObject o.1 o.2 = d.isActiveObject o.1 o.2) :
    M.activeCount d' p = M.activeCount d p := by
  apply List.countP_congr
  intro o ho
  rw [h o ho]

theorem activeCount_eq_zero :
    M.activeCount d p = 0 ↔ ∀ o ∈ M.members p, d.isActiveObject o.1 o.2 = false := by
  simp only [PoolTables.activeCount, List.countP_eq_zero, Bool.not_eq_true]

theorem countP_succ {α : Type} {P Q : α → Bool} {a : α} {l : List α} (hl : l.Nodup)
    (ha : a ∈ l) (hP : P a = false) (hQ : Q a = true) (h : ∀ x ∈ l, x ≠ a → Q x = P x) :
    l.countP Q = l.countP P + 1 := by
  induction l with
  | nil => exact absurd ha List.not_mem_nil
  | cons x rest ih =>
    obtain ⟨hx, hrest⟩ := List.nodup_cons.mp hl
    rw [List.countP_cons, List.countP_cons]
    by_cases hxa : x = a
    · grind [List.countP_congr]
    · grind

/-- A member of `p` becomes active, and nothing else changes. -/
theorem activeCount_activate {o : Kind × UInt32} (ho : o ∈ M.members p)
    (hold : d.isActiveObject o.1 o.2 = false) (hnew : d'.isActiveObject o.1 o.2 = true)
    (hother : ∀ r, ∀ x ∈ M.members r, x ≠ o →
      d'.isActiveObject x.1 x.2 = d.isActiveObject x.1 x.2) (q : UInt32) :
    M.activeCount d' q = M.activeCount d q + if q = p then 1 else 0 := by
  by_cases hq : q = p
  · subst hq
    rw [if_pos rfl]
    exact countP_succ (nodup_members q) ho hold hnew (hother q)
  · rw [if_neg hq]
    grind [owner_unique, activeCount_congr]

end PoolMgr

end EGServer.Pools
