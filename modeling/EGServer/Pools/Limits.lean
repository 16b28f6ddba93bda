import EGServer.Pools.Spawning
import EGServer.Lib.GuardedRun

/-!
# Pool limits

The recursion that spawns a pool, the calls from outside, and what holds in every state of a
run. `UpdatePool` hands a sub-pool to its mother pool without asking whether that one is
spawned itself; when it is not, it gets members, and with them the entry in the map that makes
it active in its own mother pool, which has not counted it.
-/

namespace EGServer.Pools

namespace PoolMgr

variable {M : PoolMgr} {p : UInt32} {s s' : PoolState} {T : Kind}
variable {spawnPool despawnPool : UInt32 → PoolState → PoolState}

/-! ## `SpawnObject` -/

theorem CanFill.of_unchanged {d d' : ActivePoolData} (h : M.CanFill d p)
    (hsame : M.Unchanged p d d') : M.CanFill d' p := by
  rcases h with hready | hlimit
  · exact Or.inl (hsame.ready hready)
  · exact Or.inr hlimit

theorem spawnObject_spec (hdespawn : M.DespawnsSubPools p despawnPool)
    (hspawn : M.SpawnsSubPools p spawnPool) (hs : M.Good s) (hcan : M.CanFill s.mSpawnedData p)
    {trigger : UInt32} (htrigger : trigger ≠ 0 → trigger ∈ M.guids T p) :
    M.Spawned p s (spawnObject despawnPool spawnPool M.toPoolTables p T trigger s) := by
  have hfirst : M.Spawned p s
      (if trigger ≠ 0 then despawnObject despawnPool p T trigger s else s) := by
    split
    · next hne =>
      have hdespawned := (despawnObject_spec hdespawn hs (htrigger hne)).1
      exact ⟨hdespawned.good, hdespawned.unchanged⟩
    · exact Spawned.refl hs p
  obtain ⟨hspawned, hfilled⟩ :=
    fill_spec (T := T) hspawn hfirst.good (hcan.of_unchanged hfirst.unchanged)
  have hall := hfirst.trans hspawned
  refine ⟨⟨hall.good.consistent, hall.good.found, ?_⟩, hall.unchanged⟩
  -- the call that has returned now is put on record with those before it
  intro T' q d hmem
  rcases List.mem_cons.mp hmem with heq | hmem
  · obtain ⟨rfl, hrest⟩ := Prod.mk.inj heq
    obtain ⟨rfl, rfl⟩ := Prod.mk.inj hrest
    exact hfilled
  · exact hall.good.returns T' q d hmem

theorem spawnGroup_spec (hdespawn : M.DespawnsSubPools p despawnPool)
    (hspawn : M.SpawnsSubPools p spawnPool) (hs : M.Good s) (hcan : M.CanFill s.mSpawnedData p)
    {trigger : UInt32} (htrigger : trigger ≠ 0 → trigger ∈ M.guids T p) :
    M.Spawned p s (spawnGroup despawnPool spawnPool M.toPoolTables p T trigger s) := by
  grind [spawnObject_spec, Spawned.refl, spawnGroup]

/-! ## `SpawnPool` -/

theorem spawnKinds_spec (hdespawn : M.DespawnsSubPools p despawnPool)
    (hspawn : M.SpawnsSubPools p spawnPool) (kinds : List Kind) (s : PoolState) (hs : M.Good s)
    (hready : M.Ready s.mSpawnedData p) :
    M.Spawned p s (kinds.foldl
      (fun s T => spawnGroup despawnPool spawnPool M.toPoolTables p T 0 s) s) := by
  induction kinds generalizing s with
  | nil => exact Spawned.refl hs p
  | cons T rest ih =>
    have hfirst := spawnGroup_spec (T := T) hdespawn hspawn hs (Or.inl hready)
      (fun h => absurd rfl h)
    exact hfirst.trans (ih _ hfirst.good (hfirst.unchanged.ready hready))

theorem spawnPoolAt_spec {depth : Nat} {p : UInt32} (hdepth : M.height p < depth)
    {s : PoolState} (hs : M.Good s) (hready : M.Ready s.mSpawnedData p) :
    M.Spawned p s (M.spawnPoolAt depth p s) := by
  induction depth generalizing p s with
  | zero => exact absurd hdepth (Nat.not_lt_zero _)
  | succ depth ih =>
    have hlt : ∀ c, M.SubPool p c → M.height c < depth := fun c hc =>
      Nat.lt_of_lt_of_le (height_lt hc) (Nat.le_of_lt_succ hdepth)
    exact spawnKinds_spec (fun c hc s hs => despawnPoolAt_spec (hlt c hc) hs)
      (fun c hc s hs hready => ih (hlt c hc) hs hready) _ s hs hready

/-! ### The equation of the source -/

theorem spawnPoolAt_succ (depth : Nat) (p : UInt32) (s : PoolState) :
    M.spawnPoolAt (depth + 1) p s = [Kind.Pool, .GameObject, .Creature].foldl
      (fun s T => spawnGroup (M.despawnPoolAt depth) (M.spawnPoolAt depth)
        M.toPoolTables p T 0 s) s := rfl

theorem spawnRolled_congr {f f' : UInt32 → PoolState → PoolState}
    (h : ∀ c, M.SubPool p c → f c = f' c) {l : List PoolObject}
    (hl : ∀ x ∈ l, x.guid ∈ M.guids T p) (s : PoolState) :
    spawnRolled f p T l s = spawnRolled f' p T l s := by
  apply List.foldl_ext
  intro s x hx
  cases T with
  | Creature => rfl
  | GameObject => rfl
  | Pool =>
    show f x.guid _ = f' x.guid _
    rw [h x.guid (hl x hx)]

theorem spawnGroup_congr {f f' d d' : UInt32 → PoolState → PoolState}
    (h : ∀ c, M.SubPool p c → f c = f' c) (T : Kind) (s : PoolState) :
    spawnGroup d f M.toPoolTables p T 0 s = spawnGroup d' f' M.toPoolTables p T 0 s := by
  have hfill : fill f M.toPoolTables p T s = fill f' M.toPoolTables p T s := by
    unfold fill
    simp only
    split
    · rfl
    · next hcount =>
      split
      · rfl
      · apply spawnRolled_congr h
        intro x hx
        have hselected := (rolledObjects_spec (M.groups T p) (s.chances 0) s.draws
          (Int.lt_toNat.mpr (Int.not_le.mp hcount)) _).1.subset hx
        exact List.mem_map_of_mem (List.mem_filter.mp hselected).1
  simp [spawnGroup, spawnObject, hfill]

theorem spawnPoolAt_eq {n m : Nat} {p : UInt32} (hn : M.height p < n) (hm : M.height p < m) :
    M.spawnPoolAt n p = M.spawnPoolAt m p := by
  induction n generalizing p m with
  | zero => exact absurd hn (Nat.not_lt_zero _)
  | succ n ih =>
    cases m with
    | zero => exact absurd hm (Nat.not_lt_zero _)
    | succ m =>
      grind [spawnGroup_congr, spawnPoolAt_succ, height_lt]

theorem spawnPool_spec (hs : M.Good s) (hready : M.Ready s.mSpawnedData p) :
    M.Spawned p s (M.spawnPool p s) :=
  spawnPoolAt_spec (height_lt_depth p) hs hready

theorem spawnsSubPools (p : UInt32) : M.SpawnsSubPools p M.spawnPool :=
  fun _ _ _ hs hready => spawnPool_spec hs hready

end PoolMgr

/-! ## Runs -/

/-- The calls from outside: of the game events, and of the respawn timers. -/
inductive PoolCall where
  | spawnPool (pool_id : UInt32)
  | despawnPool (pool_id : UInt32)
  | updatePool (T : Kind) (pool_id db_guid_or_pool_id : UInt32)

namespace PoolMgr

variable (M : PoolMgr)

def call : PoolCall → PoolState → PoolState
  | .spawnPool pool_id => M.spawnPool pool_id
  | .despawnPool pool_id => M.despawnPool pool_id
  | .updatePool T pool_id guid => M.updatePool T pool_id guid

/-- Pools are spawned and despawned at the root, and updated for one of their members. -/
def Called : PoolCall → Prop
  | .spawnPool pool_id => ∀ m, ¬ M.SubPool m pool_id
  | .despawnPool pool_id => ∀ m, ¬ M.SubPool m pool_id
  | .updatePool T pool_id guid => guid ∈ M.guids T pool_id

def Step (s : PoolState) (c : PoolCall) (s' : PoolState) : Prop := M.Called c ∧ s' = M.call c s

/-- The pool into which `UpdatePool` spawns. -/
def target (pool_id : UInt32) : UInt32 :=
  if M.isPartOfAPool pool_id ≠ 0 then M.isPartOfAPool pool_id else pool_id

/-- The pool into which `UpdatePool` spawns is no sub-pool or is active, or its limit as an
`int32` leaves room for nothing. -/
def Meets (s : PoolState) : PoolCall → Prop
  | .updatePool _ pool_id _ => M.CanFill s.mSpawnedData (M.target pool_id)
  | _ => True

variable {M} {p : UInt32} {s s' : PoolState}

theorem subPool_isPartOfAPool {pool_id : UInt32} (h : M.isPartOfAPool pool_id ≠ 0) :
    M.SubPool (M.isPartOfAPool pool_id) pool_id := by
  cases hrow : M.mPoolSearchMap.get? pool_id with
  | none =>
    rw [PoolTables.isPartOfAPool, hrow] at h
    exact absurd rfl h
  | some row =>
    obtain ⟨child, mother⟩ := row
    obtain rfl : child = pool_id := (Table.get?_eq_some.mp hrow).2
    rw [PoolTables.isPartOfAPool, hrow]
    exact (M.search child mother).mp hrow

theorem Good.call (hs : M.Good s) {c : PoolCall} (hcalled : M.Called c) (hmeets : M.Meets s c) :
    M.Good (M.call c s) := by
  cases c with
  | spawnPool p => exact (spawnPool_spec hs (Or.inl hcalled)).good
  | despawnPool p => exact (despawnPool_spec p hs).1.good
  | updatePool T p g =>
    have hcan : M.CanFill s.mSpawnedData (M.target p) := hmeets
    show M.Good (M.updatePool T p g s)
    unfold PoolTables.updatePool
    unfold target at hcan
    split at hcan
    · next hmother =>
      rw [if_pos hmother]
      exact (spawnGroup_spec (despawnsSubPools _) (spawnsSubPools _) hs hcan
        fun _ => subPool_isPartOfAPool hmother).good
    · next hmother =>
      rw [if_neg hmother]
      exact (spawnGroup_spec (despawnsSubPools _) (spawnsSubPools _) hs hcan
        fun _ => hcalled).good

/-- Nothing is spawned yet. -/
def initial (chances : Nat → ℚ) (draws : Nat → Nat) : PoolState := { chances, draws }

theorem good_initial (chances : Nat → ℚ) (draws : Nat → Nat) :
    M.Good (initial chances draws) := by
  constructor
  · constructor
    · intro p
      have hnone : M.activeCount {} p = 0 := by
        apply activeCount_eq_zero.mpr
        intro o _
        obtain ⟨T, g⟩ := o
        cases T <;> rfl
      exact hnone.symm
    · intro p
      exact UInt32.le_iff_toNat_le.mpr (Nat.zero_le _)
  · intro val hval
    exact absurd hval List.not_mem_nil
  · intro T p d hmem
    exact absurd hmem List.not_mem_nil

/-- **Pool limits.** When `UpdatePool` is called only where the pool it spawns into is no
sub-pool or is active, then in every state every counter is the number of active members and
within its limit, a sub-pool with active members is active, `RemoveObject` has never found a
counter at 0, and every call of `SpawnObject` has, for limits below 2^31, returned with the
limit reached or the whole group active. -/
theorem limits_hold (M : PoolMgr) (chances : Nat → ℚ) (draws : Nat → Nat) (s : PoolState)
    (h : Reaches M.Step M.Meets (initial chances draws) s) :
    (∀ p, (s.mSpawnedData.getActiveObjectCount p).toNat = M.activeCount s.mSpawnedData p ∧
      s.mSpawnedData.getActiveObjectCount p ≤ M.MaxLimit p) ∧
    (∀ m p, M.SubPool m p → (∃ o ∈ M.members p, s.isActiveObject o.1 o.2 = true) →
      s.isActiveObject .Pool p = true) ∧
    (∀ val ∈ s.found, 0 < val) ∧
    ∀ T p d, (T, p, d) ∈ s.returns → (M.MaxLimit p).toNat < 2 ^ 31 →
      d.getActiveObjectCount p = M.MaxLimit p ∨ ∀ g ∈ M.guids T p, d.isActiveObject T g = true := by
  have hgood : M.Good s := by
    apply h.invariant (good_initial chances draws)
    intro s s' c hs hmeets hstep
    rw [hstep.2]
    exact hs.call hstep.1 hmeets
  refine ⟨fun p => ⟨hgood.consistent.count p, hgood.consistent.limit p⟩, ?_, hgood.found,
    hgood.returns⟩
  intro m p _ hsome
  obtain ⟨o, ho, hactive⟩ := hsome
  exact hgood.consistent.active_of_member (M.mem_members.mp ho) hactive

theorem good_of_reaches {chances : Nat → ℚ} {draws : Nat → Nat}
    (h : Reaches M.Step M.Meets (initial chances draws) s) : M.Good s := by
  apply h.invariant (good_initial chances draws)
  intro s s' c hs hmeets hstep
  rw [hstep.2]
  exact hs.call hstep.1 hmeets

/-- Pool 1 holds the pools 2 and 4, pool 2 holds pool 3, and pool 3 a creature. -/
def nestedTables : PoolTables where
  MaxLimit _ := 1
  groups
    | .Pool, p =>
      if p = 1 then { EqualChanced := [⟨2, 0⟩, ⟨4, 0⟩] }
      else if p = 2 then { EqualChanced := [⟨3, 0⟩] } else {}
    | .Creature, p => if p = 3 then { EqualChanced := [⟨7, 0⟩] } else {}
    | .GameObject, _ => {}
  mPoolSearchMap := ⟨[(2, 1), (4, 1), (3, 2)], by decide⟩

theorem mem_guids_nestedTables {T : Kind} {p g : UInt32} :
    g ∈ nestedTables.guids T p ↔
      T = .Pool ∧ (p = 1 ∧ (g = 2 ∨ g = 4) ∨ p = 2 ∧ g = 3) ∨ T = .Creature ∧ p = 3 ∧ g = 7 := by
  cases T with
  | GameObject => simp [PoolTables.guids, nestedTables, PoolGroup.guids, PoolGroup.objects]
  | Creature =>
    by_cases h : p = 3 <;>
      simp [PoolTables.guids, nestedTables, PoolGroup.guids, PoolGroup.objects, h]
  | Pool =>
    by_cases h : p = 1
    · simp [PoolTables.guids, nestedTables, PoolGroup.guids, PoolGroup.objects, h]
    · by_cases h' : p = 2 <;>
        simp [PoolTables.guids, nestedTables, PoolGroup.guids, PoolGroup.objects, h, h']

theorem lt_of_subPool_nestedTables {p c : UInt32}
    (h : Relation.TransGen nestedTables.SubPool p c) : p < c := by
  have hone : ∀ p c, nestedTables.SubPool p c → p < c := by
    intro p c hc
    have hmem := mem_guids_nestedTables.mp hc
    grind
  induction h with
  | single h => exact hone _ _ h
  | tail _ h ih => exact UInt32.lt_trans ih (hone _ _ h)

theorem nodup_nestedTables (T : Kind) (p : UInt32) : (nestedTables.guids T p).Nodup := by
  cases T with
  | GameObject => exact List.nodup_nil
  | Creature =>
    by_cases h : p = 3 <;>
      simp [PoolTables.guids, nestedTables, PoolGroup.guids, PoolGroup.objects, h]
  | Pool =>
    by_cases h : p = 1
    · simp [PoolTables.guids, nestedTables, PoolGroup.guids, PoolGroup.objects, h]
    · by_cases h' : p = 2 <;>
        simp [PoolTables.guids, nestedTables, PoolGroup.guids, PoolGroup.objects, h, h']

theorem unique_nestedTables (T : Kind) (p q g : UInt32) (hp : g ∈ nestedTables.guids T p)
    (hq : g ∈ nestedTables.guids T q) : p = q := by
  rw [mem_guids_nestedTables] at hp hq
  grind

theorem search_nestedTables (child mother : UInt32) :
    nestedTables.mPoolSearchMap.get? child = some (child, mother) ↔
      nestedTables.SubPool mother child := by
  rw [Table.get?_eq_some, PoolTables.SubPool, mem_guids_nestedTables, Table.mem_def]
  simp only [nestedTables, List.mem_cons, Prod.mk.injEq, List.not_mem_nil]
  grind

theorem acyclic_nestedTables (p : UInt32) : ¬ Relation.TransGen nestedTables.SubPool p p :=
  fun h => absurd (lt_of_subPool_nestedTables h) (UInt32.lt_irrefl p)

def nested : PoolMgr where
  toPoolTables := nestedTables
  nodup := nodup_nestedTables
  unique := unique_nestedTables
  search := search_nestedTables
  acyclic := acyclic_nestedTables

theorem root_nested (m : UInt32) : ¬ nested.SubPool m 1 := by
  intro hm
  have hmem := mem_guids_nestedTables.mp hm
  simp at hmem

/-- Pool 1 has chosen a pool, which is pool 4 when 1 is drawn; then the timer of the creature in pool 3 runs out. -/
def revived (draws : Nat → Nat) : PoolState :=
  nested.updatePool .Creature 3 7 (nested.spawnPool 1 (initial (fun _ => 0) draws))

theorem limits_hold_nested :
    (∀ p, ((revived fun _ => 0).mSpawnedData.getActiveObjectCount p).toNat =
        nested.activeCount (revived fun _ => 0).mSpawnedData p ∧
      (revived fun _ => 0).mSpawnedData.getActiveObjectCount p ≤ nested.MaxLimit p) ∧
    (revived fun _ => 0).isActiveObject .Creature 7 = true := by
  have hspawned : Reaches nested.Step nested.Meets (initial (fun _ => 0) fun _ => 0)
      (nested.spawnPool 1 (initial (fun _ => 0) fun _ => 0)) :=
    (Reaches.refl _).next (a := .spawnPool 1) trivial ⟨root_nested, rfl⟩
  have hrevived : Reaches nested.Step nested.Meets (initial (fun _ => 0) fun _ => 0)
      (revived fun _ => 0) := by
    refine hspawned.next (a := .updatePool .Creature 3 7) (Or.inl (Or.inr ?_)) ⟨?_, rfl⟩
    · decide +kernel
    · show 7 ∈ nestedTables.guids .Creature 3
      decide
  exact ⟨(limits_hold nested _ _ _ hrevived).1, by decide +kernel⟩

/-- The counter of pool 1 is 1, and both of its sub-pools are active. -/
theorem uncounted : ¬ ∀ (M : PoolMgr) (chances : Nat → ℚ) (draws : Nat → Nat) (s : PoolState),
    Reaches M.Step (fun _ _ => True) (initial chances draws) s →
    ∀ p, (s.mSpawnedData.getActiveObjectCount p).toNat = M.activeCount s.mSpawnedData p := by
  intro hall
  have hspawned : Reaches nested.Step (fun _ _ => True) (initial (fun _ => 0) fun _ => 1)
      (nested.spawnPool 1 (initial (fun _ => 0) fun _ => 1)) :=
    (Reaches.refl _).next (a := .spawnPool 1) trivial ⟨root_nested, rfl⟩
  have hrevived : Reaches nested.Step (fun _ _ => True) (initial (fun _ => 0) fun _ => 1)
      (revived fun _ => 1) := by
    refine hspawned.next (a := .updatePool .Creature 3 7) trivial ⟨?_, rfl⟩
    show 7 ∈ nestedTables.guids .Creature 3
    decide
  have hcount := hall nested _ _ _ hrevived 1
  revert hcount
  decide +kernel

end PoolMgr

end EGServer.Pools
