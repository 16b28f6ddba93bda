import EGServer.Pools.Counting

/-!
# Despawning

The recursion that despawns a pool leaves none of its members active, changes nothing but what
lies under the pool, and keeps the counters right.
-/

namespace EGServer.Pools

namespace PoolMgr

variable (M : PoolMgr)

/-- What is said of a call of `SpawnObject` that has returned: as many members of the pool are
active as may be, or all of the group are. From a limit of 2^31 on, the difference to the
counter does not fit the `int32` it is assigned to. -/
def Filled (T : Kind) (p : UInt32) (d : ActivePoolData) : Prop :=
  (M.MaxLimit p).toNat < 2 ^ 31 →
    d.getActiveObjectCount p = M.MaxLimit p ∨ ∀ g ∈ M.guids T p, d.isActiveObject T g = true

/-- A state of a run, between any two operations on `ActivePoolData`. -/
structure Good (s : PoolState) : Prop where
  consistent : M.Consistent s.mSpawnedData
  found : ∀ val ∈ s.found, 0 < val
  returns : ∀ T p d, (T, p, d) ∈ s.returns → M.Filled T p d

/-- What despawning something of the pool `p` does to a state. -/
structure Despawned (p : UInt32) (s s' : PoolState) : Prop where
  good : M.Good s'
  unchanged : M.Unchanged p s.mSpawnedData s'.mSpawnedData
  shrinks : ∀ o : Kind × UInt32,
    s'.mSpawnedData.isActiveObject o.1 o.2 = true → s.mSpawnedData.isActiveObject o.1 o.2 = true

variable {M} {p c : UInt32} {s s' s'' : PoolState} {T : Kind} {g : UInt32}

namespace Despawned

theorem refl (hs : M.Good s) (p : UInt32) : M.Despawned p s s :=
  ⟨hs, Unchanged.refl p _, fun _ h => h⟩

theorem trans (h : M.Despawned p s s') (h' : M.Despawned p s' s'') : M.Despawned p s s'' :=
  ⟨h'.good, h.unchanged.trans h'.unchanged, fun o ho => h.shrinks o (h'.shrinks o ho)⟩

theorem of_subPool (h : M.Despawned c s s') (hc : M.SubPool p c) : M.Despawned p s s' :=
  ⟨h.good, h.unchanged.of_subPool hc, h.shrinks⟩

theorem inactive (h : M.Despawned p s s') {o : Kind × UInt32}
    (ho : s.mSpawnedData.isActiveObject o.1 o.2 = false) :
    s'.mSpawnedData.isActiveObject o.1 o.2 = false := by
  by_contra hnot
  rw [h.shrinks o (by simpa using hnot)] at ho
  cases ho

end Despawned

/-! ## One object -/

theorem Good.removeObject (hs : M.Good s) (hg : g ∈ M.guids T p)
    (hactive : s.isActiveObject T g = true)
    (hempty : T = .Pool → M.activeCount s.mSpawnedData g = 0) :
    M.Despawned p s (s.removeObject T g p) := by
  constructor
  · constructor
    · exact hs.consistent.removeObject hg hactive hempty
    · intro val hval
      rcases List.mem_cons.mp hval with rfl | hval
      · rw [getActiveObjectCount_eraseObject_owner hg, UInt32.lt_iff_toNat_lt, UInt32.toNat_zero]
        exact hs.consistent.count_pos hg hactive
      · exact hs.found val hval
    · exact hs.returns
  · exact unchanged_removeObject hs.consistent hg hactive
  · intro o ho
    rw [PoolState.removeObject, isActiveObject_removeObject hs.consistent hg hactive] at ho
    exact (Bool.and_eq_true_iff.mp ho).2

variable {despawnPool : UInt32 → PoolState → PoolState}

variable (M) in
/-- The calls that despawn the sub-pools of `p` do what they should. -/
def DespawnsSubPools (p : UInt32) (despawnPool : UInt32 → PoolState → PoolState) : Prop :=
  ∀ c, M.SubPool p c → ∀ s, M.Good s →
    M.Despawned c s (despawnPool c s) ∧ M.activeCount (despawnPool c s).mSpawnedData c = 0

theorem despawn1Object_spec (hsub : M.DespawnsSubPools p despawnPool) (hs : M.Good s)
    (hg : g ∈ M.guids T p) (hactive : s.isActiveObject T g = true) :
    M.Despawned p s (despawn1Object despawnPool T g s) ∧
    (despawn1Object despawnPool T g s).isActiveObject T g = true ∧
    (T = .Pool → M.activeCount (despawn1Object despawnPool T g s).mSpawnedData g = 0) := by
  cases T with
  | Creature => exact ⟨Despawned.refl hs p, hactive, nofun⟩
  | GameObject => exact ⟨Despawned.refl hs p, hactive, nofun⟩
  | Pool =>
    obtain ⟨hdespawned, hcount⟩ := hsub g hg s hs
    have hsame := hdespawned.unchanged p (not_under_of_subPool hg) (.Pool, g)
      (M.mem_members.mpr hg)
    exact ⟨hdespawned.of_subPool hg, hsame.trans hactive, fun _ => hcount⟩

theorem despawnObject_spec (hsub : M.DespawnsSubPools p despawnPool) (hs : M.Good s)
    (hg : g ∈ M.guids T p) :
    M.Despawned p s (despawnObject despawnPool p T g s) ∧
    (despawnObject despawnPool p T g s).isActiveObject T g = false := by
  unfold despawnObject
  split
  · next hactive =>
    obtain ⟨hdespawned, hstill, hcount⟩ := despawn1Object_spec hsub hs hg hactive
    have hremoved := hdespawned.good.removeObject hg hstill hcount
    refine ⟨hdespawned.trans hremoved, ?_⟩
    show ActivePoolData.isActiveObject _ T g = false
    rw [PoolState.removeObject,
      isActiveObject_removeObject (o := (T, g)) hdespawned.good.consistent hg hstill]
    simp
  · next hactive => exact ⟨Despawned.refl hs p, by simpa using hactive⟩

/-! ## All objects -/

theorem despawnAll_spec (hsub : M.DespawnsSubPools p despawnPool) (l : List UInt32)
    (hl : ∀ g ∈ l, g ∈ M.guids T p) (s : PoolState) (hs : M.Good s) :
    M.Despawned p s (l.foldl (fun s guid => despawnObject despawnPool p T guid s) s) ∧
    ∀ g ∈ l, (l.foldl (fun s guid => despawnObject despawnPool p T guid s) s).isActiveObject T g
      = false := by
  induction l generalizing s with
  | nil => exact ⟨Despawned.refl hs p, fun g hg => absurd hg List.not_mem_nil⟩
  | cons x rest ih =>
    obtain ⟨hfirst, hx⟩ := despawnObject_spec hsub hs (hl x List.mem_cons_self)
    obtain ⟨hrest, hall⟩ := ih (fun g hg => hl g (List.mem_cons_of_mem _ hg)) _ hfirst.good
    refine ⟨hfirst.trans hrest, ?_⟩
    intro g hg
    rcases List.mem_cons.mp hg with rfl | hg
    · exact hrest.inactive (o := (T, g)) hx
    · exact hall g hg

theorem guids_of_isEmpty {M : PoolTables} (h : (M.groups T p).isEmpty = true) :
    M.guids T p = [] := by
  simp only [PoolGroup.isEmpty, Bool.and_eq_true, List.isEmpty_iff] at h
  simp [PoolTables.guids, PoolGroup.guids, PoolGroup.objects, h]

theorem despawnAllObjects_of_isEmpty (h : (M.groups T p).isEmpty = true) :
    despawnAllObjects despawnPool M.toPoolTables p T s = s := by
  rw [despawnAllObjects, guids_of_isEmpty h]
  rfl

theorem despawnKinds_spec (hsub : M.DespawnsSubPools p despawnPool) (kinds : List Kind)
    (s : PoolState) (hs : M.Good s) :
    let s' := kinds.foldl (fun s T => if (M.groups T p).isEmpty then s
      else despawnAllObjects despawnPool M.toPoolTables p T s) s
    M.Despawned p s s' ∧ ∀ T ∈ kinds, ∀ g ∈ M.guids T p, s'.isActiveObject T g = false := by
  induction kinds generalizing s with
  | nil => exact ⟨Despawned.refl hs p, fun T hT => absurd hT List.not_mem_nil⟩
  | cons T rest ih =>
    obtain ⟨hfirst, hinactive⟩ := despawnAll_spec (T := T) hsub (M.guids T p) (fun _ h => h) s hs
    have hstep : (if (M.groups T p).isEmpty then s
        else despawnAllObjects despawnPool M.toPoolTables p T s) =
        despawnAllObjects despawnPool M.toPoolTables p T s := by
      split
      · next h => exact (despawnAllObjects_of_isEmpty h).symm
      · rfl
    obtain ⟨hrest, hall⟩ := ih (despawnAllObjects despawnPool M.toPoolTables p T s) hfirst.good
    simp only [List.foldl_cons, hstep]
    refine ⟨hfirst.trans hrest, ?_⟩
    intro T' hT' g hg
    rcases List.mem_cons.mp hT' with rfl | hT'
    · exact hrest.inactive (o := (T', g)) (hinactive g hg)
    · exact hall T' hT' g hg

/-! ## The recursion -/

theorem mem_kinds (T : Kind) : T ∈ [Kind.Creature, .GameObject, .Pool] := by
  cases T <;> simp

theorem despawnPoolAt_spec {depth : Nat} {p : UInt32} (hdepth : M.height p < depth)
    {s : PoolState} (hs : M.Good s) :
    M.Despawned p s (M.despawnPoolAt depth p s) ∧
    M.activeCount (M.despawnPoolAt depth p s).mSpawnedData p = 0 := by
  induction depth generalizing p s with
  | zero => exact absurd hdepth (Nat.not_lt_zero _)
  | succ depth ih =>
    have hsub : M.DespawnsSubPools p (M.despawnPoolAt depth) := by
      intro c hc s hs
      exact ih (Nat.lt_of_lt_of_le (height_lt hc) (Nat.le_of_lt_succ hdepth)) hs
    obtain ⟨hdespawned, hall⟩ := despawnKinds_spec hsub [.Creature, .GameObject, .Pool] s hs
    refine ⟨hdespawned, activeCount_eq_zero.mpr ?_⟩
    intro o ho
    exact hall o.1 (mem_kinds o.1) o.2 (M.mem_members.mp ho)

/-! ### The equation of the source -/

theorem despawnPoolAt_succ (depth : Nat) (p : UInt32) (s : PoolState) :
    M.despawnPoolAt (depth + 1) p s = [Kind.Creature, .GameObject, .Pool].foldl
      (fun s T => if (M.groups T p).isEmpty then s
        else despawnAllObjects (M.despawnPoolAt depth) M.toPoolTables p T s) s := rfl

theorem despawnAllObjects_congr {f f' : UInt32 → PoolState → PoolState}
    (h : ∀ c, M.SubPool p c → f c = f' c) (T : Kind) (s : PoolState) :
    despawnAllObjects f M.toPoolTables p T s = despawnAllObjects f' M.toPoolTables p T s := by
  apply List.foldl_ext
  intro s g hg
  have hone : despawn1Object f T g = despawn1Object f' T g := by
    cases T with
    | Creature => rfl
    | GameObject => rfl
    | Pool => exact h g hg
  rw [despawnObject, despawnObject, hone]

theorem despawnPoolAt_eq {n m : Nat} {p : UInt32} (hn : M.height p < n) (hm : M.height p < m) :
    M.despawnPoolAt n p = M.despawnPoolAt m p := by
  induction n generalizing p m with
  | zero => exact absurd hn (Nat.not_lt_zero _)
  | succ n ih =>
    cases m with
    | zero => exact absurd hm (Nat.not_lt_zero _)
    | succ m =>
      grind [despawnAllObjects_congr, despawnPoolAt_succ, height_lt]

/-- `DespawnPool` recurses into itself: the depth is never used up. -/
theorem despawnPool_eq (p : UInt32) (s : PoolState) :
    M.despawnPool p s = [Kind.Creature, .GameObject, .Pool].foldl
      (fun s T => if (M.groups T p).isEmpty then s
        else despawnAllObjects M.despawnPool M.toPoolTables p T s) s := by
  have hdepth := height_lt_depth (M := M) p
  have hsub : ∀ c, M.SubPool p c →
      M.despawnPoolAt M.mPoolSearchMap.rows.length c = M.despawnPoolAt M.depth c := by
    intro c hc
    have hlt := height_lt hc
    have heq : M.depth = M.mPoolSearchMap.rows.length + 1 := rfl
    exact despawnPoolAt_eq (by omega) (height_lt_depth c)
  rw [PoolTables.despawnPool, PoolTables.depth, despawnPoolAt_succ]
  apply List.foldl_ext
  intro s T _
  rw [despawnAllObjects_congr hsub]
  rfl

theorem despawnPool_spec (p : UInt32) (hs : M.Good s) :
    M.Despawned p s (M.despawnPool p s) ∧
    M.activeCount (M.despawnPool p s).mSpawnedData p = 0 :=
  despawnPoolAt_spec (height_lt_depth p) hs

theorem despawnsSubPools (p : UInt32) : M.DespawnsSubPools p M.despawnPool :=
  fun c _ _ hs => despawnPool_spec c hs

end PoolMgr

end EGServer.Pools

/-!
# Spawning

What `SpawnObject` selects is as many different inactive objects of the group as there is room
for, or all of them. Spawning them one after the other, each with the whole hierarchy below it,
keeps the counters right as long as the pool they are spawned in is itself active.
-/

namespace EGServer.Pools

/-! ## The selection -/

theorem exists_of_explicitRoll {roll : ℚ} {l : List PoolObject} {i : Nat}
    (h : explicitRoll roll l = some i) : ∃ a, l[i]? = some a := by
  induction l generalizing roll i with
  | nil => cases h
  | cons c rest ih =>
    have hrest : ∀ roll', (explicitRoll roll' rest).map (· + 1) = some i →
        ∃ a, (c :: rest)[i]? = some a := by
      intro roll' hmap
      obtain ⟨j, hj, rfl⟩ := Option.map_eq_some_iff.mp hmap
      rw [List.getElem?_cons_succ]
      exact ih hj
    rw [explicitRoll] at h
    split at h
    · split at h
      · cases h
        exact ⟨c, rfl⟩
      · exact hrest _ h
    · exact hrest _ h

theorem randomResize_sublist (draw : Nat → Nat) (l : List PoolObject) (n : Nat) :
    (randomResize draw l n).Sublist l := by
  unfold randomResize
  split
  · exact List.Sublist.refl l
  · exact Sampling.select_sublist draw n l

theorem length_randomResize (draw : Nat → Nat) (l : List PoolObject) (n : Nat) :
    (randomResize draw l n).length = min n l.length := by
  unfold randomResize
  split
  · next h => exact (Nat.min_eq_right h).symm
  · exact Sampling.length_select draw n l

theorem filled_up {l rolled rest : List PoolObject} {count : Nat} (draw : Nat → Nat)
    (hperm : l.Perm (rolled ++ rest)) (hcount : rolled.length ≤ count) :
    let selected :=
      if count - rolled.length > 0 && !rest.isEmpty then
        rolled ++ randomResize draw rest (count - rolled.length)
      else rolled
    selected.Subperm l ∧ selected.length = min count l.length := by
  have hlen : l.length = rolled.length + rest.length := by
    rw [hperm.length_eq, List.length_append]
  show List.Subperm (ite _ _ _) l ∧ List.length (ite _ _ _) = min count l.length
  split
  · constructor
    · have hsub := (List.Sublist.refl rolled).append
        (randomResize_sublist draw rest (count - rolled.length))
      exact hsub.subperm.trans hperm.symm.subperm
    · rw [List.length_append, length_randomResize, hlen]
      omega
  · next hstop =>
    constructor
    · exact (List.sublist_append_left rolled rest).subperm.trans hperm.symm.subperm
    · have hnone : count - rolled.length = 0 ∨ rest.length = 0 := by
        by_contra hboth
        apply hstop
        obtain ⟨hroom, hrest⟩ := not_or.mp hboth
        simp only [Bool.and_eq_true, decide_eq_true_eq, Bool.not_eq_true', List.isEmpty_eq_false_iff]
        exact ⟨Nat.pos_of_ne_zero hroom, fun hnil => hrest (by rw [hnil]; rfl)⟩
      omega

/-- **The selection.** Different candidates, as many as there is room for or all of them. -/
theorem rolledObjects_spec (G : PoolGroup) (roll : ℚ) (draw : Nat → Nat) {count : Nat}
    (hcount : 0 < count) (l : List PoolObject) :
    (rolledObjects G roll draw count l).Subperm l ∧
    (rolledObjects G roll draw count l).length = min count l.length := by
  have hnone := filled_up draw (List.Perm.refl ([] ++ l)) (Nat.zero_le count)
  unfold rolledObjects
  split
  · exact hnone
  · cases hroll : explicitRoll roll l with
    | none => exact hnone
    | some i =>
      obtain ⟨a, ha⟩ := exists_of_explicitRoll hroll
      have hperm : l.Perm ([a] ++ Sampling.swapPop l i) := Sampling.swapPop_perm ha
      have hsome := filled_up draw hperm hcount
      simpa only [Option.bind_some, ha, Option.toList_some] using hsome

/-! ## The difference to the limit -/

theorem toInt32_eq {x : UInt32} (h : 0 < toInt32 x ∨ x.toNat < 2 ^ 31) :
    toInt32 x = x.toNat := by
  have hcond := BitVec.toInt_eq_toNat_cond x.toBitVec
  rw [UInt32.toNat_toBitVec] at hcond
  have hmax := x.toNat_lt
  unfold toInt32 at h ⊢
  split at hcond <;> omega

namespace PoolMgr

variable {M : PoolMgr} {p c : UInt32} {s s' s'' : PoolState} {T : Kind} {g : UInt32}
variable {spawnPool despawnPool : UInt32 → PoolState → PoolState}

/-! ## One object after the other -/

variable (M) in
/-- What spawning something of the pool `p` does to a state. -/
structure Spawned (p : UInt32) (s s' : PoolState) : Prop where
  good : M.Good s'
  unchanged : M.Unchanged p s.mSpawnedData s'.mSpawnedData

namespace Spawned

theorem refl (hs : M.Good s) (p : UInt32) : M.Spawned p s s := ⟨hs, Unchanged.refl p _⟩

theorem trans (h : M.Spawned p s s') (h' : M.Spawned p s' s'') : M.Spawned p s s'' :=
  ⟨h'.good, h.unchanged.trans h'.unchanged⟩

theorem of_subPool (h : M.Spawned c s s') (hc : M.SubPool p c) : M.Spawned p s s' :=
  ⟨h.good, h.unchanged.of_subPool hc⟩

end Spawned

variable (M) in
/-- The calls that spawn the sub-pools of `p` do what they should. -/
def SpawnsSubPools (p : UInt32) (spawnPool : UInt32 → PoolState → PoolState) : Prop :=
  ∀ c, M.SubPool p c → ∀ s, M.Good s → M.Ready s.mSpawnedData c →
    M.Spawned c s (spawnPool c s)

theorem Good.activateObject (hs : M.Good s) (hready : M.Ready s.mSpawnedData p)
    (hg : g ∈ M.guids T p) (hold : s.isActiveObject T g = false)
    (hroom : s.mSpawnedData.getActiveObjectCount p < M.MaxLimit p) :
    M.Spawned p s (s.activateObject T g p) := by
  constructor
  · exact ⟨hs.consistent.activateObject hready hg hold hroom, hs.found, hs.returns⟩
  · exact unchanged_activateObject hready hg

theorem spawnOne_spec (hsub : M.SpawnsSubPools p spawnPool) (hs : M.Good s)
    (hready : M.Ready s.mSpawnedData p) (hg : g ∈ M.guids T p)
    (hold : s.isActiveObject T g = false)
    (hroom : s.mSpawnedData.getActiveObjectCount p < M.MaxLimit p) :
    let s' := spawn1Object spawnPool T g (s.activateObject T g p)
    M.Spawned p s s' ∧ ∀ o ∈ M.members p, s'.mSpawnedData.isActiveObject o.1 o.2 =
      (decide (o = (T, g)) || s.mSpawnedData.isActiveObject o.1 o.2) := by
  have hactivated := hs.activateObject hready hg hold hroom
  have hmembers : ∀ o ∈ M.members p,
      (s.activateObject T g p).mSpawnedData.isActiveObject o.1 o.2 =
        (decide (o = (T, g)) || s.mSpawnedData.isActiveObject o.1 o.2) :=
    fun o ho => isActiveObject_activateObject hready ho
  cases T with
  | Creature => exact ⟨hactivated, hmembers⟩
  | GameObject => exact ⟨hactivated, hmembers⟩
  | Pool =>
    have hchild : M.Ready (s.activateObject .Pool g p).mSpawnedData g := by
      right
      rw [hmembers (.Pool, g) (M.mem_members.mpr hg)]
      simp
    have hspawned := hsub g hg _ hactivated.good hchild
    refine ⟨hactivated.trans (hspawned.of_subPool hg), ?_⟩
    intro o ho
    -- the members of `p` are none of the pools that the recursion reaches
    rw [← hmembers o ho]
    exact hspawned.unchanged p (not_under_of_subPool hg) o ho

variable (M) in
/-- The objects can be spawned one after the other. -/
structure Spawnable (T : Kind) (p : UInt32) (l : List PoolObject) (s : PoolState) : Prop where
  good : M.Good s
  ready : M.Ready s.mSpawnedData p
  member : ∀ x ∈ l, x.guid ∈ M.guids T p
  inactive : ∀ x ∈ l, s.isActiveObject T x.guid = false
  nodup : (l.map PoolObject.guid).Nodup
  room : (s.mSpawnedData.getActiveObjectCount p).toNat + l.length ≤ (M.MaxLimit p).toNat

theorem Spawnable.head_spec {x : PoolObject} {rest : List PoolObject}
    (h : M.Spawnable T p (x :: rest) s) (hsub : M.SpawnsSubPools p spawnPool) :
    let s' := spawn1Object spawnPool T x.guid (s.activateObject T x.guid p)
    M.Spawned p s s' ∧ ∀ o ∈ M.members p, s'.mSpawnedData.isActiveObject o.1 o.2 =
      (decide (o = (T, x.guid)) || s.mSpawnedData.isActiveObject o.1 o.2) := by
  have hlen := h.room
  rw [List.length_cons] at hlen
  apply spawnOne_spec hsub h.good h.ready (h.member x List.mem_cons_self)
    (h.inactive x List.mem_cons_self)
  rw [UInt32.lt_iff_toNat_lt]
  omega

theorem Spawnable.head_count {x : PoolObject} {rest : List PoolObject}
    (h : M.Spawnable T p (x :: rest) s) (hsub : M.SpawnsSubPools p spawnPool) :
    ((spawn1Object spawnPool T x.guid
      (s.activateObject T x.guid p)).mSpawnedData.getActiveObjectCount p).toNat =
      (s.mSpawnedData.getActiveObjectCount p).toNat + 1 := by
  obtain ⟨hspawned, hmembers⟩ := h.head_spec hsub
  have hx : ((T, x.guid) : Kind × UInt32) ∈ M.members p :=
    M.mem_members.mpr (h.member x List.mem_cons_self)
  rw [hspawned.good.consistent.count p, h.good.consistent.count p]
  apply countP_succ (nodup_members p) hx (h.inactive x List.mem_cons_self)
  · exact (hmembers _ hx).trans (by simp)
  · intro o ho hne
    exact (hmembers o ho).trans (by simp [hne])

theorem Spawnable.tail {x : PoolObject} {rest : List PoolObject}
    (h : M.Spawnable T p (x :: rest) s) (hsub : M.SpawnsSubPools p spawnPool) :
    M.Spawnable T p rest (spawn1Object spawnPool T x.guid (s.activateObject T x.guid p)) := by
  obtain ⟨hspawned, hmembers⟩ := h.head_spec hsub
  have hnodup := h.nodup
  rw [List.map_cons, List.nodup_cons] at hnodup
  refine ⟨hspawned.good, hspawned.unchanged.ready h.ready,
    fun y hy => h.member y (List.mem_cons_of_mem _ hy), ?_, hnodup.2, ?_⟩
  · intro y hy
    have hne : y.guid ≠ x.guid := by
      intro heq
      exact hnodup.1 (heq ▸ List.mem_map_of_mem hy)
    have hold : s.mSpawnedData.isActiveObject T y.guid = false :=
      h.inactive y (List.mem_cons_of_mem _ hy)
    have hy' := hmembers (T, y.guid)
      (M.mem_members.mpr (h.member y (List.mem_cons_of_mem _ hy)))
    exact hy'.trans (by simp [hne, hold])
  · have hlen := h.room
    rw [List.length_cons] at hlen
    rw [h.head_count hsub]
    omega

theorem spawnRolled_spec (hsub : M.SpawnsSubPools p spawnPool) {l : List PoolObject}
    {s : PoolState} (h : M.Spawnable T p l s) :
    let s' := spawnRolled spawnPool p T l s
    M.Spawned p s s' ∧
    (s'.mSpawnedData.getActiveObjectCount p).toNat =
      (s.mSpawnedData.getActiveObjectCount p).toNat + l.length ∧
    ∀ o ∈ M.members p, s'.mSpawnedData.isActiveObject o.1 o.2 =
      (decide (o.1 = T ∧ o.2 ∈ l.map PoolObject.guid) ||
        s.mSpawnedData.isActiveObject o.1 o.2) := by
  induction l generalizing s with
  | nil => exact ⟨Spawned.refl h.good p, rfl, fun o _ => by simp [spawnRolled]⟩
  | cons x rest ih =>
    obtain ⟨hfirst, hmembers⟩ := h.head_spec hsub
    obtain ⟨hrest, hcount, hall⟩ := ih (h.tail hsub)
    refine ⟨hfirst.trans hrest, ?_, ?_⟩
    · rw [h.head_count hsub] at hcount
      rw [List.length_cons, Nat.add_comm rest.length 1, ← Nat.add_assoc]
      exact hcount
    · intro o ho
      refine (hall o ho).trans ?_
      grind

/-! ## One group -/

variable (M) in
/-- A group of the pool can be filled: it is ready, or there is no room that the code sees. -/
def CanFill (d : ActivePoolData) (p : UInt32) : Prop :=
  M.Ready d p ∨ toInt32 (M.MaxLimit p) ≤ 0

theorem spawnable_rolled (hs : M.Good s) (hready : M.Ready s.mSpawnedData p)
    {rolled : List PoolObject}
    (hsub : rolled.Subperm (candidates (M.groups T p) T s.mSpawnedData))
    (hroom : (s.mSpawnedData.getActiveObjectCount p).toNat + rolled.length ≤
      (M.MaxLimit p).toNat) (n : Nat) : M.Spawnable T p rolled (s.drawn n) := by
  have hcandidate : ∀ x ∈ rolled, x ∈ (M.groups T p).objects ∧
      s.mSpawnedData.isActiveObject T x.guid = false := by
    intro x hx
    have hmem := List.mem_filter.mp (hsub.subset hx)
    exact ⟨hmem.1, by simpa using hmem.2⟩
  have hnodup : ((candidates (M.groups T p) T s.mSpawnedData).map PoolObject.guid).Nodup :=
    (List.filter_sublist.map PoolObject.guid).nodup (M.nodup T p)
  refine ⟨⟨hs.consistent, hs.found, hs.returns⟩, hready,
    fun x hx => List.mem_map_of_mem (hcandidate x hx).1, fun x hx => (hcandidate x hx).2, ?_, hroom⟩
  obtain ⟨l, hperm, hl⟩ := hsub
  exact (hperm.map _).nodup_iff.mp ((hl.map _).nodup hnodup)

theorem active_of_not_candidate {d : ActivePoolData} (hg : g ∈ M.guids T p)
    (h : ∀ x ∈ candidates (M.groups T p) T d, x.guid ≠ g) : d.isActiveObject T g = true := by
  obtain ⟨x, hx, rfl⟩ := List.mem_map.mp hg
  by_contra hnot
  exact h x (List.mem_filter.mpr ⟨hx, by simpa using hnot⟩) rfl

theorem select_spec (hsub : M.SpawnsSubPools p spawnPool) (hs : M.Good s)
    (hready : M.Ready s.mSpawnedData p)
    (hcount : 0 < toInt32 (M.MaxLimit p - s.mSpawnedData.getActiveObjectCount p)) :
    let candidates := candidates (M.groups T p) T s.mSpawnedData
    let s' := spawnRolled spawnPool p T (rolledObjects (M.groups T p) (s.chances 0) s.draws
      (toInt32 (M.MaxLimit p - s.mSpawnedData.getActiveObjectCount p)).toNat candidates)
      (s.drawn candidates.length)
    M.Spawned p s s' ∧ (s'.mSpawnedData.getActiveObjectCount p = M.MaxLimit p ∨
      ∀ g ∈ M.guids T p, s'.isActiveObject T g = true) := by
  intro candidates s'
  have hle := UInt32.le_iff_toNat_le.mp (hs.consistent.limit p)
  have hroom : (toInt32 (M.MaxLimit p - s.mSpawnedData.getActiveObjectCount p)).toNat =
      (M.MaxLimit p).toNat - (s.mSpawnedData.getActiveObjectCount p).toNat := by
    rw [toInt32_eq (Or.inl hcount), Int.toNat_natCast,
      UInt32.toNat_sub_of_le _ _ (hs.consistent.limit p)]
  obtain ⟨hsubperm, hlen⟩ := rolledObjects_spec (M.groups T p) (s.chances 0) s.draws
    (Int.lt_toNat.mpr hcount) candidates
  have hlen' := hlen.trans (congrArg (min · candidates.length) hroom)
  have hfits := Nat.add_le_of_le_sub' hle (hlen'.trans_le (Nat.min_le_left _ _))
  obtain ⟨hspawned, hcounter, hall⟩ :=
    spawnRolled_spec hsub (spawnable_rolled hs hready hsubperm hfits candidates.length)
  refine ⟨⟨hspawned.good, hspawned.unchanged⟩, ?_⟩
  by_cases hfew : candidates.length < (M.MaxLimit p).toNat -
      (s.mSpawnedData.getActiveObjectCount p).toNat
  · right
    intro g hg
    have hperm := hsubperm.perm_of_length_le (hlen'.trans (Nat.min_eq_right hfew.le)).ge
    refine (hall (T, g) (M.mem_members.mpr hg)).trans ?_
    by_cases hrolled : g ∈ candidates.map PoolObject.guid
    · simp [(hperm.map PoolObject.guid).mem_iff.mpr hrolled]
    · grind [PoolState.drawn, active_of_not_candidate]
  · left
    apply UInt32.toNat_inj.mp
    calc (s'.mSpawnedData.getActiveObjectCount p).toNat
        = (s.mSpawnedData.getActiveObjectCount p).toNat +
            ((M.MaxLimit p).toNat - (s.mSpawnedData.getActiveObjectCount p).toNat) :=
          hcounter.trans (congrArg _ (hlen'.trans (Nat.min_eq_left (Nat.le_of_not_lt hfew))))
      _ = (M.MaxLimit p).toNat := Nat.add_sub_cancel' hle

theorem fill_spec (hsub : M.SpawnsSubPools p spawnPool) (hs : M.Good s)
    (hcan : M.CanFill s.mSpawnedData p) :
    M.Spawned p s (fill spawnPool M.toPoolTables p T s) ∧
    M.Filled T p (fill spawnPool M.toPoolTables p T s).mSpawnedData := by
  unfold fill
  simp only
  split
  · next hstop =>
    -- below 2^31 a difference is not positive only when it is 0
    refine ⟨Spawned.refl hs p, fun hlimit => Or.inl ?_⟩
    have hle := UInt32.le_iff_toNat_le.mp (hs.consistent.limit p)
    have hdiff := UInt32.toNat_sub_of_le _ _ (hs.consistent.limit p)
    have hsmall : (M.MaxLimit p - s.mSpawnedData.getActiveObjectCount p).toNat < 2 ^ 31 := by
      rw [hdiff]
      omega
    have hint := toInt32_eq (Or.inr hsmall)
    apply UInt32.toNat_inj.mp
    omega
  · next hcount =>
    split
    · next hnone =>
      refine ⟨Spawned.refl hs p, fun _ => Or.inr ?_⟩
      grind [active_of_not_candidate]
    · have hready : M.Ready s.mSpawnedData p := by
        rcases hcan with hready | hlimit
        · exact hready
        · -- the pool would be inactive, its counter 0, and the difference the limit
          by_contra hnot
          have hinactive : s.mSpawnedData.isActiveObject .Pool p = false := by
            by_contra hactive
            exact hnot (Or.inr (by simpa using hactive))
          rw [s.mSpawnedData.getActiveObjectCount_of_inactive p hinactive,
            UInt32.sub_zero] at hcount
          exact hcount hlimit
      obtain ⟨hspawned, hfilled⟩ := select_spec hsub hs hready (Int.not_le.mp hcount)
      exact ⟨hspawned, fun _ => hfilled⟩

end PoolMgr

end EGServer.Pools
