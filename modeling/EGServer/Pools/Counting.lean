import EGServer.Pools.PoolMgr

/-!
# The counters

The one map of `ActivePoolData` is read in two ways: the keys say which pools are active, the
values how many members of a pool are. What activating and removing one object do to either
reading, and when both keep the counters right.
-/

namespace EGServer.Pools

namespace ActivePoolData

variable (d : ActivePoolData) (T : Kind) (g p : UInt32)

/-! ## Both readings of every operation -/

theorem isActiveObject_setCount (n : UInt32) (o : Kind × UInt32) :
    (d.setCount p n).isActiveObject o.1 o.2 =
      (decide (o = (.Pool, p)) || d.isActiveObject o.1 o.2) := by
  obtain ⟨T, g⟩ := o
  rw [Bool.eq_iff_iff]
  cases T with
  | Creature => simp only [isActiveObject, decide_eq_true_eq]; simp [setCount]
  | GameObject => simp only [isActiveObject, decide_eq_true_eq]; simp [setCount]
  | Pool =>
    by_cases h : g = p
    · subst h
      simp [setCount, isActiveObject]
    · simp [setCount, isActiveObject, h]

@[simp] theorem getActiveObjectCount_setCount_self (n : UInt32) :
    (d.setCount p n).getActiveObjectCount p = n := by
  simp [setCount, getActiveObjectCount]

theorem getActiveObjectCount_setCount_ne (n : UInt32) {q : UInt32} (h : q ≠ p) :
    (d.setCount p n).getActiveObjectCount q = d.getActiveObjectCount q := by
  simp [setCount, getActiveObjectCount, Function.update_of_ne h]

theorem isActiveObject_activateObject (o : Kind × UInt32) :
    (d.activateObject T g p).isActiveObject o.1 o.2 =
      (decide (o = (.Pool, p)) || (decide (o = (T, g)) || d.isActiveObject o.1 o.2)) := by
  cases T with
  | Creature =>
    rw [activateObject, increment, isActiveObject_setCount]
    obtain ⟨T', g'⟩ := o
    cases T' <;> simp [isActiveObject]
  | GameObject =>
    rw [activateObject, increment, isActiveObject_setCount]
    obtain ⟨T', g'⟩ := o
    cases T' <;> simp [isActiveObject]
  | Pool => rw [activateObject, increment, isActiveObject_setCount, isActiveObject_setCount]

theorem getActiveObjectCount_activateObject_self (h : T = .Pool → g ≠ p) :
    (d.activateObject T g p).getActiveObjectCount p = d.getActiveObjectCount p + 1 := by
  cases T with
  | Creature => rw [activateObject, increment, getActiveObjectCount_setCount_self]; rfl
  | GameObject => rw [activateObject, increment, getActiveObjectCount_setCount_self]; rfl
  | Pool =>
    rw [activateObject, increment, getActiveObjectCount_setCount_self,
      getActiveObjectCount_setCount_ne _ _ _ (h rfl).symm]

theorem getActiveObjectCount_activateObject_ne {q : UInt32} (h : q ≠ p) :
    (d.activateObject T g p).getActiveObjectCount q =
      if T = .Pool ∧ q = g then 0 else d.getActiveObjectCount q := by
  cases T with
  | Creature => rw [activateObject, increment, getActiveObjectCount_setCount_ne _ _ _ h]; rfl
  | GameObject => rw [activateObject, increment, getActiveObjectCount_setCount_ne _ _ _ h]; rfl
  | Pool =>
    rw [activateObject, increment, getActiveObjectCount_setCount_ne _ _ _ h]
    by_cases hq : q = g
    · subst hq
      simp
    · simp [getActiveObjectCount_setCount_ne _ _ _ hq, hq]

theorem isActiveObject_eraseObject (o : Kind × UInt32) :
    (d.eraseObject T g).isActiveObject o.1 o.2 =
      (!decide (o = (T, g)) && d.isActiveObject o.1 o.2) := by
  obtain ⟨T', g'⟩ := o
  rw [Bool.eq_iff_iff, Bool.and_eq_true]
  by_cases h : g' = g
  · cases T <;> cases T' <;> simp only [isActiveObject, decide_eq_true_eq] <;>
      simp [eraseObject, h]
  · cases T <;> cases T' <;> simp only [isActiveObject, decide_eq_true_eq] <;>
      simp [eraseObject, h]

theorem getActiveObjectCount_eraseObject (q : UInt32) :
    (d.eraseObject T g).getActiveObjectCount q =
      if T = .Pool ∧ q = g then 0 else d.getActiveObjectCount q := by
  cases T with
  | Creature => rfl
  | GameObject => rfl
  | Pool =>
    by_cases h : q = g
    · subst h
      simp [eraseObject, getActiveObjectCount]
    · simp [eraseObject, getActiveObjectCount, h]

theorem isActiveObject_removeObject (o : Kind × UInt32) :
    (d.removeObject T g p).isActiveObject o.1 o.2 =
      (decide (o = (.Pool, p)) || (!decide (o = (T, g)) && d.isActiveObject o.1 o.2)) := by
  rw [removeObject, decrement, isActiveObject_setCount, isActiveObject_eraseObject]

theorem getActiveObjectCount_removeObject_ne {q : UInt32} (h : q ≠ p) :
    (d.removeObject T g p).getActiveObjectCount q =
      if T = .Pool ∧ q = g then 0 else d.getActiveObjectCount q := by
  rw [removeObject, decrement, getActiveObjectCount_setCount_ne _ _ _ h,
    getActiveObjectCount_eraseObject]

theorem getActiveObjectCount_of_inactive (h : d.isActiveObject .Pool p = false) :
    d.getActiveObjectCount p = 0 := by
  have hnone : d.mSpawnedPools p = none := by simpa [isActiveObject] using h
  rw [getActiveObjectCount, hnone]
  rfl

end ActivePoolData

/-! ## Right counters -/

namespace PoolMgr

variable (M : PoolMgr) {d d' d'' : ActivePoolData} {T : Kind} {g p q c : UInt32}

/-- The counter of every pool is the number of its members that are active, and no pool has
more of them than it may. -/
structure Consistent (d : ActivePoolData) : Prop where
  count : ∀ p, (d.getActiveObjectCount p).toNat = M.activeCount d p
  limit : ∀ p, d.getActiveObjectCount p ≤ M.MaxLimit p

/-- Members of the pool can be activated: it is in no other pool, or active itself. -/
def Ready (d : ActivePoolData) (p : UInt32) : Prop :=
  (∀ m, ¬ M.SubPool m p) ∨ d.isActiveObject .Pool p = true

/-- What has changed belongs to `p` or to a pool below it. -/
def Unchanged (p : UInt32) (d d' : ActivePoolData) : Prop :=
  ∀ q, ¬ M.Under p q → ∀ o ∈ M.members q, d'.isActiveObject o.1 o.2 = d.isActiveObject o.1 o.2

variable {M}

theorem Ready.active (h : M.Ready d p) (hp : ((.Pool, p) : Kind × UInt32) ∈ M.members q) :
    d.isActiveObject .Pool p = true := by
  rcases h with hroot | hactive
  · exact absurd (M.mem_members.mp hp) (hroot q)
  · exact hactive

namespace Unchanged

theorem refl (p : UInt32) (d : ActivePoolData) : M.Unchanged p d d := fun _ _ _ _ => rfl

theorem trans (h : M.Unchanged p d d') (h' : M.Unchanged p d' d'') : M.Unchanged p d d'' := by
  intro q hq o ho
  rw [h' q hq o ho, h q hq o ho]

theorem of_subPool (h : M.Unchanged c d d') (hc : M.SubPool p c) : M.Unchanged p d d' := by
  intro q hq
  apply h q
  intro hunder
  exact hq (under_of_subPool hc hunder)

theorem ready (h : M.Unchanged p d d') (hready : M.Ready d p) : M.Ready d' p := by
  by_cases hroot : ∀ m, ¬ M.SubPool m p
  · exact Or.inl hroot
  · obtain ⟨m, hm⟩ := not_forall_not.mp hroot
    have hsame := h m (not_under_of_subPool hm) (.Pool, p) (M.mem_members.mpr hm)
    exact Or.inr (hsame.trans (hready.active (M.mem_members.mpr hm)))

end Unchanged

theorem subPool_ne (h : M.SubPool p c) : c ≠ p := by
  intro heq
  subst heq
  exact M.acyclic c (Relation.TransGen.single h)

/-! ## Activating -/

theorem isActiveObject_activateObject (hready : M.Ready d p) {o : Kind × UInt32}
    (ho : o ∈ M.members q) : (d.activateObject T g p).isActiveObject o.1 o.2 =
      (decide (o = (T, g)) || d.isActiveObject o.1 o.2) := by
  rw [d.isActiveObject_activateObject]
  by_cases hp : o = (.Pool, p)
  · subst hp
    simp [hready.active ho]
  · simp [hp]

theorem Consistent.activateObject (h : M.Consistent d) (hready : M.Ready d p)
    (hg : g ∈ M.guids T p) (hold : d.isActiveObject T g = false)
    (hroom : d.getActiveObjectCount p < M.MaxLimit p) :
    M.Consistent (d.activateObject T g p) := by
  have hmember : ((T, g) : Kind × UInt32) ∈ M.members p := M.mem_members.mpr hg
  have hactive : ∀ q, M.activeCount (d.activateObject T g p) q =
      M.activeCount d q + if q = p then 1 else 0 := activeCount_activate hmember hold
    (by rw [isActiveObject_activateObject hready hmember]; simp)
    (fun r x hx hne => by rw [isActiveObject_activateObject hready hx]; simp [hne])
  have hself : T = .Pool → g ≠ p := by
    intro hT
    subst hT
    exact subPool_ne hg
  have hlt := UInt32.lt_iff_toNat_lt.mp hroom
  have hmax := (M.MaxLimit p).toNat_lt
  have hsucc : (d.getActiveObjectCount p + 1).toNat = (d.getActiveObjectCount p).toNat + 1 := by
    rw [UInt32.toNat_add, UInt32.toNat_one]
    omega
  have hother : ∀ q, q ≠ p →
      (d.activateObject T g p).getActiveObjectCount q = d.getActiveObjectCount q := by
    intro q hq
    rw [d.getActiveObjectCount_activateObject_ne T g p hq]
    split
    · next hpool =>
      -- the counter of the sub-pool was 0 before it was set to 0
      obtain ⟨rfl, rfl⟩ := hpool
      exact (d.getActiveObjectCount_of_inactive q hold).symm
    · rfl
  constructor
  · intro q
    rw [hactive q]
    by_cases hq : q = p
    · subst hq
      rw [if_pos rfl, d.getActiveObjectCount_activateObject_self T g q hself, hsucc, h.count q]
    · rw [if_neg hq, hother q hq, h.count q, Nat.add_zero]
  · intro q
    by_cases hq : q = p
    · subst hq
      rw [d.getActiveObjectCount_activateObject_self T g q hself, UInt32.le_iff_toNat_le, hsucc]
      exact hlt
    · rw [hother q hq]
      exact h.limit q

theorem unchanged_activateObject (hready : M.Ready d p) (hg : g ∈ M.guids T p) :
    M.Unchanged p d (d.activateObject T g p) := by
  intro q hq o ho
  rw [isActiveObject_activateObject hready ho]
  have hne : o ≠ (T, g) := by
    intro heq
    subst heq
    apply hq
    rw [owner_unique ho (M.mem_members.mpr hg)]
    exact Under.refl p
  simp [hne]

/-! ## Removing -/

theorem Consistent.count_pos (h : M.Consistent d) (hg : g ∈ M.guids T p)
    (hactive : d.isActiveObject T g = true) : 0 < (d.getActiveObjectCount p).toNat := by
  rw [h.count p]
  exact List.countP_pos_iff.mpr ⟨(T, g), M.mem_members.mpr hg, hactive⟩

theorem Consistent.active_of_member (h : M.Consistent d) (hg : g ∈ M.guids T p)
    (hactive : d.isActiveObject T g = true) : d.isActiveObject .Pool p = true := by
  have hpos := h.count_pos hg hactive
  by_contra hnot
  rw [d.getActiveObjectCount_of_inactive p (by simpa using hnot)] at hpos
  exact absurd hpos (Nat.lt_irrefl 0)

theorem isActiveObject_removeObject (h : M.Consistent d) (hg : g ∈ M.guids T p)
    (hactive : d.isActiveObject T g = true) (o : Kind × UInt32) :
    (d.removeObject T g p).isActiveObject o.1 o.2 =
      (!decide (o = (T, g)) && d.isActiveObject o.1 o.2) := by
  rw [d.isActiveObject_removeObject]
  by_cases hp : o = (.Pool, p)
  · subst hp
    have hne : ((.Pool, p) : Kind × UInt32) ≠ (T, g) := by
      intro heq
      obtain ⟨rfl, rfl⟩ := Prod.mk.inj heq
      exact subPool_ne hg rfl
    simp [hne, h.active_of_member hg hactive]
  · simp [hp]

/-- What `RemoveObject` finds in the counter is what was there: the counter of another pool
has been erased, if any. -/
theorem getActiveObjectCount_eraseObject_owner (hg : g ∈ M.guids T p) :
    (d.eraseObject T g).getActiveObjectCount p = d.getActiveObjectCount p := by
  rw [d.getActiveObjectCount_eraseObject]
  apply if_neg
  intro hpool
  obtain ⟨rfl, rfl⟩ := hpool
  exact subPool_ne hg rfl

theorem Consistent.removeObject (h : M.Consistent d) (hg : g ∈ M.guids T p)
    (hactive : d.isActiveObject T g = true) (hempty : T = .Pool → M.activeCount d g = 0) :
    M.Consistent (d.removeObject T g p) := by
  have hmember : ((T, g) : Kind × UInt32) ∈ M.members p := M.mem_members.mpr hg
  have hcount : ∀ q, M.activeCount d q =
      M.activeCount (d.removeObject T g p) q + if q = p then 1 else 0 := activeCount_activate hmember
    (by rw [isActiveObject_removeObject h hg hactive]; simp) hactive
    (fun r x hx hne => by rw [isActiveObject_removeObject h hg hactive]; simp [hne])
  have hpos := h.count_pos hg hactive
  have hself : (d.removeObject T g p).getActiveObjectCount p = d.getActiveObjectCount p - 1 := by
    rw [ActivePoolData.removeObject, ActivePoolData.decrement,
      ActivePoolData.getActiveObjectCount_setCount_self, getActiveObjectCount_eraseObject_owner hg]
    exact if_pos (UInt32.lt_iff_toNat_lt.mpr (by rwa [UInt32.toNat_zero]))
  have hpred : (d.getActiveObjectCount p - 1).toNat = (d.getActiveObjectCount p).toNat - 1 :=
    UInt32.toNat_sub_of_le _ _ (UInt32.le_iff_toNat_le.mpr hpos)
  have hother : ∀ q, q ≠ p →
      (d.removeObject T g p).getActiveObjectCount q = d.getActiveObjectCount q := by
    intro q hq
    rw [d.getActiveObjectCount_removeObject_ne T g p hq]
    split
    · next hpool =>
      -- the erased entry of the sub-pool counted nothing any more
      obtain ⟨rfl, rfl⟩ := hpool
      exact UInt32.toNat_inj.mp ((h.count q).trans (hempty rfl)).symm
    · rfl
  constructor
  · intro q
    have hq' := hcount q
    rw [← h.count q] at hq'
    grind
  · intro q
    by_cases hq : q = p
    · subst hq
      rw [hself, UInt32.le_iff_toNat_le, hpred]
      exact (Nat.sub_le _ _).trans (UInt32.le_iff_toNat_le.mp (h.limit q))
    · rw [hother q hq]
      exact h.limit q

theorem unchanged_removeObject (h : M.Consistent d) (hg : g ∈ M.guids T p)
    (hactive : d.isActiveObject T g = true) : M.Unchanged p d (d.removeObject T g p) := by
  intro q hq o ho
  rw [isActiveObject_removeObject h hg hactive]
  have hne : o ≠ (T, g) := by
    intro heq
    subst heq
    apply hq
    rw [owner_unique ho (M.mem_members.mpr hg)]
    exact Under.refl p
  simp [hne]

end PoolMgr

end EGServer.Pools
