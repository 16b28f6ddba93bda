import EGServer.Movement.Ownership

/-!
# What the motion master does to a generator

Finalizing, deleting and refusing a generator, and its unit state. These operations change the
generators and the unit states and nothing else (`Effects`), so the lists that the motion master
walks through stay what they are.
-/

namespace EGServer.Movement

open Function (update_self update_of_ne)

namespace MotionMaster

variable {p q : MotionMaster} {hand dying fresh regs : List Address} {g x : Address}
  {a : MovementGenerator}

/-- The generators and the unit states after an operation. -/
structure Effects where
  heap : Address → MovementGenerator
  baseUnitStatesMap : List (BitVec 32 × Address)
  unitState : BitVec 32

def after (p : MotionMaster) (e : Effects) : MotionMaster :=
  { p with heap := e.heap, baseUnitStatesMap := e.baseUnitStatesMap, unitState := e.unitState }

def effects (p : MotionMaster) : Effects := ⟨p.heap, p.baseUnitStatesMap, p.unitState⟩

@[simp] theorem generators_after (p : MotionMaster) (e : Effects) :
    (p.after e).generators = p.generators := rfl

@[simp] theorem activeGenerators_after (p : MotionMaster) (e : Effects) :
    (p.after e).activeGenerators = p.activeGenerators := rfl

theorem setGenerator_eq_after (p : MotionMaster) (g : Address) (a : MovementGenerator) :
    p.setGenerator g a =
      p.after ⟨Function.update p.heap g a, p.baseUnitStatesMap, p.unitState⟩ := rfl

/-! ## The unit states -/

theorem mem_unitStatesOf {heap : Address → MovementGenerator} {entry : BitVec 32 × Address} :
    entry ∈ unitStatesOf heap regs ↔
      entry.2 ∈ regs ∧ entry.1 = (heap entry.2).baseUnitState ∧ entry.1 ≠ 0 := by
  unfold unitStatesOf
  grind

theorem unitStatesOf_cons_of_zero {heap : Address → MovementGenerator}
    (h : (heap g).baseUnitState = 0) : unitStatesOf heap (g :: regs) = unitStatesOf heap regs := by
  unfold unitStatesOf
  rw [List.filter_cons_of_neg]
  simp [h]

theorem unitStatesOf_cons_of_ne {heap : Address → MovementGenerator}
    (h : (heap g).baseUnitState ≠ 0) :
    unitStatesOf heap (g :: regs) = ((heap g).baseUnitState, g) :: unitStatesOf heap regs := by
  unfold unitStatesOf
  rw [List.filter_cons_of_pos]
  · rfl
  · exact decide_eq_true h

/-- `_ClearBaseUnitState` takes out the entry of the generator. -/
theorem Registered.clear (h : p.Registered (g :: regs)) (hg : (p.heap g).baseUnitState ≠ 0)
    (hmem : g ∉ regs) :
    (p.baseUnitStatesMap.filter (· ≠ ((p.heap g).baseUnitState, g))).Perm
      (unitStatesOf p.heap regs) := by
  have hperm := h.filter (· ≠ ((p.heap g).baseUnitState, g))
  rw [unitStatesOf_cons_of_ne hg, List.filter_cons_of_neg (by simp)] at hperm
  have hall : (unitStatesOf p.heap regs).filter (· ≠ ((p.heap g).baseUnitState, g)) =
      unitStatesOf p.heap regs := by
    rw [List.filter_eq_self]
    intro entry hentry
    rw [decide_eq_true_eq]
    rintro rfl
    exact hmem (mem_unitStatesOf.mp hentry).1
  rw [hall] at hperm
  exact hperm

theorem Invariant.setStates {regs' : List Address} {map : List (BitVec 32 × Address)}
    {unitState : BitVec 32} (h : Invariant fresh hand dying regs p)
    (hmap : map.Perm (unitStatesOf p.heap regs')) :
    Invariant fresh hand dying regs'
      (p.after ⟨p.heap, map, unitState⟩) where
  filed := h.filed.congr rfl fun _ => rfl
  accounted := h.accounted.pass rfl rfl (fun _ => rfl) fun _ _ => rfl
  registered := hmap
  calm := ⟨h.calm.kind, h.calm.pending, h.calm.deactivated, h.calm.fresh, h.calm.rest⟩

theorem Invariant.addBaseUnitState (h : Invariant fresh hand dying regs p)
    (hg : (p.heap g).deletes = 0) :
    ∃ e, p.addBaseUnitState g = some (p.after e) ∧ e.heap = p.heap ∧
      Invariant fresh hand dying (g :: regs) (p.after e) := by
  rw [MotionMaster.addBaseUnitState, read_of_deletes hg]
  by_cases hbase : (p.heap g).baseUnitState = 0
  · refine ⟨p.effects, ?_, rfl, ?_⟩
    · rw [Option.bind_eq_bind, Option.bind_some, if_pos hbase]
      rfl
    · refine ⟨h.filed, h.accounted, ?_, h.calm⟩
      show p.baseUnitStatesMap.Perm (unitStatesOf p.heap (g :: regs))
      rw [unitStatesOf_cons_of_zero hbase]
      exact h.registered
  · refine ⟨⟨p.heap, ((p.heap g).baseUnitState, g) :: p.baseUnitStatesMap,
      p.unitState ||| (p.heap g).baseUnitState⟩, ?_, rfl, ?_⟩
    · rw [Option.bind_eq_bind, Option.bind_some, if_neg hbase]
      rfl
    · apply h.setStates
      rw [unitStatesOf_cons_of_ne hbase]
      exact h.registered.cons _

theorem Invariant.clearBaseUnitState (h : Invariant fresh hand dying (g :: regs) p)
    (hg : (p.heap g).deletes = 0) (hmem : g ≠ idleGenerator → g ∉ regs) :
    ∃ e, p.clearBaseUnitState g = some (p.after e) ∧ e.heap = p.heap ∧
      Invariant fresh hand dying regs (p.after e) := by
  rw [MotionMaster.clearBaseUnitState, read_of_deletes hg]
  by_cases hbase : (p.heap g).baseUnitState = 0
  · refine ⟨p.effects, ?_, rfl, ?_⟩
    · rw [Option.bind_eq_bind, Option.bind_some, if_pos hbase]
      rfl
    · refine ⟨h.filed, h.accounted, ?_, h.calm⟩
      have hreg := h.registered
      unfold Registered at hreg
      rw [unitStatesOf_cons_of_zero hbase] at hreg
      exact hreg
  · have hidle : g ≠ idleGenerator := by
      intro hidle
      rw [hidle] at hbase
      apply hbase
      rw [show (p.heap idleGenerator).baseUnitState = 0 from
        congrArg MovementKind.baseUnitState h.calm.kind]
    rw [Option.bind_eq_bind, Option.bind_some, if_neg hbase]
    exact ⟨⟨p.heap, _, _⟩, rfl, rfl, h.setStates (h.registered.clear hbase (hmem hidle))⟩

/-! ## Finalizing and deleting -/

theorem Invariant.setGenerator {hand' dying' fresh' : List Address}
    (h : Invariant fresh hand dying regs p)
    (haccounted : (p.setGenerator g a).Accounted (fresh' ++ hand') dying')
    (hkind : a.toMovementKind = (p.heap g).toMovementKind)
    (hpending : a.initializationPending = (p.heap g).initializationPending)
    (hinitialized : a.initialized = (p.heap g).initialized)
    (hdeactivated : a.deactivated = (p.heap g).deactivated)
    (hfresh : ∀ x ∈ fresh', x ∈ fresh) :
    Invariant fresh' hand' dying' regs (p.setGenerator g a) := by
  refine ⟨h.filed.setGenerator hkind, haccounted, h.registered.setGenerator hkind, ?_⟩
  have himm : a.immediate = (p.heap g).immediate := congrArg MovementKind.immediate hkind
  have hcalm : p.Calm fresh' :=
    ⟨h.calm.kind, h.calm.pending, h.calm.deactivated,
      fun x hx => h.calm.fresh x (hx.imp_left (hfresh x)), h.calm.rest⟩
  apply hcalm.setGenerator hkind
  · intro hidle
    rw [hpending, hdeactivated, hidle]
    exact ⟨h.calm.pending, h.calm.deactivated⟩
  · intro hx hne hi
    rw [hinitialized]
    exact hcalm.fresh g hx hne (himm.symm.trans hi)
  · intro hx hne hi hawake
    apply hcalm.rest g hx hne (himm.symm.trans hi)
    unfold MovementGenerator.awake at hawake ⊢
    rw [← hinitialized, ← hdeactivated]
    exact hawake

theorem Invariant.deletes_of_hand (h : Invariant fresh (g :: hand) dying regs p) :
    (p.heap g).deletes = 0 := by
  apply h.accounted.deletes_of_owned
  rw [List.count_append, List.count_cons_self]
  omega

theorem Invariant.deletes_of_dying (h : Invariant fresh hand (g :: dying) regs p) :
    (p.heap g).deletes = 0 := by
  apply h.accounted.deletes_of_owned
  rw [List.count_cons_self]
  omega

theorem Invariant.deletes_of_fresh (h : Invariant (g :: fresh) hand dying regs p) :
    (p.heap g).deletes = 0 := by
  apply h.accounted.deletes_of_owned
  rw [List.cons_append, List.count_cons_self]
  omega

theorem Invariant.finalizeHook (h : Invariant fresh (g :: hand) dying regs p) :
    p.finalizeHook g = some (p.setGenerator g (p.heap g).onFinalize) ∧
      Invariant fresh hand (g :: dying) regs (p.setGenerator g (p.heap g).onFinalize) := by
  refine ⟨modify_of_deletes h.deletes_of_hand, ?_⟩
  refine h.setGenerator ?_ rfl rfl rfl rfl fun _ => id
  apply h.accounted.setGenerator
  · intro _
    exact h.deletes_of_hand
  · intro _
    show (p.heap g).deletes + _ = _
    rw [List.count_append, List.count_append, List.count_cons_self, List.count_cons_self]
    omega
  · intro hg
    have hfinals := h.accounted.finals g hg
    show (p.heap g).finalizes + 1 + (p.heap g).refused.toNat = (p.heap g).deletes + _
    rw [List.count_cons_self]
    omega
  · intro x hx
    rw [List.count_append, List.count_append, List.count_cons_of_ne (Ne.symm hx)]
  · intro x hx
    rw [List.count_cons_of_ne (Ne.symm hx)]

theorem Invariant.pointerDeleter (h : Invariant fresh hand (g :: dying) regs p) :
    ∃ e, p.pointerDeleter g = some (p.after e) ∧
      Invariant fresh hand dying regs (p.after e) := by
  by_cases hidle : g = idleGenerator
  · refine ⟨p.effects, ?_, ?_⟩
    · rw [MotionMaster.pointerDeleter, if_pos (by simp [isStatic, hidle])]
      rfl
    · refine ⟨h.filed, ?_, h.registered, h.calm⟩
      constructor
      · intro x hx
        have haccount := h.accounted.account x hx
        rw [List.count_cons_of_ne (by rw [hidle]; exact Ne.symm hx)] at haccount
        exact haccount
      · intro x hx
        have hfinals := h.accounted.finals x hx
        rw [List.count_cons_of_ne (by rw [hidle]; exact Ne.symm hx)] at hfinals
        exact hfinals
      · exact h.accounted.idle
      · exact h.accounted.next_pos
  · refine ⟨⟨Function.update p.heap g (p.heap g).delete, p.baseUnitStatesMap, p.unitState⟩, ?_, ?_⟩
    · rw [MotionMaster.pointerDeleter, if_neg (by simp [isStatic, hidle]),
        modify_of_deletes h.deletes_of_dying, setGenerator_eq_after]
    · rw [← setGenerator_eq_after]
      refine h.setGenerator ?_ rfl rfl rfl rfl fun _ => id
      apply h.accounted.setGenerator
      · intro hg
        exact absurd hg hidle
      · intro _
        show (p.heap g).deletes + 1 + _ = _
        rw [List.count_cons_self]
        omega
      · intro hg
        have hfinals := h.accounted.finals g hg
        rw [List.count_cons_self] at hfinals
        show (p.heap g).finalizes + (p.heap g).refused.toNat = (p.heap g).deletes + 1 + _
        omega
      · intro x _
        rfl
      · intro x hx
        rw [List.count_cons_of_ne (Ne.symm hx)]

/-- `_Delete` after `Finalize`. -/
theorem Invariant.release (h : Invariant fresh hand (g :: dying) (g :: regs) p)
    (hmem : g ≠ idleGenerator → g ∉ regs) :
    ∃ e, p.release g = some (p.after e) ∧ Invariant fresh hand dying regs (p.after e) := by
  obtain ⟨e, he, -, h₁⟩ := h.clearBaseUnitState h.deletes_of_dying hmem
  obtain ⟨e', he', h₂⟩ := h₁.pointerDeleter
  refine ⟨e', ?_, h₂⟩
  rw [MotionMaster.release, he]
  exact he'

theorem Invariant.delete (h : Invariant fresh (g :: hand) dying (g :: regs) p)
    (hmem : g ≠ idleGenerator → g ∉ regs) :
    ∃ e, p.delete g = some (p.after e) ∧ Invariant fresh hand dying regs (p.after e) := by
  obtain ⟨he, h₁⟩ := h.finalizeHook
  obtain ⟨e', he', h₂⟩ := h₁.release hmem
  refine ⟨e', ?_, h₂⟩
  rw [MotionMaster.delete, he]
  exact he'

/-- `Add` does not take a generator. -/
theorem Invariant.refuse (h : Invariant (g :: fresh) hand dying regs p) (hg : g ≠ idleGenerator) :
    ∃ e, p.refuse g = some (p.after e) ∧ Invariant fresh hand dying regs (p.after e) := by
  have hfinals := h.accounted.finals g hg
  have haccount := h.accounted.account g hg
  have hdeletes := h.deletes_of_fresh
  rw [List.cons_append, List.count_cons_self] at haccount
  have hrefused : (p.heap g).refused = false := by
    grind
  refine ⟨⟨Function.update p.heap g (p.heap g).refuse, p.baseUnitStatesMap, p.unitState⟩, ?_, ?_⟩
  · rw [MotionMaster.refuse, modify_of_deletes hdeletes, setGenerator_eq_after]
  · rw [← setGenerator_eq_after]
    refine h.setGenerator ?_ rfl rfl rfl rfl fun x hx => List.mem_cons_of_mem _ hx
    apply h.accounted.setGenerator
    · intro hidle
      exact absurd hidle hg
    · intro _
      show (p.heap g).deletes + 1 + _ = _
      rw [List.cons_append, List.count_cons_self]
      omega
    · intro _
      show (p.heap g).finalizes + 1 = (p.heap g).deletes + 1 + _
      rw [hrefused] at hfinals
      simp only [Bool.toNat_false] at hfinals
      omega
    · intro x hx
      rw [List.cons_append, List.count_cons_of_ne (Ne.symm hx)]
    · intro x _
      rfl

end MotionMaster

end EGServer.Movement
