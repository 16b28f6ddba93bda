import EGServer.Movement.MotionMaster

/-!
# Who owns a generator

A generator that was passed to `Add` and not deleted has one owner: the queue of delayed actions,
the default slot, the map, or the operation that has it in hand. `Accounted` says this by counting,
with the generators in hand as lists: those to be finalized, and those finalized and about to be
deleted. The other parts of the invariant are about the map (`Filed`), the unit states
(`Registered`) and the flags (`Calm`).
-/

namespace EGServer.Movement

open Function (update_self update_of_ne)

/-- The generator that a delayed `Add` owns. -/
def DelayedAction.added : DelayedAction → Option Address
  | .add movement _ => some movement
  | _ => none

namespace MotionMaster

variable {p q : MotionMaster} {hand dying fresh regs : List Address} {g x : Address}
  {a : MovementGenerator} {f : MovementGenerator → MovementGenerator}

def pendingAdds (p : MotionMaster) : List Address := p.delayedActions.filterMap DelayedAction.added

/-- How often the motion master holds a generator. -/
def holds (p : MotionMaster) (g : Address) : Nat :=
  p.pendingAdds.count g + p.defaultGenerator.toList.count g + p.activeGenerators.count g

/-! ## The parts of the invariant -/

/-- The map is in order, and a key has the one generator with this priority and mode. -/
structure Filed (p : MotionMaster) : Prop where
  sorted : SortedMap.Sorted keyComp p.generators
  single : ∀ node ∈ p.generators, ∃ g, node.2 = [g] ∧ node.1 = (p.heap g).key

/-- Every generator made so far has one owner or was deleted once; the generators in `hand` are
not finalized yet, those in `dying` are. -/
structure Accounted (hand dying : List Address) (p : MotionMaster) : Prop where
  account : ∀ g, g ≠ idleGenerator →
    (p.heap g).deletes + (hand.count g + dying.count g + p.holds g) = if g < p.next then 1 else 0
  finals : ∀ g, g ≠ idleGenerator →
    (p.heap g).finalizes + (p.heap g).refused.toNat = (p.heap g).deletes + dying.count g
  idle : (p.heap idleGenerator).deletes = 0
  next_pos : idleGenerator < p.next

/-- The entries of `_baseUnitStatesMap` for some generators. -/
def unitStatesOf (heap : Address → MovementGenerator) (regs : List Address) :
    List (BitVec 32 × Address) :=
  (regs.filter fun g => (heap g).baseUnitState ≠ 0).map fun g => ((heap g).baseUnitState, g)

def Registered (regs : List Address) (p : MotionMaster) : Prop :=
  p.baseUnitStatesMap.Perm (unitStatesOf p.heap regs)

/-- Only the current generator is awake, the idle generator and immediate ones apart; `fresh` are
the generators in hand that are not in the map yet. -/
structure Calm (fresh : List Address) (p : MotionMaster) : Prop where
  kind : (p.heap idleGenerator).toMovementKind = IdleMovementGenerator.toMovementKind
  pending : (p.heap idleGenerator).initializationPending = false
  deactivated : (p.heap idleGenerator).deactivated = false
  fresh : ∀ g, g ∈ fresh ∨ g ∈ p.pendingAdds → g ≠ idleGenerator → (p.heap g).immediate = false →
    (p.heap g).initialized = false
  rest : ∀ g, p.defaultGenerator = some g ∨ g ∈ p.activeGenerators → g ≠ idleGenerator →
    (p.heap g).immediate = false → (p.heap g).awake = true → p.currentMovementGenerator = some g

/-- What an operation keeps: it has `fresh` in hand to file them, `hand` to finalize them and
`dying` to delete them, and the generators in `regs` have their unit states set. -/
structure Invariant (fresh hand dying regs : List Address) (p : MotionMaster) : Prop where
  filed : p.Filed
  accounted : p.Accounted (fresh ++ hand) dying
  registered : p.Registered regs
  calm : p.Calm fresh

/-! ## What follows from the account -/

theorem Accounted.deletes_of_owned (h : p.Accounted hand dying)
    (hg : 0 < hand.count g + dying.count g + p.holds g) : (p.heap g).deletes = 0 := by
  by_cases hidle : g = idleGenerator
  · rw [hidle]
    exact h.idle
  · have haccount := h.account g hidle
    split at haccount
    · omega
    · omega

theorem holds_of_default (hg : p.defaultGenerator = some g) : 0 < p.holds g := by
  have hcount : 0 < p.defaultGenerator.toList.count g := by
    rw [hg]
    simp
  unfold holds
  omega

theorem holds_of_active (hg : g ∈ p.activeGenerators) : 0 < p.holds g := by
  have hcount := List.count_pos_iff.mpr hg
  unfold holds
  omega

theorem read_of_deletes (h : (p.heap g).deletes = 0) : p.read g = some (p.heap g) := by
  rw [read, if_pos h]

theorem modify_of_deletes (h : (p.heap g).deletes = 0) :
    p.modify g f = some (p.setGenerator g (f (p.heap g))) := by
  rw [modify, read_of_deletes h]
  rfl

/-! ## Lists of the same counts -/

theorem Accounted.pass {hand' dying' : List Address} (h : p.Accounted hand dying)
    (hheap : q.heap = p.heap) (hnext : q.next = p.next)
    (hdying : ∀ g, dying'.count g = dying.count g)
    (hcount : ∀ g, g ≠ idleGenerator → hand'.count g + q.holds g = hand.count g + p.holds g) :
    q.Accounted hand' dying' := by
  constructor
  · intro g hg
    have haccount := h.account g hg
    have hc := hcount g hg
    have hd := hdying g
    rw [hheap, hnext]
    omega
  · intro g hg
    rw [hheap, hdying]
    exact h.finals g hg
  · rw [hheap]
    exact h.idle
  · rw [hnext]
    exact h.next_pos

theorem Filed.congr (h : p.Filed) (hgen : q.generators = p.generators)
    (hkey : ∀ g, (q.heap g).key = (p.heap g).key) : q.Filed := by
  constructor
  · rw [hgen]
    exact h.sorted
  · intro node hnode
    rw [hgen] at hnode
    obtain ⟨g, hg, hk⟩ := h.single node hnode
    exact ⟨g, hg, hk.trans (hkey g).symm⟩

theorem unitStatesOf_congr {heap heap' : Address → MovementGenerator}
    (h : ∀ g, (heap' g).baseUnitState = (heap g).baseUnitState) :
    unitStatesOf heap' regs = unitStatesOf heap regs := by
  unfold unitStatesOf
  simp only [h]

theorem Registered.congr (h : p.Registered regs) (hmap : q.baseUnitStatesMap = p.baseUnitStatesMap)
    (hbase : ∀ g, (q.heap g).baseUnitState = (p.heap g).baseUnitState) : q.Registered regs := by
  unfold Registered
  rw [hmap, unitStatesOf_congr hbase]
  exact h

theorem Registered.perm {regs' : List Address} (h : p.Registered regs) (hperm : regs.Perm regs') :
    p.Registered regs' :=
  h.trans ((hperm.filter _).map _)

/-! ## One generator changes -/

section SetGenerator

theorem kind_setGenerator (hkind : a.toMovementKind = (p.heap g).toMovementKind) (x : Address) :
    ((p.setGenerator g a).heap x).toMovementKind = (p.heap x).toMovementKind := by
  by_cases hx : x = g
  · subst hx
    show (Function.update p.heap x a x).toMovementKind = _
    rw [update_self]
    exact hkind
  · show (Function.update p.heap g a x).toMovementKind = _
    rw [update_of_ne hx]

theorem key_of_kind {b : MovementGenerator} (h : a.toMovementKind = b.toMovementKind) :
    a.key = b.key := by
  unfold MovementGenerator.key
  rw [h]

theorem Filed.setGenerator (h : p.Filed)
    (hkind : a.toMovementKind = (p.heap g).toMovementKind) : (p.setGenerator g a).Filed :=
  h.congr rfl fun x => key_of_kind (kind_setGenerator hkind x)

theorem Registered.setGenerator (h : p.Registered regs)
    (hkind : a.toMovementKind = (p.heap g).toMovementKind) :
    (p.setGenerator g a).Registered regs :=
  h.congr rfl fun x => congrArg MovementKind.baseUnitState (kind_setGenerator hkind x)

theorem Calm.setGenerator (h : p.Calm fresh)
    (hkind : a.toMovementKind = (p.heap g).toMovementKind)
    (hidle : g = idleGenerator → a.initializationPending = false ∧ a.deactivated = false)
    (hfresh : g ∈ fresh ∨ g ∈ p.pendingAdds → g ≠ idleGenerator → a.immediate = false →
      a.initialized = false)
    (hrest : p.defaultGenerator = some g ∨ g ∈ p.activeGenerators → g ≠ idleGenerator →
      a.immediate = false → a.awake = true → p.currentMovementGenerator = some g) :
    (p.setGenerator g a).Calm fresh := by
  have hidle' : (p.setGenerator g a).heap idleGenerator = p.heap idleGenerator ∨
      g = idleGenerator ∧ (p.setGenerator g a).heap idleGenerator = a := by
    by_cases hg : g = idleGenerator
    · subst hg
      refine Or.inr ⟨rfl, ?_⟩
      show Function.update p.heap idleGenerator a idleGenerator = a
      rw [update_self]
    · exact Or.inl (update_of_ne (Ne.symm hg) _ _)
  constructor
  · rw [kind_setGenerator hkind]
    exact h.kind
  · obtain he | ⟨hg, he⟩ := hidle'
    · rw [he]
      exact h.pending
    · rw [he]
      exact (hidle hg).1
  · obtain he | ⟨hg, he⟩ := hidle'
    · rw [he]
      exact h.deactivated
    · rw [he]
      exact (hidle hg).2
  · intro x hx hne himm
    by_cases hxg : x = g
    · subst hxg
      have he : (p.setGenerator x a).heap x = a := update_self _ _ _
      rw [he] at himm ⊢
      exact hfresh hx hne himm
    · have he : (p.setGenerator g a).heap x = p.heap x := update_of_ne hxg _ _
      rw [he] at himm ⊢
      exact h.fresh x hx hne himm
  · intro x hx hne himm hawake
    by_cases hxg : x = g
    · subst hxg
      have he : (p.setGenerator x a).heap x = a := update_self _ _ _
      rw [he] at himm hawake
      exact hrest hx hne himm hawake
    · have he : (p.setGenerator g a).heap x = p.heap x := update_of_ne hxg _ _
      rw [he] at himm hawake
      exact h.rest x hx hne himm hawake

theorem Accounted.setGenerator {hand' dying' : List Address} (h : p.Accounted hand dying)
    (hidle : g = idleGenerator → a.deletes = 0)
    (hown : g ≠ idleGenerator →
      a.deletes + (hand'.count g + dying'.count g) =
        (p.heap g).deletes + (hand.count g + dying.count g))
    (hfinals : g ≠ idleGenerator → a.finalizes + a.refused.toNat = a.deletes + dying'.count g)
    (hhand : ∀ x, x ≠ g → hand'.count x = hand.count x)
    (hdying : ∀ x, x ≠ g → dying'.count x = dying.count x) :
    (p.setGenerator g a).Accounted hand' dying' := by
  constructor
  · intro x hx
    have haccount := h.account x hx
    show (Function.update p.heap g a x).deletes + (_ + _ + p.holds x) = if x < p.next then 1 else 0
    grind
  · intro x hx
    show (Function.update p.heap g a x).finalizes + (Function.update p.heap g a x).refused.toNat =
      (Function.update p.heap g a x).deletes + _
    by_cases hxg : x = g
    · subst hxg
      rw [update_self]
      exact hfinals hx
    · rw [update_of_ne hxg, hdying x hxg]
      exact h.finals x hx
  · show (Function.update p.heap g a idleGenerator).deletes = 0
    by_cases hg : g = idleGenerator
    · subst hg
      rw [update_self]
      exact hidle rfl
    · rw [update_of_ne (Ne.symm hg)]
      exact h.idle
  · exact h.next_pos

end SetGenerator

end MotionMaster

end EGServer.Movement
