import EGServer.Movement.Finalizing

/-!
# What an operation takes out of the container

`Outcome` says once what a call that is not delayed can do to the container, with its calls of
`Finalize`. Only that is left of the code in what follows from it.
-/

namespace EGServer.Movement

open SortedMap (lowerBound)
open Logged (Returns)

namespace MotionMaster

variable {p q r : MotionMaster} {g x d m : Address} {f : MovementGenerator → MovementGenerator}

/-- The generators that the motion master holds in its slots. -/
def held (p : MotionMaster) : List Address := p.defaultGenerator.toList ++ p.activeGenerators

/-- The invariant between operations, and the idle generator is not an active one. -/
structure Steady (p : MotionMaster) : Prop where
  whole : Whole p
  idle : idleGenerator ∉ p.activeGenerators

theorem Steady.held_nodup (h : Steady p) : p.held.Nodup := by
  rw [List.nodup_iff_count_le_one]
  intro g
  unfold held
  rw [List.count_append]
  by_cases hg : g = idleGenerator
  · have hidle : p.activeGenerators.count g = 0 := by
      rw [hg]
      exact List.count_eq_zero.mpr h.idle
    have hdefault : p.defaultGenerator.toList.count g ≤ p.defaultGenerator.toList.length :=
      List.count_le_length
    grind
  · have haccount := h.whole.inv.accounted.account g hg
    unfold holds at haccount
    split at haccount
    · omega
    · omega

theorem Steady.active_nodup (h : Steady p) : p.activeGenerators.Nodup :=
  (List.nodup_append.mp h.held_nodup).2.1

theorem Steady.default_notMem (h : Steady p) (hd : p.defaultGenerator = some d) :
    d ∉ p.activeGenerators := by
  intro hmem
  have hdisjoint := (List.nodup_append.mp h.held_nodup).2.2
  rw [hd] at hdisjoint
  exact hdisjoint d (List.mem_singleton_self d) d hmem rfl

theorem Steady.single (h : Steady p) {node : (Nat × Nat) × List Address}
    (hnode : node ∈ p.generators) : ∃ g, node = (node.1, [g]) := by
  obtain ⟨g, -, -, hg, -⟩ := h.whole.inv.split hnode
  exact ⟨g, hg⟩

/-! ## One generator is touched -/

/-- Nothing but one generator and the unit states may differ, as far as is looked at here. -/
structure Touches (g : Address) (p q : MotionMaster) : Prop where
  generators : q.generators = p.generators
  defaultGenerator : q.defaultGenerator = p.defaultGenerator
  heap : ∀ x, x ≠ g → q.heap x = p.heap x

theorem Touches.refl (g : Address) (p : MotionMaster) : Touches g p p := ⟨rfl, rfl, fun _ _ => rfl⟩

theorem Touches.trans (h : Touches g p q) (h' : Touches g q r) : Touches g p r where
  generators := h'.generators.trans h.generators
  defaultGenerator := h'.defaultGenerator.trans h.defaultGenerator
  heap x hx := (h'.heap x hx).trans (h.heap x hx)

theorem modify_touches (h : p.modify g f = some q) : Touches g p q := by
  unfold modify at h
  obtain ⟨a, -, heq⟩ := Option.bind_eq_some_iff.mp h
  cases heq
  exact ⟨rfl, rfl, fun x hx => Function.update_of_ne hx _ _⟩

theorem clearBaseUnitState_touches (h : p.clearBaseUnitState g = some q) : Touches g p q := by
  unfold MotionMaster.clearBaseUnitState at h
  obtain ⟨a, -, heq⟩ := Option.bind_eq_some_iff.mp h
  split at heq
  · cases heq
    exact Touches.refl g p
  · cases heq
    exact ⟨rfl, rfl, fun _ _ => rfl⟩

theorem addBaseUnitState_touches (h : p.addBaseUnitState g = some q) : Touches g p q := by
  unfold MotionMaster.addBaseUnitState at h
  obtain ⟨a, -, heq⟩ := Option.bind_eq_some_iff.mp h
  split at heq
  · cases heq
    exact Touches.refl g p
  · cases heq
    exact ⟨rfl, rfl, fun _ _ => rfl⟩

theorem pointerDeleter_touches (h : p.pointerDeleter g = some q) : Touches g p q := by
  unfold MotionMaster.pointerDeleter at h
  split at h
  · cases h
    exact Touches.refl g p
  · exact modify_touches h

theorem deactivateHook_touches (h : p.deactivateHook g = some q) : Touches g p q := by
  unfold MotionMaster.deactivateHook at h
  split at h
  · cases h
    exact Touches.refl g p
  · exact modify_touches h

theorem release_touches (h : p.release g = some q) : Touches g p q := by
  unfold MotionMaster.release at h
  obtain ⟨r, hr, hq⟩ := Option.bind_eq_some_iff.mp h
  exact (clearBaseUnitState_touches hr).trans (pointerDeleter_touches hq)

end MotionMaster

/-! ## The calls of the loops -/

/-- The calls of `_DirectClear`. -/
def popCalls : Bool → List Address → List FinalizeCall
  | _, [] => []
  | active, g :: rest => ⟨g, active, false⟩ :: popCalls false rest

/-- The calls of `_DirectClear(filter)`: the generators are taken to be active until one stays. -/
def clearCalls (filter : Address → Bool) : Bool → List Address → List FinalizeCall
  | _, [] => []
  | top, g :: rest =>
    if filter g then ⟨g, top, false⟩ :: clearCalls filter top rest
    else clearCalls filter false rest

namespace Traced

open MotionMaster

variable {p q : MotionMaster} {g d m : Address} {active movementInform : Bool}
  {calls : List FinalizeCall} {k : Nat × Nat} {before rest : MotionMasterContainer}
  {filter : Address → MovementGenerator → Bool}

theorem finalizeHook_returns (h : (finalizeHook p g active movementInform).Returns q calls) :
    Touches g p q ∧ calls = [⟨g, active, movementInform⟩] := by
  obtain ⟨hq, rfl⟩ := Returns.log_iff.mp h
  exact ⟨modify_touches hq, rfl⟩

theorem delete_returns (h : (delete p g active movementInform).Returns q calls) :
    Touches g p q ∧ calls = [⟨g, active, movementInform⟩] := by
  obtain ⟨r, l₁, l₂, hfinalize, hrelease, rfl⟩ := Returns.bind_iff.mp h
  obtain ⟨htouch, rfl⟩ := finalizeHook_returns hfinalize
  obtain ⟨hq, rfl⟩ := Returns.lift_iff.mp hrelease
  exact ⟨htouch.trans (release_touches hq), rfl⟩

theorem eraseFrom_head (k : Nat × Nat) (g : Address) (rest : MotionMasterContainer) :
    eraseFrom k g ((k, [g]) :: rest) = rest := by
  rw [eraseFrom, if_pos rfl]
  simp

theorem pop_returns (hgen : p.generators = (k, [g]) :: rest)
    (h : (pop p active movementInform).Returns q calls) :
    q.generators = rest ∧ q.defaultGenerator = p.defaultGenerator ∧
      calls = [⟨g, active, movementInform⟩] := by
  unfold pop at h
  rw [hgen] at h
  obtain ⟨x, hx, h⟩ := Returns.lift_bind_iff.mp h
  cases hx
  obtain ⟨htouch, rfl⟩ := delete_returns h
  refine ⟨?_, htouch.defaultGenerator, rfl⟩
  rw [htouch.generators]
  show eraseFrom k g p.generators = rest
  rw [hgen, eraseFrom_head]

theorem popAll_returns {n : Nat} (hsingle : ∀ node ∈ p.generators, ∃ g, node = (node.1, [g]))
    (h : (popAll n active p).Returns q calls) :
    q.generators = [] ∧ q.defaultGenerator = p.defaultGenerator ∧
      calls = popCalls active p.activeGenerators := by
  induction n generalizing p active calls with
  | zero =>
    unfold popAll at h
    split at h
    · next hempty =>
      obtain ⟨rfl, rfl⟩ := Returns.pure_iff.mp h
      have hnil : p.generators = [] := List.isEmpty_iff.mp hempty
      refine ⟨hnil, rfl, ?_⟩
      rw [activeGenerators, hnil]
      rfl
    · obtain ⟨hnone, -⟩ := Returns.lift_iff.mp h
      cases hnone
  | succ n ih =>
    unfold popAll at h
    split at h
    · next hempty =>
      obtain ⟨rfl, rfl⟩ := Returns.pure_iff.mp h
      have hnil : p.generators = [] := List.isEmpty_iff.mp hempty
      refine ⟨hnil, rfl, ?_⟩
      rw [activeGenerators, hnil]
      rfl
    · obtain ⟨r, l₁, l₂, hpop, hall, rfl⟩ := Returns.bind_iff.mp h
      cases hgen : p.generators with
      | nil =>
        next hne =>
        rw [hgen] at hne
        exact absurd rfl hne
      | cons node rest =>
        obtain ⟨g, hg⟩ := hsingle node (by rw [hgen]; exact List.mem_cons_self)
        rw [hg] at hgen
        obtain ⟨hrest, hdefault, rfl⟩ := pop_returns hgen hpop
        obtain ⟨hnil, hdefault', rfl⟩ := ih (fun n hn => hsingle n (by
          rw [hgen]
          rw [hrest] at hn
          exact List.mem_cons_of_mem _ hn)) hall
        refine ⟨hnil, hdefault'.trans hdefault, ?_⟩
        rw [activeGenerators, activeGenerators, hgen, hrest]
        rfl

theorem directClear_returns (h : Steady p) (hrun : (directClear p).Returns q calls) :
    q.generators = [] ∧ q.defaultGenerator = p.defaultGenerator ∧
      calls = popCalls true p.activeGenerators := by
  obtain ⟨r, l₁, l₂, hall, hstates, rfl⟩ := Returns.bind_iff.mp hrun
  obtain ⟨rfl, rfl⟩ := Returns.pure_iff.mp hstates
  obtain ⟨hnil, hdefault, rfl⟩ := popAll_returns (fun node hnode => h.single hnode) hall
  exact ⟨hnil, hdefault, List.append_nil _⟩

theorem directClearDefault_returns (hd : p.defaultGenerator = some d)
    (h : (directClearDefault p).Returns q calls) :
    q.generators = p.generators ∧ q.defaultGenerator = some idleGenerator ∧
      calls = [⟨d, p.generators.isEmpty, false⟩] := by
  unfold directClearDefault at h
  rw [hd] at h
  obtain ⟨r, l₁, l₂, hfinalize, hdelete, rfl⟩ := Returns.bind_iff.mp h
  obtain ⟨htouch, rfl⟩ := finalizeHook_returns hfinalize
  obtain ⟨hq, rfl⟩ := Returns.lift_iff.mp hdelete
  have htouch' := pointerDeleter_touches hq
  exact ⟨htouch'.generators.trans htouch.generators, htouch'.defaultGenerator, rfl⟩

theorem directAddDefault_returns (hd : p.defaultGenerator = some d)
    (h : (directAddDefault p m).Returns q calls) :
    q.generators = p.generators ∧ q.defaultGenerator = some m ∧
      calls = [⟨d, p.generators.isEmpty, false⟩] := by
  unfold directAddDefault at h
  rw [hd] at h
  obtain ⟨r, l₁, l₂, hfinalize, hdelete, rfl⟩ := Returns.bind_iff.mp h
  obtain ⟨htouch, rfl⟩ := finalizeHook_returns hfinalize
  obtain ⟨hq, rfl⟩ := Returns.lift_iff.mp hdelete
  have htouch' := pointerDeleter_touches hq
  exact ⟨htouch'.generators.trans htouch.generators, htouch'.defaultGenerator, rfl⟩

/-! ## `_DirectClear` with a filter -/

/-- What stays of the nodes. -/
def keptNodes (filter : Address → Bool) (nodes : MotionMasterContainer) : MotionMasterContainer :=
  nodes.filter fun node => !node.2.all filter

theorem clearList_returns {list : List Address × Option Address × MotionMaster} {top : Bool}
    (h : (clearList filter top [] [g] none p).Returns list calls) :
    calls = [] ∧ list = if filter g (p.heap g) then ([], some g, p) else ([g], none, p) := by
  unfold clearList at h
  obtain ⟨a, ha, h⟩ := Returns.lift_bind_iff.mp h
  have hread : a = p.heap g := by
    grind [MotionMaster.read]
  subst hread
  split at h
  · next hfilter =>
    rw [if_pos hfilter]
    obtain ⟨rfl, rfl⟩ := Returns.pure_iff.mp h
    exact ⟨rfl, rfl⟩
  · next hfilter =>
    rw [if_neg hfilter]
    obtain ⟨rfl, rfl⟩ := Returns.pure_iff.mp h
    exact ⟨rfl, rfl⟩

theorem clearNodes_returns {nodes kept : MotionMasterContainer} {top : Bool}
    {filtered : Address → Bool} (hsingle : ∀ node ∈ nodes, ∃ g, node = (node.1, [g]))
    (hnodup : (nodes.flatMap Prod.snd).Nodup)
    (hfilter : ∀ g ∈ nodes.flatMap Prod.snd, filter g (p.heap g) = filtered g)
    (h : (clearNodes filter top nodes p).Returns (kept, q) calls) :
    kept = keptNodes filtered nodes ∧ q.defaultGenerator = p.defaultGenerator ∧
      calls = clearCalls filtered top (nodes.flatMap Prod.snd) := by
  induction nodes generalizing p top kept calls with
  | nil =>
    obtain ⟨heq, rfl⟩ := Returns.pure_iff.mp h
    cases heq
    exact ⟨rfl, rfl, rfl⟩
  | cons node rest ih =>
    obtain ⟨g, hg⟩ := hsingle node List.mem_cons_self
    have hlist : node.2 = [g] := by rw [hg]
    rw [List.flatMap_cons, hlist] at hnodup hfilter ⊢
    obtain ⟨hnotMem, hrest⟩ := List.nodup_cons.mp hnodup
    have hsingle' : ∀ n ∈ rest, ∃ g, n = (n.1, [g]) :=
      fun n hn => hsingle n (List.mem_cons_of_mem _ hn)
    unfold clearNodes at h
    rw [hlist] at h
    obtain ⟨list, l₁, l₂, hinner, houter, rfl⟩ := Returns.bind_iff.mp h
    obtain ⟨rfl, rfl⟩ := clearList_returns hinner
    rw [hfilter g List.mem_cons_self] at houter
    by_cases hdrop : filtered g = true
    · rw [if_pos hdrop] at houter
      obtain ⟨pointer, hpointer, houter⟩ := Returns.lift_bind_iff.mp houter
      cases hpointer
      obtain ⟨r, l₁, l₂, hdelete, hnodes, rfl⟩ := Returns.bind_iff.mp houter
      obtain ⟨htouch, rfl⟩ := delete_returns hdelete
      have hfilter' : ∀ x ∈ rest.flatMap Prod.snd, filter x (r.heap x) = filtered x := by
        intro x hx
        have hne : x ≠ g := fun heq => hnotMem (heq ▸ hx)
        rw [htouch.heap x hne]
        exact hfilter x (List.mem_cons_of_mem _ hx)
      obtain ⟨hkept, hdefault, rfl⟩ := ih hsingle' hrest hfilter' hnodes
      refine ⟨?_, hdefault.trans htouch.defaultGenerator, ?_⟩
      · rw [hkept, keptNodes, keptNodes, List.filter_cons_of_neg]
        rw [hlist]
        simp [hdrop]
      · show _ = ite (filtered g = true) _ _
        rw [if_pos hdrop]
        rfl
    · rw [if_neg hdrop] at houter
      obtain ⟨nodes, l₁, l₂, hnodes, hreturn, rfl⟩ := Returns.bind_iff.mp houter
      obtain ⟨heq, rfl⟩ := Returns.pure_iff.mp hreturn
      cases heq
      have hfilter' : ∀ x ∈ rest.flatMap Prod.snd, filter x (p.heap x) = filtered x :=
        fun x hx => hfilter x (List.mem_cons_of_mem _ hx)
      obtain ⟨hkept, hdefault, rfl⟩ := ih hsingle' hrest hfilter' hnodes
      refine ⟨?_, hdefault, ?_⟩
      · grind [keptNodes]
      · show clearCalls filtered false _ ++ [] = ite (filtered g = true) _ _
        rw [List.append_nil, if_neg hdrop]
        rfl

end Traced

end EGServer.Movement
