import EGServer.Movement.ContainerSpec

/-!
# Putting generators into the container

`_DirectAdd` puts a generator in the place of the one with its key, or in a new node. When the new
node is the first, the generator that was current is deactivated before, so that afterwards none is
awake (`NoneAwake`) until `Update` initializes the new one.
-/

namespace EGServer.Movement

open Function (update_self update_of_ne)
open SortedMap (Sorted lowerBound)

namespace MotionMaster

variable {p q : MotionMaster} {hand dying fresh regs : List Address} {g x c m : Address}
  {before rest l : MotionMasterContainer} {k : Nat × Nat}
  {filter : Address → MovementGenerator → Bool}

/-! ## `_DirectClear` with a filter -/

def withGenerators (p : MotionMaster) (l : MotionMasterContainer) : MotionMaster :=
  { p with generators := l }

theorem modify_withGenerators (p : MotionMaster) (f : MovementGenerator → MovementGenerator) :
    (p.withGenerators l).modify g f = (p.modify g f).map (withGenerators · l) := by
  show (do return (p.withGenerators l).setGenerator g (f (← p.read g))) = _
  rw [modify]
  cases p.read g with
  | none => rfl
  | some a => rfl

theorem clearBaseUnitState_withGenerators (p : MotionMaster) :
    (p.withGenerators l).clearBaseUnitState g =
      (p.clearBaseUnitState g).map (withGenerators · l) := by
  have hread : (p.withGenerators l).read g = p.read g := rfl
  rw [MotionMaster.clearBaseUnitState, MotionMaster.clearBaseUnitState, hread]
  cases p.read g with
  | none => rfl
  | some a =>
    rw [Option.bind_eq_bind, Option.bind_some, Option.bind_some]
    split
    · rfl
    · rfl

theorem pointerDeleter_withGenerators (p : MotionMaster) :
    (p.withGenerators l).pointerDeleter g = (p.pointerDeleter g).map (withGenerators · l) := by
  rw [MotionMaster.pointerDeleter, MotionMaster.pointerDeleter]
  split
  · rfl
  · exact modify_withGenerators p _

/-- `_Delete` does not look at the map. -/
theorem delete_withGenerators (p : MotionMaster) :
    (p.withGenerators l).delete g = (p.delete g).map (withGenerators · l) := by
  rw [MotionMaster.delete, MotionMaster.delete, MotionMaster.finalizeHook, modify_withGenerators,
    MotionMaster.finalizeHook]
  cases p.modify g MovementGenerator.onFinalize with
  | none => rfl
  | some q =>
    show (q.withGenerators l).release g = (q.release g).map (withGenerators · l)
    rw [MotionMaster.release, MotionMaster.release, clearBaseUnitState_withGenerators]
    cases q.clearBaseUnitState g with
    | none => rfl
    | some q' => exact pointerDeleter_withGenerators q'

theorem delete_of_withGenerators {e : Effects}
    (h : (p.withGenerators l).delete g = some ((p.withGenerators l).after e)) :
    p.delete g = some (p.after e) := by
  have hdelete := @delete_withGenerators g p.generators (p.withGenerators l)
  rw [h] at hdelete
  exact hdelete

theorem clearList_single (h : (p.heap g).deletes = 0) :
    clearList filter [] [g] none p =
      if filter g (p.heap g) then some ([], some g, p) else some ([g], none, p) := by
  rw [clearList, read_of_deletes h]
  rfl

/-- The loop of `_DirectClear(filter)` keeps the invariant of what is done and what is left. -/
theorem Invariant.clearNodes {done nodes : MotionMasterContainer}
    (h : Invariant fresh hand dying ((done ++ nodes).flatMap Prod.snd)
      { p with generators := done ++ nodes }) :
    ∃ e kept, MotionMaster.clearNodes filter nodes p = some (kept, p.after e) ∧
      Invariant fresh hand dying ((done ++ kept).flatMap Prod.snd)
        (after { p with generators := done ++ kept } e) := by
  induction nodes generalizing done p with
  | nil => exact ⟨p.effects, [], rfl, h⟩
  | cons node rest ih =>
    have hmem : node ∈ done ++ node :: rest := by simp
    obtain ⟨g, hg, -⟩ := h.filed.single node hmem
    have hnode : node = (node.1, [g]) := Prod.ext rfl hg
    have hdeletes : (p.heap g).deletes = 0 := by
      apply h.accounted.deletes_of_owned
      have hactive : g ∈ (done ++ node :: rest).flatMap Prod.snd :=
        List.mem_flatMap.mpr ⟨node, hmem, by rw [hg]; exact List.mem_singleton_self g⟩
      exact Nat.add_pos_right _ (holds_of_active hactive)
    rw [MotionMaster.clearNodes, hg, clearList_single hdeletes]
    by_cases hfilter : filter g (p.heap g) = true
    · rw [if_pos hfilter]
      rw [hnode] at h
      have hsorted : Sorted keyComp (done ++ (node.1, [g]) :: rest) := h.filed.sorted
      obtain ⟨e, he, hinv⟩ := @removeGenerator { p with generators := done ++ (node.1, [g]) :: rest }
        _ _ _ _ done rest node.1 h rfl
      rw [MotionMaster.removeGenerator, erase] at he
      simp only [eraseFrom_split hsorted] at he
      obtain ⟨e', kept, he', hinv'⟩ := ih (p := p.after e) hinv
      refine ⟨e', kept, ?_, hinv'⟩
      have hdelete : p.delete g = some (p.after e) := delete_of_withGenerators he
      show (do MotionMaster.clearNodes filter rest (← p.delete (← some g))) = _
      rw [Option.bind_eq_bind, Option.bind_some, hdelete]
      exact he'
    · rw [if_neg hfilter]
      have h' : Invariant fresh hand dying (((done ++ [node]) ++ rest).flatMap Prod.snd)
          { p with generators := (done ++ [node]) ++ rest } := by
        rw [List.append_assoc]
        exact h
      grind

theorem Invariant.directClearFilter (h : Invariant fresh hand dying p.activeGenerators p) :
    ∃ e l, p.directClearFilter filter = some (after { p with generators := l } e) ∧
      Invariant fresh hand dying (l.flatMap Prod.snd) (after { p with generators := l } e) := by
  obtain ⟨e, l, he, hinv⟩ := @clearNodes _ _ _ _ filter [] p.generators h
  refine ⟨e, l, ?_, hinv⟩
  rw [MotionMaster.directClearFilter, he]
  rfl

/-! ## Nothing is awake -/

/-- No generator of the container is awake, the idle and immediate ones apart. -/
def NoneAwake (p : MotionMaster) : Prop :=
  ∀ g, p.defaultGenerator = some g ∨ g ∈ p.activeGenerators → g ≠ idleGenerator →
    (p.heap g).immediate = false → (p.heap g).awake = false

theorem Invariant.noneAwake_of_take (h : Invariant fresh hand dying regs p)
    (hgen : p.generators = (k, [g]) :: rest) : NoneAwake { p with generators := rest } := by
  intro x hx hne himm
  have htake := @take _ _ _ _ _ _ [] _ _ h hgen
  cases hawake : (p.heap x).awake with
  | false => rfl
  | true =>
    have hx' : p.defaultGenerator = some x ∨ x ∈ p.activeGenerators := by
      apply hx.imp_right
      intro hmem
      have hsplit : p.generators = [] ++ (k, [g]) :: rest := hgen
      exact (activeGenerators_of_split hsplit).mem_iff.mpr (List.mem_cons_of_mem _ hmem)
    have hcurrent := h.calm.rest x hx' hne himm hawake
    rw [currentMovementGenerator_of_cons hgen] at hcurrent
    cases hcurrent
    have hholds : holds { p with generators := rest } g = 0 := htake.holds_of_hand hne
    have hpos : 0 < holds { p with generators := rest } g := by
      grind [holds_of_active, holds_of_default]
    omega

theorem Invariant.deactivateCurrent (h : Invariant fresh hand dying regs p)
    (hc : p.currentMovementGenerator = some c) (hdeletes : (p.heap c).deletes = 0) :
    ∃ e, p.deactivateHook c = some (p.after e) ∧ Invariant fresh hand dying regs (p.after e) ∧
      NoneAwake (p.after e) ∧ ∀ x, (e.heap x).toMovementKind = (p.heap x).toMovementKind := by
  by_cases hidle : c = idleGenerator
  · refine ⟨p.effects, ?_, h, ?_, fun _ => rfl⟩
    · rw [MotionMaster.deactivateHook, if_pos (by simp [isStatic, hidle])]
      rfl
    · intro x hx hne himm
      cases hawake : (p.heap x).awake with
      | false => exact hawake
      | true =>
        have hcurrent := h.calm.rest x hx hne himm hawake
        rw [hc, hidle] at hcurrent
        cases hcurrent
        exact absurd rfl hne
  · refine ⟨⟨Function.update p.heap c (p.heap c).onDeactivate, p.baseUnitStatesMap, p.unitState⟩,
      ?_, ?_, ?_, ?_⟩
    · rw [MotionMaster.deactivateHook, if_neg (by simp [isStatic, hidle]),
        modify_of_deletes hdeletes, setGenerator_eq_after]
    · rw [← setGenerator_eq_after]
      refine ⟨h.filed.setGenerator rfl, ?_, h.registered.setGenerator rfl, ?_⟩
      · apply h.accounted.setGenerator
        · intro hg
          exact absurd hg hidle
        · intro _
          rfl
        · exact h.accounted.finals c
        · intro x _
          rfl
        · intro x _
          rfl
      · refine h.calm.setGenerator (a := (p.heap c).onDeactivate) rfl ?_ ?_ ?_
        · intro hg
          exact absurd hg hidle
        · exact h.calm.fresh c
        · intro _ _ _ _
          exact hc
    · intro x hx hne himm
      by_cases hxc : x = c
      · subst hxc
        show (Function.update p.heap x _ x).awake = false
        rw [update_self]
        unfold MovementGenerator.awake MovementGenerator.onDeactivate
        simp
      · show (Function.update p.heap c _ x).awake = false
        have himm' : (Function.update p.heap c (p.heap c).onDeactivate x).immediate = false := himm
        rw [update_of_ne hxc] at himm' ⊢
        cases hawake : (p.heap x).awake with
        | false => rfl
        | true =>
          have hcurrent := h.calm.rest x hx hne himm' hawake
          rw [hc] at hcurrent
          cases hcurrent
          exact absurd rfl hxc
    · intro x
      exact kind_setGenerator (a := (p.heap c).onDeactivate) rfl x

/-! ## The place of a new generator -/

theorem Invariant.place (h : Invariant (m :: fresh) hand dying regs p)
    (hfiled : Filed { p with generators := l })
    (hperm : (l.flatMap Prod.snd).Perm (m :: p.activeGenerators))
    (himm : (p.heap m).immediate = false)
    (hfirst : NoneAwake p ∨ ∃ node rest rest', p.generators = node :: rest ∧ l = node :: rest') :
    Invariant fresh hand dying regs { p with generators := l } := by
  refine ⟨hfiled, ?_, h.registered, ?_⟩
  · refine h.accounted.pass rfl rfl (fun _ => rfl) ?_
    intro x _
    have hcount := hperm.count_eq x
    rw [List.count_cons] at hcount
    rw [List.cons_append, List.count_cons]
    show _ + (p.pendingAdds.count x + p.defaultGenerator.toList.count x +
      (l.flatMap Prod.snd).count x) = _ + (_ + _ + p.activeGenerators.count x)
    omega
  · refine ⟨h.calm.kind, h.calm.pending, h.calm.deactivated, ?_, ?_⟩
    · intro x hx
      exact h.calm.fresh x (hx.imp_left (List.mem_cons_of_mem _))
    · intro x hx hne hximm hawake
      have hx' : x = m ∨ (p.defaultGenerator = some x ∨ x ∈ p.activeGenerators) := by
        obtain hx | hx := hx
        · exact Or.inr (Or.inl hx)
        · exact (List.mem_cons.mp (hperm.mem_iff.mp hx)).imp_right Or.inr
      have hxm : x ≠ m := by
        rintro rfl
        have hinit := h.calm.fresh x (Or.inl List.mem_cons_self) hne himm
        have hawake : (p.heap x).awake = true := hawake
        unfold MovementGenerator.awake at hawake
        rw [hinit] at hawake
        cases hawake
      have howned := hx'.resolve_left hxm
      obtain hnone | ⟨node, rest, rest', hgen, hl⟩ := hfirst
      · have hasleep := hnone x howned hne hximm
        have hawake : (p.heap x).awake = true := hawake
        rw [hasleep] at hawake
        cases hawake
      · rw [← h.calm.rest x howned hne hximm hawake]
        exact currentMovementGenerator_congr hgen hl

theorem flatMap_insert (before rest : MotionMasterContainer) :
    ((before ++ (k, [m]) :: rest).flatMap Prod.snd).Perm
      (m :: (before ++ rest).flatMap Prod.snd) := by
  rw [List.flatMap_append, List.flatMap_append, List.flatMap_cons]
  exact List.perm_middle

theorem Invariant.replaceExisting {node : (Nat × Nat) × List Address}
    (h : Invariant (m :: fresh) hand dying p.activeGenerators p)
    (himm : (p.heap m).immediate = false)
    (hgen : p.generators = before ++ node :: rest) (hkey : node.1 = (p.heap m).key) :
    ∃ e l, p.replaceExisting m before node rest = some (after { p with generators := l } e) ∧
      Invariant fresh hand dying (l.flatMap Prod.snd) (after { p with generators := l } e) := by
  obtain ⟨g, hg, -⟩ := h.filed.single node (by rw [hgen]; simp)
  have hnode : node = (node.1, [g]) := Prod.ext rfl hg
  rw [hnode] at hgen
  have htake := h.take hgen
  -- the map after the list was cleared and the new generator pushed
  have hfiled : Filed { p with generators := before ++ (node.1, [m]) :: rest } := by
    constructor
    · apply h.filed.sorted.of_keys
      rw [hgen, List.map_append, List.map_append, List.map_cons, List.map_cons]
    · intro n hn
      obtain hn | hn := List.mem_append.mp hn
      · exact h.filed.single n (by rw [hgen]; exact List.mem_append_left _ hn)
      · obtain rfl | hn := List.mem_cons.mp hn
        · exact ⟨m, rfl, hkey⟩
        · apply h.filed.single n
          rw [hgen]
          exact List.mem_append_right _ (List.mem_cons_of_mem _ hn)
  have hplace : Invariant fresh (g :: hand) dying p.activeGenerators
      { p with generators := before ++ (node.1, [m]) :: rest } := by
    apply htake.place hfiled (flatMap_insert before rest) himm
    cases before with
    | nil => exact Or.inl (h.noneAwake_of_take hgen)
    | cons first before => exact Or.inr ⟨first, _, _, rfl, rfl⟩
  have hreg := hplace.registered.perm (activeGenerators_of_split hgen)
  have hready : Invariant fresh (g :: hand) dying (g :: (before ++ rest).flatMap Prod.snd)
      { p with generators := before ++ (node.1, [m]) :: rest } :=
    ⟨hplace.filed, hplace.accounted, hreg, hplace.calm⟩
  obtain ⟨e, he, h₁⟩ := hready.delete (by
    intro hne hmem
    have hholds := htake.holds_of_hand hne
    have hpos : 0 < holds { p with generators := before ++ rest } g := holds_of_active hmem
    omega)
  have hm : ((after { p with generators := before ++ (node.1, [m]) :: rest } e).heap m).deletes =
      0 := by
    apply h₁.accounted.deletes_of_owned
    have hactive : m ∈ (before ++ (node.1, [m]) :: rest).flatMap Prod.snd :=
      (flatMap_insert before rest).mem_iff.mpr List.mem_cons_self
    exact Nat.add_pos_right _ (holds_of_active hactive)
  obtain ⟨e', he', -, h₂⟩ := h₁.addBaseUnitState hm
  refine ⟨e', before ++ (node.1, [m]) :: rest, ?_, ?_⟩
  · rw [MotionMaster.replaceExisting, hg]
    show (do
      let q ← MotionMaster.delete { p with generators := before ++ (node.1, [m]) :: rest } g
      q.addBaseUnitState m) = _
    rw [he]
    exact he'
  · exact ⟨h₂.filed, h₂.accounted, h₂.registered.perm (flatMap_insert before rest).symm, h₂.calm⟩

theorem Invariant.finalizeImmediate (h : Invariant (m :: fresh) hand dying regs p)
    (hm : m ≠ idleGenerator) :
    ∃ e, (do (← p.finalizeHook m).modify m MovementGenerator.delete) = some (p.after e) ∧
      Invariant fresh hand dying regs (p.after e) := by
  have hhand : Invariant fresh (m :: hand) dying regs p := by
    refine ⟨h.filed, ?_, h.registered, ?_⟩
    · refine h.accounted.pass rfl rfl (fun _ => rfl) ?_
      grind
    · refine ⟨h.calm.kind, h.calm.pending, h.calm.deactivated, ?_, h.calm.rest⟩
      intro x hx
      exact h.calm.fresh x (hx.imp_left (List.mem_cons_of_mem _))
  obtain ⟨he, h₁⟩ := hhand.finalizeHook
  obtain ⟨e', he', h₂⟩ := h₁.pointerDeleter
  refine ⟨e', ?_, h₂⟩
  rw [MotionMaster.pointerDeleter, if_neg (by simp [isStatic, hm])] at he'
  rw [he]
  exact he'

theorem Invariant.deactivateTop (h : Invariant fresh hand dying regs p)
    (hdefault : p.defaultGenerator.isSome) (hgen : p.generators = before ++ rest) :
    ∃ e, p.deactivateTop before = some (p.after e) ∧
      Invariant fresh hand dying regs (p.after e) ∧
      (∀ x, (e.heap x).toMovementKind = (p.heap x).toMovementKind) ∧
      (NoneAwake (p.after e) ∨ ∃ node l, before = node :: l) := by
  rw [MotionMaster.deactivateTop]
  cases before with
  | cons node before =>
    refine ⟨p.effects, ?_, h, fun _ => rfl, Or.inr ⟨node, before, rfl⟩⟩
    rw [hgen]
    rfl
  | nil =>
    cases hcases : p.generators with
    | nil =>
      obtain ⟨c, hc⟩ := Option.isSome_iff_exists.mp hdefault
      have hcurrent : p.currentMovementGenerator = some c := by
        rw [currentMovementGenerator_of_nil hcases]
        exact hc
      have hdeletes : (p.heap c).deletes = 0 :=
        h.accounted.deletes_of_owned (Nat.add_pos_right _ (holds_of_default hc))
      obtain ⟨e, he, hinv, hnone, hkind⟩ := h.deactivateCurrent hcurrent hdeletes
      refine ⟨e, ?_, hinv, hkind, Or.inl hnone⟩
      rw [hc]
      exact he
    | cons node l =>
      obtain ⟨c, hc, -⟩ := h.filed.single node (by rw [hcases]; exact List.mem_cons_self)
      have hnode : node = (node.1, [c]) := Prod.ext rfl hc
      have hcurrent : p.currentMovementGenerator = some c := by
        rw [hnode] at hcases
        exact currentMovementGenerator_of_cons hcases
      have hactive : c ∈ p.activeGenerators := by
        rw [activeGenerators, hcases, List.flatMap_cons, hc]
        exact List.mem_cons_self
      have hdeletes : (p.heap c).deletes = 0 :=
        h.accounted.deletes_of_owned (Nat.add_pos_right _ (holds_of_active hactive))
      obtain ⟨e, he, hinv, hnone, hkind⟩ := h.deactivateCurrent hcurrent hdeletes
      grind

theorem Invariant.insertGenerator (h : Invariant (m :: fresh) hand dying p.activeGenerators p)
    (hdefault : p.defaultGenerator.isSome) (hgen : p.generators = before ++ rest)
    (hsorted : (p.heap m).immediate = false →
      Sorted keyComp (before ++ ((p.heap m).key, [m]) :: rest)) :
    ∃ e l, p.insertGenerator m (p.heap m) before rest = some (after { p with generators := l } e) ∧
      Invariant fresh hand dying (l.flatMap Prod.snd) (after { p with generators := l } e) := by
  obtain ⟨e, he, h₁, hkind, hfirst⟩ := h.deactivateTop hdefault hgen
  have hmkind := hkind m
  rw [MotionMaster.insertGenerator, he, Option.bind_eq_bind, Option.bind_some]
  cases himm : (p.heap m).immediate with
  | true =>
    have hm : m ≠ idleGenerator := by
      rintro rfl
      rw [show (p.heap idleGenerator).immediate = false from
        congrArg MovementKind.immediate h.calm.kind] at himm
      cases himm
    obtain ⟨e', he', h₂⟩ := h₁.finalizeImmediate hm
    exact ⟨e', p.generators, he', h₂⟩
  | false =>
    have hkey : (e.heap m).key = (p.heap m).key := key_of_kind hmkind
    have hfiled : Filed
        { p.after e with generators := before ++ ((p.heap m).key, [m]) :: rest } := by
      refine ⟨hsorted himm, ?_⟩
      intro node hnode
      obtain hnode | hnode := List.mem_append.mp hnode
      · apply h₁.filed.single node
        rw [generators_after, hgen]
        exact List.mem_append_left _ hnode
      · obtain rfl | hnode := List.mem_cons.mp hnode
        · exact ⟨m, rfl, hkey.symm⟩
        · apply h₁.filed.single node
          rw [generators_after, hgen]
          exact List.mem_append_right _ hnode
    have hperm : ((before ++ ((p.heap m).key, [m]) :: rest).flatMap Prod.snd).Perm
        (m :: (p.after e).activeGenerators) := by
      rw [activeGenerators_after, activeGenerators, hgen]
      exact flatMap_insert before rest
    have himm' : ((p.after e).heap m).immediate = false :=
      (congrArg MovementKind.immediate hmkind).trans himm
    have h₂ := h₁.place hfiled hperm himm' (hfirst.imp_right fun hbefore => by
      grind [generators_after])
    have hactive : m ∈ (before ++ ((p.heap m).key, [m]) :: rest).flatMap Prod.snd :=
      hperm.mem_iff.mpr List.mem_cons_self
    obtain ⟨e', he', -, h₃⟩ := h₂.addBaseUnitState
      (h₂.accounted.deletes_of_owned (Nat.add_pos_right _ (holds_of_active hactive)))
    refine ⟨e', _, he', ?_⟩
    exact ⟨h₃.filed, h₃.accounted, h₃.registered.perm hperm.symm, h₃.calm⟩

theorem Invariant.directAddActive (h : Invariant (m :: fresh) hand dying p.activeGenerators p)
    (hdefault : p.defaultGenerator.isSome) :
    ∃ e l, p.directAddActive m = some (after { p with generators := l } e) ∧
      Invariant fresh hand dying (l.flatMap Prod.snd) (after { p with generators := l } e) := by
  have hsplit := (SortedMap.lowerBound_append keyComp p.generators (p.heap m).key).symm
  rw [MotionMaster.directAddActive, read_of_deletes h.deletes_of_fresh]
  rw [Option.bind_eq_bind, Option.bind_some]
  cases hfrom : (lowerBound keyComp p.generators (p.heap m).key).2 with
  | nil =>
    rw [hfrom] at hsplit
    simp only [hfrom]
    apply h.insertGenerator hdefault hsplit
    intro _
    have hinsert := h.filed.sorted.insert isComparator_keyComp (p.heap m).key [m] (by
        intro node rest hnode
        rw [hfrom] at hnode
        cases hnode)
    rw [hfrom] at hinsert
    exact hinsert
  | cons node rest =>
    rw [hfrom] at hsplit
    simp only [hfrom]
    split
    · rename_i hreplaces
      rw [Bool.and_eq_true, Bool.not_eq_true', Bool.not_eq_true'] at hreplaces
      apply h.replaceExisting hreplaces.1 hsplit
      exact SortedMap.eq_of_lowerBound isComparator_keyComp hfrom hreplaces.2
    · rename_i hreplaces
      apply h.insertGenerator hdefault hsplit
      intro himm
      have hbefore : keyComp (p.heap m).key node.1 = true := by
        grind
      have hinsert := h.filed.sorted.insert isComparator_keyComp (p.heap m).key [m] (by
          intro node' rest' hnode
          rw [hfrom] at hnode
          cases hnode
          exact hbefore)
      rw [hfrom] at hinsert
      exact hinsert

end MotionMaster

end EGServer.Movement
