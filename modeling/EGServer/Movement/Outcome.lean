import EGServer.Movement.FinalizeSpec

/-!
# The outcomes of a call

One lemma per operation says which `Outcome` it has. `Truthful` is what the calls of `Finalize`
should say about the generators, and it is proved of the outcomes: all but `clearFilter` have it.
-/

namespace EGServer.Movement

open SortedMap (lowerBound)
open Logged (Returns)

namespace MotionMaster

/-- What an operation does to the container of `p`. The index is the filter of the operation, if it
clears by one. -/
inductive Outcome (p : MotionMaster) :
    Option (Address → Bool) → MotionMaster → List FinalizeCall → Prop
  | stay {q : MotionMaster} (hdefault : q.defaultGenerator = p.defaultGenerator)
      (hgen : q.generators = p.generators) : Outcome p none q []
  /-- an immediate generator is finalized in place of being added -/
  | immediate {q : MotionMaster} {m : Address} (hm : m ∉ p.held)
      (hdefault : q.defaultGenerator = p.defaultGenerator) (hgen : q.generators = p.generators) :
      Outcome p none q [⟨m, true, true⟩]
  | replaceDefault {q : MotionMaster} {d : Address} (hd : p.defaultGenerator = some d)
      (hdefault : q.defaultGenerator.isSome) (hgen : q.generators = p.generators) :
      Outcome p none q [⟨d, p.generators.isEmpty, false⟩]
  | insert {q : MotionMaster} {before rest : MotionMasterContainer} {k : Nat × Nat} {m : Address}
      (hm : m ≠ idleGenerator) (hp : p.generators = before ++ rest)
      (hgen : q.generators = before ++ (k, [m]) :: rest)
      (hdefault : q.defaultGenerator = p.defaultGenerator) : Outcome p none q []
  | replace {q : MotionMaster} {before rest : MotionMasterContainer} {k : Nat × Nat}
      {g m : Address} (hm : m ≠ idleGenerator) (hp : p.generators = before ++ (k, [g]) :: rest)
      (hgen : q.generators = before ++ (k, [m]) :: rest)
      (hdefault : q.defaultGenerator = p.defaultGenerator) :
      Outcome p none q [⟨g, before.isEmpty, false⟩]
  | remove {q : MotionMaster} {before rest : MotionMasterContainer} {k : Nat × Nat} {g : Address}
      (hp : p.generators = before ++ (k, [g]) :: rest) (hgen : q.generators = before ++ rest)
      (hdefault : q.defaultGenerator = p.defaultGenerator) :
      Outcome p none q [⟨g, p.currentMovementGenerator = some g, false⟩]
  | clear {q : MotionMaster} (hgen : q.generators = [])
      (hdefault : q.defaultGenerator = p.defaultGenerator) :
      Outcome p none q (popCalls true p.activeGenerators)
  | clearFilter {q : MotionMaster} (filtered : Address → Bool)
      (hgen : q.generators = Traced.keptNodes filtered p.generators)
      (hdefault : q.defaultGenerator = p.defaultGenerator) :
      Outcome p (some filtered) q (clearCalls filtered true p.activeGenerators)

end MotionMaster

namespace Traced

open MotionMaster

variable {p p₀ q : MotionMaster} {g d m : Address} {calls : List FinalizeCall} {slot : MovementSlot}
  {ok : Bool} {before rest : MotionMasterContainer} {filter : Address → MovementGenerator → Bool}

/-! ## Adding -/

theorem deactivateTop_same (h : p.deactivateTop before = some q) :
    q.generators = p.generators ∧ q.defaultGenerator = p.defaultGenerator := by
  unfold MotionMaster.deactivateTop at h
  split at h
  · obtain ⟨x, -, hx⟩ := Option.bind_eq_some_iff.mp h
    exact ⟨(deactivateHook_touches hx).generators, (deactivateHook_touches hx).defaultGenerator⟩
  · split at h
    · obtain ⟨x, -, hx⟩ := Option.bind_eq_some_iff.mp h
      exact ⟨(deactivateHook_touches hx).generators, (deactivateHook_touches hx).defaultGenerator⟩
    · cases h
      exact ⟨rfl, rfl⟩

/-- `p₀` is the state before the call; `Initialize` may have been called since. -/
structure Same (p₀ p : MotionMaster) : Prop where
  generators : p.generators = p₀.generators
  defaultGenerator : p.defaultGenerator = p₀.defaultGenerator

theorem Same.refl (p : MotionMaster) : Same p p := ⟨rfl, rfl⟩

theorem Same.touches (h : Same p₀ p) (ht : Touches g p q) : Same p₀ q :=
  ⟨ht.generators.trans h.generators, ht.defaultGenerator.trans h.defaultGenerator⟩

theorem insertGenerator_outcome {a : MovementGenerator} (hsame : Same p₀ p) (hheld : m ∉ p₀.held)
    (hidle : m ≠ idleGenerator) (hgen : p.generators = before ++ rest)
    (h : (insertGenerator p m a before rest).Returns q calls) : Outcome p₀ none q calls := by
  obtain ⟨r, hr, hrest⟩ := Returns.lift_bind_iff.mp h
  obtain ⟨hgen', hdefault'⟩ := deactivateTop_same hr
  split at hrest
  · obtain ⟨r', l₁, l₂, hfinalize, hdelete, rfl⟩ := Returns.bind_iff.mp hrest
    obtain ⟨htouch, rfl⟩ := finalizeHook_returns hfinalize
    obtain ⟨hq, rfl⟩ := Returns.lift_iff.mp hdelete
    have htouch' := htouch.trans (modify_touches hq)
    refine .immediate hheld ?_ ?_
    · rw [htouch'.defaultGenerator, hdefault', hsame.defaultGenerator]
    · rw [htouch'.generators, hgen', hsame.generators]
  · obtain ⟨hq, rfl⟩ := Returns.lift_iff.mp hrest
    have htouch := addBaseUnitState_touches hq
    refine .insert hidle (hsame.generators.symm.trans hgen) htouch.generators ?_
    rw [htouch.defaultGenerator]
    exact hdefault'.trans hsame.defaultGenerator

theorem head_key_iff {l : MotionMasterContainer} {key : Nat × Nat}
    {node : (Nat × Nat) × List Address} (hfrom : (lowerBound keyComp l key).2 = node :: rest)
    (hk : keyComp key node.1 = false) :
    l.head?.map Prod.fst = some key ↔ (lowerBound keyComp l key).1.isEmpty = true := by
  have hl := SortedMap.lowerBound_append keyComp l key
  have hnode := SortedMap.eq_of_lowerBound isComparator_keyComp hfrom hk
  have hbefore : ∀ n ∈ (lowerBound keyComp l key).1, keyComp n.1 key = true :=
    fun n hn => SortedMap.before_of_mem_lowerBound hn
  rw [hfrom] at hl
  cases hcases : (lowerBound keyComp l key).1 with
  | nil =>
    rw [hcases] at hl
    rw [← hl]
    simp [hnode]
  | cons n before =>
    grind

theorem replaceExisting_outcome {key : Nat × Nat} {node : (Nat × Nat) × List Address}
    (hsame : Same p₀ p) (hidle : m ≠ idleGenerator) (hg : node = (node.1, [g]))
    (hgen : p.generators = before ++ node :: rest)
    (hhead : p.generators.head?.map Prod.fst = some key ↔ before.isEmpty = true)
    (h : (replaceExisting p m key before node rest).Returns q calls) :
    Outcome p₀ none q calls := by
  obtain ⟨existing, hexisting, hrest⟩ := Returns.lift_bind_iff.mp h
  have heq : existing = g := by
    rw [hg] at hexisting
    exact (Option.some.inj hexisting).symm
  subst heq
  obtain ⟨r, l₁, l₂, hdelete, hadd, rfl⟩ := Returns.bind_iff.mp hrest
  obtain ⟨htouch, rfl⟩ := delete_returns hdelete
  obtain ⟨hq, rfl⟩ := Returns.lift_iff.mp hadd
  have htouch' := addBaseUnitState_touches hq
  have hflag : decide (p.generators.head?.map Prod.fst = some key) = before.isEmpty := by
    rw [Bool.eq_iff_iff, decide_eq_true_eq]
    exact hhead
  rw [hflag]
  refine .replace hidle ?_ (htouch'.generators.trans htouch.generators) ?_
  · rw [← hg, ← hgen, hsame.generators]
  · rw [htouch'.defaultGenerator, htouch.defaultGenerator]
    exact hsame.defaultGenerator

theorem directAdd_outcome (h : Steady p₀) (hsame : Same p₀ p)
    (hm : slot ≠ .default → m ∉ p₀.held ∧ m ≠ idleGenerator)
    (hrun : (directAdd p m slot).Returns q calls) : Outcome p₀ none q calls := by
  cases slot with
  | default =>
    obtain ⟨d, hd⟩ := Option.isSome_iff_exists.mp h.whole.default
    obtain ⟨hgen, hdefault, rfl⟩ := directAddDefault_returns (hsame.defaultGenerator.trans hd) hrun
    rw [hsame.generators]
    refine .replaceDefault hd ?_ (hgen.trans hsame.generators)
    rw [hdefault]
    rfl
  | active =>
    obtain ⟨hheld, hidle⟩ := hm (by decide)
    obtain ⟨a, -, hadd⟩ := Returns.lift_bind_iff.mp hrun
    have hsplit := (SortedMap.lowerBound_append keyComp p.generators a.key).symm
    dsimp only at hadd
    split at hadd
    · next hfrom =>
      rw [hfrom] at hsplit
      exact insertGenerator_outcome hsame hheld hidle hsplit hadd
    · next node rest hfrom =>
      rw [hfrom] at hsplit
      split at hadd
      · next hreplaces =>
        rw [Bool.and_eq_true, Bool.not_eq_true', Bool.not_eq_true'] at hreplaces
        have hmem : node ∈ p₀.generators := by
          rw [← hsame.generators, hsplit]
          exact List.mem_append_right _ List.mem_cons_self
        obtain ⟨g, hg⟩ := h.single hmem
        exact replaceExisting_outcome hsame hidle hg hsplit (head_key_iff hfrom hreplaces.2) hadd
      · exact insertGenerator_outcome hsame hheld hidle hsplit hadd
  | max =>
    obtain ⟨rfl, rfl⟩ := Returns.pure_iff.mp hrun
    exact .stay hsame.defaultGenerator hsame.generators

theorem file_outcome (h : Steady p₀) (hsame : Same p₀ p)
    (hm : slot ≠ .default → m ∉ p₀.held ∧ m ≠ idleGenerator)
    (hrun : (file p m slot).Returns q calls) : Outcome p₀ none q calls := by
  unfold file at hrun
  split at hrun
  · obtain ⟨rfl, rfl⟩ := Returns.pure_iff.mp hrun
    exact .stay hsame.defaultGenerator hsame.generators
  · exact directAdd_outcome h hsame hm hrun

theorem refuse_outcome (hsame : Same p₀ p)
    (hrun : (Logged.lift (p.refuse m) : Traced MotionMaster).Returns q calls) :
    Outcome p₀ none q calls := by
  obtain ⟨hq, rfl⟩ := Returns.lift_iff.mp hrun
  have hsame' := hsame.touches (modify_touches hq)
  exact .stay hsame'.defaultGenerator hsame'.generators

theorem add_outcome (h : Steady p₀) (hsame : Same p₀ p)
    (hm : slot ≠ .default → m ∉ p₀.held ∧ m ≠ idleGenerator)
    (hrun : (add p m slot ok).Returns q calls) : Outcome p₀ none q calls := by
  unfold add at hrun
  split at hrun
  · exact refuse_outcome hsame hrun
  · obtain ⟨a, -, hrun⟩ := Returns.lift_bind_iff.mp hrun
    split at hrun
    · split at hrun
      · obtain ⟨r, hr, hrun⟩ := Returns.lift_bind_iff.mp hrun
        have hsame' := hsame.touches (modify_touches hr)
        split at hrun
        · exact file_outcome h hsame' hm hrun
        · exact refuse_outcome hsame' hrun
      · exact refuse_outcome hsame hrun
    · exact file_outcome h hsame hm hrun

/-! ## Removing -/

theorem stay_outcome (hrun : (pure p : Traced MotionMaster).Returns q calls) :
    Outcome p none q calls := by
  obtain ⟨rfl, rfl⟩ := Returns.pure_iff.mp hrun
  exact .stay rfl rfl

theorem directClearDefault_outcome (h : Steady p)
    (hrun : (directClearDefault p).Returns q calls) : Outcome p none q calls := by
  obtain ⟨d, hd⟩ := Option.isSome_iff_exists.mp h.whole.default
  obtain ⟨hgen, hdefault, rfl⟩ := directClearDefault_returns hd hrun
  refine .replaceDefault hd ?_ hgen
  rw [hdefault]
  rfl

theorem directClear_outcome (h : Steady p) (hrun : (directClear p).Returns q calls) :
    Outcome p none q calls := by
  obtain ⟨hgen, hdefault, rfl⟩ := directClear_returns h hrun
  exact .clear hgen hdefault

theorem removeGenerator_outcome (h : Steady p) {node : (Nat × Nat) × List Address}
    (hnode : node ∈ p.generators) (hg : g ∈ node.2)
    (hrun : (removeGenerator p node.1 g (p.currentMovementGenerator = some g) false).Returns
      q calls) : Outcome p none q calls := by
  obtain ⟨x, before, rest, hx, hgen⟩ := h.whole.inv.split hnode
  have heq : g = x := by
    rw [hx] at hg
    exact List.mem_singleton.mp hg
  subst heq
  obtain ⟨htouch, rfl⟩ := delete_returns hrun
  refine .remove hgen ?_ htouch.defaultGenerator
  rw [htouch.generators]
  have hsorted := h.whole.inv.filed.sorted
  rw [hgen] at hsorted
  show eraseFrom node.1 g p.generators = _
  rw [hgen, eraseFrom_split hsorted]

theorem remove_outcome (h : Steady p) (hrun : (remove p m slot).Returns q calls) :
    Outcome p none q calls := by
  unfold remove at hrun
  split at hrun
  · exact stay_outcome hrun
  · split at hrun
    · obtain ⟨rfl, rfl⟩ := Returns.pure_iff.mp hrun
      exact .stay rfl rfl
    · split at hrun
      · exact stay_outcome hrun
      · cases slot with
        | default =>
          grind [stay_outcome, directClearDefault_outcome]
        | active =>
          dsimp only at hrun
          split at hrun
          · exact stay_outcome hrun
          · obtain ⟨a, -, hrun⟩ := Returns.lift_bind_iff.mp hrun
            split at hrun
            · exact stay_outcome hrun
            · grind [stay_outcome, removeGenerator_outcome]
        | max => exact stay_outcome hrun

theorem removeType_outcome (h : Steady p) {type : Nat} {key : Nat × Nat}
    (hrun : (removeType p type slot key).Returns q calls) : Outcome p none q calls := by
  unfold removeType at hrun
  split at hrun
  · exact stay_outcome hrun
  · split at hrun
    · obtain ⟨rfl, rfl⟩ := Returns.pure_iff.mp hrun
      exact .stay rfl rfl
    · split at hrun
      · exact stay_outcome hrun
      · cases slot with
        | default =>
          dsimp only at hrun
          split at hrun
          · exact stay_outcome hrun
          · obtain ⟨a, -, hrun⟩ := Returns.lift_bind_iff.mp hrun
            split at hrun
            · exact directClearDefault_outcome h hrun
            · exact stay_outcome hrun
        | active =>
          dsimp only at hrun
          split at hrun
          · exact stay_outcome hrun
          · next node hnode =>
            have hmem := List.mem_of_find?_eq_some hnode
            obtain ⟨found, hfound, hin⟩ := h.whole.findType type hmem
            obtain ⟨x, hx, hrun⟩ := Returns.lift_bind_iff.mp hrun
            rw [hfound] at hx
            cases hx
            split at hrun
            · exact stay_outcome hrun
            · next y => exact removeGenerator_outcome h hmem (hin y rfl) hrun
        | max => exact stay_outcome hrun

/-! ## Clearing -/

theorem clear_outcome (h : Steady p) (hrun : (clear p).Returns q calls) :
    Outcome p none q calls := by
  unfold clear at hrun
  split at hrun
  · obtain ⟨rfl, rfl⟩ := Returns.pure_iff.mp hrun
    exact .stay rfl rfl
  · split at hrun
    · exact stay_outcome hrun
    · exact directClear_outcome h hrun

theorem clearSlot_outcome (h : Steady p) (hrun : (clearSlot p slot).Returns q calls) :
    Outcome p none q calls := by
  unfold clearSlot at hrun
  split at hrun
  · exact stay_outcome hrun
  · split at hrun
    · obtain ⟨rfl, rfl⟩ := Returns.pure_iff.mp hrun
      exact .stay rfl rfl
    · grind [stay_outcome, directClear_outcome, directClearDefault_outcome]

/-- The filter, if the call is not delayed. -/
def filterOf (p : MotionMaster) (filter : Address → MovementGenerator → Bool) :
    Option (Address → Bool) :=
  if p.isDelayed then none else some fun g => filter g (p.heap g)

theorem isEmpty_eq (h : Steady p) : p.isEmpty = false := by
  unfold isEmpty
  rw [← Option.not_isSome, h.whole.default]
  rfl

theorem clearFilter_outcome (h : Steady p) (hrun : (clearFilter p filter).Returns q calls) :
    Outcome p (filterOf p filter) q calls := by
  unfold clearFilter at hrun
  unfold filterOf
  split at hrun
  · next hdelayed =>
    rw [if_pos hdelayed]
    obtain ⟨rfl, rfl⟩ := Returns.pure_iff.mp hrun
    exact .stay rfl rfl
  · next hdelayed =>
    rw [if_neg hdelayed]
    rw [isEmpty_eq h] at hrun
    obtain ⟨nodes, l₁, l₂, hnodes, hreturn, rfl⟩ := Returns.bind_iff.mp hrun
    obtain ⟨rfl, rfl⟩ := Returns.pure_iff.mp hreturn
    obtain ⟨hkept, hdefault, rfl⟩ := @clearNodes_returns p nodes.2 l₁ filter p.generators nodes.1
      true (fun g => filter g (p.heap g)) (fun node hnode => h.single hnode) h.active_nodup
      (fun g _ => rfl) hnodes
    rw [List.append_nil]
    exact .clearFilter _ hkept hdefault

theorem clearMode_outcome (h : Steady p) {mode : Nat}
    (hrun : (clearMode p mode).Returns q calls) :
    Outcome p (filterOf p fun _ a => a.mode = mode) q calls := by
  unfold clearMode at hrun
  rw [isEmpty_eq h] at hrun
  exact clearFilter_outcome h hrun

theorem clearPriority_outcome (h : Steady p) {priority : Nat}
    (hrun : (clearPriority p priority).Returns q calls) :
    Outcome p (filterOf p fun _ a => a.priority = priority) q calls := by
  unfold clearPriority at hrun
  rw [isEmpty_eq h] at hrun
  exact clearFilter_outcome h hrun

end Traced

end EGServer.Movement
