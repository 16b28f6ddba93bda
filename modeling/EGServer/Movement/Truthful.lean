import EGServer.Movement.Outcome

/-!
# The truth about a generator

What the calls of `Finalize` in an operation should say (`Truthful`), and that they say it, with one
exception: a filter that takes the two first generators out (`ClearsTwo`). The second one was
waiting, and is told that it was active, since the first is gone by then.
-/

namespace EGServer.Movement

namespace MotionMaster

variable {p q : MotionMaster} {g d : Address} {ended : Option Address} {calls : List FinalizeCall}
  {cleared : Option (Address → Bool)} {filtered : Address → Bool}
  {before rest : MotionMasterContainer} {k : Nat × Nat}

/-- The operation led from `p` to `q`, and `ended` is the generator whose `Update` returned
false. -/
structure Truthful (p q : MotionMaster) (ended : Option Address) (calls : List FinalizeCall) :
    Prop where
  /-- one call for each generator that is removed -/
  once : ∀ g ∈ p.held, (calls.map FinalizeCall.movement).count g ≤ 1 ∧
    (g ∉ q.held → (calls.map FinalizeCall.movement).count g = 1)
  active : ∀ call ∈ calls, call.movement ∈ p.held →
    (call.active = true ↔ p.currentMovementGenerator = some call.movement)
  inform : ∀ call ∈ calls, call.movement ∈ p.held →
    (call.movementInform = true ↔ ended = some call.movement)
  /-- at most one call has `active` -/
  single : (calls.filter FinalizeCall.active).length ≤ 1

/-- A filter takes out the two first generators. -/
def ClearsTwo (p : MotionMaster) (filtered : Address → Bool) : Prop :=
  ∃ g g' rest, p.activeGenerators = g :: g' :: rest ∧ filtered g = true ∧ filtered g' = true

/-! ## The current generator -/

theorem mem_held_of_active (h : g ∈ p.activeGenerators) : g ∈ p.held := List.mem_append_right _ h

theorem Steady.current_of_active (h : Steady p) {rest : List Address}
    (hactive : p.activeGenerators = g :: rest) : p.currentMovementGenerator = some g := by
  cases hgen : p.generators with
  | nil =>
    rw [activeGenerators, hgen] at hactive
    cases hactive
  | cons node nodes =>
    grind [currentMovementGenerator_of_cons, activeGenerators, List.mem_cons_self, Steady.single]

theorem Steady.current_eq_default_iff (h : Steady p) (hd : p.defaultGenerator = some d) :
    p.generators.isEmpty = true ↔ p.currentMovementGenerator = some d := by
  cases hgen : p.generators with
  | nil =>
    rw [currentMovementGenerator_of_nil hgen, hd]
    exact ⟨fun _ => rfl, fun _ => rfl⟩
  | cons node rest =>
    obtain ⟨x, hx⟩ := @Steady.single _ h node (by rw [hgen]; exact List.mem_cons_self)
    rw [hx] at hgen
    have hmem : x ∈ p.activeGenerators := by
      rw [activeGenerators, hgen]
      exact List.mem_cons_self
    have hne : x ≠ d := fun heq => h.default_notMem hd (heq ▸ hmem)
    rw [currentMovementGenerator_of_cons hgen]
    simp [hne]

theorem Steady.current_of_split (h : Steady p) (hp : p.generators = before ++ (k, [g]) :: rest) :
    before.isEmpty = true ↔ p.currentMovementGenerator = some g := by
  cases before with
  | nil => exact ⟨fun _ => currentMovementGenerator_of_cons hp, fun _ => rfl⟩
  | cons node before =>
    obtain ⟨x, hx⟩ := @Steady.single _ h node (by rw [hp]; exact List.mem_cons_self)
    rw [hx] at hp
    have hnodup := h.active_nodup
    rw [activeGenerators, hp, List.cons_append, List.flatMap_cons] at hnodup
    have hne : x ≠ g := by
      grind
    rw [currentMovementGenerator_of_cons hp]
    simp [hne]

/-! ## The calls of the loops -/

theorem map_popCalls (active : Bool) (l : List Address) :
    (popCalls active l).map FinalizeCall.movement = l := by
  induction l generalizing active with
  | nil => rfl
  | cons g rest ih =>
    rw [popCalls, List.map_cons, ih]

theorem of_mem_popCalls {call : FinalizeCall} {l : List Address} (h : call ∈ popCalls false l) :
    call.active = false ∧ call.movementInform = false := by
  induction l with
  | nil => cases h
  | cons g rest ih =>
    rcases List.mem_cons.mp h with rfl | h
    · exact ⟨rfl, rfl⟩
    · exact ih h

theorem map_clearCalls (top : Bool) (l : List Address) :
    (clearCalls filtered top l).map FinalizeCall.movement = l.filter filtered := by
  induction l generalizing top with
  | nil => rfl
  | cons g rest ih =>
    grind [clearCalls]

theorem inform_of_mem_clearCalls {call : FinalizeCall} {top : Bool} {l : List Address}
    (h : call ∈ clearCalls filtered top l) : call.movementInform = false := by
  induction l generalizing top with
  | nil => cases h
  | cons g rest ih =>
    rw [clearCalls] at h
    split at h
    · rcases List.mem_cons.mp h with rfl | h
      · rfl
      · exact ih h
    · exact ih h

theorem active_of_mem_clearCalls {call : FinalizeCall} {l : List Address}
    (h : call ∈ clearCalls filtered false l) : call.active = false := by
  induction l with
  | nil => cases h
  | cons g rest ih =>
    rw [clearCalls] at h
    split at h
    · rcases List.mem_cons.mp h with rfl | h
      · rfl
      · exact ih h
    · exact ih h

/-! ## The outcomes are truthful -/

theorem truthful_of_nodup (hnodup : (calls.map FinalizeCall.movement).Nodup)
    (hremoved : ∀ g ∈ p.held, g ∉ q.held → g ∈ calls.map FinalizeCall.movement)
    (hactive : ∀ call ∈ calls,
      (call.active = true ↔ p.currentMovementGenerator = some call.movement))
    (hinform : ∀ call ∈ calls, (call.movementInform = true ↔ ended = some call.movement)) :
    Truthful p q ended calls := by
  refine ⟨?_, fun call hcall _ => hactive call hcall, fun call hcall _ => hinform call hcall, ?_⟩
  · grind
  · have hsub : ((calls.filter FinalizeCall.active).map FinalizeCall.movement).Nodup :=
      hnodup.sublist (List.filter_sublist.map _)
    have hcurrent : ∀ call ∈ calls.filter FinalizeCall.active,
        p.currentMovementGenerator = some call.movement := by
      grind
    cases hcases : calls.filter FinalizeCall.active with
    | nil => exact Nat.zero_le 1
    | cons a l =>
      cases l with
      | nil => exact Nat.le_refl 1
      | cons b l =>
        rw [hcases] at hsub hcurrent
        have ha := hcurrent a List.mem_cons_self
        have hb := hcurrent b (List.mem_cons_of_mem _ List.mem_cons_self)
        have heq : a.movement = b.movement := Option.some.inj (ha.symm.trans hb)
        have hnot := (List.nodup_cons.mp hsub).1
        rw [heq] at hnot
        exact absurd List.mem_cons_self hnot

theorem truthful_of_call {active movementInform : Bool}
    (hremoved : ∀ x ∈ p.held, x ∉ q.held → x = g)
    (hactive : active = true ↔ p.currentMovementGenerator = some g)
    (hinform : movementInform = true ↔ ended = some g) :
    Truthful p q ended [⟨g, active, movementInform⟩] := by
  apply truthful_of_nodup
  · exact List.nodup_singleton g
  · intro x hx hq
    exact List.mem_singleton.mpr (hremoved x hx hq)
  · intro call hcall
    rw [List.mem_singleton.mp hcall]
    exact hactive
  · intro call hcall
    rw [List.mem_singleton.mp hcall]
    exact hinform

theorem truthful_nil (h : ∀ g ∈ p.held, g ∈ q.held) : Truthful p q ended [] := by
  refine ⟨?_, ?_, ?_, Nat.zero_le 1⟩
  · intro g hg
    exact ⟨Nat.zero_le 1, fun hq => absurd (h g hg) hq⟩
  · intro call hcall
    cases hcall
  · intro call hcall
    cases hcall

theorem held_congr (hdefault : q.defaultGenerator = p.defaultGenerator)
    (hgen : q.generators = p.generators) : q.held = p.held := by
  unfold held activeGenerators
  rw [hdefault, hgen]

theorem active_of_removed (hdefault : q.defaultGenerator = p.defaultGenerator)
    (hg : g ∈ p.held) (hq : g ∉ q.held) : g ∈ p.activeGenerators ∧ g ∉ q.activeGenerators := by
  unfold held at hg hq
  grind

theorem Steady.truthful_popCalls (h : Steady p) (hdefault : q.defaultGenerator = p.defaultGenerator) :
    Truthful p q none (popCalls true p.activeGenerators) := by
  apply truthful_of_nodup
  · rw [map_popCalls]
    exact h.active_nodup
  · intro g hg hq
    rw [map_popCalls]
    exact (active_of_removed hdefault hg hq).1
  · intro call hcall
    cases hactive : p.activeGenerators with
    | nil =>
      rw [hactive] at hcall
      cases hcall
    | cons g rest =>
      have hnodup := h.active_nodup
      rw [hactive] at hcall hnodup
      rw [h.current_of_active hactive]
      rcases List.mem_cons.mp hcall with rfl | hcall
      · exact ⟨fun _ => rfl, fun _ => rfl⟩
      · grind [of_mem_popCalls, map_popCalls]
  · intro call hcall
    cases hactive : p.activeGenerators with
    | nil =>
      rw [hactive] at hcall
      cases hcall
    | cons g rest =>
      rw [hactive] at hcall
      rcases List.mem_cons.mp hcall with rfl | hcall
      · simp
      · rw [(of_mem_popCalls hcall).2]
        simp

/-- The flags of `_DirectClear(filter)`: right, unless the second generator goes with the first. -/
theorem clearCalls_active_iff (h : Steady p) (hno : ¬ClearsTwo p filtered) {call : FinalizeCall}
    (hcall : call ∈ clearCalls filtered true p.activeGenerators) :
    call.active = true ↔ p.currentMovementGenerator = some call.movement := by
  cases hactive : p.activeGenerators with
  | nil =>
    rw [hactive] at hcall
    cases hcall
  | cons g rest =>
    have hnodup := h.active_nodup
    rw [hactive] at hcall hnodup
    have hnotMem := (List.nodup_cons.mp hnodup).1
    rw [h.current_of_active hactive]
    -- a call for another generator than the first, which is not active
    have hother : ∀ l : List Address, l.Sublist rest → call ∈ clearCalls filtered false l →
        (call.active = true ↔ some g = some call.movement) := by
      intro l hl hmem
      have hin : call.movement ∈ l := by
        have hmap : call.movement ∈ (clearCalls filtered false l).map FinalizeCall.movement :=
          List.mem_map_of_mem hmem
        rw [map_clearCalls] at hmap
        exact (List.mem_filter.mp hmap).1
      grind [active_of_mem_clearCalls]
    rw [clearCalls] at hcall
    split at hcall
    · next hg =>
      rcases List.mem_cons.mp hcall with rfl | hcall
      · exact ⟨fun _ => rfl, fun _ => rfl⟩
      · cases rest with
        | nil => cases hcall
        | cons g' rest =>
          rw [clearCalls] at hcall
          split at hcall
          · next hg' => exact absurd ⟨g, g', rest, hactive, hg, hg'⟩ hno
          · exact hother rest (List.sublist_cons_self _ _) hcall
    · exact hother rest (List.Sublist.refl _) hcall

theorem Steady.truthful_clearFilter_iff (h : Steady p)
    (hgen : q.generators = Traced.keptNodes filtered p.generators)
    (hdefault : q.defaultGenerator = p.defaultGenerator) :
    Truthful p q none (clearCalls filtered true p.activeGenerators) ↔ ¬ClearsTwo p filtered := by
  constructor
  · rintro htruthful ⟨g, g', rest, hactive, hg, hg'⟩
    have hnodup := h.active_nodup
    have hcall : (⟨g', true, false⟩ : FinalizeCall) ∈
        clearCalls filtered true p.activeGenerators := by
      rw [hactive, clearCalls, if_pos hg, clearCalls, if_pos hg']
      exact List.mem_cons_of_mem _ List.mem_cons_self
    have hmem : g' ∈ p.held := by
      apply mem_held_of_active
      rw [hactive]
      exact List.mem_cons_of_mem _ List.mem_cons_self
    have hcurrent := (htruthful.active _ hcall hmem).mp rfl
    rw [h.current_of_active hactive] at hcurrent
    cases hcurrent
    rw [hactive] at hnodup
    exact (List.nodup_cons.mp hnodup).1 List.mem_cons_self
  · intro hno
    apply truthful_of_nodup
    · rw [map_clearCalls]
      exact h.active_nodup.sublist List.filter_sublist
    · intro g hg hq
      obtain ⟨hactive, hgone⟩ := active_of_removed hdefault hg hq
      rw [map_clearCalls]
      refine List.mem_filter.mpr ⟨hactive, ?_⟩
      -- a generator that the filter does not take stays in its node
      by_contra hstay
      apply hgone
      obtain ⟨node, hnode, hmem⟩ := List.mem_flatMap.mp hactive
      refine List.mem_flatMap.mpr ⟨node, ?_, hmem⟩
      rw [hgen]
      refine List.mem_filter.mpr ⟨hnode, ?_⟩
      rw [Bool.not_eq_true', List.all_eq_false]
      exact ⟨g, hmem, hstay⟩
    · intro call hcall
      exact clearCalls_active_iff h hno hcall
    · intro call hcall
      rw [inform_of_mem_clearCalls hcall]
      simp

/-- **The calls of an operation tell the truth**, unless it takes out the two first generators by a
filter. -/
theorem Outcome.truthful_iff (h : Steady p) (ho : Outcome p cleared q calls) :
    Truthful p q none calls ↔ ∀ filtered, cleared = some filtered → ¬ClearsTwo p filtered := by
  have hfree : ∀ {c : List FinalizeCall}, Truthful p q none c →
      (Truthful p q none c ↔
        ∀ filtered, (none : Option (Address → Bool)) = some filtered → ¬ClearsTwo p filtered) :=
    fun ht => ⟨fun _ _ heq => (by cases heq), fun _ => ht⟩
  have hfalse : ∀ g : Address, false = true ↔ (none : Option Address) = some g := by simp
  cases ho with
  | stay hdefault hgen =>
    refine hfree (truthful_nil ?_)
    intro g hg
    rw [held_congr hdefault hgen]
    exact hg
  | @immediate _ m hm hdefault hgen =>
    refine hfree ⟨?_, ?_, ?_, Nat.le_refl 1⟩
    · grind [held_congr]
    · intro call hcall hheld
      rw [List.mem_singleton.mp hcall] at hheld
      exact absurd hheld hm
    · intro call hcall hheld
      rw [List.mem_singleton.mp hcall] at hheld
      exact absurd hheld hm
  | @replaceDefault _ d hd hdefault hgen =>
    refine hfree (truthful_of_call ?_ (h.current_eq_default_iff hd)
      (hfalse d))
    intro x hx hq
    rcases List.mem_append.mp hx with hx | hx
    · rw [hd] at hx
      exact List.mem_singleton.mp hx
    · exfalso
      apply hq
      apply mem_held_of_active
      rw [activeGenerators, hgen]
      exact hx
  | @insert _ before rest k m hm hp hgen hdefault =>
    grind [activeGenerators, held, truthful_nil]
  | @replace _ before rest k g m hm hp hgen hdefault =>
    refine hfree (truthful_of_call ?_ (h.current_of_split hp) (hfalse g))
    intro x hx hq
    obtain ⟨hactive, hgone⟩ := active_of_removed hdefault hx hq
    grind [activeGenerators]
  | @remove _ before rest k g hp hgen hdefault =>
    refine hfree (truthful_of_call ?_ decide_eq_true_iff (hfalse g))
    intro x hx hq
    obtain ⟨hactive, hgone⟩ := active_of_removed hdefault hx hq
    grind [activeGenerators]
  | clear hgen hdefault => exact hfree (h.truthful_popCalls hdefault)
  | clearFilter filtered hgen hdefault =>
    rw [h.truthful_clearFilter_iff hgen hdefault]
    grind

end MotionMaster

end EGServer.Movement
