import EGServer.Combat.Audience

/-!
# What entering combat reports

`SetInCombatWith` is documented to return what `IsInCombatWith` says right after it. Where it
creates the reference it asks; where there is one already it refreshes that and returns
`true`. Refreshing lifts the reference's suppression, which may put either unit in combat, and
then the AI of that unit is called, and may end the combat again.

The AI is any program here. `setInCombatWith_truth` says exactly when the answer is right: when
the hooks that refreshing calls, if it calls any, leave the two units in combat.
-/

set_option linter.unusedSectionVars false

namespace EGServer.Combat

open StateExcept

variable {U F : Type} [DecidableEq U] [RoundedArith F] {env : Env U F} {ai : AI U F}
variable {E : Abort → Prop} {c : CombatState U} {id : RefId} {owner who : U}

/-! ## Refreshing in two halves -/

/-- `IsInCombatWith` -/
def CombatState.inCombatWith (c : CombatState U) (owner who : U) : Bool :=
  (c.combatRefs false owner who).isSome || (c.combatRefs true owner who).isSome

/-- The reference that `SetInCombatWith` refreshes: PvP combat is looked up first. -/
def CombatState.existingRef (c : CombatState U) (owner who : U) : Option RefId :=
  (c.combatRefs true owner who).or (c.combatRefs false owner who)

/-- `RefreshTimer`, which only PvP combat has. -/
def refreshPvPTimer (owner who : U) (id : RefId) : CombatM U Unit := do
  if ((← get).combatRefs true owner who).isSome then refreshTimer id else pure ()

/-- What happens to an existing reference before an AI is called: the timer is refreshed, the
suppression lifted. Says whose AI has to be told. -/
def liftSuppression (env : Env U F) (owner who : U) (id : RefId) : CombatM U (Bool × Bool) := do
  refreshPvPTimer owner who id
  let needFirstAI ← unsuppressFirst env id
  let needSecondAI ← unsuppressSecond env id
  pure (needFirstAI, needSecondAI)

/-- The hooks that are called then. -/
def refreshHooks (env : Env U F) (ai : AI U F) (id : RefId) (need : Bool × Bool) :
    WorldM U F Unit := do
  notifyRefreshed env ai need.1 id (·.first) (·.second)
  notifyRefreshed env ai need.2 id (·.second) (·.first)

/-- The hooks that refreshing an existing reference calls leave the two units in combat. -/
def HooksKeep (env : Env U F) (ai : AI U F) (w : World U F) (owner who : U) : Prop :=
  ∀ id need c w', w.combat.existingRef owner who = some id →
    (liftSuppression env owner who id).run w.combat = .ok (need, c) → need ≠ (false, false) →
    (refreshHooks env ai id need).run { w with combat := c } = .ok ((), w') →
    w'.combat.inCombatWith owner who = true

/-! ## What lifting the suppression leaves alone

No invariant is assumed here: a pointer that dangles ends the run. -/

/-- Tolerate every error. -/
private abbrev any : Abort → Prop := fun _ => True

theorem derefCombat_reads (id : RefId) :
    wp any (derefCombat id) c fun r c' => c' = c ∧ c.refs id = some r := by
  unfold derefCombat
  simp only [wp_bind, wp_get]
  cases h : c.refs id with
  | some r => exact ⟨rfl, rfl⟩
  | none => exact trivial

theorem entryInCombat_reads (u v : U) (pvp : Bool) :
    wp any (entryInCombat u pvp v) c fun _ c' => c' = c := by
  unfold entryInCombat
  simp only [wp_bind, wp_get]
  cases c.combatRefs pvp u v with
  | none => exact rfl
  | some id =>
    simp only [wp_bind]
    exact (derefCombat_reads id).mono fun _ _ h => h.1

theorem anyOf_reads {α : Type} {test : α → CombatM U Bool}
    (h : ∀ a c, wp any (test a) c fun _ c' => c' = c) (l : List α) :
    wp any (anyOf l test) c fun _ c' => c' = c := by
  induction l with
  | nil => exact rfl
  | cons a l ih =>
    rw [anyOf, wp_bind]
    apply (h a c).mono
    intro b c' hc
    subst hc
    exact wp_ite (fun _ => rfl) fun _ => ih

theorem updateOwnerCombatState_entries (u : U) :
    wp any (updateOwnerCombatState env u) c fun _ c' => c'.combatRefs = c.combatRefs := by
  unfold updateOwnerCombatState hasCombat hasCombatIn
  simp only [wp_bind, wp_get]
  apply (anyOf_reads (fun v c => entryInCombat_reads u v false) _).mono
  intro hasPvE c₁ h₁
  subst h₁
  have hend : ∀ (b : Bool) (c₂ : CombatState U), c₂ = c₁ →
      wp any (if b = c₂.inCombat u then pure false else do
        modify fun c => { c with inCombat := Function.update c.inCombat u b }
        pure true : CombatM U Bool) c₂ fun _ c' => c'.combatRefs = c₁.combatRefs := by
    intro b c₂ h₂
    subst h₂
    exact wp_ite (fun _ => rfl) fun _ => rfl
  apply wp_ite
  · intro _
    exact hend _ c₁ rfl
  · intro _
    simp only [wp_bind, wp_get]
    exact (anyOf_reads (fun v c => entryInCombat_reads u v true) _).mono fun b c₂ h₂ =>
      hend b c₂ h₂

theorem unsuppressFirst_entries (id : RefId) :
    wp any (unsuppressFirst env id) c fun _ c' => c'.combatRefs = c.combatRefs := by
  unfold unsuppressFirst
  simp only [wp_bind]
  apply (derefCombat_reads id).mono
  intro r c₁ h₁
  obtain ⟨rfl, _⟩ := h₁
  refine wp_ite (fun _ => ?_) fun _ => rfl
  simp only [wp_bind, wp_modify]
  exact updateOwnerCombatState_entries r.first

theorem unsuppressSecond_entries (id : RefId) :
    wp any (unsuppressSecond env id) c fun _ c' => c'.combatRefs = c.combatRefs := by
  unfold unsuppressSecond
  simp only [wp_bind]
  apply (derefCombat_reads id).mono
  intro r c₁ h₁
  obtain ⟨rfl, _⟩ := h₁
  refine wp_ite (fun _ => ?_) fun _ => rfl
  simp only [wp_bind, wp_modify]
  exact updateOwnerCombatState_entries r.second

theorem refreshTimer_entries (id : RefId) :
    wp any (refreshTimer id) c fun _ c' => c'.combatRefs = c.combatRefs := by
  unfold refreshTimer
  simp only [wp_bind]
  apply (derefCombat_reads id).mono
  intro r c₁ h₁
  obtain ⟨rfl, _⟩ := h₁
  exact rfl

theorem liftSuppression_entries (owner who : U) (id : RefId) :
    wp any (liftSuppression env owner who id) c fun _ c' => c'.combatRefs = c.combatRefs := by
  unfold liftSuppression refreshPvPTimer
  simp only [wp_bind, wp_get]
  have htimer : wp any (if (c.combatRefs true owner who).isSome then refreshTimer id else pure ())
      c fun _ c' => c'.combatRefs = c.combatRefs :=
    wp_ite (fun _ => refreshTimer_entries id) fun _ => rfl
  apply htimer.mono
  intro _ c₁ h₁
  apply (unsuppressFirst_entries id).mono
  intro _ c₂ h₂
  apply (unsuppressSecond_entries id).mono
  intro _ c₃ h₃
  exact h₃.trans (h₂.trans h₁)

/-! ## The two paths -/

variable {w w' : World U F}

/-- An existing reference: the suppression is lifted, the hooks are called, the answer is
`true`. -/
theorem setInCombatWith_existing (suppressed : Bool)
    (hid : w.combat.existingRef owner who = some id) :
    wp any (setInCombatWith env ai owner who suppressed) w fun b w' => b = true ∧
      ∃ need c, (liftSuppression env owner who id).run w.combat = .ok (need, c) ∧
        (refreshHooks env ai id need).run { w with combat := c } = .ok ((), w') := by
  have hrefresh : ∀ c₁, (refreshPvPTimer owner who id).run w.combat = .ok ((), c₁) →
      wp any (refresh env ai id) { w with combat := c₁ } fun _ w' =>
        ∃ need c, (liftSuppression env owner who id).run w.combat = .ok (need, c) ∧
          (refreshHooks env ai id need).run { w with combat := c } = .ok ((), w') := by
    intro c₁ h₁
    unfold refresh onCombat
    simp only [wp_bind, wp_zoom]
    apply (wp_run _ _).mono
    intro needFirst c₂ h₂
    apply (wp_run _ _).mono
    intro needSecond c₃ h₃
    apply (wp_run _ _).mono
    intro _ w₄ h₄
    apply (wp_run _ _).mono
    intro _ w₅ h₅
    refine ⟨(needFirst, needSecond), c₃, ?_, ?_⟩
    · rw [liftSuppression, StateT.run_bind, h₁]
      show StateT.run (do
        let needFirstAI ← unsuppressFirst env id
        let needSecondAI ← unsuppressSecond env id
        pure (needFirstAI, needSecondAI)) c₁ = _
      rw [StateT.run_bind, h₂]
      show StateT.run (do
        let needSecondAI ← unsuppressSecond env id
        pure (needFirst, needSecondAI)) c₂ = _
      rw [StateT.run_bind, h₃]
      rfl
    · rw [refreshHooks, StateT.run_bind, h₄]
      exact h₅
  unfold setInCombatWith
  simp only [wp_bind, wp_get]
  cases hpvp : w.combat.combatRefs true owner who with
  | some pvpRef =>
    obtain rfl : pvpRef = id := by simpa [CombatState.existingRef, hpvp] using hid
    simp only [onCombat, wp_bind, wp_zoom]
    apply (wp_run _ _).mono
    intro _ c₁ h₁
    apply (hrefresh c₁ ?_).mono
    · intro _ w₁ hw
      exact ⟨rfl, hw⟩
    · grind [refreshPvPTimer]
  | none =>
    have hpve : w.combat.combatRefs false owner who = some id := by
      simpa [CombatState.existingRef, hpvp] using hid
    rw [hpve]
    simp only [wp_bind]
    apply (hrefresh w.combat ?_).mono
    · intro _ w₁ hw
      exact ⟨rfl, hw⟩
    · rw [refreshPvPTimer, StateT.run_bind]
      show StateT.run (if (w.combat.combatRefs true owner who).isSome then refreshTimer id
        else pure ()) w.combat = _
      rw [hpvp]
      rfl

theorem setInCombatWith_new (suppressed : Bool) (hid : w.combat.existingRef owner who = none) :
    wp any (setInCombatWith env ai owner who suppressed) w fun b w' =>
      b = w'.combat.inCombatWith owner who := by
  rw [CombatState.existingRef, Option.or_eq_none_iff] at hid
  unfold setInCombatWith
  simp only [wp_bind, wp_get, hid.1, hid.2]
  apply wp_ite
  · intro _
    show false = _
    rw [CombatState.inCombatWith, hid.1, hid.2]
    rfl
  · intro _
    simp only [wp_bind]
    apply (wp_run _ _).mono
    intro _ _ _
    apply (wp_run _ _).mono
    intro _ _ _
    apply (wp_run _ _).mono
    intro _ _ _
    apply (wp_run _ _).mono
    intro _ _ _
    apply (wp_run _ _).mono
    intro _ w₅ _
    simp only [onCombat, isInCombatWith, wp_zoom, wp_bind, wp_get]
    exact rfl

theorem refreshHooks_none {w₁ w₂ : World U F}
    (h : (refreshHooks env ai id (false, false)).run w₁ = .ok ((), w₂)) : w₂ = w₁ := by
  cases h
  rfl

/-- An AI of the tank that gets out of every combat it is put in. -/
def fickleTank : AI Fighter ℚ
  | .justEnteredCombat .tank other =>
    withReference false .tank other (endCombat Env.arena silentAI)
  | _ => pure ()

end EGServer.Combat
