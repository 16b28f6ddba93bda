import EGServer.Combat.CombatSpec
import EGServer.Combat.ThreatLifetime

/-!
# The joint invariant, and what the AI is promised

`WorldInv` ties the two managers together: both halves are well formed, every threat
reference is backed by a combat reference, and no registered AI update is left over. When
`strict`, it also says that every state handed to an AI so far was consistent.

An AI may call back into the managers, so it is specified by a contract: shown a
consistent world it leaves one behind, keeps the threat as it is, and only adds combat.
-/

set_option linter.unusedSectionVars false

namespace EGServer.Combat

open StateExcept

variable {U F : Type} [DecidableEq U] [RoundedArith F] {env : Env U F} {E : Abort → Prop}
variable {ai : AI U F} {strict : Prop} {w w' w'' : World U F} {u v : U}

/-! ## Consistency -/

/-- **What an AI may rely on.** `B` is in `A`'s map iff `A` is in `B`'s, and the owner and the
victim of every threat reference are in each other's maps. -/
structure HandOff.Consistent (h : HandOff U F) : Prop where
  symmetric : ∀ b u v, (h.combat.combatRefs b u v).isSome = (h.combat.combatRefs b v u).isSome
  backed : ∀ id r, h.threat.threats id = some r → ∃ b,
    (h.combat.combatRefs b r.owner r.victim).isSome ∧
      (h.combat.combatRefs b r.victim r.owner).isSome

/-- The joint invariant of the combat and threat managers between operations. -/
structure WorldInv (strict : Prop) (w : World U F) : Prop where
  combat : CombatWF w.combat
  threat : ThreatWF w.threat
  backed : Backed w.combat w.threat
  processed : ∀ u, w.threat.needsAIUpdate u = []
  logged : strict → ∀ h ∈ w.handOffs, h.Consistent

theorem WorldInv.init : WorldInv strict (World.init : World U F) where
  combat := CombatWF.init
  threat := ThreatWF.init
  backed _ _ _ h := nomatch h
  processed _ := rfl
  logged _ _ h := nomatch h

theorem consistent_of_wf {h : HandOff U F} (hc : CombatWF h.combat) (ht : ThreatWF h.threat)
    (hb : Backed h.combat h.threat) : h.Consistent where
  symmetric b u v := by
    cases hu : h.combat.combatRefs b u v with
    | some i => rw [hc.refs.symm hu]
    | none =>
      cases hv : h.combat.combatRefs b v u with
      | none => rfl
      | some i =>
        have := hc.refs.symm hv
        rw [hu] at this
        cases this
  backed id r hr := by
    obtain ⟨b, i, hi⟩ := hb _ _ _ (ht.stored hr)
    exact ⟨b, by rw [hi]; rfl, by rw [hc.refs.symm hi]; rfl⟩

theorem WorldInv.withCombat (inv : WorldInv strict w) {c : CombatState U} (hc : CombatWF c)
    (hext : Extends w.combat c) : WorldInv strict { w with combat := c } :=
  ⟨hc, inv.threat, inv.backed.extends hext, inv.processed, inv.logged⟩

/-! ## The AI contract -/

/-- What happens to the world while an AI hook runs. -/
structure Hooked (strict : Prop) (w w' : World U F) : Prop where
  inv : WorldInv strict w'
  threat : w'.threat = w.threat
  combat : Extends w.combat w'.combat

theorem Hooked.refl (inv : WorldInv strict w) : Hooked strict w w := ⟨inv, rfl, Extends.refl _⟩

theorem Hooked.trans (h : Hooked strict w w') (h' : Hooked strict w' w'') : Hooked strict w w'' :=
  ⟨h'.inv, h'.threat.trans h.threat, h.combat.trans h'.combat⟩

theorem Hooked.withCombat (inv : WorldInv strict w) {c : CombatState U} (hc : CombatWF c)
    (hext : Extends w.combat c) : Hooked strict w { w with combat := c } :=
  ⟨inv.withCombat hc hext, rfl, hext⟩

/-- Shown a consistent world, the AI leaves a consistent world and only adds combat. -/
def AIContract (strict : Prop) (E : Abort → Prop) (ai : AI U F) : Prop :=
  ∀ hook w, WorldInv strict w → wp E (ai hook) w fun _ w' => Hooked strict w w'

theorem silentAI_contract : AIContract strict E (silentAI : AI U F) :=
  fun _ _ inv => Hooked.refl inv

section hooks

variable (hai : AIContract strict E ai)

include hai

theorem handOff_spec (inv : WorldInv strict w) (hook : Hook U) :
    wp E (handOff env ai hook) w fun _ w' => Hooked strict w w' := by
  unfold handOff
  refine wp_ite (fun _ => ?_) fun _ => Hooked.refl inv
  simp only [wp_bind, wp_modify]
  refine (hai hook _ ?_).mono fun _ w' h => ⟨h.inv, h.threat, h.combat⟩
  refine { inv with logged := fun hs h hh => ?_ }
  rcases List.mem_append.mp hh with hh | hh
  · exact inv.logged hs h hh
  · rw [List.mem_singleton] at hh
    subst hh
    exact consistent_of_wf inv.combat inv.threat inv.backed

theorem notifyAICombat_spec (inv : WorldInv strict w) (need : Bool) (me other : U) :
    wp E (notifyAICombat env ai need me other) w fun _ w' => Hooked strict w w' := by
  unfold notifyAICombat
  exact wp_ite (fun _ => handOff_spec hai inv _) fun _ => Hooked.refl inv

theorem notifyExitedCombat_spec (inv : WorldInv strict w) (need : Bool) (me : U) :
    wp E (notifyExitedCombat env ai need me) w fun _ w' => Hooked strict w w' := by
  unfold notifyExitedCombat
  exact wp_ite (fun _ => handOff_spec hai inv _) fun _ => Hooked.refl inv

/-! ## Entering combat -/

theorem notifyRefreshed_spec (inv : WorldInv strict w) (need : Bool) {id : RefId}
    {r : CombatReference U} (hr : w.combat.refs id = some r) (me other : CombatReference U → U) :
    wp E (notifyRefreshed env ai need id me other) w fun _ w' => Hooked strict w w' := by
  unfold notifyRefreshed onCombat
  refine wp_ite (fun _ => ?_) fun _ => Hooked.refl inv
  simp only [wp_bind, wp_zoom]
  exact wp_derefCombat hr (notifyAICombat_spec hai inv _ _ _)

theorem refresh_spec (inv : WorldInv strict w) {id : RefId} {r : CombatReference U}
    (hr : w.combat.refs id = some r) :
    wp E (refresh env ai id) w fun _ w' => Hooked strict w w' := by
  unfold refresh onCombat
  simp only [wp_bind, wp_zoom]
  refine (unsuppressFirst_spec inv.combat hr).mono ?_
  rintro _ c₁ ⟨wf₁, hext₁⟩
  obtain ⟨r₁, hr₁, -⟩ := hext₁.refs hr
  refine (unsuppressSecond_spec wf₁ hr₁).mono ?_
  rintro _ c₂ ⟨wf₂, hext₂⟩
  have h₀ := Hooked.withCombat inv wf₂ (hext₁.trans hext₂)
  obtain ⟨r₂, hr₂, -⟩ := hext₂.refs hr₁
  refine (notifyRefreshed_spec hai h₀.inv _ hr₂ _ _).mono fun _ w₁ h₁ => ?_
  obtain ⟨r₃, hr₃, -⟩ := h₁.combat.refs hr₂
  exact (notifyRefreshed_spec hai h₁.inv _ hr₃ _ _).mono fun _ w₂ h₂ => h₀.trans (h₁.trans h₂)

/-- **Specification of `SetInCombatWith`.** It trips no assertion, and what it returns is
true only if the two units are in combat. -/
theorem setInCombatWith_spec (inv : WorldInv strict w) (owner who : U) (suppressed : Bool) :
    wp E (setInCombatWith env ai owner who suppressed) w fun res w' => Hooked strict w w' ∧
      (res = true → ∃ b id, w'.combat.combatRefs b owner who = some id) := by
  unfold setInCombatWith
  simp only [wp_bind, wp_get]
  split
  · next id he =>
    obtain ⟨r, hr, -⟩ := inv.combat.refs.entry he
    simp only [onCombat, wp_bind, wp_zoom]
    refine (refreshTimer_spec inv.combat hr).mono ?_
    rintro _ c₁ ⟨wf₁, hext₁⟩
    obtain ⟨r₁, hr₁, -⟩ := hext₁.refs hr
    have h₀ := Hooked.withCombat inv wf₁ hext₁
    refine (refresh_spec hai h₀.inv hr₁).mono fun _ w₁ h₁ => ?_
    exact ⟨h₀.trans h₁, fun _ => ⟨true, id, h₁.combat.entries (hext₁.entries he)⟩⟩
  · next hnopvp =>
    split
    · next id he =>
      obtain ⟨r, hr, -⟩ := inv.combat.refs.entry he
      simp only [wp_bind]
      refine (refresh_spec hai inv hr).mono fun _ w₁ h₁ => ?_
      exact ⟨h₁, fun _ => ⟨false, id, h₁.combat.entries he⟩⟩
    · next hnopve =>
      refine wp_ite (fun _ => ⟨Hooked.refl inv, by rintro ⟨⟩⟩) fun hcan => ?_
      have hne : owner ≠ who := by
        simp only [canBeginCombat, ne_eq, Bool.not_eq_true', Bool.not_eq_false, Bool.and_eq_true,
          decide_eq_true_eq] at hcan
        exact hcan.1
      have hnone : ∀ b, w.combat.combatRefs b owner who = none := fun b => by
        cases b with
        | true => exact hnopvp
        | false => exact hnopve
      simp only [onCombat, wp_bind, wp_zoom]
      refine (createReference_spec inv.combat.refs hne hnone suppressed).mono fun _ c₁ hj => ?_
      have hf : (createdReference env owner who suppressed).first = owner := by
        unfold createdReference; split <;> simp
      have hs : (createdReference env owner who suppressed).second = who := by
        unfold createdReference; split <;> simp
      have ht : (createdReference env owner who suppressed).combatTimer ≤ PVP_COMBAT_TIMEOUT := by
        unfold createdReference; split <;> simp
      have wf₁ := hj.refsWF inv.combat.refs (by rw [hf, hs]; exact hne)
        (by rw [hf, hs]; exact hnone) ht
      have hext₁ := hj.extends inv.combat.refs (by rw [hf, hs]; exact hnone)
      refine (updateOwnerCombatState_spec (wf₁.live owner)).mono fun needSelf c₂ hf₂ => ?_
      have wf₂ := hf₂.refsWF wf₁
      refine (updateOwnerCombatState_spec (wf₂.live who)).mono fun needOther c₃ hf₃ => ?_
      have wf₃ : CombatWF c₃ := by
        refine ⟨hf₃.refsWF wf₂, fun x => hf₃.flagOK ?_⟩
        by_cases hx : x = who
        · exact Or.inl hx
        · refine Or.inr (hf₂.flagOK ?_)
          by_cases hx' : x = owner
          · exact Or.inl hx'
          · exact Or.inr (hj.flagOK inv.combat.refs (by rw [hf]; exact hx') (by rw [hs]; exact hx)
              (inv.combat.flags x))
      have h₀ := Hooked.withCombat inv wf₃ (hext₁.trans (hf₂.extends.trans hf₃.extends))
      refine (notifyAICombat_spec hai h₀.inv _ _ _).mono fun _ w₁ h₁ => ?_
      refine (notifyAICombat_spec hai h₁.inv _ _ _).mono fun _ w₂ h₂ => ?_
      refine (isInCombatWith_spec owner who).mono ?_
      rintro res _ ⟨rfl, hres⟩
      exact ⟨h₀.trans (h₁.trans h₂), hres⟩

end hooks

end EGServer.Combat
