import EGServer.Combat.ClearThreat

/-!
# Ending combat

`EndCombat` on a consistent world, and the loops that erase one side of a reference before
they end it. A loop is followed through by `QuietEntries`: every entry that it may still
end can be ended without telling an AI while the world is torn. What happens on the way
keeps that (`Calm`): clearing threat quietly, removing references, and AI hooks, which only
add entries between units that have no threat.
-/

set_option linter.unusedSectionVars false

namespace EGServer.Combat

open StateExcept

variable {U F : Type} [DecidableEq U] [RoundedArith F] {env : Env U F} {E : Abort → Prop}
variable {ai : AI U F} {strict : Prop} {w w' w'' : World U F} {u v x y : U}
variable {c c' c₁ : CombatState U} {t t' : ThreatState U F} {id : RefId} {r r₁ : CombatReference U}

/-! ## Entries that can be ended quietly -/

/-- Every entry of `u` for a unit of `l` that has expired can be ended unheard. -/
def QuietEntries (env : Env U F) (c : CombatState U) (t : ThreatState U F) (pvp : Bool) (u : U)
    (expired : CombatReference U → Prop) (l : List U) : Prop :=
  ∀ v ∈ l, ∀ i q, c.combatRefs pvp u v = some i → c.refs i = some q → expired q →
    Quiet env t u v ∧ Quiet env t v u

/-- Whether a reference has expired depends on its units and its timer, and an AI that
refreshes the timer does not make it expire. -/
def ExpiryOK (expired : CombatReference U → Prop) : Prop :=
  ∀ r r' : CombatReference U, r'.first = r.first → r'.second = r.second →
    (r'.combatTimer = r.combatTimer ∨ r'.combatTimer = PVP_COMBAT_TIMEOUT) →
    r.combatTimer ≤ PVP_COMBAT_TIMEOUT → expired r' → expired r

/-- Whatever could be ended quietly still can. -/
def Calm (env : Env U F) (w w' : World U F) : Prop :=
  ∀ pvp u expired l, ExpiryOK expired → QuietEntries env w.combat w.threat pvp u expired l →
    QuietEntries env w'.combat w'.threat pvp u expired l

theorem Calm.refl (env : Env U F) (w : World U F) : Calm env w w := fun _ _ _ _ _ h => h

theorem Calm.trans (h : Calm env w w') (h' : Calm env w' w'') : Calm env w w'' :=
  fun pvp u expired l he hq => h' pvp u expired l he (h pvp u expired l he hq)

theorem Calm.of_entries (ht : w'.threat = w.threat)
    (hc : ∀ b u v i, w'.combat.combatRefs b u v = some i → w.combat.combatRefs b u v = some i)
    (hr : ∀ b u v i, w'.combat.combatRefs b u v = some i → w'.combat.refs i = w.combat.refs i) :
    Calm env w w' := fun pvp u expired l _ h v hv i q he hq hexp => by
  rw [ht]
  exact h v hv i q (hc _ _ _ _ he) (by rw [← hr _ _ _ _ he]; exact hq) hexp

theorem Hooked.calm (h : Hooked strict w w') (inv : WorldInv strict w) : Calm env w w' :=
  fun pvp u expired l hexpiry hq v hv i q he hiq hexp => by
    rw [h.threat]
    rcases h.combat.new he with hold | ⟨-, hnone⟩
    · obtain ⟨q₀, hq₀, -⟩ := inv.combat.refs.entry hold
      obtain ⟨q', hq', hf, hs, -, ht⟩ := h.combat.refs hq₀
      rw [hiq] at hq'
      cases hq'
      exact hq v hv i q₀ hold hq₀ (hexpiry q₀ q hf hs ht (inv.combat.refs.timer hq₀) hexp)
    · have hno : ∀ a b, w.threat.myThreat a b ≠ none → (a = u ∧ b = v) ∨ (a = v ∧ b = u) → False := by
        intro a b hne hab
        obtain ⟨k, hk⟩ := Option.ne_none_iff_exists'.mp hne
        obtain ⟨b', id', hb'⟩ := inv.backed _ _ _ hk
        rcases hab with ⟨rfl, rfl⟩ | ⟨rfl, rfl⟩
        · rw [hnone b'] at hb'
          cases hb'
        · have := inv.combat.refs.symm hb'
          rw [hnone b'] at this
          cases this
      refine ⟨Or.inr (Or.inl ?_), Or.inr (Or.inl ?_)⟩
      · exact not_not.mp fun hne => hno u v hne (Or.inl ⟨rfl, rfl⟩)
      · exact not_not.mp fun hne => hno v u hne (Or.inr ⟨rfl, rfl⟩)

theorem ClearedUnheard.calm (h : ClearedUnheard env strict x y w w')
    (hq : Quiet env w.threat x y) (c : CombatState U) :
    Calm env { w with combat := c } { w' with combat := c } :=
  fun _ _ _ _ _ hent v hv i q he hiq hexp =>
    have ⟨h1, h2⟩ := hent v hv i q he hiq hexp
    ⟨h.quiet hq _ _ h1, h.quiet hq _ _ h2⟩

/-! ## Removing the reference -/

theorem Unmapped.extends (h : Unmapped id c) (hr : c.refs id = some r) (hext : Extends c c') :
    Unmapped id c' := fun b u v he => by
  rcases hext.new he with hold | ⟨hfresh, -⟩
  · exact h b u v hold
  · rw [hr] at hfresh
    cases hfresh

theorem Unmapped.flagged (h : Unmapped id c) (hf : Flagged u c c') : Unmapped id c' := by
  unfold Unmapped
  rw [hf.combatRefs]
  exact h

theorem Parted.sameUnits (h : Parted r c c') (hu : SameUnits r₁ r) : Parted r₁ c c' := by
  refine ⟨h.refs, h.nextRef, h.inCombat, fun b u v => ?_⟩
  rw [h.combatRefs]
  refine if_congr ?_ rfl rfl
  simp only [CombatReference.Joins, hu.first, hu.second, hu.isPvP]

/-- **Specification of the second half of `EndCombat`.** However torn the maps are, they are
well formed again by the time the AI is told. -/
theorem removeReference_spec (hai : AIContract strict E ai) (hc : CombatWF c₁)
    (hr : c₁.refs id = some r₁) (hu : SameUnits r₁ r) (htorn : Torn r c₁ w.combat)
    (hb : Backed c₁ w.threat) (hw : TornWorld strict w)
    (hg : w.threat.myThreat r.first r.second = none)
    (hg' : w.threat.myThreat r.second r.first = none) :
    wp E (removeReference env ai id r) w fun _ w' => WorldInv strict w' ∧ w'.threat = w.threat ∧
      Calm env { w with combat := c₁ } w' := by
  unfold removeReference onCombat purgeReference
  simp only [wp_bind, wp_zoom, wp_modify]
  have hp := parted_of_torn htorn
  generalize hc₂ : (w.combat.setEntry r.isPvP r.first r.second none).setEntry r.isPvP r.second
    r.first none = c₂ at hp
  have wf₂ := hp.refsWF hc.refs
  refine (updateOwnerCombatState_spec (wf₂.live r.first)).mono fun needFirst c₃ hf₃ => ?_
  have wf₃ := hf₃.refsWF wf₂
  refine (updateOwnerCombatState_spec (wf₃.live r.second)).mono fun needSecond c₄ hf₄ => ?_
  have wf₄ : CombatWF c₄ := by
    refine ⟨hf₄.refsWF wf₃, fun z => hf₄.flagOK ?_⟩
    by_cases hz : z = r.second
    · exact Or.inl hz
    · refine Or.inr (hf₃.flagOK ?_)
      by_cases hz' : z = r.first
      · exact Or.inl hz'
      · exact Or.inr (hp.flagOK hz' hz (hc.flags z))
  have hent : ∀ b u v i, c₄.combatRefs b u v = some i → c₁.combatRefs b u v = some i := by
    intro b u v i he
    rw [hf₄.combatRefs, hf₃.combatRefs] at he
    exact (hp.of_entry he).1
  have hrefs : c₄.refs = c₁.refs := hf₄.refs.trans (hf₃.refs.trans hp.refs)
  have hun : Unmapped id c₄ :=
    (((hp.sameUnits hu).unmapped hc.refs hr).flagged hf₃).flagged hf₄
  have hb₄ : Backed c₄ w.threat := fun a z i hi => by
    obtain ⟨b, j, hj⟩ := hb a z i hi
    refine ⟨b, j, ?_⟩
    rw [hf₄.combatRefs, hf₃.combatRefs, hp.combatRefs, if_neg]
    · exact hj
    · rintro ⟨-, ⟨rfl, rfl⟩ | ⟨rfl, rfl⟩⟩
      · rw [hg] at hi
        cases hi
      · rw [hg'] at hi
        cases hi
  have inv₄ : WorldInv strict { w with combat := c₄ } :=
    ⟨wf₄, hw.threat, hb₄, hw.processed, hw.logged⟩
  have calm₄ : Calm env { w with combat := c₁ } { w with combat := c₄ } :=
    Calm.of_entries rfl hent fun _ _ _ _ _ => congrFun hrefs _
  -- now the AI may do as it pleases
  refine (notifyExitedCombat_spec hai inv₄ _ _).mono fun _ w₅ h₅ => ?_
  refine (notifyExitedCombat_spec hai h₅.inv _ _).mono fun _ w₆ h₆ => ?_
  have hr₄ : c₄.refs id = some r₁ := by rw [hrefs]; exact hr
  obtain ⟨r₅, hr₅, -⟩ := h₅.combat.refs hr₄
  obtain ⟨r₆, hr₆, -⟩ := h₆.combat.refs hr₅
  have hun₅ : Unmapped id w₅.combat := hun.extends hr₄ h₅.combat
  have hun₆ : Unmapped id w₆.combat := hun₅.extends hr₅ h₆.combat
  refine (deleteCombatReference_spec h₆.inv.combat hr₆ hun₆).mono ?_
  rintro _ c₇ ⟨wf₇, hent₇, hrefs₇⟩
  refine ⟨⟨wf₇, h₆.inv.threat, fun a z i hi => ?_, h₆.inv.processed, h₆.inv.logged⟩,
    h₆.threat.trans h₅.threat, ?_⟩
  · obtain ⟨b, j, hj⟩ := h₆.inv.backed a z i hi
    exact ⟨b, j, by rw [hent₇]; exact hj⟩
  · refine calm₄.trans ((h₅.calm inv₄).trans ((h₆.calm h₅.inv).trans ?_))
    refine Calm.of_entries rfl (fun b a z i he => by rw [← hent₇]; exact he) fun b a z i he => ?_
    have hne : i ≠ id := by
      rintro rfl
      rw [show c₇.combatRefs b a z = _ from congrFun (congrFun (congrFun hent₇ b) a) z] at he
      exact hun₆ b a z he
    exact (congrFun hrefs₇ i).trans (Function.update_of_ne hne _ _)

/-! ## EndCombat -/

/-- What a caller of `EndCombat` keeps. -/
structure Ended (strict : Prop) (w w' : World U F) : Prop where
  inv : WorldInv strict w'
  heapInv : HeapInv w.threat → HeapInv w'.threat

theorem Ended.refl (inv : WorldInv strict w) : Ended strict w w := ⟨inv, fun h => h⟩

theorem Ended.trans (h : Ended strict w w') (h' : Ended strict w' w'') : Ended strict w w'' :=
  ⟨h'.inv, fun hh => h'.heapInv (h.heapInv hh)⟩

theorem Keeps.ended (h : Keeps strict w w') : Ended strict w w' := ⟨h.inv, h.heapInv⟩

theorem Hooked.ended (h : Hooked strict w w') : Ended strict w w' := h.keeps.ended

/-- **Specification of `EndCombat`** in a consistent world. -/
theorem endCombat_spec (hai : AIContract strict E ai) (inv : WorldInv strict w)
    (hr : w.combat.refs id = some r) :
    wp E (endCombat env ai id) w fun _ w' => Ended strict w w' := by
  unfold endCombat
  rw [wp_bind, onCombat, wp_zoom]
  refine wp_derefCombat hr ?_
  rw [wp_bind]
  refine (clearThreat_spec hai inv r.first r.second).mono ?_
  rintro _ w₁ ⟨h₁, hg₁⟩
  rw [wp_bind]
  refine (clearThreat_spec hai h₁.inv r.second r.first).mono ?_
  rintro _ w₂ ⟨h₂, hg₂⟩
  obtain ⟨r₂, hr₂, hf, hs, hp, -⟩ := (h₁.combat.trans h₂.combat).refs hr
  refine (removeReference_spec hai h₂.inv.combat hr₂ ⟨hf.symm, hs.symm, hp.symm⟩ (Torn.refl r _)
    h₂.inv.backed h₂.inv.tornWorld (h₂.none hg₁) hg₂).mono ?_
  rintro _ w₃ ⟨inv₃, ht₃, _⟩
  exact ⟨inv₃, fun hh => by rw [ht₃]; exact h₂.heapInv (h₁.heapInv hh)⟩

/-- Both directions of the pair can be cleared unheard. -/
def QuietPair (env : Env U F) (t : ThreatState U F) (u v : U) : Prop :=
  Quiet env t u v ∧ Quiet env t v u

/-- **Specification of `EndCombat`** once the owner's entry was erased. -/
theorem endCombat_erased_spec (hai : AIContract strict E ai) (inv : WorldInv strict w) {b : Bool}
    (he : w.combat.combatRefs b u v = some id)
    (hq : Unheard strict ai ∨ QuietPair env w.threat u v) :
    wp E (endCombat env ai id) { w with combat := w.combat.setEntry b u v none } fun _ w' =>
      Ended strict w w' ∧ (Unheard strict ai ∨ Calm env w w') := by
  obtain ⟨r, hr, rfl, -, hj⟩ := inv.combat.refs.entry he
  have hq : Unheard strict ai ∨ QuietPair env w.threat r.first r.second := by
    rcases hq with hun | ⟨h1, h2⟩
    · exact Or.inl hun
    · rcases hj with ⟨rfl, rfl⟩ | ⟨rfl, rfl⟩
      · exact Or.inr ⟨h1, h2⟩
      · exact Or.inr ⟨h2, h1⟩
  unfold endCombat
  rw [wp_bind, onCombat, wp_zoom]
  refine wp_derefCombat hr ?_
  rw [wp_bind]
  have htw : TornWorld strict { w with combat := w.combat.setEntry r.isPvP u v none } :=
    ⟨inv.threat, inv.processed, inv.logged⟩
  refine (clearThreat_torn htw (hq.imp_right And.left)).mono fun _ w₁ h₁ => ?_
  rw [wp_bind]
  have hq₁ : Unheard strict ai ∨ Quiet env w₁.threat r.second r.first :=
    hq.imp_right fun h => h₁.quiet h.1 _ _ h.2
  refine (clearThreat_torn h₁.torn hq₁).mono fun _ w₂ h₂ => ?_
  have htorn : Torn r w.combat w₂.combat := by
    rw [h₂.combat, h₁.combat]
    exact torn_setEntry hj
  have hm : ∀ a z i, w₂.threat.myThreat a z = some i → w.threat.myThreat a z = some i :=
    fun a z i hi => h₁.myThreat _ _ _ (h₂.myThreat _ _ _ hi)
  have hg₁ : w₂.threat.myThreat r.first r.second = none := by
    cases hi : w₂.threat.myThreat r.first r.second with
    | none => rfl
    | some i =>
      have := h₂.myThreat _ _ _ hi
      rw [h₁.gone] at this
      cases this
  refine (removeReference_spec hai inv.combat hr ⟨rfl, rfl, rfl⟩ htorn
    (fun a z i hi => inv.backed a z i (hm a z i hi)) h₂.torn hg₁ h₂.gone).mono ?_
  rintro _ w₃ ⟨inv₃, ht₃, hcalm⟩
  refine ⟨⟨inv₃, fun hh => by rw [ht₃]; exact h₂.heapInv (h₁.heapInv hh)⟩, ?_⟩
  rcases hq with hun | hq
  · exact Or.inl hun
  · right
    have hcalm₁ := h₁.calm hq.1 w.combat
    have hcalm₂ := h₂.calm (h₁.quiet hq.1 _ _ hq.2) w.combat
    exact Calm.trans hcalm₁ (hcalm₂.trans hcalm)

end EGServer.Combat
