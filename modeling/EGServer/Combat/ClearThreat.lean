import EGServer.Combat.WorldInvariant

/-!
# Clearing threat, with and without an audience

`ClearThreat` may select a new victim, and selecting one may tell the AI of a target that
came back. In a consistent world that is harmless (`clearThreat_spec`). The loops that
erase one side of a combat reference first call it in a *torn* world; there it must not be
heard (`clearThreat_torn`): either the AI does nothing and nobody keeps a record, or the
clearing is `Quiet`, which is to say that it brings no offline reference back.
-/

set_option linter.unusedSectionVars false

namespace EGServer.Combat

open StateExcept

variable {U F : Type} [DecidableEq U] [RoundedArith F] {env : Env U F} {E : Abort → Prop}
variable {ai : AI U F} {strict : Prop} {w w' w'' : World U F} {u v x y : U}
variable {t t' : ThreatState U F}

/-! ## What clearing keeps -/

/-- Nothing was removed from combat, nothing was added to threat. -/
structure Keeps (strict : Prop) (w w' : World U F) : Prop where
  inv : WorldInv strict w'
  combat : Extends w.combat w'.combat
  myThreat : ∀ u v i, w'.threat.myThreat u v = some i → w.threat.myThreat u v = some i
  heapInv : HeapInv w.threat → HeapInv w'.threat

theorem Keeps.refl (inv : WorldInv strict w) : Keeps strict w w :=
  ⟨inv, Extends.refl _, fun _ _ _ h => h, fun h => h⟩

theorem Keeps.trans (h : Keeps strict w w') (h' : Keeps strict w' w'') : Keeps strict w w'' :=
  ⟨h'.inv, h.combat.trans h'.combat, fun _ _ _ hi => h.myThreat _ _ _ (h'.myThreat _ _ _ hi),
    fun hh => h'.heapInv (h.heapInv hh)⟩

theorem Hooked.keeps (h : Hooked strict w w') : Keeps strict w w' :=
  ⟨h.inv, h.combat, fun u v i hi => by rw [← h.threat]; exact hi,
    fun hh => by rw [h.threat]; exact hh⟩

theorem Keeps.none (h : Keeps strict w w') (hn : w.threat.myThreat u v = none) :
    w'.threat.myThreat u v = none := by
  cases hi : w'.threat.myThreat u v with
  | none => rfl
  | some i =>
    have := h.myThreat u v i hi
    rw [hn] at this
    cases this

theorem WorldInv.withThreat (inv : WorldInv strict w) {t : ThreatState U F} (ht : ThreatWF t)
    (hm : ∀ u v i, t.myThreat u v = some i → w.threat.myThreat u v = some i)
    (hp : ∀ u, t.needsAIUpdate u = []) : WorldInv strict { w with threat := t } :=
  ⟨inv.combat, ht, fun u v i hi => inv.backed u v i (hm u v i hi), hp, inv.logged⟩

/-- `_needsAIUpdate` was moved from. -/
def ThreatState.processed (t : ThreatState U F) (u : U) : ThreatState U F :=
  { t with needsAIUpdate := Function.update t.needsAIUpdate u [] }

theorem ThreatState.processed_needs (t : ThreatState U F) (u : U)
    (h : ∀ z, z ≠ u → t.needsAIUpdate z = []) (z : U) : (t.processed u).needsAIUpdate z = [] := by
  by_cases hz : z = u
  · subst hz
    exact Function.update_self ..
  · exact (Function.update_of_ne hz _ _).trans (h z hz)

theorem ThreatWF.processed (wf : ThreatWF t) (u : U) : ThreatWF (t.processed u) :=
  ⟨wf.live, wf.stored, wf.mirrored, wf.heap, wf.heap_nodup, wf.fresh, wf.victim, wf.fixated⟩

theorem HeapInv.processed (h : HeapInv t) (u : U) : HeapInv (t.processed u) :=
  ⟨h.seen, h.base, h.honest⟩

/-! ## Selecting a victim -/

section heard

variable (hai : AIContract strict E ai)

include hai

theorem notifyThreatening_spec (inv : WorldInv strict w) (u guid : U) :
    wp E (notifyThreatening env ai u guid) w fun _ w' => Hooked strict w w' := by
  unfold notifyThreatening onThreat
  simp only [wp_bind, wp_get]
  split
  · exact Hooked.refl inv
  · next id hid =>
    obtain ⟨r, hr, -⟩ := inv.threat.live hid
    simp only [wp_bind, wp_zoom]
    exact wp_derefThreat hr (handOff_spec hai inv _)

/-- **Specification of `ProcessAIUpdates`.** -/
theorem processAIUpdates_spec
    (inv : WorldInv strict { w with threat := w.threat.processed u }) :
    wp E (processAIUpdates env ai u) w fun _ w' =>
      Hooked strict { w with threat := w.threat.processed u } w' := by
  unfold processAIUpdates onThreat
  simp only [wp_bind, wp_get, wp_zoom, wp_modify]
  refine wp_forEach_inv (Hooked strict { w with threat := w.threat.processed u }) _ ?_ _
    (Hooked.refl inv)
  exact fun guid _ w₁ h₁ => (notifyThreatening_spec hai h₁.inv u guid).mono fun _ _ h => h₁.trans h

end heard

/-- The threat half of `UpdateVictim`. -/
structure VictimUpdated (env : Env U F) (u : U) (t t' : ThreatState U F) : Prop where
  wf : ThreatWF t'
  myThreat : t'.myThreat = t.myThreat
  heapInv : HeapInv t → HeapInv t'
  others : ∀ {id r}, t.threats id = some r → r.owner ≠ u → t'.threats id = some r
  othersBack : ∀ {id r}, t'.threats id = some r → r.owner ≠ u → t.threats id = some r
  othersVictim : ∀ x, x ≠ u → t'.currentVictim x = t.currentVictim x
  needsOther : ∀ x, x ≠ u → t'.needsAIUpdate x = t.needsAIUpdate x
  noReturn : NoReturn env u t → t'.needsAIUpdate = t.needsAIUpdate ∧ NoReturn env u t'

theorem victimUpdated_spec (wf : ThreatWF t) (u : U) :
    wp E (do
      let newVictim ← reselectVictim env u
      setCurrentVictim u newVictim) t fun _ t' => VictimUpdated env u t t' := by
  simp only [wp_bind]
  refine (reselectVictim_spec wf u).mono ?_
  rintro res t₁ ⟨hup, hres, _⟩
  unfold setCurrentVictim
  rw [wp_modify]
  have wf₁ := wf.of_sameLists hup.toSameLists
  exact {
    wf := wf₁.setCurrentVictim hres
    myThreat := hup.myThreat
    heapInv := fun hh => ⟨(hup.heapInv hh).seen, (hup.heapInv hh).base, (hup.heapInv hh).honest⟩
    others := fun hr ho => hup.others hr ho
    othersBack := fun {id r} hr ho => by
      obtain ⟨q, hq, hqo, -⟩ := hup.toSameLists.get_back hr
      have := hup.others hq (hqo ▸ ho)
      rw [show t₁.threats id = some r from hr] at this
      cases this
      exact hq
    othersVictim := fun z hz => (Function.update_of_ne hz _ _).trans (congrFun hup.currentVictim z)
    needsOther := hup.needsOther
    noReturn := hup.noReturn }

theorem ThreatWF.of_processed (wf : ThreatWF (t.processed u)) : ThreatWF t :=
  ⟨wf.live, wf.stored, wf.mirrored, wf.heap, wf.heap_nodup, wf.fresh, wf.victim, wf.fixated⟩

theorem WorldInv.withProcessed (inv : WorldInv strict w) (u : U) :
    WorldInv strict { w with threat := w.threat.processed u } :=
  inv.withThreat (inv.threat.processed u) (fun _ _ _ hi => hi)
    (w.threat.processed_needs u fun z _ => inv.processed z)

/-- Once the AI of `u` is told, the world with the new victim is consistent. -/
theorem VictimUpdated.worldInv (hv : VictimUpdated env u w.threat t)
    (inv : WorldInv strict { w with threat := w.threat.processed u }) :
    WorldInv strict { w with threat := t.processed u } := by
  have hneeds : ∀ z, z ≠ u → t.needsAIUpdate z = [] := by
    intro z hz
    rw [hv.needsOther z hz]
    exact (Function.update_of_ne hz _ _).symm.trans (inv.processed z)
  apply inv.withThreat (hv.wf.processed u) _ (t.processed_needs u hneeds)
  intro a b i hi
  show w.threat.myThreat a b = some i
  rw [← hv.myThreat]
  exact hi

/-- **Specification of `UpdateVictim`** in a world that is consistent but for AI updates of
`u` that still have to be processed. -/
theorem updateVictim_spec (hai : AIContract strict E ai) (u : U)
    (inv : WorldInv strict { w with threat := w.threat.processed u }) :
    wp E (updateVictim env ai u) w fun _ w' => Keeps strict w w' := by
  unfold updateVictim onThreat
  rw [wp_bind, wp_zoom]
  refine (victimUpdated_spec inv.threat.of_processed u).mono fun _ t₁ hv => ?_
  have inv₁ := hv.worldInv inv
  refine (processAIUpdates_spec (w := { w with threat := t₁ }) hai inv₁).mono fun _ w₂ h₂ => ?_
  exact {
    inv := h₂.inv
    combat := h₂.combat
    myThreat := fun a b i hi => by
      rw [h₂.threat] at hi
      rw [← hv.myThreat]
      exact hi
    heapInv := fun hh => by
      rw [h₂.threat]
      exact (hv.heapInv hh).processed u }

/-- **Specification of `ClearThreat`** in a consistent world. -/
theorem clearThreat_spec (hai : AIContract strict E ai) (inv : WorldInv strict w) (x y : U) :
    wp E (clearThreat env ai x y) w fun _ w' =>
      Keeps strict w w' ∧ w'.threat.myThreat x y = none := by
  unfold clearThreat
  simp only [wp_bind, wp_get]
  split
  · next hnone => exact ⟨Keeps.refl inv, hnone⟩
  · next id hid =>
    obtain ⟨r, hr, ho, hv⟩ := inv.threat.live hid
    unfold clearThreatRef onThreat
    rw [wp_bind, wp_zoom]
    refine (unregisterAndFree_spec inv.threat hr).mono fun _ t₁ hf => ?_
    have hshrunk := hf.shrunk inv.threat hr
    have inv₁ : WorldInv strict { w with threat := t₁ } :=
      inv.withThreat hshrunk.wf (fun a b i hi => hshrunk.myThreat hi)
        fun z => (congrFun hf.needsAIUpdate z).trans (inv.processed z)
    have h₁ : Keeps strict w { w with threat := t₁ } :=
      ⟨inv₁, Extends.refl _, fun _ _ _ hi => hshrunk.myThreat hi, hshrunk.heapInv⟩
    have hgone : t₁.myThreat x y = none := by rw [hf.myThreat, if_pos ⟨ho.symm, hv.symm⟩]
    simp only [wp_bind, wp_get]
    split
    · refine (updateVictim_spec hai x (inv₁.withProcessed x)).mono fun _ w₂ h₂ => ⟨h₁.trans h₂, h₂.none hgone⟩
    · exact ⟨h₁, hgone⟩

/-! ## Clearing unheard -/

/-- Nobody listens: the AI does nothing, and no record is kept of what it is shown. -/
def Unheard (strict : Prop) (ai : AI U F) : Prop := ¬strict ∧ ai = silentAI

/-- Removing `y` from `x`'s threat list tells `x`'s AI nothing: there is no AI, or no such
entry, or another reference stays the current victim, or no other offline reference of `x`
is about to come back. -/
def Quiet (env : Env U F) (t : ThreatState U F) (x y : U) : Prop :=
  env.hasAI x = false ∨ t.myThreat x y = none ∨
    (∃ j, t.currentVictim x = some j ∧ t.myThreat x y ≠ some j) ∨
    ∀ id r, t.threats id = some r → r.owner = x → r.victim ≠ y → r.isOffline = true →
      env.shouldBeOffline x r.victim = true

/-- What holds of a torn world: the threat half is as ever, the combat half is not looked at. -/
structure TornWorld (strict : Prop) (w : World U F) : Prop where
  threat : ThreatWF w.threat
  processed : ∀ u, w.threat.needsAIUpdate u = []
  logged : strict → ∀ h ∈ w.handOffs, h.Consistent

theorem WorldInv.tornWorld (inv : WorldInv strict w) : TornWorld strict w :=
  ⟨inv.threat, inv.processed, inv.logged⟩

theorem notifyThreatening_unheard (ht : ThreatWF w.threat)
    (hlog : strict → ∀ h ∈ w.handOffs, h.Consistent) (u guid : U)
    (h : Unheard strict ai ∨ env.hasAI u = false) :
    wp E (notifyThreatening env ai u guid) w fun _ w' =>
      w'.combat = w.combat ∧ w'.threat = w.threat ∧
        (strict → ∀ h ∈ w'.handOffs, h.Consistent) := by
  unfold notifyThreatening onThreat
  simp only [wp_bind, wp_get]
  split
  · exact ⟨rfl, rfl, hlog⟩
  · next id hid =>
    obtain ⟨r, hr, -⟩ := ht.live hid
    simp only [wp_bind, wp_zoom]
    refine wp_derefThreat hr ?_
    unfold handOff
    refine wp_ite (fun hhas => ?_) fun _ => ⟨rfl, rfl, hlog⟩
    rcases h with ⟨hns, rfl⟩ | hno
    · simp only [wp_bind, wp_modify]
      exact ⟨rfl, rfl, fun hs => absurd hs hns⟩
    · rw [show Hook.owner (.justStartedThreateningMe u r.victim) = u from rfl, hno] at hhas
      cases hhas

theorem processAIUpdates_unheard (ht : ThreatWF w.threat)
    (hlog : strict → ∀ h ∈ w.handOffs, h.Consistent) (u : U)
    (h : (Unheard strict ai ∨ env.hasAI u = false) ∨ w.threat.needsAIUpdate u = []) :
    wp E (processAIUpdates env ai u) w fun _ w' =>
      w'.combat = w.combat ∧ w'.threat = w.threat.processed u ∧
        (strict → ∀ h ∈ w'.handOffs, h.Consistent) := by
  unfold processAIUpdates onThreat
  simp only [wp_bind, wp_get, wp_zoom, wp_modify]
  rcases h with h | hnil
  · refine wp_forEach_inv (fun w' : World U F => w'.combat = w.combat ∧ w'.threat = w.threat.processed u ∧
        (strict → ∀ h ∈ w'.handOffs, h.Consistent)) _ ?_ _ ⟨rfl, rfl, hlog⟩
    rintro guid - w₁ ⟨hc, ht₁, hlog₁⟩
    refine (notifyThreatening_unheard (ht₁ ▸ ht.processed u) hlog₁ u guid h).mono ?_
    rintro _ w₂ ⟨hc₂, ht₂, hlog₂⟩
    exact ⟨hc₂.trans hc, ht₂.trans ht₁, hlog₂⟩
  · rw [hnil]
    exact ⟨rfl, rfl, hlog⟩

/-- What clearing `x`'s threat on `y` does to a torn world. -/
structure ClearedUnheard (env : Env U F) (strict : Prop) (x y : U) (w w' : World U F) : Prop where
  torn : TornWorld strict w'
  combat : w'.combat = w.combat
  myThreat : ∀ u v i, w'.threat.myThreat u v = some i → w.threat.myThreat u v = some i
  gone : w'.threat.myThreat x y = none
  heapInv : HeapInv w.threat → HeapInv w'.threat
  quiet : Quiet env w.threat x y → ∀ a b, Quiet env w.threat a b → Quiet env w'.threat a b

theorem Quiet.of_other {a b : U} (hm : ∀ v, t'.myThreat a v = t.myThreat a v)
    (hc : t'.currentVictim a = t.currentVictim a)
    (hr : ∀ id r, t'.threats id = some r → r.owner = a → t.threats id = some r)
    (h : Quiet env t a b) : Quiet env t' a b := by
  unfold Quiet at h ⊢
  rw [hm, hc]
  rcases h with h | h | h | h
  · exact Or.inl h
  · exact Or.inr (Or.inl h)
  · exact Or.inr (Or.inr (Or.inl h))
  · exact Or.inr (Or.inr (Or.inr fun id r hid ho => h id r (hr id r hid ho) ho))

/-- Freeing a reference of `x` brings nobody closer to being told. -/
theorem Freed.quiet {id : ThreatId} {r : ThreatReference U F} (h : Freed id r t t') {a b : U}
    (hq : Quiet env t a b) (hcv : t.currentVictim a ≠ some id) : Quiet env t' a b := by
  have hback : ∀ i q, t'.threats i = some q → t.threats i = some q := fun i q hi => by
    rw [h.threats] at hi
    grind
  have hnone : t.myThreat a b = none → t'.myThreat a b = none := fun hn => by
    rw [h.myThreat, hn]
    split <;> rfl
  unfold Quiet at hq ⊢
  rcases hq with hq | hq | ⟨j, hj, hne⟩ | hq
  · exact Or.inl hq
  · exact Or.inr (Or.inl (hnone hq))
  · refine Or.inr (Or.inr (Or.inl ⟨j, ?_, fun hm => hne (h.of_myThreat hm).1⟩))
    rw [h.currentVictim, if_neg fun hc => hcv hc.2]
    exact hj
  · exact Or.inr (Or.inr (Or.inr fun i q hi => hq i q (hback i q hi)))

/-- With `y` gone from `x`'s list, "no other offline reference" is "no offline reference". -/
theorem Freed.noReturn {id : ThreatId} {r : ThreatReference U F} (h : Freed id r t t')
    (wf : ThreatWF t) (hr : t.threats id = some r)
    (hq : ∀ i q, t.threats i = some q → q.owner = r.owner → q.victim ≠ r.victim →
      q.isOffline = true → env.shouldBeOffline r.owner q.victim = true) :
    NoReturn env r.owner t' := fun i q hi ho hoff => by
  rw [h.threats] at hi
  by_cases hne : i = id
  · subst hne
    rw [Function.update_self] at hi
    cases hi
  · rw [Function.update_of_ne hne] at hi
    refine hq i q hi ho (fun hv => hne ?_) hoff
    have hs := wf.stored hi
    rw [ho, hv, wf.stored hr] at hs
    exact (Option.some.inj hs).symm

/-- **Specification of `ClearThreat` in a torn world**: unheard, or quiet. -/
theorem clearThreat_torn (htorn : TornWorld strict w)
    (h : Unheard strict ai ∨ Quiet env w.threat x y) :
    wp E (clearThreat env ai x y) w fun _ w' => ClearedUnheard env strict x y w w' := by
  unfold clearThreat
  simp only [wp_bind, wp_get]
  split
  · next hnone =>
    exact ⟨htorn, rfl, fun _ _ _ hi => hi, hnone, fun hh => hh, fun _ _ _ hq => hq⟩
  · next id hid =>
    obtain ⟨r, hr, rfl, rfl⟩ := htorn.threat.live hid
    unfold clearThreatRef onThreat
    rw [wp_bind, wp_zoom]
    refine (unregisterAndFree_spec htorn.threat hr).mono fun _ t₁ hf => ?_
    have hshrunk := hf.shrunk htorn.threat hr
    have hgone : t₁.myThreat r.owner r.victim = none := by rw [hf.myThreat, if_pos ⟨rfl, rfl⟩]
    have hproc : ∀ z, t₁.needsAIUpdate z = [] := fun z =>
      (congrFun hf.needsAIUpdate z).trans (htorn.processed z)
    have hother : ∀ a b, a ≠ r.owner → Quiet env w.threat a b → Quiet env t₁ a b :=
      fun a b ha hq => hf.quiet hq fun hcv => by
        obtain ⟨v, hv⟩ := htorn.threat.victim hcv
        obtain ⟨q, hq, ho, -⟩ := htorn.threat.live hv
        rw [hr] at hq
        cases hq
        exact ha ho.symm
    simp only [wp_bind, wp_get]
    split
    · -- the current victim is gone: a new one is selected
      next hcv =>
      unfold updateVictim onThreat
      rw [wp_bind, wp_zoom]
      refine (victimUpdated_spec hshrunk.wf r.owner).mono fun _ t₂ hv => ?_
      -- if quiet, then because no offline reference is about to come back
      have hcases : Quiet env w.threat r.owner r.victim →
          env.hasAI r.owner = false ∨ NoReturn env r.owner t₁ := by
        rintro (hno | hnone | ⟨j, hj, hne⟩ | hret)
        · exact Or.inl hno
        · rw [hid] at hnone
          cases hnone
        · have : t₁.currentVictim r.owner = some j := by
            rw [hf.currentVictim, if_neg]
            · exact hj
            · rintro ⟨-, hj'⟩
              rw [hj] at hj'
              cases hj'
              exact hne hid
          rw [show t₁.currentVictim r.owner = none from hcv] at this
          cases this
        · exact Or.inr (hf.noReturn htorn.threat hr hret)
      have hneeds : (Unheard strict ai ∨ env.hasAI r.owner = false) ∨
          t₂.needsAIUpdate r.owner = [] := by
        rcases h with hun | hq
        · exact Or.inl (Or.inl hun)
        · rcases hcases hq with hno | hret
          · exact Or.inl (Or.inr hno)
          · exact Or.inr ((congrFun (hv.noReturn hret).1 _).trans (hproc _))
      refine (processAIUpdates_unheard (w := { w with threat := t₂ }) hv.wf htorn.logged
        r.owner hneeds).mono ?_
      rintro _ w₃ ⟨hc₃, ht₃, hlog₃⟩
      have hm₃ : w₃.threat.myThreat = t₁.myThreat := by
        rw [ht₃]
        exact hv.myThreat
      exact {
        torn := ⟨ht₃ ▸ hv.wf.processed _, fun z => by
          rw [ht₃]
          exact t₂.processed_needs _ (fun a ha => (hv.needsOther a ha).trans (hproc a)) z, hlog₃⟩
        combat := hc₃
        myThreat := fun a b i hi => hshrunk.myThreat (by rw [← hm₃]; exact hi)
        gone := by rw [hm₃]; exact hgone
        heapInv := fun hh => by
          rw [ht₃]
          exact (hv.heapInv (hshrunk.heapInv hh)).processed _
        quiet := fun hq a b hab => by
          by_cases ha : a = r.owner
          · subst ha
            rcases hcases hq with hno | hret
            · exact Or.inl hno
            · refine Or.inr (Or.inr (Or.inr fun i q hi ho _ hoff => ?_))
              rw [ht₃] at hi
              exact (hv.noReturn hret).2 i q hi ho hoff
          · refine (hother a b ha hab).of_other (fun z => congrFun (congrFun hm₃ a) z) ?_ ?_
            · rw [ht₃]
              exact hv.othersVictim a ha
            · intro i q hi ho
              rw [ht₃] at hi
              exact hv.othersBack hi (ho ▸ ha) }
    · -- another reference stays the current victim
      next j hcv =>
      have hcv' : w.threat.currentVictim r.owner ≠ some id := fun hid' => by
        have hj : t₁.currentVictim r.owner = some j := hcv
        rw [hf.currentVictim, if_pos ⟨rfl, hid'⟩] at hj
        cases hj
      exact {
        torn := ⟨hshrunk.wf, hproc, htorn.logged⟩
        combat := rfl
        myThreat := fun a b i hi => hshrunk.myThreat hi
        gone := hgone
        heapInv := hshrunk.heapInv
        quiet := fun _ a b hab => by
          by_cases ha : a = r.owner
          · subst ha
            exact hf.quiet hab hcv'
          · exact hother a b ha hab }

end EGServer.Combat
