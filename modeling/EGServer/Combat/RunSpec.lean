import EGServer.Combat.EndCombat

/-!
# Every operation keeps the joint invariant

One specification for each operation, and from them `exec_spec` and `run_spec`. An
operation that tears the world has to be unheard or quiet while it does (`QuietOp`); an
update of temporary modifiers has to announce the right direction if the heap is to stay
informed (`HonestOp`). All others preserve everything.
-/

set_option linter.unusedSectionVars false

namespace EGServer.Combat

open StateExcept

variable {U F : Type} [DecidableEq U] [RoundedArith F] {env : Env U F} {E : Abort → Prop}
variable {ai : AI U F} {strict : Prop} {w w' w'' : World U F} {u v x y : U} {b : Bool}

/-! ## The loops that erase first -/

section erasing

variable (hai : AIContract strict E ai)

include hai

theorem eraseAndEnd_spec (inv : WorldInv strict w) {expired : CombatReference U → Bool}
    {l : List U}
    (hq : Unheard strict ai ∨
      QuietEntries env w.combat w.threat b u (fun q => expired q = true) (v :: l)) :
    wp E (eraseAndEnd env ai u b expired v) w fun _ w' =>
      Ended strict w w' ∧ (Unheard strict ai ∨ Calm env w w') := by
  unfold eraseAndEnd
  simp only [wp_bind, wp_get]
  split
  · exact ⟨Ended.refl inv, Or.inr (Calm.refl env w)⟩
  · next id he =>
    obtain ⟨r, hr, -⟩ := inv.combat.refs.entry he
    simp only [onCombat, wp_bind, wp_zoom]
    refine wp_derefCombat hr (wp_ite (fun hexp => ?_) fun _ => ?_)
    · simp only [purgeReference, wp_bind, wp_zoom, wp_modify]
      exact endCombat_erased_spec hai inv he
        (hq.imp_right fun h => h v (List.mem_cons_self ..) id r he hr hexp)
    · exact ⟨Ended.refl inv, Or.inr (Calm.refl env w)⟩

/-- The entries of `u` that have expired can be ended unheard. -/
def QuietRefs (env : Env U F) (w : World U F) (pvp : Bool) (u : U)
    (expired : CombatReference U → Prop) : Prop :=
  ∀ v i q, w.combat.combatRefs pvp u v = some i → w.combat.refs i = some q → expired q →
    QuietPair env w.threat u v

omit hai in
theorem QuietRefs.entries {pvp : Bool} {expired : CombatReference U → Prop}
    (h : QuietRefs env w pvp u expired) (l : List U) :
    QuietEntries env w.combat w.threat pvp u expired l :=
  fun v _ i q he hiq hexp => h v i q he hiq hexp

omit hai in
theorem QuietRefs.calm {pvp : Bool} {expired : CombatReference U → Prop}
    (h : QuietRefs env w pvp u expired) (hcalm : Calm env w w') (hok : ExpiryOK expired) :
    QuietRefs env w' pvp u expired :=
  fun v i q he hiq hexp =>
    hcalm pvp u expired [v] hok (h.entries [v]) v (List.mem_singleton_self v) i q he hiq hexp

theorem eraseAndEndAll_spec (inv : WorldInv strict w) {expired : CombatReference U → Bool}
    (hok : ExpiryOK fun q => expired q = true)
    (hq : Unheard strict ai ∨ QuietRefs env w b u fun q => expired q = true) :
    wp E (eraseAndEndAll env ai u b expired) w fun _ w' =>
      Ended strict w w' ∧ (Unheard strict ai ∨ Calm env w w') := by
  unfold eraseAndEndAll
  simp only [wp_bind, wp_get]
  let I : List U → World U F → Prop := fun _ w₁ =>
    Ended strict w w₁ ∧ (Unheard strict ai ∨ Calm env w w₁)
  refine (wp_forEach I ?_ _ w ⟨Ended.refl inv, Or.inr (Calm.refl env w)⟩).mono fun _ _ h => h
  rintro v l w₁ ⟨h₁, hcalm₁⟩
  have hq₁ : Unheard strict ai ∨
      QuietEntries env w₁.combat w₁.threat b u (fun q => expired q = true) (v :: l) := by
    rcases hq with hun | hq
    · exact Or.inl hun
    · rcases hcalm₁ with hun | hcalm₁
      · exact Or.inl hun
      · exact Or.inr ((hq.calm hcalm₁ hok).entries _)
  refine (eraseAndEnd_spec hai h₁.inv hq₁).mono ?_
  rintro _ w₂ ⟨h₂, hcalm₂⟩
  refine ⟨h₁.trans h₂, ?_⟩
  rcases hcalm₁ with hun | hcalm₁
  · exact Or.inl hun
  · exact hcalm₂.imp_right hcalm₁.trans

omit hai in
theorem expiryOK_beyondRange : ExpiryOK fun q => beyondRange env q = true := by
  intro r r' hf hs _ _ h
  unfold beyondRange at h ⊢
  rw [← hf, ← hs]
  exact h

omit hai in
theorem expiryOK_invalidated (u : U) : ExpiryOK fun q => invalidated env u q = true := by
  intro r r' hf hs _ _ h
  unfold invalidated CombatReference.getOther at h ⊢
  rw [← hf, ← hs]
  exact h

theorem endCombatBeyondRange_spec (inv : WorldInv strict w) (includingPvP : Bool)
    (hq : Unheard strict ai ∨ (QuietRefs env w false u (fun q => beyondRange env q = true) ∧
      (includingPvP = true → QuietRefs env w true u fun q => beyondRange env q = true))) :
    wp E (endCombatBeyondRange env ai u includingPvP) w fun _ w' => Ended strict w w' := by
  unfold endCombatBeyondRange
  rw [wp_bind]
  refine (eraseAndEndAll_spec hai inv expiryOK_beyondRange (hq.imp_right And.left)).mono ?_
  rintro - w₁ ⟨h₁, hcalm₁⟩
  refine wp_ite (fun hpvp => ?_) fun _ => h₁
  have hq₁ : Unheard strict ai ∨ QuietRefs env w₁ true u fun q => beyondRange env q = true := by
    rcases hq with hun | ⟨-, hq⟩
    · exact Or.inl hun
    · exact hcalm₁.imp_right fun hc => (hq hpvp).calm hc expiryOK_beyondRange
  exact (eraseAndEndAll_spec hai h₁.inv expiryOK_beyondRange hq₁).mono fun _ w₂ h₂ =>
    h₁.trans h₂.1

theorem revalidateCombat_spec (inv : WorldInv strict w)
    (hq : Unheard strict ai ∨ (QuietRefs env w false u (fun q => invalidated env u q = true) ∧
      QuietRefs env w true u fun q => invalidated env u q = true)) :
    wp E (revalidateCombat env ai u) w fun _ w' => Ended strict w w' := by
  unfold revalidateCombat
  rw [wp_bind]
  refine (eraseAndEndAll_spec hai inv (expiryOK_invalidated u) (hq.imp_right And.left)).mono ?_
  rintro - w₁ ⟨h₁, hcalm₁⟩
  have hq₁ : Unheard strict ai ∨ QuietRefs env w₁ true u fun q => invalidated env u q = true := by
    rcases hq with hun | ⟨-, hq⟩
    · exact Or.inl hun
    · exact hcalm₁.imp_right fun hc => hq.calm hc (expiryOK_invalidated u)
  exact (eraseAndEndAll_spec hai h₁.inv (expiryOK_invalidated u) hq₁).mono fun _ w₂ h₂ =>
    h₁.trans h₂.1

/-! ### Timers -/

omit hai in
/-- The timer of `u`'s own PvP reference runs out within `tdiff`. -/
def TimesOut (u : U) (tdiff : Nat) (q : CombatReference U) : Prop :=
  q.first = u ∧ q.combatTimer ≤ tdiff

omit hai in
theorem expiryOK_timesOut (u : U) (tdiff : Nat) : ExpiryOK (TimesOut u tdiff) := by
  rintro r r' hf - ht hle ⟨hfirst, htimer⟩
  refine ⟨hf.symm.trans hfirst, ?_⟩
  rcases ht with ht | ht
  · exact ht ▸ htimer
  · exact le_trans hle (ht ▸ htimer)

theorem updateEntry_spec (inv : WorldInv strict w) {tdiff : Nat} {l : List U}
    (hnodup : (v :: l).Nodup)
    (hq : Unheard strict ai ∨
      QuietEntries env w.combat w.threat true u (TimesOut u tdiff) (v :: l)) :
    wp E (updateEntry env ai u tdiff v) w fun _ w' => Ended strict w w' ∧
      (Unheard strict ai ∨ QuietEntries env w'.combat w'.threat true u (TimesOut u tdiff) l) := by
  have htail : Unheard strict ai ∨
      QuietEntries env w.combat w.threat true u (TimesOut u tdiff) l :=
    hq.imp_right fun h z hz => h z (List.mem_cons_of_mem _ hz)
  unfold updateEntry
  simp only [wp_bind, wp_get]
  split
  · exact ⟨Ended.refl inv, htail⟩
  · next id he =>
    obtain ⟨r, hr, -⟩ := inv.combat.refs.entry he
    simp only [onCombat, wp_bind, wp_zoom]
    refine (tickReference_spec inv.combat hr u tdiff).mono fun res c₁ hres => ?_
    cases res with
    | true =>
      obtain ⟨rfl, hfirst, htimer⟩ := hres
      simp only [if_true, purgeReference, wp_bind, wp_zoom, wp_modify]
      refine (endCombat_erased_spec hai inv he (hq.imp_right fun h =>
        h v (List.mem_cons_self ..) id r he hr ⟨hfirst, htimer⟩)).mono ?_
      rintro _ w₂ ⟨h₂, hcalm⟩
      refine ⟨h₂, ?_⟩
      rcases htail with hun | htail
      · exact Or.inl hun
      · exact hcalm.imp_right fun hc => hc _ _ _ _ (expiryOK_timesOut u tdiff) htail
    | false =>
      obtain ⟨wf₁, hent, hrefs⟩ := hres
      simp only [Bool.false_eq_true, if_false, wp_pure]
      refine ⟨⟨⟨wf₁, inv.threat, fun a z i hi => ?_, inv.processed, inv.logged⟩, fun hh => hh⟩, ?_⟩
      · obtain ⟨b', j, hj⟩ := inv.backed a z i hi
        exact ⟨b', j, by rw [hent]; exact hj⟩
      · -- only the reference with `v` was written
        refine htail.imp_right fun ht z hz i q hez hiq hexp => ?_
        rw [hent] at hez
        have hne : i ≠ id := by
          rintro rfl
          have hj := (inv.combat.refs.joins he hr).2
          have hj' := (inv.combat.refs.joins hez hr).2
          have huv : u ≠ v := by
            obtain ⟨_, _, _, hne, _⟩ := inv.combat.refs.entry he
            exact hne
          have hzv : z = v := by
            rcases hj with ⟨h1, h2⟩ | ⟨h1, h2⟩ <;> rcases hj' with ⟨h3, h4⟩ | ⟨h3, h4⟩
            · exact h4.symm.trans h2
            · exact absurd (h4.symm.trans h2) huv
            · exact absurd (h3.symm.trans h1) huv
            · exact h3.symm.trans h1
          exact (List.nodup_cons.mp hnodup).1 (hzv ▸ hz)
        rw [hrefs i hne] at hiq
        exact ht z hz i q hez hiq hexp

theorem combatUpdate_spec (inv : WorldInv strict w) (tdiff : Nat)
    (hq : Unheard strict ai ∨ QuietRefs env w true u (TimesOut u tdiff)) :
    wp E (combatUpdate env ai u tdiff) w fun _ w' => Ended strict w w' := by
  unfold combatUpdate
  simp only [wp_bind, wp_get]
  let I : List U → World U F → Prop := fun l w₁ => l.Nodup ∧ Ended strict w w₁ ∧
    (Unheard strict ai ∨ QuietEntries env w₁.combat w₁.threat true u (TimesOut u tdiff) l)
  refine (wp_forEach I ?_ _ w ?_).mono fun _ _ h => h.2.1
  · rintro v l w₁ ⟨hnodup, h₁, hq₁⟩
    refine (updateEntry_spec hai h₁.inv hnodup hq₁).mono ?_
    rintro _ w₂ ⟨h₂, hq₂⟩
    exact ⟨hnodup.of_cons, h₁.trans h₂, hq₂⟩
  · exact ⟨env.nodup_combatOrder .., Ended.refl inv, hq.imp_right fun h => h.entries _⟩

end erasing

end EGServer.Combat

/-!
# Adding threat, and whole runs

The rest of the operations, and with them the induction over a run: `exec_spec` is the step
lemma, `run_spec` what it gives for every sequence of calls.
-/

set_option linter.unusedSectionVars false

namespace EGServer.Combat

open StateExcept

variable {U F : Type} [DecidableEq U] [RoundedArith F] {env : Env U F} {E : Abort → Prop}
variable {ai : AI U F} {strict : Prop} {w w' w'' : World U F} {u v x y : U} {b : Bool}

theorem onThreat_adjusted {m : ThreatM U F Unit} (inv : WorldInv strict w)
    (h : wp E m w.threat fun _ t' => Adjusted w.threat t') :
    wp E (onThreat m) w fun _ w' => Ended strict w w' := by
  rw [onThreat, wp_zoom]
  refine h.mono fun _ t' ha => ⟨?_, ha.heapInv⟩
  exact inv.withThreat (inv.threat.of_sameLists ha.toSameLists)
    (fun a z i hi => by rw [← ha.myThreat]; exact hi)
    fun z => (congrFun ha.needsAIUpdate z).trans (inv.processed z)

section heard

variable (hai : AIContract strict E ai)

include hai

/-! ## Combat without threat -/

theorem suppressFor_spec (inv : WorldInv strict w) {id : RefId}
    (he : w.combat.combatRefs b u v = some id) :
    wp E (suppressFor env ai id u) w fun _ w' => Ended strict w w' := by
  obtain ⟨r, hr, -⟩ := inv.combat.refs.entry he
  unfold suppressFor onCombat
  simp only [wp_bind, wp_zoom]
  refine wp_derefCombat hr ?_
  simp only [wp_modify]
  refine (suppressFor_combat_spec inv.combat he hr).mono ?_
  rintro _ c₁ ⟨wf₁, hext₁⟩
  have h₀ := Hooked.withCombat inv wf₁ hext₁
  exact (notifyExitedCombat_spec hai h₀.inv _ _).mono fun _ _ h => (h₀.trans h).ended

theorem suppressPvPCombat_spec (inv : WorldInv strict w) (u : U) :
    wp E (suppressPvPCombat env ai u) w fun _ w' => Ended strict w w' := by
  unfold suppressPvPCombat
  rw [wp_bind, onCombat, wp_zoom]
  refine (suppressPvPCombat_combat_spec inv.combat u).mono ?_
  rintro _ c₁ ⟨wf₁, hext₁⟩
  have h₀ := Hooked.withCombat inv wf₁ hext₁
  exact (notifyExitedCombat_spec hai h₀.inv _ _).mono fun _ _ h => (h₀.trans h).ended

theorem inheritEntry_spec (inv : WorldInv strict w) (owner who : U) (pvp : Bool) (guid : U) :
    wp E (inheritEntry env ai owner who pvp guid) w fun _ w' => Hooked strict w w' := by
  unfold inheritEntry
  simp only [wp_bind, wp_get]
  split
  · exact Hooked.refl inv
  · next id he =>
    obtain ⟨r, hr, -⟩ := inv.combat.refs.entry he
    simp only [onCombat, wp_bind, wp_zoom]
    refine (isInCombatWith_spec owner guid).mono ?_
    rintro known c ⟨rfl, -⟩
    refine wp_derefCombat hr (wp_ite (fun _ => Hooked.refl inv) fun _ => ?_)
    simp only [wp_bind]
    exact (setInCombatWith_spec hai inv owner _ false).mono fun _ _ h => h.1

theorem inheritCombatStatesFrom_spec (inv : WorldInv strict w) (owner who : U) :
    wp E (inheritCombatStatesFrom env ai owner who) w fun _ w' => Ended strict w w' := by
  have hloop : ∀ (w : World U F) (pvp : Bool) (l : List U), WorldInv strict w →
      wp E (forEach l (inheritEntry env ai owner who pvp)) w fun _ w' => Hooked strict w w' :=
    fun w pvp l inv => wp_forEach_inv (Hooked strict w) l (fun guid _ w₁ h₁ =>
      (inheritEntry_spec hai h₁.inv owner who pvp guid).mono fun _ _ h => h₁.trans h)
      w (Hooked.refl inv)
  unfold inheritCombatStatesFrom
  simp only [wp_bind, wp_get]
  refine (hloop w false _ inv).mono fun _ w₁ h₁ => ?_
  exact (hloop w₁ true _ h₁.inv).mono fun _ _ h₂ => (h₁.trans h₂).ended

/-! ## Ending everything -/

theorem endAllIn_spec (hE : E .outOfFuel) (inv : WorldInv strict w) (pvp : Bool) (owner : U) :
    wp E (endAllIn env ai pvp owner) w fun _ w' => Ended strict w w' := by
  unfold endAllIn
  refine (wp_whileSome (Ended strict w) hE ?_ env.fuel w (Ended.refl inv)).mono fun _ _ h => h.1
  intro id w₁ h₁ hnext
  have hmem := List.mem_of_mem_head? hnext
  rw [List.mem_filterMap] at hmem
  obtain ⟨v, -, he⟩ := hmem
  obtain ⟨r, hr, -⟩ := h₁.inv.combat.refs.entry he
  exact (endCombat_spec hai h₁.inv hr).mono fun _ _ h => h₁.trans h

theorem removeMeFromThreatLists_spec (hE : E .outOfFuel) (inv : WorldInv strict w) (u : U) :
    wp E (removeMeFromThreatLists env ai u) w fun _ w' => Ended strict w w' := by
  unfold removeMeFromThreatLists
  refine (wp_whileSome (Ended strict w) hE ?_ env.fuel w (Ended.refl inv)).mono fun _ _ h => h.1
  intro id w₁ h₁ hnext
  obtain ⟨r, hr⟩ := h₁.inv.threat.live_refsOf (List.mem_of_mem_head? hnext)
  simp only [onThreat, wp_bind, wp_zoom]
  refine wp_derefThreat hr ?_
  exact (clearThreat_spec hai h₁.inv r.owner u).mono fun _ _ h => h₁.trans h.1.ended

omit hai in
theorem clearAllThreat_world_spec (hE : E .outOfFuel) (inv : WorldInv strict w) (u : U) :
    wp E (onThreat (clearAllThreat env u)) w fun _ w' => Ended strict w w' := by
  rw [onThreat, wp_zoom]
  refine (clearAllThreat_spec hE inv.threat u).mono ?_
  rintro _ t₁ ⟨h₁, _⟩
  refine ⟨?_, h₁.heapInv⟩
  exact inv.withThreat h₁.wf (fun _ _ _ hi => h₁.myThreat hi)
    fun z => (congrFun h₁.needsAIUpdate z).trans (inv.processed z)

theorem endAllPvECombat_spec (hE : E .outOfFuel) (inv : WorldInv strict w) (owner : U) :
    wp E (endAllPvECombat env ai owner) w fun _ w' => Ended strict w w' := by
  unfold endAllPvECombat
  rw [wp_bind]
  refine (removeMeFromThreatLists_spec hai hE inv owner).mono fun _ w₁ h₁ => ?_
  rw [wp_bind]
  refine (clearAllThreat_world_spec hE h₁.inv owner).mono fun _ w₂ h₂ => ?_
  exact (endAllIn_spec hai hE h₂.inv false owner).mono fun _ _ h₃ => h₁.trans (h₂.trans h₃)

/-! ## AddThreat -/

theorem enterCombatOnly_spec (inv : WorldInv strict w) (owner target : U) :
    wp E (enterCombatOnly env ai owner target) w fun _ w' => Ended strict w w' := by
  unfold enterCombatOnly
  rw [wp_bind]
  refine (setInCombatWith_spec hai inv owner target false).mono ?_
  rintro res w₁ ⟨h₁, _⟩
  refine wp_ite (fun _ => h₁.ended) fun _ => ?_
  refine (wp_forEach_inv (Hooked strict w) _ ?_ w₁ h₁).mono fun _ _ h => h.ended
  rintro pair - w₂ h₂
  simp only [onCombat, wp_bind, wp_zoom]
  refine (isInCombatWith_spec owner pair.1).mono ?_
  rintro known c ⟨rfl, -⟩
  refine wp_ite (fun _ => h₂) fun _ => ?_
  split
  · exact h₂
  · simp only [wp_bind]
    exact (setInCombatWith_spec hai h₂.inv owner _ false).mono fun _ _ h => h₂.trans h.1

omit hai in
theorem Grown.worldInv {owner target : U} {t : ThreatState U F}
    (hg : Grown owner target w.threat t) (inv : WorldInv strict w) {id : RefId}
    (he : w.combat.combatRefs b owner target = some id) :
    WorldInv strict { w with threat := t.processed owner } where
  combat := inv.combat
  threat := hg.wf.processed owner
  backed a z i hi := by
    rcases hg.myThreat hi with hold | ⟨rfl, rfl⟩
    · exact inv.backed a z i hold
    · exact ⟨b, id, he⟩
  processed := t.processed_needs owner fun z hz =>
    (hg.needsOther z hz).trans (inv.processed z)
  logged := inv.logged

theorem applyThreat_spec (inv : WorldInv strict w) {owner target : U} {id : RefId}
    (he : w.combat.combatRefs b owner target = some id) (amount : F) :
    wp E (applyThreat env ai owner target amount) w fun _ w' => Ended strict w w' := by
  unfold applyThreat
  simp only [wp_bind, wp_get]
  split
  · next i hi =>
    obtain ⟨r, hr, -⟩ := inv.threat.live hi
    exact onThreat_adjusted inv (raiseThreat_spec inv.threat hr amount)
  · next hnone =>
    simp only [onThreat, wp_bind, wp_zoom]
    refine (createThreat_spec inv.threat hnone amount).mono fun _ t₁ hg => ?_
    have inv₁ := hg.worldInv inv he
    simp only [wp_get]
    split
    · exact (updateVictim_spec (w := { w with threat := t₁ }) hai owner inv₁).mono fun _ _ h =>
        ⟨h.inv, fun hh => h.heapInv (hg.heapInv hh)⟩
    · exact (processAIUpdates_spec (w := { w with threat := t₁ }) hai inv₁).mono fun _ _ h =>
        ⟨h.inv, fun hh => by rw [h.threat]; exact (hg.heapInv hh).processed owner⟩

omit hai in
theorem redirectTarget_spec (inv : WorldInv strict w) (owner guid : U) :
    wp E (onThreat (redirectTarget env owner guid)) w fun _ w' => w' = w := by
  unfold redirectTarget
  rw [onThreat, wp_zoom]
  simp only [wp_bind, wp_get]
  split
  · next i hi =>
    obtain ⟨r, hr, -⟩ := inv.threat.live hi
    simp only [wp_bind]
    exact wp_derefThreat hr rfl
  · rfl

omit hai in
theorem redirectThreat_spec {add : U → F → WorldM U F Unit} {owner : U} {origAmount : F}
    (hadd : ∀ w other amount, WorldInv strict w →
      wp E (add other amount) w fun _ w' => Ended strict w w') :
    ∀ (l : List (U × Nat)) (amount : F) (w : World U F), WorldInv strict w →
      wp E (redirectThreat env add owner origAmount l amount) w fun _ w' => Ended strict w w'
  | [], _, _, inv => Ended.refl inv
  | (guid, pct) :: rest, amount, w, inv => by
    rw [redirectThreat, wp_bind]
    refine (redirectTarget_spec inv owner guid).mono ?_
    rintro target _ rfl
    cases target with
    | none => exact redirectThreat_spec hadd rest amount _ inv
    | some target =>
      rw [wp_bind]
      refine (hadd _ target _ inv).mono fun _ w₁ h₁ => ?_
      exact (redirectThreat_spec hadd rest _ w₁ h₁.inv).mono fun _ _ h₂ => h₁.trans h₂

omit hai in
theorem passThreat_spec {add : U → F → WorldM U F Unit} (inv : WorldInv strict w)
    (hadd : ∀ w other amount, WorldInv strict w →
      wp E (add other amount) w fun _ w' => Ended strict w w') (other : Option U) (amount : F) :
    wp E (passThreat add other amount) w fun _ w' => Ended strict w w' := by
  unfold passThreat
  cases other with
  | none => exact Ended.refl inv
  | some other =>
    rw [wp_bind]
    exact (hadd w other amount inv).mono fun _ _ h => h

/-- **Specification of `AddThreat`**, by induction on the depth of the recursion. -/
theorem addThreat_spec (hE : E .outOfFuel) (fuel : Nat) (inv : WorldInv strict w)
    (owner target : U) (amount : F) (spell : Option SpellInfo)
    (ignoreModifiers ignoreRedirects : Bool) :
    wp E (addThreat env ai fuel owner target amount spell ignoreModifiers ignoreRedirects) w
      fun _ w' => Ended strict w w' := by
  induction fuel generalizing w owner target amount ignoreModifiers ignoreRedirects with
  | zero => exact hE
  | succ fuel ih =>
    rw [addThreat]
    refine wp_ite (fun _ => Ended.refl inv) fun _ => ?_
    rw [wp_bind]
    refine (passThreat_spec inv (fun w other amount inv => ih inv ..) _ _).mono fun a₁ w₁ h₁ => ?_
    refine wp_ite (fun _ => h₁) fun _ => ?_
    rw [wp_bind]
    refine (passThreat_spec h₁.inv (fun w other amount inv => ih inv ..) _ _).mono
      fun a₂ w₂ h₂ => ?_
    refine wp_ite (fun _ => ?_) fun _ => ?_
    · exact (enterCombatOnly_spec hai h₂.inv owner target).mono fun _ _ h₃ =>
        h₁.trans (h₂.trans h₃)
    · rw [wp_bind]
      refine (redirectThreat_spec (fun w other amount inv => ih inv ..) _ _ w₂ h₂.inv).mono
        fun a₃ w₃ h₃ => ?_
      rw [wp_bind]
      refine (setInCombatWith_spec hai h₃.inv owner target false).mono ?_
      rintro res w₄ ⟨h₄, hres⟩
      have h₀₄ : Ended strict w w₄ := h₁.trans (h₂.trans (h₃.trans h₄.ended))
      refine wp_ite (fun hin => ?_) fun _ => h₀₄
      obtain ⟨b, id, he⟩ := hres hin
      exact (applyThreat_spec hai h₄.inv he a₃).mono fun _ _ h₅ => h₀₄.trans h₅

omit hai in
theorem highestThreat_spec (inv : WorldInv strict w) (u : U) :
    wp E (onThreat (highestThreat env u)) w fun _ w' => w' = w := by
  have hlive : ∀ id ∈ env.heapOrder w.threat u, ∃ r, w.threat.threats id = some r := fun id hid =>
    inv.threat.live_inList (inv.threat.mem_heapOrder.mp hid)
  unfold highestThreat
  rw [onThreat, wp_zoom]
  simp only [wp_bind, wp_get]
  split
  · rfl
  · next top rest hheap =>
    obtain ⟨highest, htop⟩ := hlive top (hheap ▸ List.mem_cons_self ..)
    simp only [wp_bind]
    refine wp_derefThreat htop (wp_ite (fun _ => rfl) fun _ => ?_)
    split
    · next next' rest' _ =>
      obtain ⟨a, ha⟩ := hlive next' (hheap ▸ List.mem_cons_of_mem _ (List.mem_cons_self ..))
      simp only [wp_bind]
      exact wp_derefThreat ha rfl
    · rfl

omit hai in
theorem getThreat_spec (inv : WorldInv strict w) (u who : U) :
    wp E (onThreat (getThreat u who)) w fun _ w' => w' = w := by
  unfold getThreat
  rw [onThreat, wp_zoom]
  simp only [wp_bind, wp_get]
  split
  · rfl
  · next id hid =>
    obtain ⟨r, hr, -⟩ := inv.threat.live hid
    simp only [wp_bind]
    exact wp_derefThreat hr rfl

theorem matchUnitThreatToHighestThreat_spec (hE : E .outOfFuel) (inv : WorldInv strict w)
    (u target : U) :
    wp E (matchUnitThreatToHighestThreat env ai u target) w fun _ w' => Ended strict w w' := by
  unfold matchUnitThreatToHighestThreat
  rw [wp_bind]
  refine (highestThreat_spec inv u).mono ?_
  rintro highest _ rfl
  cases highest with
  | none => exact Ended.refl inv
  | some highest =>
    rw [wp_bind]
    refine (getThreat_spec inv u target).mono ?_
    rintro own _ rfl
    exact addThreat_spec hai hE env.fuel inv ..

omit hai in
theorem ownersOf_spec {t : ThreatState U F} :
    ∀ ids : List ThreatId, (∀ id ∈ ids, ∃ r, t.threats id = some r) →
      wp E (ownersOf ids) t fun _ t' => t' = t
  | [], _ => rfl
  | id :: ids, h => by
    obtain ⟨r, hr⟩ := h id (List.mem_cons_self ..)
    rw [ownersOf, wp_bind]
    refine wp_derefThreat hr ?_
    rw [wp_bind]
    exact (ownersOf_spec ids fun i hi => h i (List.mem_cons_of_mem _ hi)).mono fun _ _ h => h

theorem forwardThreatForAssistingMe_spec (hE : E .outOfFuel) (inv : WorldInv strict w)
    (u assistant : U) (baseAmount : F) (spell : Option SpellInfo) (ignoreModifiers : Bool) :
    wp E (forwardThreatForAssistingMe env ai u assistant baseAmount spell ignoreModifiers) w
      fun _ w' => Ended strict w w' := by
  have hloop : ∀ (w : World U F) (amount : F) (mods : Bool) (l : List U), WorldInv strict w →
      wp E (forEach l fun threatened =>
        addThreat env ai env.fuel threatened assistant amount spell mods false) w
        fun _ w' => Ended strict w w' :=
    fun w amount mods l inv => wp_forEach_inv (Ended strict w) l (fun threatened _ w₁ h₁ =>
      (addThreat_spec hai hE env.fuel h₁.inv ..).mono fun _ _ h => h₁.trans h) w (Ended.refl inv)
  unfold forwardThreatForAssistingMe
  refine wp_ite (fun _ => Ended.refl inv) fun _ => ?_
  rw [wp_bind, onThreat, wp_zoom]
  simp only [wp_bind, wp_get]
  refine (ownersOf_spec _ fun id hid => inv.threat.live_refsOf hid).mono ?_
  rintro owners _ rfl
  refine (hloop w _ _ _ inv).mono fun _ w₁ h₁ => ?_
  exact (hloop w₁ _ _ _ h₁.inv).mono fun _ _ h₂ => h₁.trans h₂

omit hai in
theorem WorldInv.withTimer (inv : WorldInv strict w) (timer : U → Nat) :
    Ended strict w { w with threat := { w.threat with updateTimer := timer } } where
  inv := inv.withThreat ⟨inv.threat.live, inv.threat.stored, inv.threat.mirrored, inv.threat.heap,
    inv.threat.heap_nodup, inv.threat.fresh, inv.threat.victim, inv.threat.fixated⟩
    (fun _ _ _ hi => hi) inv.processed
  heapInv hh := ⟨hh.seen, hh.base, hh.honest⟩

theorem threatUpdate_spec (inv : WorldInv strict w) (u : U) (tdiff : Nat) :
    wp E (threatUpdate env ai u tdiff) w fun _ w' => Ended strict w w' := by
  unfold threatUpdate onThreat
  simp only [wp_bind, wp_get]
  refine wp_ite (fun _ => Ended.refl inv) fun _ => wp_ite (fun _ => ?_) fun _ => ?_
  · rw [wp_bind]
    refine (updateVictim_spec hai u (inv.withProcessed u)).mono fun _ w₁ h₁ => ?_
    rw [wp_zoom, wp_modify]
    exact h₁.ended.trans (h₁.inv.withTimer _)
  · rw [wp_zoom, wp_modify]
    exact inv.withTimer _

end heard

/-! ## Steps and runs -/

/-- The condition under which an operation that erases first is not heard while the world is
torn, stated on the state before it: every reference that it ends is quiet on both sides. -/
def QuietOp (env : Env U F) : Op U F → World U F → Prop
  | .endCombatBeyondRange u includingPvP, w =>
    QuietRefs env w false u (fun q => beyondRange env q = true) ∧
      (includingPvP = true → QuietRefs env w true u fun q => beyondRange env q = true)
  | .revalidateCombat u, w =>
    QuietRefs env w false u (fun q => invalidated env u q = true) ∧
      QuietRefs env w true u fun q => invalidated env u q = true
  | .combatUpdate u tdiff, w => QuietRefs env w true u (TimesOut u tdiff)
  | _, _ => True

/-- The condition under which an operation announces the right directions to the heaps,
stated on the state before it. -/
def HonestOp (env : Env U F) : Op U F → World U F → Prop
  | .updateMyTempModifiers u, w => TempModifiersHonest env u w.threat
  | _, _ => True

/-- **The step lemma.** An operation keeps the joint invariant, and aborts at most for want
of fuel. -/
theorem exec_spec (hai : AIContract strict E ai) (hE : E .outOfFuel) (inv : WorldInv strict w)
    (op : Op U F) (hq : Unheard strict ai ∨ QuietOp env op w) :
    wp E (exec env ai op) w fun _ w' => WorldInv strict w' ∧
      (HonestOp env op w → HeapInv w.threat → HeapInv w'.threat) := by
  have ended : ∀ {m : WorldM U F Unit}, (wp E m w fun _ w' => Ended strict w w') →
      wp E m w fun _ w' => WorldInv strict w' ∧
        (HonestOp env op w → HeapInv w.threat → HeapInv w'.threat) :=
    fun h => h.mono fun _ _ h => ⟨h.inv, fun _ hh => h.heapInv hh⟩
  cases op with
  | setInCombatWith owner who suppressed =>
    refine ended ?_
    rw [exec, wp_bind]
    exact (setInCombatWith_spec hai inv owner who suppressed).mono fun _ _ h => h.1.ended
  | addThreat owner target amount spell mods redirects =>
    exact ended (addThreat_spec hai hE env.fuel inv ..)
  | endCombat pvp owner who =>
    refine ended ?_
    simp only [exec, withReference, wp_bind, wp_get]
    split
    · exact Ended.refl inv
    · next id he =>
      obtain ⟨r, hr, -⟩ := inv.combat.refs.entry he
      exact endCombat_spec hai inv hr
  | suppressFor pvp who other =>
    refine ended ?_
    simp only [exec, withReference, wp_bind, wp_get]
    split
    · exact Ended.refl inv
    · next id he => exact suppressFor_spec hai inv he
  | suppressPvPCombat owner => exact ended (suppressPvPCombat_spec hai inv owner)
  | endCombatBeyondRange owner pvp => exact ended (endCombatBeyondRange_spec hai inv pvp hq)
  | revalidateCombat owner => exact ended (revalidateCombat_spec hai inv hq)
  | endAllPvECombat owner => exact ended (endAllPvECombat_spec hai hE inv owner)
  | endAllPvPCombat owner => exact ended (endAllIn_spec hai hE inv true owner)
  | combatUpdate owner tdiff => exact ended (combatUpdate_spec hai inv tdiff hq)
  | inheritCombatStatesFrom owner who => exact ended (inheritCombatStatesFrom_spec hai inv owner who)
  | clearThreat owner target =>
    exact ended ((clearThreat_spec hai inv owner target).mono fun _ _ h => h.1.ended)
  | clearAllThreat owner => exact ended (clearAllThreat_world_spec hE inv owner)
  | removeMeFromThreatLists owner => exact ended (removeMeFromThreatLists_spec hai hE inv owner)
  | scaleThreat owner target factor =>
    exact ended (onThreat_adjusted inv (scaleThreat_spec inv.threat owner target factor))
  | matchUnitThreatToHighestThreat owner target =>
    exact ended (matchUnitThreatToHighestThreat_spec hai hE inv owner target)
  | resetAllThreat owner => exact ended (onThreat_adjusted inv (resetAllThreat_spec inv.threat owner))
  | fixateTarget owner target =>
    refine ended ?_
    rw [exec, onThreat, wp_zoom, fixateTarget, wp_modify]
    refine ⟨inv.withThreat (inv.threat.setFixate fun id hid => ?_) (fun _ _ _ hi => hi)
      inv.processed, fun hh => ⟨hh.seen, hh.base, hh.honest⟩⟩
    obtain ⟨z, -, hz⟩ := Option.bind_eq_some_iff.mp hid
    exact ⟨z, hz⟩
  | tauntUpdate owner => exact ended (onThreat_adjusted inv (tauntUpdate_spec inv.threat owner))
  | evaluateSuppressed owner canExpire =>
    exact ended (onThreat_adjusted inv (evaluateSuppressed_spec inv.threat owner canExpire))
  | updateMyTempModifiers owner =>
    rw [exec, onThreat, wp_zoom]
    refine (updateMyTempModifiers_spec inv.threat owner).mono ?_
    rintro _ t' ⟨hl, hn, hh⟩
    refine ⟨?_, hh⟩
    exact inv.withThreat (inv.threat.of_sameLists hl)
      (fun a z i hi => by rw [← hl.myThreat]; exact hi)
      fun z => (congrFun hn z).trans (inv.processed z)
  | forwardThreatForAssistingMe owner assistant amount spell mods =>
    exact ended (forwardThreatForAssistingMe_spec hai hE inv ..)
  | threatUpdate owner tdiff => exact ended (threatUpdate_spec hai inv owner tdiff)
  | updateVictim owner =>
    exact ended ((updateVictim_spec hai owner (inv.withProcessed owner)).mono fun _ _ h => h.ended)

/-- **The run lemma** for AIs that do nothing and of which no record is kept. -/
theorem run_spec (hE : E .outOfFuel) (steps : List (Step U F)) (inv : WorldInv False w) :
    wp E (run (fun _ => silentAI) steps) w fun _ w' => WorldInv False w' := by
  induction steps generalizing w with
  | nil => exact inv
  | cons step steps ih =>
    rw [run, wp_bind]
    have hun : Unheard False (silentAI : AI U F) := ⟨fun h => h, rfl⟩
    exact (exec_spec silentAI_contract hE inv step.op (Or.inl hun)).mono fun _ _ h => ih h.1

end EGServer.Combat

/-!
# The representation invariant

What the comments of the combat and threat system promise of every state between two
operations, spelled out over the maps, the heaps and the flags, and its proof for every
sequence of operations.
-/

namespace EGServer.Combat

open StateExcept

variable {U F : Type}

/-- **The joint representation of combat and threat.** -/
structure Represented [DecidableEq U] (w : World U F) : Prop where
  /-- `A`'s map holds a reference under `B`'s guid iff `B`'s map holds it under `A`'s. -/
  mirrored : ∀ pvp a b id,
    w.combat.combatRefs pvp a b = some id ↔ w.combat.combatRefs pvp b a = some id
  /-- That reference is of the map's kind, and joins exactly `A` and `B`, two distinct units. -/
  joined : ∀ pvp a b id, w.combat.combatRefs pvp a b = some id → a ≠ b ∧
    ∃ r, w.combat.refs id = some r ∧ r.isPvP = pvp ∧
      ((r.first = a ∧ r.second = b) ∨ (r.first = b ∧ r.second = a))
  /-- No pair of units has both a PvE and a PvP reference. -/
  exclusive : ∀ a b, w.combat.combatRefs false a b = none ∨ w.combat.combatRefs true a b = none
  /-- A unit is flagged as in combat iff it has a reference that is not suppressed for it. -/
  flagged : ∀ a, w.combat.inCombat a = true ↔ ∃ pvp b id r,
    w.combat.combatRefs pvp a b = some id ∧ w.combat.refs id = some r ∧
      r.isSuppressedFor a = false
  /-- A threat reference is in the owner's map iff it is in the victim's. -/
  threatMirrored : ∀ owner victim id,
    w.threat.myThreat owner victim = some id ↔ w.threat.threatenedByMe victim owner = some id
  /-- The maps hold live references with that owner and victim ... -/
  threatLive : ∀ owner victim id, w.threat.myThreat owner victim = some id →
    ∃ r, w.threat.threats id = some r ∧ r.owner = owner ∧ r.victim = victim
  /-- ... and every live reference is in the maps. -/
  threatStored : ∀ id r, w.threat.threats id = some r → w.threat.myThreat r.owner r.victim = some id
  /-- The heap of a unit holds the references of its list, each once. -/
  heap : ∀ a, ((w.threat.sorted a).map Prod.fst).Nodup ∧
    ∀ id, id ∈ (w.threat.sorted a).map Prod.fst ↔ ∃ b, w.threat.myThreat a b = some id
  /-- Threat implies combat, in both maps. -/
  backed : ∀ owner victim id, w.threat.myThreat owner victim = some id →
    ∃ pvp r, w.combat.combatRefs pvp owner victim = some r ∧
      w.combat.combatRefs pvp victim owner = some r
  /-- The current victim and the fixated one are on the unit's own list. -/
  cached : ∀ a id, w.threat.currentVictim a = some id ∨ w.threat.fixate a = some id →
    ∃ b, w.threat.myThreat a b = some id
  /-- No AI update is left to be processed. -/
  processed : ∀ a, w.threat.needsAIUpdate a = []

variable [DecidableEq U]

theorem WorldInv.represented {strict : Prop} {w : World U F} (inv : WorldInv strict w) :
    Represented w where
  mirrored _ _ _ _ := ⟨inv.combat.refs.symm, inv.combat.refs.symm⟩
  joined pvp a b id he := by
    obtain ⟨r, hr, hp, hne, hj⟩ := inv.combat.refs.entry he
    exact ⟨hne, r, hr, hp, hj⟩
  exclusive a b := (inv.combat.refs.exclusive a b).symm
  flagged a := inv.combat.flags a
  threatMirrored owner victim id := by rw [inv.threat.mirrored]
  threatLive _ _ _ h := inv.threat.live h
  threatStored _ _ h := inv.threat.stored h
  heap a := ⟨inv.threat.heap_nodup a, inv.threat.heap a⟩
  backed owner victim id h := by
    obtain ⟨pvp, r, hr⟩ := inv.backed _ _ _ h
    exact ⟨pvp, r, hr, inv.combat.refs.symm hr⟩
  cached a id h := h.elim inv.threat.victim inv.threat.fixated
  processed := inv.processed

variable [RoundedArith F]

/-- **Every sequence of operations on empty managers ends in a represented world.** Whatever
the environment answers, no assertion is tripped and no dead reference is followed; the only
way not to return is to recurse or loop deeper than the model is unrolled. -/
theorem run_represented (steps : List (Step U F)) :
    wp (· = .outOfFuel) (run (fun _ => silentAI) steps) World.init fun _ w => Represented w :=
  (run_spec (E := (· = .outOfFuel)) rfl steps WorldInv.init).mono fun _ _ inv => inv.represented

end EGServer.Combat
