import EGServer.Combat.ThreatSpec
import EGServer.Combat.Operations

/-!
# What the threat code does to whole lists

The loops of `ThreatManager` over one of its maps, the selection of a victim, and the
creation and destruction of references.
-/

set_option linter.unusedSectionVars false

namespace EGServer.Combat

open StateExcept

variable {U F : Type} [DecidableEq U] [RoundedArith F] {env : Env U F} {E : Abort → Prop}
variable {t : ThreatState U F} {id : ThreatId} {r r' : ThreatReference U F} {u : U}

/-! ## Loops over a list -/

theorem mem_refsOf {k : ThreatMap} :
    id ∈ t.refsOf env k u ↔ ∃ v, t.entries k u v = some id := by
  simp [ThreatState.refsOf, List.mem_filterMap, env.mem_threatOrder]

theorem ThreatWF.live_refsOf (wf : ThreatWF t) {k : ThreatMap} (h : id ∈ t.refsOf env k u) :
    ∃ r, t.threats id = some r := by
  obtain ⟨v, hv⟩ := mem_refsOf.mp h
  cases k with
  | myThreatList =>
    obtain ⟨r, hr, -, -⟩ := wf.live hv
    exact ⟨r, hr⟩
  | threatenedByMe =>
    rw [ThreatState.entries, wf.mirrored] at hv
    obtain ⟨r, hr, -, -⟩ := wf.live hv
    exact ⟨r, hr⟩

theorem mem_refsOf_myThreatList (wf : ThreatWF t) (hr : t.threats id = some r) :
    id ∈ t.refsOf env .myThreatList r.owner :=
  mem_refsOf.mpr ⟨r.victim, wf.stored hr⟩

theorem owner_of_mem_refsOf (wf : ThreatWF t) (h : id ∈ t.refsOf env .myThreatList u)
    (hr : t.threats id = some r) : r.owner = u := by
  obtain ⟨v, hv⟩ := mem_refsOf.mp h
  obtain ⟨q, hq, ho, -⟩ := wf.live hv
  rw [hr] at hq
  cases hq
  exact ho

theorem forEach_adjusted {body : ThreatId → ThreatM U F Unit} {ids : List ThreatId}
    (wf : ThreatWF t) (hids : ∀ id ∈ ids, ∃ r, t.threats id = some r)
    (step : ∀ (t : ThreatState U F) id r, ThreatWF t → t.threats id = some r →
      wp E (body id) t fun _ t' => Adjusted t t') :
    wp E (forEach ids body) t fun _ t' => Adjusted t t' := by
  refine wp_forEach_inv (Adjusted t) ids ?_ t (Adjusted.refl t)
  intro id hid t₁ h₁
  obtain ⟨r, hr⟩ := hids id hid
  obtain ⟨r₁, hr₁, -, -⟩ := h₁.toSameLists.get hr
  exact (step t₁ id r₁ (wf.of_sameLists h₁.toSameLists) hr₁).mono fun _ _ h => h₁.trans h

theorem evaluateSuppressedRef_spec (wf : ThreatWF t) (hr : t.threats id = some r)
    (canExpire : Bool) :
    wp E (evaluateSuppressedRef env canExpire id) t fun _ t' => Adjusted t t' := by
  unfold evaluateSuppressedRef
  simp only [wp_bind]
  refine wp_derefThreat hr (wp_ite (fun hsup => ?_) fun _ => wp_ite (fun hexp => ?_) fun _ => ?_)
  · refine wp_rewrite wf hr rfl rfl fun t' h => h.adjusted (fun hinv => hinv.base (r := r) hr) ?_
    have hon : r.online = .online := by
      simp only [ThreatReference.isOnline, Bool.and_eq_true, decide_eq_true_eq] at hsup
      exact hsup.1
    exact fun _ => honest_of_online_gt (by rw [hon]; exact Nat.lt_succ_self _)
  · refine wp_rewrite wf hr rfl rfl fun t' h => h.adjusted (fun hinv => hinv.base (r := r) hr) ?_
    have hsupp : r.online = .suppressed := by
      simp only [ThreatReference.isSuppressed, Bool.and_eq_true, decide_eq_true_eq] at hexp
      exact hexp.1.2
    exact fun _ => honest_of_online_lt (by rw [hsupp]; exact Nat.lt_succ_self _)
  · exact Adjusted.refl t

theorem evaluateSuppressed_spec (wf : ThreatWF t) (u : U) (canExpire : Bool) :
    wp E (evaluateSuppressed env u canExpire) t fun _ t' => Adjusted t t' := by
  unfold evaluateSuppressed
  simp only [wp_bind, wp_get]
  exact forEach_adjusted wf (fun _ hid => wf.live_refsOf hid) fun t id r wf hr =>
    evaluateSuppressedRef_spec wf hr canExpire

theorem scaleThreat_spec (wf : ThreatWF t) (u target : U) (factor : F) :
    wp E (scaleThreat u target factor) t fun _ t' => Adjusted t t' := by
  unfold scaleThreat
  simp only [wp_bind, wp_get]
  split
  · next id hid =>
    obtain ⟨r, hr, -, -⟩ := wf.live hid
    exact ThreatReference.scaleThreat_spec wf hr (le_max_right _ _)
  · exact Adjusted.refl t

theorem resetAllThreat_spec (wf : ThreatWF t) (u : U) :
    wp E (resetAllThreat env u) t fun _ t' => Adjusted t t' := by
  unfold resetAllThreat
  simp only [wp_bind, wp_get]
  exact forEach_adjusted wf (fun _ hid => wf.live_refsOf hid) fun t id r wf hr =>
    ThreatReference.scaleThreat_spec wf hr le_rfl

theorem tauntUpdate_spec (wf : ThreatWF t) (u : U) :
    wp E (tauntUpdate env u) t fun _ t' => Adjusted t t' := by
  unfold tauntUpdate
  simp only [wp_bind, wp_get]
  refine (forEach_adjusted wf (fun _ hid => wf.live_refsOf hid) ?_).mono fun _ t₁ h₁ => ?_
  · intro t id r wf hr
    simp only [wp_bind]
    exact wp_derefThreat hr (ThreatReference.updateTauntState_spec wf hr _)
  · exact (evaluateSuppressed_spec (wf.of_sameLists h₁.toSameLists) u true).mono
      fun _ _ h => h₁.trans h

/-! ### The temporary modifiers -/

/-- The direction that `UpdateMyTempModifiers` announces is right for every reference. -/
def TempModifiersHonest (env : Env U F) (u : U) (t : ThreatState U F) : Prop :=
  ∀ first rest, t.refsOf env .threatenedByMe u = first :: rest →
    ∀ rf, t.threats first = some rf →
    ∀ id ∈ t.refsOf env .threatenedByMe u, ∀ r, t.threats id = some r →
      if rf.tempModifier < (env.threatAuras u).sum
      then r.getThreat ≤ { r with tempModifier := (env.threatAuras u).sum }.getThreat
      else { r with tempModifier := (env.threatAuras u).sum }.getThreat ≤ r.getThreat

theorem ThreatWF.nodup_refsOf (wf : ThreatWF t) (k : ThreatMap) :
    (t.refsOf env k u).Nodup := by
  refine (env.nodup_threatOrder t k u).filterMap fun v v' id hv hv' => ?_
  cases k with
  | myThreatList =>
    obtain ⟨r, hr, -, rfl⟩ := wf.live hv
    obtain ⟨r', hr', -, rfl⟩ := wf.live hv'
    rw [hr] at hr'
    cases hr'
    rfl
  | threatenedByMe =>
    have hv : t.threatenedByMe u v = some id := hv
    have hv' : t.threatenedByMe u v' = some id := hv'
    rw [wf.mirrored] at hv hv'
    obtain ⟨r, hr, rfl, -⟩ := wf.live hv
    obtain ⟨r', hr', rfl, -⟩ := wf.live hv'
    rw [hr] at hr'
    cases hr'
    rfl

/-- **Specification of `UpdateMyTempModifiers`.** It keeps the lists as they are, and the
heap honest as far as its one direction fits all references. -/
theorem updateMyTempModifiers_spec (wf : ThreatWF t) (u : U) :
    wp E (updateMyTempModifiers env u) t fun _ t' =>
      SameLists t t' ∧ t'.needsAIUpdate = t.needsAIUpdate ∧
        (TempModifiersHonest env u t → HeapInv t → HeapInv t') := by
  unfold updateMyTempModifiers
  simp only [wp_bind, wp_get]
  split
  · exact ⟨SameLists.refl t, rfl, fun _ h => h⟩
  · next first rest hids =>
    have hlive : ∀ id ∈ first :: rest, ∃ r, t.threats id = some r := fun id hid => by
      have hmem : id ∈ t.refsOf env .threatenedByMe u := hids ▸ hid
      exact wf.live_refsOf hmem
    obtain ⟨rf, hrf⟩ := hlive first (List.mem_cons_self ..)
    simp only [wp_bind]
    refine wp_derefThreat hrf ?_
    -- the references still to be visited have their old fields
    let I : List ThreatId → ThreatState U F → Prop := fun l t₁ =>
      (∀ id ∈ l, id ∈ first :: rest) ∧ l.Nodup ∧ (∀ id ∈ l, t₁.threats id = t.threats id) ∧
        SameLists t t₁ ∧ t₁.needsAIUpdate = t.needsAIUpdate ∧
        (TempModifiersHonest env u t → HeapInv t → HeapInv t₁)
    refine (wp_forEach I ?_ (first :: rest) t ?_).mono fun _ _ h => h.2.2.2
    · rintro id l t₁ ⟨hin, hnodup, hold, hlists, hneeds, hheap⟩
      obtain ⟨r, hr⟩ := hlive id (hin id (List.mem_cons_self ..))
      have hr₁ : t₁.threats id = some r := by rw [hold id (List.mem_cons_self ..), hr]
      simp only [wp_bind]
      refine wp_derefThreat hr₁ (wp_rewrite (wf.of_sameLists hlists) hr₁ rfl rfl fun t' h => ?_)
      refine ⟨fun id' hid' => hin id' (List.mem_cons_of_mem _ hid'), hnodup.of_cons, ?_,
        hlists.trans h.toSameLists, h.needsAIUpdate.trans hneeds, fun hhon hinv => ?_⟩
      · intro id' hid'
        have hne : id' ≠ id := fun he => (List.nodup_cons.mp hnodup).1 (he ▸ hid')
        rw [h.get_ne hne, hold id' (List.mem_cons_of_mem _ hid')]
      · have hinv₁ := hheap hhon hinv
        refine h.heapInv (hinv₁.base (r := r) hr₁) ?_ hinv₁
        have hdir := hhon first rest hids rf hrf id (hids ▸ hin id (List.mem_cons_self ..)) r hr
        by_cases hlt : rf.tempModifier < (env.threatAuras u).sum
        · rw [if_pos hlt] at hdir
          simp only [hlt, decide_true, if_true]
          exact honest_of_le rfl rfl hdir
        · rw [if_neg hlt] at hdir
          simp only [hlt, decide_false, Bool.false_eq_true, if_false]
          exact honest_of_ge rfl rfl hdir
    · exact ⟨fun _ h => h, hids ▸ wf.nodup_refsOf .threatenedByMe, fun _ _ => rfl,
        SameLists.refl t, rfl, fun _ h => h⟩

/-! ## Selecting a victim -/

/-- A reference of `u`'s own list. -/
def InList (t : ThreatState U F) (u : U) (id : ThreatId) : Prop := ∃ v, t.myThreat u v = some id

theorem ThreatWF.live_inList (wf : ThreatWF t) (h : InList t u id) : ∃ r, t.threats id = some r := by
  obtain ⟨v, hv⟩ := h
  obtain ⟨r, hr, -, -⟩ := wf.live hv
  exact ⟨r, hr⟩

theorem ThreatWF.mem_heapOrder (wf : ThreatWF t) : id ∈ env.heapOrder t u ↔ InList t u id := by
  rw [(env.heapOrder_perm t u).mem_iff]
  exact wf.heap u id

/-- The walk down the heap ends at a reference of the list, at the latest at the old victim:
the source's `ABORT_MSG` is out of reach. -/
theorem selectMelee_spec (wf : ThreatWF t) {oldVictim : ThreatId} (hold : InList t u oldVictim) :
    ∀ l : List ThreatId, (∀ id ∈ l, InList t u id) → oldVictim ∈ l →
      wp E (selectMelee env u oldVictim l) t fun res t' => t' = t ∧ ∀ id, res = some id → InList t u id
  | [], _, hmem => by simp at hmem
  | next :: rest, hl, hmem => by
    rw [selectMelee]
    refine wp_ite (fun heq => ⟨rfl, ?_⟩) fun hne => ?_
    · rintro id ⟨⟩
      exact hl next (List.mem_cons_self ..)
    · obtain ⟨old, ho⟩ := wf.live_inList hold
      obtain ⟨r, hr⟩ := wf.live_inList (hl next (List.mem_cons_self ..))
      simp only [wp_bind]
      refine wp_derefThreat ho (wp_derefThreat hr ?_)
      refine wp_ite (fun _ => ⟨rfl, ?_⟩) fun _ => wp_ite (fun _ => ⟨rfl, ?_⟩) fun _ => ?_
      · rintro id ⟨⟩
        exact hold
      · rintro id ⟨⟩
        exact hl next (List.mem_cons_self ..)
      · have hmem' : oldVictim ∈ rest := by
          rcases List.mem_cons.mp hmem with h | h
          · exact absurd h.symm hne
          · exact h
        exact selectMelee_spec wf hold rest (fun id h => hl id (List.mem_cons_of_mem _ h)) hmem'

theorem availableRef_spec (wf : ThreatWF t) {ref : Option ThreatId}
    (h : ∀ id, ref = some id → InList t u id) :
    wp E (availableRef ref) t fun res t' => t' = t ∧ ∀ id, res = some id → InList t u id := by
  cases ref with
  | none => exact ⟨rfl, by rintro _ ⟨⟩⟩
  | some id =>
    obtain ⟨r, hr⟩ := wf.live_inList (h id rfl)
    simp only [availableRef, wp_bind]
    refine wp_derefThreat hr ⟨rfl, fun id' hid' => ?_⟩
    split at hid'
    · cases hid'
      exact h id rfl
    · cases hid'

/-- **Specification of the selection.** It only reads, and picks from the unit's own list. -/
theorem selectVictim_spec (wf : ThreatWF t) (u : U) :
    wp E (selectVictim env u) t fun res t' => t' = t ∧ ∀ id, res = some id → InList t u id := by
  unfold selectVictim
  simp only [wp_bind, wp_get]
  refine (availableRef_spec (u := u) wf fun id => wf.fixated).mono ?_
  rintro fixated _ ⟨rfl, hfix⟩
  cases fixated with
  | some fixated => exact ⟨rfl, hfix⟩
  | none =>
    simp only [wp_bind]
    refine (availableRef_spec (u := u) wf fun id => wf.victim).mono ?_
    rintro oldVictim t ⟨rfl, hold⟩
    split
    · exact ⟨rfl, by rintro _ ⟨⟩⟩
    · next highest rest hheap =>
      have hin : ∀ id ∈ highest :: rest, InList t u id := fun id hid =>
        wf.mem_heapOrder.mp (hheap ▸ hid)
      have htop : InList t u highest := hin highest (List.mem_cons_self ..)
      obtain ⟨top, ht⟩ := wf.live_inList htop
      have pickTop : ∀ id, some highest = some id → InList t u id := by
        rintro id ⟨⟩
        exact htop
      simp only [wp_bind]
      refine wp_derefThreat ht (wp_ite (fun _ => ⟨rfl, by rintro _ ⟨⟩⟩) fun _ => ?_)
      cases oldVictim with
      | none => exact ⟨rfl, pickTop⟩
      | some oldVictim =>
        obtain ⟨old, ho⟩ := wf.live_inList (hold oldVictim rfl)
        simp only [wp_bind]
        refine wp_derefThreat ho (wp_ite (fun _ => ⟨rfl, pickTop⟩) fun _ => ?_)
        refine wp_ite (fun _ => ⟨rfl, hold⟩) fun _ => wp_ite (fun _ => ⟨rfl, pickTop⟩) fun _ => ?_
        refine wp_ite (fun _ => ⟨rfl, pickTop⟩) fun _ => ?_
        exact selectMelee_spec wf (hold oldVictim rfl) _ hin
          (hheap ▸ wf.mem_heapOrder.mpr (hold oldVictim rfl))

/-- The loop of `ReselectVictim` leaves every reference of the list settled. -/
theorem forEach_updateOffline_spec (wf : ThreatWF t) (u : U) :
    wp E (forEach (t.refsOf env .myThreatList u) (ThreatReference.updateOffline env)) t
      fun _ t' => OnlineUpdated env u t t' ∧
        ∀ id r, t'.threats id = some r → r.owner = u → Settled env t' id := by
  let I : List ThreatId → ThreatState U F → Prop := fun l t₁ =>
    (∀ id ∈ l, id ∈ t.refsOf env .myThreatList u) ∧ OnlineUpdated env u t t₁ ∧
      ∀ id r, t₁.threats id = some r → r.owner = u → id ∉ l → Settled env t₁ id
  refine (wp_forEach I ?_ _ t ?_).mono fun _ t' h => ⟨h.2.1, fun id r hr ho => ?_⟩
  · rintro id l t₁ ⟨hin, hup, hset⟩
    obtain ⟨r, hr⟩ := wf.live_refsOf (hin id (List.mem_cons_self ..))
    have ho := owner_of_mem_refsOf wf (hin id (List.mem_cons_self ..)) hr
    obtain ⟨r₁, hr₁, ho₁, -⟩ := hup.toSameLists.get hr
    refine (ThreatReference.updateOffline_spec (wf.of_sameLists hup.toSameLists) hr₁
      (ho₁.trans ho)).mono ?_
    rintro _ t₂ ⟨hup₂, hset₂⟩
    refine ⟨fun id' hid' => hin id' (List.mem_cons_of_mem _ hid'), hup.trans hup₂, ?_⟩
    intro id' r' hr' hown hnot
    by_cases hid : id' = id
    · exact hset₂ id' (Or.inl hid)
    · obtain ⟨q, hq, hqo, -⟩ := hup₂.toSameLists.get_back hr'
      grind
  · grind [mem_refsOf_myThreatList, OnlineUpdated.refl]
  · exact h.2.2 id r hr ho List.not_mem_nil

/-- **Specification of `ReselectVictim`.** -/
theorem reselectVictim_spec (wf : ThreatWF t) (u : U) :
    wp E (reselectVictim env u) t fun res t' => OnlineUpdated env u t t' ∧
      (∀ id, res = some id → InList t' u id) ∧
      ∀ id r, t'.threats id = some r → r.owner = u → Settled env t' id := by
  unfold reselectVictim
  simp only [wp_bind, wp_get]
  refine wp_ite (fun hempty => ?_) fun _ => ?_
  · refine ⟨OnlineUpdated.refl t, (by rintro _ ⟨⟩), fun id r hr ho => ?_⟩
    -- an empty heap is an empty list
    have hmem := (wf.heap u id).mpr ⟨r.victim, ho ▸ wf.stored hr⟩
    rw [List.isEmpty_iff.mp hempty] at hmem
    simp at hmem
  · simp only [wp_bind]
    refine (forEach_updateOffline_spec wf u).mono ?_
    rintro _ t₁ ⟨hup, hset⟩
    refine (selectVictim_spec (wf.of_sameLists hup.toSameLists) u).mono ?_
    rintro res _ ⟨rfl, hres⟩
    exact ⟨hup, hres, hset⟩

/-! ## Pointers -/

theorem ThreatWF.setCurrentVictim (wf : ThreatWF t) {victim : Option ThreatId}
    (h : ∀ id, victim = some id → InList t u id) :
    ThreatWF { t with currentVictim := Function.update t.currentVictim u victim } :=
  { wf with
    victim := fun {x id} hx => by
      have hx : Function.update t.currentVictim u victim x = some id := hx
      by_cases hxu : x = u
      · subst hxu
        rw [Function.update_self] at hx
        exact h id hx
      · rw [Function.update_of_ne hxu] at hx
        exact wf.victim hx }

theorem ThreatWF.setFixate (wf : ThreatWF t) {target : Option ThreatId}
    (h : ∀ id, target = some id → InList t u id) :
    ThreatWF { t with fixate := Function.update t.fixate u target } :=
  { wf with
    fixated := fun {x id} hx => by
      have hx : Function.update t.fixate u target x = some id := hx
      by_cases hxu : x = u
      · subst hxu
        rw [Function.update_self] at hx
        exact h id hx
      · rw [Function.update_of_ne hxu] at hx
        exact wf.fixated hx }

end EGServer.Combat
