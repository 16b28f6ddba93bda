import EGServer.Combat.ThreatListSpec

/-!
# The life of a threat reference

How a reference enters the three places that hold it, and how it leaves them. Both moves
keep the lists well formed and the heap informed.
-/

set_option linter.unusedSectionVars false

namespace EGServer.Combat

open StateExcept

variable {U F : Type} [DecidableEq U] [RoundedArith F] {env : Env U F} {E : Abort → Prop}
variable {t : ThreatState U F} {id : ThreatId} {r r' : ThreatReference U F} {u : U}

/-! ## Freeing a reference -/

/-- A reference is gone from the store and from the three places that held it. -/
structure Freed (id : ThreatId) (r : ThreatReference U F) (t t' : ThreatState U F) : Prop where
  threats : t'.threats = Function.update t.threats id none
  nextThreat : t'.nextThreat = t.nextThreat
  myThreat : ∀ u v, t'.myThreat u v =
    if u = r.owner ∧ v = r.victim then none else t.myThreat u v
  threatenedByMe : ∀ u v, t'.threatenedByMe v u =
    if u = r.owner ∧ v = r.victim then none else t.threatenedByMe v u
  sorted : ∀ u, t'.sorted u = if u = r.owner then (t.sorted u).filter (·.1 ≠ id) else t.sorted u
  currentVictim : ∀ u, t'.currentVictim u =
    if u = r.owner ∧ t.currentVictim u = some id then none else t.currentVictim u
  fixate : ∀ u, t'.fixate u =
    if u = r.owner ∧ t.fixate u = some id then none else t.fixate u
  needsAIUpdate : t'.needsAIUpdate = t.needsAIUpdate
  notifications : t'.notifications = t.notifications

theorem unregisterAndFree_spec (wf : ThreatWF t) (hr : t.threats id = some r) :
    wp E (ThreatReference.unregisterAndFree id) t fun _ t' => Freed id r t t' := by
  unfold ThreatReference.unregisterAndFree purgeThreatListRef purgeThreatenedByMeRef
  simp only [wp_bind]
  refine wp_derefThreat hr ?_
  simp only [wp_get, wf.stored hr, wp_modify]
  refine ⟨rfl, rfl, fun u v => ?_, fun u v => ?_, fun u => ?_, fun u => ?_, fun u => ?_, rfl, rfl⟩
  · by_cases hu : u = r.owner
    · subst hu
      by_cases hv : v = r.victim <;> simp [hv]
    · simp [hu]
  · by_cases hv : v = r.victim
    · subst hv
      by_cases hu : u = r.owner <;> simp [hu]
    · simp [hv]
  · by_cases hu : u = r.owner
    · subst hu
      simp
    · simp [hu]
  · by_cases hu : u = r.owner
    · subst hu
      simp
    · simp [hu]
  · by_cases hu : u = r.owner
    · subst hu
      simp
    · simp [hu]

section freed

variable {t' : ThreatState U F}

theorem Freed.of_myThreat (h : Freed id r t t') {u v : U} {i : ThreatId}
    (hi : t'.myThreat u v = some i) : t.myThreat u v = some i ∧ ¬(u = r.owner ∧ v = r.victim) := by
  rw [h.myThreat] at hi
  split at hi
  · cases hi
  · next hne => exact ⟨hi, hne⟩

theorem Freed.ne (wf : ThreatWF t) (hr : t.threats id = some r) (h : Freed id r t t') {u v : U}
    {i : ThreatId} (hi : t'.myThreat u v = some i) : i ≠ id := by
  rintro rfl
  obtain ⟨hold, hne⟩ := h.of_myThreat hi
  obtain ⟨q, hq, ho, hv⟩ := wf.live hold
  rw [hr] at hq
  cases hq
  exact hne ⟨ho.symm, hv.symm⟩

theorem Freed.inList (h : Freed id r t t') (hr : t.threats id = some r) (wf : ThreatWF t)
    {u : U} {i : ThreatId} (hi : InList t u i) (hne : i ≠ id) : InList t' u i := by
  obtain ⟨v, hv⟩ := hi
  refine ⟨v, ?_⟩
  rw [h.myThreat, if_neg]
  · exact hv
  · rintro ⟨rfl, rfl⟩
    rw [wf.stored hr] at hv
    cases hv
    exact hne rfl

theorem Freed.wf (wf : ThreatWF t) (hr : t.threats id = some r) (h : Freed id r t t') :
    ThreatWF t' where
  live {u v i} hi := by
    obtain ⟨q, hq, ho, hv⟩ := wf.live (h.of_myThreat hi).1
    exact ⟨q, by rw [h.threats, Function.update_of_ne (h.ne wf hr hi)]; exact hq, ho, hv⟩
  stored {i q} hq := by
    rw [h.threats] at hq
    by_cases hi : i = id
    · subst hi
      rw [Function.update_self] at hq
      cases hq
    · rw [Function.update_of_ne hi] at hq
      rw [h.myThreat, if_neg]
      · exact wf.stored hq
      · rintro ⟨ho, hv⟩
        have hsame := wf.stored hq
        rw [ho, hv, wf.stored hr] at hsame
        cases hsame
        exact hi rfl
  mirrored u v := by rw [h.threatenedByMe, h.myThreat, wf.mirrored]
  heap u i := by
    constructor
    · intro hi
      rw [h.sorted] at hi
      split at hi
      · next hu =>
        rw [List.mem_map] at hi
        obtain ⟨e, he, rfl⟩ := hi
        rw [List.mem_filter] at he
        exact h.inList hr wf ((wf.heap u e.1).mp (List.mem_map_of_mem he.1)) (by simpa using he.2)
      · next hu =>
        obtain ⟨v, hv⟩ := (wf.heap u i).mp hi
        exact ⟨v, by rw [h.myThreat, if_neg (fun hc => hu hc.1)]; exact hv⟩
    · rintro ⟨v, hv⟩
      have hmem := (wf.heap u i).mpr ⟨v, (h.of_myThreat hv).1⟩
      rw [h.sorted]
      split
      · obtain ⟨e, he, rfl⟩ := List.mem_map.mp hmem
        exact List.mem_map_of_mem
          (List.mem_filter.mpr ⟨he, by simpa using h.ne wf hr hv⟩)
      · exact hmem
  heap_nodup u := by
    rw [h.sorted]
    split
    · exact (wf.heap_nodup u).sublist (List.filter_sublist.map _)
    · exact wf.heap_nodup u
  fresh {i q} hq := by
    rw [h.threats] at hq
    rw [h.nextThreat]
    by_cases hi : i = id
    · subst hi
      rw [Function.update_self] at hq
      cases hq
    · rw [Function.update_of_ne hi] at hq
      exact wf.fresh hq
  victim {u i} hi := by
    rw [h.currentVictim] at hi
    split at hi
    · cases hi
    · next hne =>
      obtain ⟨v, hv⟩ := wf.victim hi
      refine h.inList hr wf ⟨v, hv⟩ fun hid => hne ⟨?_, hid ▸ hi⟩
      obtain ⟨q, hq, ho, -⟩ := wf.live hv
      rw [hid, hr] at hq
      cases hq
      exact ho.symm
  fixated {u i} hi := by
    rw [h.fixate] at hi
    split at hi
    · cases hi
    · next hne =>
      obtain ⟨v, hv⟩ := wf.fixated hi
      refine h.inList hr wf ⟨v, hv⟩ fun hid => hne ⟨?_, hid ▸ hi⟩
      obtain ⟨q, hq, ho, -⟩ := wf.live hv
      rw [hid, hr] at hq
      cases hq
      exact ho.symm

theorem Freed.heapInv (wf : ThreatWF t) (hr : t.threats id = some r) (h : Freed id r t t')
    (hinv : HeapInv t) : HeapInv t' where
  seen {u e} he := by
    have hmem : e.1 ∈ (t'.sorted u).map Prod.fst := List.mem_map_of_mem he
    obtain ⟨v, hv⟩ := ((h.wf wf hr).heap u e.1).mp hmem
    have he' : e ∈ t.sorted u := by
      rw [h.sorted] at he
      split at he
      · exact (List.mem_filter.mp he).1
      · exact he
    obtain ⟨q, hq, hk⟩ := hinv.seen he'
    exact ⟨q, by rw [h.threats, Function.update_of_ne (h.ne wf hr hv)]; exact hq, hk⟩
  base {i q} hq := by
    rw [h.threats] at hq
    by_cases hi : i = id
    · subst hi
      rw [Function.update_self] at hq
      cases hq
    · rw [Function.update_of_ne hi] at hq
      exact hinv.base hq
  honest n hn := by
    rw [h.notifications] at hn
    exact hinv.honest n hn

end freed

/-- What a caller keeps of a list from which references were removed. -/
structure Shrunk (t t' : ThreatState U F) : Prop where
  wf : ThreatWF t'
  myThreat : ∀ {u v i}, t'.myThreat u v = some i → t.myThreat u v = some i
  needsAIUpdate : t'.needsAIUpdate = t.needsAIUpdate
  heapInv : HeapInv t → HeapInv t'

theorem Shrunk.refl (wf : ThreatWF t) : Shrunk t t := ⟨wf, fun h => h, rfl, fun h => h⟩

theorem Shrunk.trans {t' t'' : ThreatState U F} (h : Shrunk t t') (h' : Shrunk t' t'') :
    Shrunk t t'' where
  wf := h'.wf
  myThreat hi := h.myThreat (h'.myThreat hi)
  needsAIUpdate := h'.needsAIUpdate.trans h.needsAIUpdate
  heapInv hinv := h'.heapInv (h.heapInv hinv)

theorem Freed.shrunk {t' : ThreatState U F} (h : Freed id r t t') (wf : ThreatWF t)
    (hr : t.threats id = some r) : Shrunk t t' :=
  ⟨h.wf wf hr, fun hi => (h.of_myThreat hi).1, h.needsAIUpdate, h.heapInv wf hr⟩

/-- **Specification of `ClearAllThreat`.** -/
theorem clearAllThreat_spec (hE : E .outOfFuel) (wf : ThreatWF t) (u : U) :
    wp E (clearAllThreat env u) t fun _ t' => Shrunk t t' ∧ ∀ v, t'.myThreat u v = none := by
  unfold clearAllThreat
  refine (wp_whileSome (Shrunk t) hE ?_ env.fuel t (Shrunk.refl wf)).mono ?_
  · intro id t₁ h₁ hnext
    obtain ⟨r, hr⟩ := h₁.wf.live_refsOf (List.mem_of_mem_head? hnext)
    exact (unregisterAndFree_spec h₁.wf hr).mono fun _ t₂ h₂ => h₁.trans (h₂.shrunk h₁.wf hr)
  · rintro - t₁ ⟨h₁, hnone⟩
    refine ⟨h₁, fun v => ?_⟩
    rw [List.head?_eq_none_iff] at hnone
    cases hv : t₁.myThreat u v with
    | none => rfl
    | some i =>
      have hmem : i ∈ t₁.refsOf env .myThreatList u := mem_refsOf.mpr ⟨v, hv⟩
      rw [hnone] at hmem
      cases hmem

/-! ## Creating a reference -/

/-- A reference as it is created. -/
def freshThreat (owner target : U) : ThreatReference U F :=
  { owner, victim := target, online := .offline, baseAmount := 0, tempModifier := 0,
    taunted := TAUNT_STATE_NONE }

/-- A fresh reference is stored in the three places. -/
structure Created (owner target : U) (t t' : ThreatState U F) : Prop where
  threats : t'.threats = Function.update t.threats t.nextThreat (some (freshThreat owner target))
  nextThreat : t'.nextThreat = t.nextThreat + 1
  myThreat : ∀ u v, t'.myThreat u v =
    if u = owner ∧ v = target then some t.nextThreat else t.myThreat u v
  threatenedByMe : ∀ u v, t'.threatenedByMe v u =
    if u = owner ∧ v = target then some t.nextThreat else t.threatenedByMe v u
  sorted : ∀ u, t'.sorted u =
    if u = owner then t.sorted u ++ [(t.nextThreat, (freshThreat owner target).key)] else t.sorted u
  currentVictim : t'.currentVictim = t.currentVictim
  fixate : t'.fixate = t.fixate
  needsAIUpdate : t'.needsAIUpdate = t.needsAIUpdate
  notifications : t'.notifications = t.notifications

section created

variable {owner target : U} {t' : ThreatState U F}

theorem ThreatWF.lt_next (wf : ThreatWF t) {u v : U} {i : ThreatId}
    (h : t.myThreat u v = some i) : i < t.nextThreat := by
  obtain ⟨r, hr, -, -⟩ := wf.live h
  exact wf.fresh hr

theorem Created.inList (h : Created owner target t t') (hnone : t.myThreat owner target = none)
    {u : U} {i : ThreatId} (hi : InList t u i) : InList t' u i := by
  obtain ⟨v, hv⟩ := hi
  refine ⟨v, ?_⟩
  rw [h.myThreat, if_neg]
  · exact hv
  · rintro ⟨rfl, rfl⟩
    rw [hnone] at hv
    cases hv

theorem Created.wf (wf : ThreatWF t) (hnone : t.myThreat owner target = none)
    (h : Created owner target t t') : ThreatWF t' where
  live {u v i} hi := by
    rw [h.myThreat] at hi
    rw [h.threats]
    split at hi
    · next huv =>
      cases hi
      exact ⟨_, Function.update_self .., huv.1.symm, huv.2.symm⟩
    · obtain ⟨r, hr, ho, hv⟩ := wf.live hi
      exact ⟨r, by rw [Function.update_of_ne (wf.lt_next hi).ne]; exact hr, ho, hv⟩
  stored {i q} hq := by
    rw [h.threats] at hq
    by_cases hi : i = t.nextThreat
    · subst hi
      rw [Function.update_self] at hq
      cases hq
      rw [h.myThreat, if_pos ⟨rfl, rfl⟩]
    · rw [Function.update_of_ne hi] at hq
      rw [h.myThreat, if_neg]
      · exact wf.stored hq
      · rintro ⟨ho, hv⟩
        have hs := wf.stored hq
        rw [ho, hv, hnone] at hs
        cases hs
  mirrored u v := by rw [h.threatenedByMe, h.myThreat, wf.mirrored]
  heap u i := by
    rw [h.sorted]
    constructor
    · intro hi
      split at hi
      · next hu =>
        subst hu
        rw [List.map_append, List.mem_append] at hi
        rcases hi with hi | hi
        · exact h.inList hnone ((wf.heap u i).mp hi)
        · rw [List.map_singleton, List.mem_singleton] at hi
          exact ⟨target, by rw [h.myThreat, if_pos ⟨rfl, rfl⟩, hi]⟩
      · exact h.inList hnone ((wf.heap u i).mp hi)
    · rintro ⟨v, hv⟩
      rw [h.myThreat] at hv
      split at hv
      · next huv =>
        cases hv
        rw [if_pos huv.1]
        simp
      · have hmem := (wf.heap u i).mpr ⟨v, hv⟩
        split
        · rw [List.map_append]
          exact List.mem_append_left _ hmem
        · exact hmem
  heap_nodup u := by
    rw [h.sorted]
    split
    · rw [List.map_append, List.nodup_append]
      refine ⟨wf.heap_nodup u, List.nodup_singleton _, fun i hi j hj => ?_⟩
      obtain ⟨v, hv⟩ := (wf.heap u i).mp hi
      rw [List.map_singleton, List.mem_singleton] at hj
      rw [hj]
      exact (wf.lt_next hv).ne
    · exact wf.heap_nodup u
  fresh {i q} hq := by
    rw [h.threats] at hq
    rw [h.nextThreat]
    by_cases hi : i = t.nextThreat
    · rw [hi]
      exact Nat.lt_succ_self _
    · rw [Function.update_of_ne hi] at hq
      exact Nat.lt_succ_of_lt (wf.fresh hq)
  victim hi := h.inList hnone (wf.victim (h.currentVictim ▸ hi))
  fixated hi := h.inList hnone (wf.fixated (h.fixate ▸ hi))

theorem Created.heapInv (wf : ThreatWF t) (h : Created owner target t t') (hinv : HeapInv t) :
    HeapInv t' where
  seen {u e} he := by
    rw [h.sorted] at he
    have hold : e ∈ t.sorted u → ∃ r, t'.threats e.1 = some r ∧ e.2 = r.key := by
      intro he
      obtain ⟨r, hr, hk⟩ := hinv.seen he
      exact ⟨r, by rw [h.threats, Function.update_of_ne (wf.fresh hr).ne]; exact hr, hk⟩
    split at he
    · rcases List.mem_append.mp he with he | he
      · exact hold he
      · rw [List.mem_singleton] at he
        subst he
        exact ⟨_, by rw [h.threats, Function.update_self], rfl⟩
    · exact hold he
  base {i q} hq := by
    rw [h.threats] at hq
    by_cases hi : i = t.nextThreat
    · subst hi
      rw [Function.update_self] at hq
      cases hq
      exact le_rfl
    · rw [Function.update_of_ne hi] at hq
      exact hinv.base hq
  honest n hn := by
    rw [h.notifications] at hn
    exact hinv.honest n hn

end created

/-- What a caller keeps of a list to which an entry for `target` was added. -/
structure Grown (owner target : U) (t t' : ThreatState U F) : Prop where
  wf : ThreatWF t'
  myThreat : ∀ {u v i}, t'.myThreat u v = some i →
    t.myThreat u v = some i ∨ (u = owner ∧ v = target)
  needsOther : ∀ x, x ≠ owner → t'.needsAIUpdate x = t.needsAIUpdate x
  heapInv : HeapInv t → HeapInv t'

theorem wp_createThreat (wf : ThreatWF t) {owner target : U}
    (hnone : t.myThreat owner target = none) (amount : F) {Q : Unit → ThreatState U F → Prop}
    (hQ : ∀ t₁, Created owner target t t₁ → wp E (do
      ThreatReference.updateOffline env t.nextThreat
      let r ← derefThreat t.nextThreat
      if r.isOnline then ThreatReference.addThreat t.nextThreat amount else pure ()) t₁ Q) :
    wp E (createThreat env owner target amount) t Q := by
  unfold createThreat newThreatReference putThreatListRef putThreatenedByMeRef
  have hmirror : t.threatenedByMe target owner = none := by rw [wf.mirrored, hnone]
  simp only [wp_bind, wp_get, wp_modify, wp_pure, hnone]
  refine wp_derefThreat (r := freshThreat owner target) (Function.update_self ..) ?_
  simp only [wp_modify, hmirror]
  generalize ht₁ : ThreatState.mk _ _ _ _ _ _ _ _ _ _ = t₁
  have hc : Created owner target t t₁ := by
    subst ht₁
    refine ⟨rfl, rfl, fun u v => ?_, fun u v => ?_, fun u => ?_, rfl, rfl, rfl, rfl⟩
    · by_cases hu : u = owner
      · subst hu
        by_cases hv : v = target <;> simp [hv]
      · simp [hu]
    · by_cases hv : v = target
      · subst hv
        by_cases hu : u = owner <;> simp [hu]
      · simp [hv]
    · by_cases hu : u = owner
      · subst hu
        simp
      · simp [hu]
  simpa only [wp_bind] using hQ t₁ hc

/-- **Specification of the creation of an entry.** -/
theorem createThreat_spec (wf : ThreatWF t) {owner target : U}
    (hnone : t.myThreat owner target = none) (amount : F) :
    wp E (createThreat env owner target amount) t fun _ t' => Grown owner target t t' := by
  refine wp_createThreat wf hnone amount fun t₁ hc => ?_
  simp only [wp_bind]
  have hr₁ : t₁.threats t.nextThreat = some (freshThreat owner target) := by
    rw [hc.threats, Function.update_self]
  have wf₁ := hc.wf wf hnone
  refine (ThreatReference.updateOffline_spec wf₁ hr₁ rfl).mono ?_
  rintro _ t₂ ⟨hup, _⟩
  have wf₂ := wf₁.of_sameLists hup.toSameLists
  obtain ⟨r₂, hr₂, -, -⟩ := hup.toSameLists.get hr₁
  refine wp_derefThreat hr₂ ?_
  have hdone : ∀ t₃, Adjusted t₂ t₃ → Grown owner target t t₃ := fun t₃ h₃ => {
    wf := wf₂.of_sameLists h₃.toSameLists
    myThreat := fun {u v i} hi => by
      rw [h₃.myThreat, hup.myThreat, hc.myThreat] at hi
      split at hi
      · next huv => exact Or.inr huv
      · exact Or.inl hi
    needsOther := fun x hx => by
      rw [h₃.needsAIUpdate, hup.needsOther x hx, hc.needsAIUpdate]
    heapInv := fun hinv => h₃.heapInv (hup.heapInv (hc.heapInv wf hinv)) }
  refine wp_ite (fun _ => ?_) fun _ => hdone t₂ (Adjusted.refl t₂)
  exact (ThreatReference.addThreat_spec wf₂ hr₂ amount).mono fun _ t₃ h₃ => hdone t₃ h₃

theorem bringBackOnline_spec (wf : ThreatWF t) (hr : t.threats id = some r) :
    wp E (bringBackOnline env id) t fun _ t' => Adjusted t t' := by
  unfold bringBackOnline
  simp only [wp_bind]
  refine wp_derefThreat hr (wp_ite (fun hsup => ?_) fun _ => Adjusted.refl t)
  have hr' : r.online = .suppressed := by
    simp only [ThreatReference.isSuppressed, Bool.and_eq_true, decide_eq_true_eq] at hsup
    exact hsup.1
  refine wp_rewrite wf hr rfl rfl fun t' h => h.adjusted (fun hinv => hinv.base (r := r) hr) ?_
  exact fun _ => honest_of_online_lt (by rw [hr']; exact Nat.lt_succ_self _)

/-- **Specification of the raise of an entry.** -/
theorem raiseThreat_spec (wf : ThreatWF t) (hr : t.threats id = some r) (amount : F) :
    wp E (raiseThreat env id amount) t fun _ t' => Adjusted t t' := by
  unfold raiseThreat
  simp only [wp_bind]
  refine (bringBackOnline_spec wf hr).mono fun _ t₁ h₁ => ?_
  obtain ⟨r₁, hr₁, -, -⟩ := h₁.toSameLists.get hr
  refine wp_derefThreat hr₁ (wp_ite (fun _ => ?_) fun _ => h₁)
  exact (ThreatReference.addThreat_spec (wf.of_sameLists h₁.toSameLists) hr₁ amount).mono
    fun _ _ h => h₁.trans h

end EGServer.Combat
