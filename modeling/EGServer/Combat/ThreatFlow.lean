import EGServer.Combat.MatchThreat
import Mathlib.Algebra.BigOperators.Group.List.Basic

/-!
# Where added threat goes

How the sum of the base amounts of one threat list changes. Of all threat code that `AddThreat`
runs, only the raising of a reference changes a base amount: the rest changes online states and
pointers, and the creation of an entry adds a zero. `Gains` is what a caller needs to know.
-/

set_option linter.unusedSectionVars false

namespace EGServer.Combat

open StateExcept

variable {U : Type} [DecidableEq U] {env : Env U ℚ} {ai : AI U ℚ} {E : Abort → Prop}
variable {t t' t'' : ThreatState U ℚ} {w w' : World U ℚ} {u v owner target : U} {id : ThreatId}
variable {r : ThreatReference U ℚ} {gain gain' amount : ℚ} {strict : Prop}

/-! ## Base amounts -/

/-- The base amount behind a pointer. -/
def ThreatState.baseOf (t : ThreatState U ℚ) (id : ThreatId) : ℚ :=
  (t.threats id).elim 0 (·.baseAmount)

/-- The sum of the base amounts over all entries of `u`'s list. -/
def ThreatState.totalThreat (t : ThreatState U ℚ) (u : U) : ℚ :=
  (((t.sorted u).map Prod.fst).map t.baseOf).sum

/-- No reference has a negative base amount. -/
def ThreatState.Based (t : ThreatState U ℚ) : Prop :=
  ∀ id, 0 ≤ t.baseOf id

theorem baseOf_eq (hr : t.threats id = some r) : t.baseOf id = r.baseAmount := by
  rw [ThreatState.baseOf, hr, Option.elim_some]

/-- **What a list gains**: no entry is lost, none is lowered, and together they have `gain` more. -/
structure Gains (owner : U) (gain : ℚ) (t t' : ThreatState U ℚ) : Prop where
  based : t.Based → t'.Based
  kept : ∀ {u v id}, t.myThreat u v = some id → t'.myThreat u v = some id
  notLess : ∀ {u v id}, t.myThreat u v = some id → t.baseOf id ≤ t'.baseOf id
  total : t'.totalThreat owner = t.totalThreat owner + gain

theorem Gains.refl (owner : U) (t : ThreatState U ℚ) : Gains owner 0 t t :=
  ⟨id, id, fun _ => le_rfl, (add_zero _).symm⟩

theorem Gains.trans (h : Gains owner gain t t') (h' : Gains owner gain' t' t'') :
    Gains owner (gain + gain') t t'' where
  based hb := h'.based (h.based hb)
  kept hid := h'.kept (h.kept hid)
  notLess hid := (h.notLess hid).trans (h'.notLess (h.kept hid))
  total := by rw [h'.total, h.total, add_assoc]

/-! ## Moves that change no base amount -/

/-- The same entries with the same base amounts; a reference whose online state is up to date
is the same altogether. -/
structure SameThreat (env : Env U ℚ) (t t' : ThreatState U ℚ) : Prop where
  myThreat : t'.myThreat = t.myThreat
  heap : ∀ u, (t'.sorted u).map Prod.fst = (t.sorted u).map Prod.fst
  base : ∀ id, t'.baseOf id = t.baseOf id
  settled : ∀ id, Settled env t id → t'.threats id = t.threats id

theorem SameThreat.refl (env : Env U ℚ) (t : ThreatState U ℚ) : SameThreat env t t :=
  ⟨rfl, fun _ => rfl, fun _ => rfl, fun _ _ => rfl⟩

theorem SameThreat.trans (h : SameThreat env t t') (h' : SameThreat env t' t'') :
    SameThreat env t t'' where
  myThreat := h'.myThreat.trans h.myThreat
  heap u := (h'.heap u).trans (h.heap u)
  base id := (h'.base id).trans (h.base id)
  settled id hset := by
    have hsame := h.settled id hset
    have hset' : Settled env t' id := by
      intro r hr
      exact hset r (hsame ▸ hr)
    rw [h'.settled id hset', hsame]

theorem SameThreat.gains (h : SameThreat env t t') (owner : U) : Gains owner 0 t t' where
  based hb id := by
    rw [h.base]
    exact hb id
  kept hid := by rwa [h.myThreat]
  notLess _ := (h.base _).ge
  total := by
    rw [ThreatState.totalThreat, h.heap, ThreatState.totalThreat, add_zero]
    congr 1
    exact List.map_congr_left fun id _ => h.base id

theorem ThreatReference.updateOffline_sameThreat (wf : ThreatWF t) (hr : t.threats id = some r) :
    wp E (ThreatReference.updateOffline env id) t fun _ t' => SameThreat env t t' := by
  have hrewrite : ∀ (d : Direction) (state : OnlineState) (t' : ThreatState U ℚ),
      r.isOffline ≠ env.shouldBeOffline r.owner r.victim →
      Rewritten d id r { r with online := state } t t' → SameThreat env t t' := by
    intro d state t' hdiff h
    refine ⟨h.myThreat, h.heap, ?_, ?_⟩
    · intro i
      rw [ThreatState.baseOf, h.threats]
      by_cases hi : i = id
      · subst hi
        rw [Function.update_self, baseOf_eq hr]
        rfl
      · rw [Function.update_of_ne hi]
        rfl
    · intro i hset
      apply h.get_ne
      intro hi
      subst hi
      exact hdiff (hset r hr)
  unfold ThreatReference.updateOffline
  simp only [wp_bind]
  refine wp_derefThreat hr (wp_ite (fun _ => SameThreat.refl env t) fun hdiff => ?_)
  apply wp_ite
  · intro _
    exact wp_rewrite wf hr rfl rfl fun t' h => hrewrite _ _ t' (Ne.symm hdiff) h
  · intro _
    simp only [wp_bind]
    refine wp_rewrite wf hr rfl rfl fun t' h => ?_
    have hsame := hrewrite _ _ t' (Ne.symm hdiff) h
    exact ⟨hsame.myThreat, hsame.heap, hsame.base, hsame.settled⟩

theorem reselectVictim_sameThreat (wf : ThreatWF t) (u : U) :
    wp E (reselectVictim env u) t fun _ t' => SameThreat env t t' := by
  unfold reselectVictim
  simp only [wp_bind, wp_get]
  apply wp_ite
  · intro _
    exact SameThreat.refl env t
  · intro _
    simp only [wp_bind]
    let I : ThreatState U ℚ → Prop := fun t₁ => SameLists t t₁ ∧ SameThreat env t t₁
    apply ((wp_forEach_inv I _ ?_ t ⟨SameLists.refl t, SameThreat.refl env t⟩)).mono
    · intro _ t₁ h₁
      have wf₁ := wf.of_sameLists h₁.1
      apply (selectVictim_spec wf₁ u).mono
      intro _ t₂ h₂
      rw [h₂.1]
      exact h₁.2
    · intro i hi t₁ h₁
      obtain ⟨q, hq⟩ := wf.live_refsOf hi
      obtain ⟨q₁, hq₁, -, -⟩ := h₁.1.get hq
      have wf₁ := wf.of_sameLists h₁.1
      have hflow : wp E (ThreatReference.updateOffline env i) t₁ fun _ t' => SameThreat env t₁ t' :=
        ThreatReference.updateOffline_sameThreat wf₁ hq₁
      apply ((ThreatReference.updateOffline_spec wf₁ hq₁ rfl).and hflow).mono
      intro _ t₂ h₂
      exact ⟨h₁.1.trans h₂.1.1.toSameLists, h₁.2.trans h₂.2⟩

/-! ## Raising one reference -/

theorem sum_map_raise {f : ThreatId → ℚ} {l : List ThreatId} (hnodup : l.Nodup) (hid : id ∈ l)
    (gain : ℚ) :
    (l.map fun i => if i = id then f i + gain else f i).sum = (l.map f).sum + gain := by
  induction l with
  | nil => cases hid
  | cons i rest ih =>
    obtain ⟨hnotMem, hrest⟩ := List.nodup_cons.mp hnodup
    rw [List.map_cons, List.sum_cons, List.map_cons, List.sum_cons]
    by_cases hi : i = id
    · subst hi
      have hsame : (rest.map fun j => if j = i then f j + gain else f j) = rest.map f := by
        apply List.map_congr_left
        intro j hj
        apply if_neg
        intro he
        exact hnotMem (he ▸ hj)
      rw [if_pos rfl, hsame]
      linarith
    · rw [if_neg hi, ih hrest ((List.mem_cons.mp hid).resolve_left (Ne.symm hi))]
      linarith

theorem baseOf_rewritten {d : Direction} {r' : ThreatReference U ℚ}
    (h : Rewritten d id r r' t t') (i : ThreatId) :
    t'.baseOf i = if i = id then r'.baseAmount else t.baseOf i := by
  rw [ThreatState.baseOf, h.threats]
  by_cases hi : i = id
  · subst hi
    rw [Function.update_self, if_pos rfl, Option.elim_some]
  · rw [Function.update_of_ne hi, if_neg hi]
    rfl

theorem Gains.of_raise (wf : ThreatWF t) (hr : t.threats id = some r) {d : Direction}
    {r' : ThreatReference U ℚ} (h : Rewritten d id r r' t t')
    (hbase : r'.baseAmount = r.baseAmount + gain) (hgain : 0 ≤ gain) :
    Gains r.owner gain t t' := by
  have hat : ∀ i, t'.baseOf i = if i = id then t.baseOf i + gain else t.baseOf i := by
    intro i
    rw [baseOf_rewritten h]
    by_cases hi : i = id
    · subst hi
      rw [if_pos rfl, if_pos rfl, hbase, baseOf_eq hr]
    · rw [if_neg hi, if_neg hi]
  have hle : ∀ i, t.baseOf i ≤ t'.baseOf i := by
    intro i
    rw [hat]
    split
    · linarith
    · exact le_rfl
  constructor
  · exact fun hb i => (hb i).trans (hle i)
  · intro u v i hi
    rwa [h.myThreat]
  · exact fun _ => hle _
  · have hmem : id ∈ (t.sorted r.owner).map Prod.fst :=
      (wf.heap r.owner id).mpr ⟨r.victim, wf.stored hr⟩
    rw [ThreatState.totalThreat, h.heap, ThreatState.totalThreat,
      ← sum_map_raise (wf.heap_nodup r.owner) hmem]
    congr 1
    exact List.map_congr_left fun i _ => hat i

/-- **Adding threat to a reference.** -/
theorem ThreatReference.addThreat_flow (wf : ThreatWF t) (hr : t.threats id = some r)
    (hb : t.Based) (hamount : 0 ≤ amount) :
    wp E (ThreatReference.addThreat id amount) t fun _ t' =>
      Gains r.owner amount t t' ∧ ∃ base, t'.threats id = some { r with baseAmount := base } := by
  unfold ThreatReference.addThreat
  apply wp_ite
  · intro hzero
    rw [hzero]
    exact ⟨Gains.refl r.owner t, r.baseAmount, hr⟩
  · intro _
    simp only [wp_bind]
    refine wp_derefThreat hr (wp_rewrite wf hr rfl rfl fun t' h => ?_)
    have hpos : 0 ≤ r.baseAmount + amount := by
      have hbase := hb id
      rw [baseOf_eq hr] at hbase
      linarith
    refine ⟨Gains.of_raise wf hr h (max_eq_left hpos) hamount, max (r.baseAmount + amount) 0, ?_⟩
    rw [h.threats, Function.update_self]

/-- What an entry gained: all of the amount if its reference is online afterwards. -/
structure Reached (owner target : U) (amount : ℚ) (t t' : ThreatState U ℚ) (id : ThreatId)
    (r : ThreatReference U ℚ) : Prop where
  entry : t'.myThreat owner target = some id
  live : t'.threats id = some r
  gains : Gains owner (if r.isOnline then amount else 0) t t'

/-- **The raise of an entry.** -/
theorem raiseThreat_flow (wf : ThreatWF t) (hid : t.myThreat owner target = some id)
    (hb : t.Based) (hamount : 0 ≤ amount) :
    wp E (raiseThreat env id amount) t fun _ t' => ∃ r, Reached owner target amount t t' id r := by
  obtain ⟨r, hr, rfl, rfl⟩ := wf.live hid
  -- from here on the reference is as `bringBackOnline` left it
  have hlast : ∀ (t₁ : ThreatState U ℚ) (r₁ : ThreatReference U ℚ), ThreatWF t₁ →
      t₁.threats id = some r₁ → r₁.owner = r.owner → r₁.victim = r.victim →
      Gains r.owner 0 t t₁ →
      wp E (do
        let r ← derefThreat id
        if r.isOnline then ThreatReference.addThreat id amount else pure ()) t₁
        fun _ t' => ∃ r₂, Reached r.owner r.victim amount t t' id r₂ := by
    intro t₁ r₁ wf₁ hr₁ ho hv hgain
    simp only [wp_bind]
    refine wp_derefThreat hr₁ (wp_ite (fun hon => ?_) fun hoff => ?_)
    · refine (ThreatReference.addThreat_flow wf₁ hr₁ (hgain.based hb) hamount).mono ?_
      intro _ t₂ h₂
      obtain ⟨hgain₂, base, hr₂⟩ := h₂
      have hon₂ : ({ r₁ with baseAmount := base } : ThreatReference U ℚ).isOnline = true := hon
      refine ⟨{ r₁ with baseAmount := base }, hgain₂.kept (hgain.kept hid), hr₂, ?_⟩
      rw [if_pos hon₂]
      have hsum := hgain.trans (ho ▸ hgain₂)
      rwa [zero_add] at hsum
    · refine ⟨r₁, hgain.kept hid, hr₁, ?_⟩
      rw [if_neg hoff]
      exact hgain
  unfold raiseThreat bringBackOnline
  simp only [wp_bind]
  refine wp_derefThreat hr (wp_ite (fun _ => ?_) fun _ => ?_)
  · refine wp_rewrite wf hr rfl rfl fun t₁ h₁ => ?_
    have hr₁ : t₁.threats id = some { r with online := .online } := by
      rw [h₁.threats, Function.update_self]
    have hgain := Gains.of_raise wf hr h₁ (add_zero r.baseAmount).symm le_rfl
    simpa only [wp_bind] using hlast t₁ _ (wf.of_sameLists h₁.toSameLists) hr₁ rfl rfl hgain
  · simpa only [wp_bind, wp_pure] using hlast t r wf hr rfl rfl (Gains.refl r.owner t)

/-! ## Creating an entry -/

theorem Gains.of_created (wf : ThreatWF t) (hnone : t.myThreat owner target = none)
    (h : Created owner target t t') : Gains owner 0 t t' := by
  have hbase : ∀ i, t'.baseOf i = t.baseOf i := by
    intro i
    rw [ThreatState.baseOf, h.threats]
    by_cases hi : i = t.nextThreat
    · -- nothing is behind the pointer yet
      have hfree : t.threats t.nextThreat = none := by
        cases hr : t.threats t.nextThreat with
        | none => rfl
        | some r => exact absurd (wf.fresh hr) (Nat.lt_irrefl _)
      subst hi
      rw [Function.update_self, Option.elim_some, ThreatState.baseOf, hfree]
      rfl
    · rw [Function.update_of_ne hi]
      rfl
  constructor
  · intro hb i
    rw [hbase]
    exact hb i
  · intro u v i hi
    rw [h.myThreat, if_neg]
    · exact hi
    · intro huv
      rw [huv.1, huv.2, hnone] at hi
      cases hi
  · exact fun _ => (hbase _).ge
  · have hfresh : t.baseOf t.nextThreat = 0 := by
      rw [← hbase, ThreatState.baseOf, h.threats, Function.update_self]
      rfl
    have hmap : ∀ l : List ThreatId, l.map t'.baseOf = l.map t.baseOf :=
      fun l => List.map_congr_left fun i _ => hbase i
    rw [ThreatState.totalThreat, h.sorted, if_pos rfl, hmap, ThreatState.totalThreat]
    simp [hfresh]

/-- **The creation of an entry**: its reference is up to date afterwards. -/
theorem createThreat_flow (wf : ThreatWF t) (hnone : t.myThreat owner target = none)
    (hb : t.Based) (hamount : 0 ≤ amount) :
    wp E (createThreat env owner target amount) t fun _ t' =>
      ∃ r, Reached owner target amount t t' t.nextThreat r ∧ Settled env t' t.nextThreat := by
  refine wp_createThreat wf hnone amount fun t₁ hc => ?_
  simp only [wp_bind]
  have hr₁ : t₁.threats t.nextThreat = some (freshThreat owner target) := by
    rw [hc.threats, Function.update_self]
  have wf₁ := hc.wf wf hnone
  have hgain₁ := Gains.of_created wf hnone hc
  have hid₁ : t₁.myThreat owner target = some t.nextThreat := by
    rw [hc.myThreat, if_pos ⟨rfl, rfl⟩]
  refine ((ThreatReference.updateOffline_spec wf₁ hr₁ rfl).and
    (ThreatReference.updateOffline_sameThreat wf₁ hr₁)).mono fun _ t₂ h₂ => ?_
  obtain ⟨⟨hup, hset⟩, hsame⟩ := h₂
  have wf₂ := wf₁.of_sameLists hup.toSameLists
  obtain ⟨r₂, hr₂, ho₂, hv₂⟩ := hup.toSameLists.get hr₁
  have hsettled := hset t.nextThreat (.inl rfl)
  have hgain₂ : Gains owner 0 t t₂ := by
    have hsum := hgain₁.trans (hsame.gains owner)
    rwa [zero_add] at hsum
  have hid₂ : t₂.myThreat owner target = some t.nextThreat := by rw [hsame.myThreat, hid₁]
  refine wp_derefThreat hr₂ (wp_ite (fun hon => ?_) fun hoff => ?_)
  · refine (ThreatReference.addThreat_flow wf₂ hr₂ (hgain₂.based hb) hamount).mono ?_
    intro _ t₃ h₃
    obtain ⟨hgain₃, base, hr₃⟩ := h₃
    have hon₃ : ({ r₂ with baseAmount := base } : ThreatReference U ℚ).isOnline = true := hon
    refine ⟨{ r₂ with baseAmount := base }, ⟨hgain₃.kept hid₂, hr₃, ?_⟩, ?_⟩
    · rw [if_pos hon₃]
      have hsum := hgain₂.trans (ho₂ ▸ hgain₃)
      rwa [zero_add] at hsum
    · intro r hr
      rw [hr₃] at hr
      cases hr
      exact hsettled r₂ hr₂
  · refine ⟨r₂, ⟨hid₂, hr₂, ?_⟩, hsettled⟩
    rw [if_neg hoff]
    exact hgain₂

/-! ## The end of `AddThreat` -/

section World

variable {w w' : World U ℚ} {b : Bool}

theorem SameThreat.processed (h : SameThreat env t t') (u : U) :
    SameThreat env t (t'.processed u) :=
  ⟨h.myThreat, h.heap, h.base, h.settled⟩

theorem updateVictim_flow (hai : AIContract strict E ai) (u : U)
    (inv : WorldInv strict { w with threat := w.threat.processed u }) :
    wp E (updateVictim env ai u) w fun _ w' => SameThreat env w.threat w'.threat := by
  have wf : ThreatWF w.threat := inv.threat.of_processed
  have hsame : wp E (do
      let newVictim ← reselectVictim env u
      setCurrentVictim u newVictim) w.threat fun _ t' => SameThreat env w.threat t' := by
    simp only [wp_bind]
    refine (reselectVictim_sameThreat wf u).mono fun _ t₁ h₁ => ?_
    unfold setCurrentVictim
    rw [wp_modify]
    exact ⟨h₁.myThreat, h₁.heap, h₁.base, h₁.settled⟩
  unfold updateVictim onThreat
  rw [wp_bind, wp_zoom]
  refine ((victimUpdated_spec wf u).and hsame).mono fun _ t₁ h₁ => ?_
  have inv₁ := h₁.1.worldInv inv
  refine (processAIUpdates_spec (w := { w with threat := t₁ }) hai inv₁).mono fun _ w₂ h₂ => ?_
  rw [h₂.threat]
  exact h₁.2.processed u

theorem Reached.same {t₁ : ThreatState U ℚ} (h : Reached owner target amount t t₁ id r)
    (hset : Settled env t₁ id) (hsame : SameThreat env t₁ t') :
    Reached owner target amount t t' id r where
  entry := by rw [hsame.myThreat, h.entry]
  live := by rw [hsame.settled id hset, h.live]
  gains := by
    have hsum := h.gains.trans (hsame.gains owner)
    rwa [add_zero] at hsum

/-- **What `AddThreat` does to the list**, once owner and target are in combat. -/
theorem applyThreat_flow (hai : AIContract strict E ai) (inv : WorldInv strict w) {i : RefId}
    (he : w.combat.combatRefs b owner target = some i) (hb : w.threat.Based)
    (hamount : 0 ≤ amount) :
    wp E (applyThreat env ai owner target amount) w fun _ w' =>
      ∃ id r, Reached owner target amount w.threat w'.threat id r := by
  unfold applyThreat
  simp only [wp_bind, wp_get]
  split
  · next id hid =>
    simp only [onThreat, wp_zoom]
    exact (raiseThreat_flow inv.threat hid hb hamount).mono fun _ _ h => ⟨id, h⟩
  · next hnone =>
    simp only [onThreat, wp_bind, wp_zoom]
    refine ((createThreat_spec inv.threat hnone amount).and
      (createThreat_flow inv.threat hnone hb hamount)).mono fun _ t₁ h₁ => ?_
    obtain ⟨hgrown, r, hreached, hset⟩ := h₁
    have inv₁ := hgrown.worldInv inv he
    simp only [wp_get]
    split
    · refine (updateVictim_flow (w := { w with threat := t₁ }) hai owner inv₁).mono ?_
      intro _ w₂ hsame
      exact ⟨_, r, hreached.same hset hsame⟩
    · refine (processAIUpdates_spec (w := { w with threat := t₁ }) hai inv₁).mono ?_
      intro _ w₂ h₂
      refine ⟨_, r, hreached.same hset ?_⟩
      rw [h₂.threat]
      exact (SameThreat.refl env t₁).processed owner

end World

end EGServer.Combat
