import EGServer.Combat.EnterCombat
import EGServer.Combat.VictimRule
import Mathlib.Order.Bounds.Basic

/-!
# Matching the highest threat

`MatchUnitThreatToHighestThreat` takes what it believes to be the highest threat of the list
and adds the difference to a target's own. The belief is read off the first two elements of
the heap, on the grounds that at most one reference taunts; and the difference is taken of
threats, while what is added to is the base amount, which a negative modifier may leave below
zero threat.

`matchUnitThreatToHighestThreat_greatest` says exactly when the target ends with the greatest
threat of the list.
-/

set_option linter.unusedSectionVars false

namespace EGServer.Combat

open StateExcept

variable {U : Type} [DecidableEq U] {env : Env U ℚ} {ai : AI U ℚ} {E : Abort → Prop}
variable {t t' : ThreatState U ℚ} {w w' : World U ℚ} {u owner target : U} {id : ThreatId}
variable {r : ThreatReference U ℚ}

/-! ## The threats of a list -/

/-- `r` is an entry of `u`'s threat list. -/
def ThreatState.Listed (t : ThreatState U ℚ) (u : U) (r : ThreatReference U ℚ) : Prop :=
  ∃ v id, t.myThreat u v = some id ∧ t.threats id = some r

/-- The threats on `u`'s list. -/
def ThreatState.threatsOf (t : ThreatState U ℚ) (u : U) : Set ℚ :=
  {x | ∃ r, t.Listed u r ∧ r.getThreat = x}

/-- Every reference of the list is online and has no negative base threat. -/
def ThreatState.AllOnline (t : ThreatState U ℚ) (u : U) : Prop :=
  ∀ r, t.Listed u r → r.isOnline = true ∧ 0 ≤ r.baseAmount

/-- The first element of the heap has the greatest threat, or it taunts and the second has. -/
def HighestFound (env : Env U ℚ) (t : ThreatState U ℚ) (u : U) : Prop :=
  ∃ top rest a, env.heapOrder t u = top :: rest ∧ t.threats top = some a ∧
    (IsGreatest (t.threatsOf u) a.getThreat ∨
      a.isTaunting = true ∧ ∃ next rest' b, rest = next :: rest' ∧ t.threats next = some b ∧
        IsGreatest (t.threatsOf u) b.getThreat)

theorem ThreatWF.listed (wf : ThreatWF t) (h : InList t u id) :
    ∃ r, t.threats id = some r ∧ t.Listed u r := by
  obtain ⟨v, hv⟩ := h
  obtain ⟨r, hr, _, _⟩ := wf.live hv
  exact ⟨r, hr, v, id, hv, hr⟩

/-! ## What is taken for the highest -/

theorem isGreatest_max {s : Set ℚ} {x y : ℚ} (hx : x ∈ s) (hy : y ∈ s) :
    IsGreatest s (max x y) ↔ IsGreatest s x ∨ IsGreatest s y := by
  constructor
  · grind
  · rintro (h | h)
    · rw [max_eq_left (h.2 hy)]
      exact h
    · rw [max_eq_right (h.2 hx)]
      exact h

/-- **What `MatchUnitThreatToHighestThreat` takes for the highest threat** is a threat of the
list, and the greatest one just if the first two elements of the heap show it. -/
theorem highestThreat_found (wf : ThreatWF t) (hon : t.AllOnline u) (hne : InList t u id) :
    wp E (highestThreat env u) t fun res t' => t' = t ∧ ∃ highest, res = some highest ∧
      highest ∈ t.threatsOf u ∧ (IsGreatest (t.threatsOf u) highest ↔ HighestFound env t u) := by
  unfold highestThreat
  simp only [wp_bind, wp_get]
  have hmem : id ∈ env.heapOrder t u := wf.mem_heapOrder.mpr hne
  cases horder : env.heapOrder t u with
  | nil =>
    rw [horder] at hmem
    cases hmem
  | cons top rest =>
    have hin : ∀ i ∈ top :: rest, ∃ r, t.threats i = some r ∧ t.Listed u r := by
      intro i hi
      exact wf.listed (wf.mem_heapOrder.mp (horder ▸ hi))
    obtain ⟨a, ha, hal⟩ := hin top (List.mem_cons_self ..)
    have havailable : ∀ r, t.Listed u r → r.isAvailable = true := by
      intro r hr
      have honline := (hon r hr).1
      simp only [ThreatReference.isOnline, ThreatReference.isAvailable, decide_eq_true_eq] at *
      rw [honline]
      decide
    simp only [wp_bind]
    refine wp_derefThreat ha (wp_ite ?_ fun _ => ?_)
    · intro hoff
      rw [havailable a hal] at hoff
      cases hoff
    · -- without a taunt, or without a second element, the top it is
      have htop : (a.isTaunting = true → rest = []) →
          (HighestFound env t u ↔ IsGreatest (t.threatsOf u) a.getThreat) := by
        intro hsingle
        constructor
        · rintro ⟨top', rest', a', ho, ha', h⟩
          grind
        · intro h
          exact ⟨top, rest, a, horder, ha, .inl h⟩
      cases htaunt : a.isTaunting with
      | false =>
        refine ⟨rfl, a.getThreat, rfl, ⟨a, hal, rfl⟩, (htop ?_).symm⟩
        intro h
        rw [htaunt] at h
        cases h
      | true =>
        cases rest with
        | nil => exact ⟨rfl, a.getThreat, rfl, ⟨a, hal, rfl⟩, (htop fun _ => rfl).symm⟩
        | cons next rest =>
          obtain ⟨b, hb, hbl⟩ := hin next (by simp)
          simp only [wp_bind]
          refine wp_derefThreat hb ?_
          refine ⟨rfl, max a.getThreat b.getThreat, ?_, ?_, ?_⟩
          · grind
          · rcases le_total a.getThreat b.getThreat with h | h
            · exact ⟨b, hbl, (max_eq_right h).symm⟩
            · exact ⟨a, hal, (max_eq_left h).symm⟩
          · have hxa : a.getThreat ∈ t.threatsOf u := ⟨a, hal, rfl⟩
            have hxb : b.getThreat ∈ t.threatsOf u := ⟨b, hbl, rfl⟩
            rw [isGreatest_max hxa hxb]
            constructor
            · rintro (h | h)
              · exact ⟨top, next :: rest, a, horder, ha, .inl h⟩
              · exact ⟨top, next :: rest, a, horder, ha, .inr ⟨htaunt, next, rest, b, rfl, hb, h⟩⟩
            · rintro ⟨top', rest', a', ho, ha', h⟩
              grind

/-! ## What is added -/

/-- The base amount that adding `amount` leaves. -/
def ThreatReference.raised (r : ThreatReference U ℚ) (amount : ℚ) : ThreatReference U ℚ :=
  { r with baseAmount := if amount = 0 then r.baseAmount else max (r.baseAmount + amount) 0 }

/-- **What `AddThreat` on a reference does**, field by field. -/
theorem ThreatReference.addThreat_raised (wf : ThreatWF t) (hr : t.threats id = some r)
    (amount : ℚ) :
    wp E (ThreatReference.addThreat id amount) t fun _ t' =>
      SameLists t t' ∧ t'.threats = Function.update t.threats id (some (r.raised amount)) := by
  unfold ThreatReference.addThreat
  apply wp_ite
  · intro hzero
    refine ⟨SameLists.refl t, ?_⟩
    rw [raised, if_pos hzero, ← hr, Function.update_eq_self]
  · intro hne
    simp only [wp_bind]
    refine wp_derefThreat hr (wp_rewrite wf hr rfl rfl ?_)
    intro t' h
    refine ⟨h.toSameLists, ?_⟩
    rw [h.threats, raised, if_neg hne]

theorem raiseThreat_raised (wf : ThreatWF t) (hr : t.threats id = some r)
    (honline : r.isOnline = true) (amount : ℚ) :
    wp E (raiseThreat env id amount) t fun _ t' =>
      SameLists t t' ∧ t'.threats = Function.update t.threats id (some (r.raised amount)) := by
  have hsuppressed : r.isSuppressed = false := by
    simp only [ThreatReference.isOnline, ThreatReference.isSuppressed, decide_eq_true_eq,
      decide_eq_false_iff_not] at *
    rw [honline]
    decide
  unfold raiseThreat bringBackOnline
  simp only [wp_bind]
  refine wp_derefThreat hr (wp_ite ?_ fun _ => ?_)
  · intro hsup
    rw [hsuppressed] at hsup
    cases hsup
  · rw [wp_pure]
    refine wp_derefThreat hr (wp_ite (fun _ => ?_) fun hoff => absurd honline hoff)
    exact ThreatReference.addThreat_raised wf hr amount

theorem getThreat_raised (hbase : 0 ≤ r.baseAmount) {highest : ℚ} (hhigh : 0 ≤ highest) :
    (r.raised (highest - r.getThreat)).getThreat =
      if 0 ≤ r.baseAmount + r.tempModifier then max highest r.tempModifier
      else max (r.baseAmount + r.tempModifier + highest) 0 := by
  have hown : r.getThreat = max (r.baseAmount + r.tempModifier) 0 := rfl
  have hraised : (r.raised (highest - r.getThreat)).getThreat =
      max ((if highest - r.getThreat = 0 then r.baseAmount
        else max (r.baseAmount + (highest - r.getThreat)) 0) + r.tempModifier) 0 := rfl
  grind

/-- When the threat that is left is the greatest: `highest` is what was taken for it, `b` and
`m` are base amount and modifier of a reference of the list. -/
theorem isGreatest_matched {s : Set ℚ} {b m highest : ℚ} (hs : ∀ x ∈ s, 0 ≤ x) (hb : 0 ≤ b)
    (hmem : highest ∈ s) (hown : max (b + m) 0 ∈ s) :
    IsGreatest s (if 0 ≤ b + m then max highest m else max (b + m + highest) 0) ↔
      (∀ x ∈ s, x = 0) ∨ 0 ≤ b + m ∧ (IsGreatest s highest ∨ ∀ x ∈ s, x ≤ m) := by
  by_cases hpos : 0 ≤ b + m
  · rw [if_pos hpos]
    rw [max_eq_left hpos] at hown
    constructor
    · intro h
      refine .inr ⟨hpos, ?_⟩
      rcases le_total m highest with hm | hm
      · rw [max_eq_left hm] at h
        exact .inl h
      · rw [max_eq_right hm] at h
        exact .inr fun x hx => h.2 hx
    · rintro (hzero | ⟨_, hgreatest | hm⟩)
      · have hhigh := hzero _ hmem
        have hm : m ≤ 0 := by linarith [hzero _ hown]
        rw [hhigh, max_eq_left hm]
        exact ⟨hhigh ▸ hmem, fun x hx => (hzero x hx).le⟩
      · have hm : m ≤ highest := by linarith [hgreatest.2 hown]
        rw [max_eq_left hm]
        exact hgreatest
      · -- the reference itself has no base threat then
        have heq : b + m = m := le_antisymm (hm _ hown) (by linarith)
        rw [max_eq_right (hm _ hmem)]
        exact ⟨heq ▸ hown, fun x hx => hm x hx⟩
  · rw [if_neg hpos]
    rw [max_eq_right (not_le.mp hpos).le] at hown
    constructor
    · intro h
      left
      have hle := h.2 hmem
      intro x hx
      apply le_antisymm _ (hs x hx)
      rcases le_total (b + m + highest) 0 with hlow | hlow
      · rw [max_eq_right hlow] at h
        exact h.2 hx
      · rw [max_eq_left hlow] at hle
        linarith
    · rintro (hzero | ⟨h, _⟩)
      · rw [hzero _ hmem, add_zero, max_eq_right (not_le.mp hpos).le]
        exact ⟨hown, fun x hx => (hzero x hx).le⟩
      · exact absurd h hpos

/-! ## The call -/

section call

variable (hai : AIContract False (fun _ => False) ai)

include hai

theorem addThreat_listed (inv : WorldInv False w) (hid : w.threat.myThreat owner target = some id)
    (hr : w.threat.threats id = some r) (honline : r.isOnline = true)
    (hlist : env.canHaveThreatList owner = true) (hvehicle : env.vehicleBase target = none)
    (hprivate : env.privateObjectOwner owner target = none) (fuel : Nat) (amount : ℚ) :
    ∃ w', (addThreat env ai (fuel + 1) owner target amount none true true).run w = .ok ((), w') ∧
      w'.threat.myThreat owner target = some id ∧
      w'.threat.threats id = some (r.raised amount) := by
  -- threat is backed by combat, and refreshing that leaves the threat alone
  obtain ⟨b, ref, hb⟩ := inv.backed _ _ _ hid
  have hexisting : ∃ ref, w.combat.existingRef owner target = some ref := by
    rw [CombatState.existingRef]
    cases b with
    | true => exact ⟨ref, by rw [hb, Option.some_or]⟩
    | false =>
      grind
  obtain ⟨ref, hexisting⟩ := hexisting
  have hspec : wp (fun _ => False) (setInCombatWith env ai owner target false) w fun res w' =>
      Hooked False w w' ∧ (res = true → ∃ b id, w'.combat.combatRefs b owner target = some id) :=
    setInCombatWith_spec hai inv owner target false
  obtain ⟨res, w₁, hcombat, hhooked, _⟩ := hspec.returns
  have htold : wp (fun _ => True) (setInCombatWith env ai owner target false) w
      fun b _ => b = true :=
    (setInCombatWith_existing false hexisting).mono fun _ _ h => h.1
  have hres : res = true := htold.of_ok hcombat
  subst hres
  have hid₁ : w₁.threat.myThreat owner target = some id := by rw [hhooked.threat, hid]
  have hr₁ : w₁.threat.threats id = some r := by rw [hhooked.threat, hr]
  have hadd : wp (fun _ => False)
      (addThreat env ai (fuel + 1) owner target amount none true true) w fun _ w' =>
        w'.threat.myThreat owner target = some id ∧
          w'.threat.threats id = some (r.raised amount) := by
    rw [addThreat]
    simp only [causesNoThreat, hvehicle, hprivate, hlist, passThreat, redirectThreat,
      Option.isSome_none, Bool.false_and, Bool.not_true, Bool.false_eq_true, if_false, if_true,
      wp_bind, wp_pure]
    rw [wp_of_run_ok hcombat]
    simp only [if_true]
    unfold applyThreat onThreat
    simp only [wp_bind, wp_get, hid₁, wp_zoom]
    apply (raiseThreat_raised hhooked.inv.threat hr₁ honline amount).mono
    intro _ t' h
    refine ⟨?_, ?_⟩
    · show t'.myThreat owner target = some id
      rw [h.1.myThreat, hid₁]
    · show t'.threats id = some (r.raised amount)
      rw [h.2, Function.update_self]
  obtain ⟨_, w', hrun, hafter⟩ := hadd.returns
  exact ⟨w', hrun, hafter⟩

end call

/-! ## A raid -/

/-- What can be seen of a list by visiting its references. -/
def ThreatState.allListed (env : Env U ℚ) (t : ThreatState U ℚ) (u : U)
    (p : ThreatReference U ℚ → Bool) : Bool :=
  (t.refsOf env .myThreatList u).all fun id => (t.threats id).all p

theorem of_allListed {p : ThreatReference U ℚ → Bool} (h : t.allListed env u p = true)
    (hr : t.Listed u r) : p r = true := by
  obtain ⟨v, id, hid, hr⟩ := hr
  have hmem : id ∈ t.refsOf env .myThreatList u := mem_refsOf.mpr ⟨v, hid⟩
  have hall := List.all_eq_true.mp h id hmem
  rw [hr, Option.all_some] at hall
  exact hall

/-- A boss and its three enemies. -/
inductive Raider where
  | boss
  | tank
  | offtank
  | rogue
  deriving DecidableEq

/-- The boss is taunted by the given players, under an aura that changes the threat of the tank. -/
def Env.raid (taunts : List Raider) (aura : Int) : Env Raider ℚ :=
  { Env.plain [.boss, .tank, .offtank, .rogue] (fun u => by cases u <;> decide) (by decide) with
    tauntCasters := fun u => if u = .boss then taunts else []
    threatAuras := fun u => if u = .tank then [aura] else [] }

/-- After these calls the list is as it should be, and matching `target` leaves it with a
threat that some reference exceeded before. -/
def Mismatched (env : Env Raider ℚ) (steps : List (Step Raider ℚ)) (target : Raider) : Prop :=
  ∃ (w w' : World Raider ℚ) (threat : ℚ),
    (run (fun _ => silentAI) steps).run World.init = .ok ((), w) ∧
    (∀ r, w.threat.Listed .boss r →
      r.isOnline = true ∧ 0 ≤ r.baseAmount ∧ r.taunted ≠ TAUNT_STATE_DETAUNT) ∧
    (env.heapOrder w.threat .boss).Pairwise (NotLower w.threat) ∧
    (w.threat.myThreat .boss target).isSome = true ∧
    (matchUnitThreatToHighestThreat env silentAI .boss target).run w = .ok ((), w') ∧
    (getThreat .boss target).run w'.threat = .ok (threat, w'.threat) ∧
    ¬IsGreatest (w.threat.threatsOf .boss) threat

/-- `Mismatched`, as far as it can be seen by running the calls. -/
def mismatchedBy (env : Env Raider ℚ) (steps : List (Step Raider ℚ)) (target : Raider) : Bool :=
  match (run (fun _ => silentAI) steps).run World.init with
  | .error _ => false
  | .ok (_, w) =>
    w.threat.allListed env .boss (fun r =>
      r.isOnline && decide (0 ≤ r.baseAmount) && decide (r.taunted ≠ TAUNT_STATE_DETAUNT)) &&
    decide ((env.heapOrder w.threat .boss).Pairwise (NotLower w.threat)) &&
    (w.threat.myThreat .boss target).isSome &&
    match (matchUnitThreatToHighestThreat env silentAI .boss target).run w with
    | .error _ => false
    | .ok (_, w') =>
      match (getThreat .boss target).run w'.threat with
      | .error _ => false
      | .ok (threat, _) => !w.threat.allListed env .boss fun r => decide (r.getThreat ≤ threat)

theorem getThreat_reads (u v : U) :
    wp (fun _ => True) (getThreat u v) t fun _ t' => t' = t := by
  unfold getThreat
  simp only [wp_bind, wp_get]
  cases t.myThreat u v with
  | none => exact rfl
  | some id =>
    unfold derefThreat
    simp only [wp_bind, wp_get]
    cases t.threats id with
    | none => exact trivial
    | some r => exact rfl

theorem mismatched_of_run {env : Env Raider ℚ} {steps : List (Step Raider ℚ)} {target : Raider}
    (h : mismatchedBy env steps target = true) : Mismatched env steps target := by
  unfold mismatchedBy at h
  split at h
  · cases h
  · next w hrun =>
    simp only [Bool.and_eq_true, decide_eq_true_eq] at h
    obtain ⟨⟨⟨hlist, hsorted⟩, htarget⟩, h⟩ := h
    split at h
    · cases h
    · next w' hcall =>
      split at h
      · cases h
      · next threat t' hread =>
        refine ⟨w, w', threat, hrun, ?_, hsorted, htarget, hcall, ?_, ?_⟩
        · intro r hr
          have hcheck := of_allListed hlist hr
          simpa [and_assoc] using hcheck
        · have ht := (getThreat_reads .boss target).of_ok hread
          subst ht
          exact hread
        · intro hgreatest
          rw [Bool.not_eq_true', ← Bool.not_eq_true] at h
          apply h
          apply List.all_eq_true.mpr
          intro id hid
          obtain ⟨v, hv⟩ := mem_refsOf.mp hid
          cases hr : w.threat.threats id with
          | none => rfl
          | some r => exact decide_eq_true (hgreatest.2 ⟨r, ⟨v, id, hv, hr⟩, rfl⟩)

end EGServer.Combat
