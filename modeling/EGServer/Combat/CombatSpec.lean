import EGServer.Combat.Managers

/-!
# Well-formed combat references

`RefsWF` says that the managers' maps mirror each other: an entry of `u` for `v` and the
entry of `v` for `u` hold the same live reference between the two. `FlagOK` ties a unit's
`UNIT_FLAG_IN_COMBAT` to the references that are not suppressed for it.

Combat code grows the maps (`Extends`), recomputes a flag (`Flagged`), or removes the two
entries of a pair; the section on removal works on a state from which the first of the two
is already gone.
-/

set_option linter.unusedSectionVars false

namespace EGServer.Combat

open StateExcept

variable {U F : Type} [DecidableEq U] [RoundedArith F] {env : Env U F} {E : Abort → Prop}
variable {c c' c'' : CombatState U} {id : RefId} {r r' : CombatReference U} {u v : U} {b : Bool}

/-! ## The invariants -/

/-- The two units of a reference, in either order. -/
def CombatReference.Joins (r : CombatReference U) (u v : U) : Prop :=
  (r.first = u ∧ r.second = v) ∨ (r.first = v ∧ r.second = u)

instance (r : CombatReference U) (u v : U) : Decidable (r.Joins u v) :=
  inferInstanceAs (Decidable (_ ∨ _))

/-- The maps of all combat managers mirror each other. -/
structure RefsWF (c : CombatState U) : Prop where
  entry : ∀ {b u v id}, c.combatRefs b u v = some id →
    ∃ r, c.refs id = some r ∧ r.isPvP = b ∧ u ≠ v ∧ r.Joins u v
  symm : ∀ {b u v id}, c.combatRefs b u v = some id → c.combatRefs b v u = some id
  exclusive : ∀ u v, c.combatRefs true u v = none ∨ c.combatRefs false u v = none
  fresh : ∀ {id r}, c.refs id = some r → id < c.nextRef
  timer : ∀ {id r}, c.refs id = some r → r.combatTimer ≤ PVP_COMBAT_TIMEOUT

/-- Some reference keeps `u` in combat. -/
def HasCombat (c : CombatState U) (u : U) : Prop :=
  ∃ b v id r, c.combatRefs b u v = some id ∧ c.refs id = some r ∧ r.isSuppressedFor u = false

/-- `UNIT_FLAG_IN_COMBAT` is set iff the unit has a reference not suppressed for it. -/
def FlagOK (c : CombatState U) (u : U) : Prop := c.inCombat u = true ↔ HasCombat c u

structure CombatWF (c : CombatState U) : Prop where
  refs : RefsWF c
  flags : ∀ u, FlagOK c u

theorem CombatWF.init : CombatWF (CombatState.init : CombatState U) where
  refs := {
    entry := fun h => nomatch h
    symm := fun h => nomatch h
    exclusive := fun _ _ => Or.inl rfl
    fresh := fun h => nomatch h
    timer := fun h => nomatch h }
  flags u := by
    constructor
    · intro h
      cases h
    · rintro ⟨b, v, id, r, h, -⟩
      cases h

/-- Threat implies combat. -/
def Backed (c : CombatState U) (t : ThreatState U F) : Prop :=
  ∀ u v i, t.myThreat u v = some i → ∃ b id, c.combatRefs b u v = some id

/-- Nothing was removed: entries and references are kept, and an entry is only new where the
two units were not in combat, and holds a new reference. -/
structure Extends (c c' : CombatState U) : Prop where
  entries : ∀ {b u v id}, c.combatRefs b u v = some id → c'.combatRefs b u v = some id
  new : ∀ {b u v id}, c'.combatRefs b u v = some id →
    c.combatRefs b u v = some id ∨ (c.refs id = none ∧ ∀ b', c.combatRefs b' u v = none)
  refs : ∀ {id r}, c.refs id = some r → ∃ r', c'.refs id = some r' ∧ r'.first = r.first ∧
    r'.second = r.second ∧ r'.isPvP = r.isPvP ∧
    (r'.combatTimer = r.combatTimer ∨ r'.combatTimer = PVP_COMBAT_TIMEOUT)

theorem Extends.refl (c : CombatState U) : Extends c c :=
  ⟨fun h => h, fun h => Or.inl h, fun h => ⟨_, h, rfl, rfl, rfl, Or.inl rfl⟩⟩

theorem Extends.trans (h : Extends c c') (h' : Extends c' c'') : Extends c c'' where
  entries he := h'.entries (h.entries he)
  new {b u v id} he := by
    rcases h'.new he with he | ⟨hfresh, hnone⟩
    · exact h.new he
    · refine Or.inr ⟨?_, fun b' => ?_⟩
      · cases hr : c.refs id with
        | none => rfl
        | some r =>
          obtain ⟨r', hr', -⟩ := h.refs hr
          rw [hfresh] at hr'
          cases hr'
      · cases hb : c.combatRefs b' u v with
        | none => rfl
        | some i =>
          have hb' := h.entries hb
          rw [hnone b'] at hb'
          cases hb'
  refs hr := by
    obtain ⟨r', hr', hf, hs, hp, ht⟩ := h.refs hr
    obtain ⟨r'', hr'', hf', hs', hp', ht'⟩ := h'.refs hr'
    grind

theorem Backed.extends {t : ThreatState U F} (h : Backed c t) (hext : Extends c c') :
    Backed c' t := fun u v i hi => by
  obtain ⟨b, id, hb⟩ := h u v i hi
  exact ⟨b, id, hext.entries hb⟩

/-! ## Flags -/

theorem wp_derefCombat {Q : CombatReference U → CombatState U → Prop} (hr : c.refs id = some r)
    (hQ : Q r c) : wp E (derefCombat id) c Q := by
  unfold derefCombat
  simp only [wp_bind, wp_get, hr, wp_pure]
  exact hQ

/-- What the flag of `owner` is computed from at one entry. -/
def entryKeepsCombat (c : CombatState U) (owner : U) (b : Bool) (v : U) : Bool :=
  match c.combatRefs b owner v with
  | none => false
  | some id => match c.refs id with
    | none => false
    | some r => !r.isSuppressedFor owner

theorem hasCombat_iff (owner : U) :
    HasCombat c owner ↔ ∃ b v, entryKeepsCombat c owner b v = true := by
  constructor
  · rintro ⟨b, v, id, r, hid, hr, hs⟩
    exact ⟨b, v, by simp [entryKeepsCombat, hid, hr, hs]⟩
  · rintro ⟨b, v, h⟩
    unfold entryKeepsCombat at h
    split at h
    · cases h
    · next id hid =>
      split at h
      · cases h
      · next r hr => exact ⟨b, v, id, r, hid, hr, by simpa using h⟩

/-- The references in `owner`'s maps are live. -/
def LiveEntries (c : CombatState U) (owner : U) : Prop :=
  ∀ {b v id}, c.combatRefs b owner v = some id → ∃ r, c.refs id = some r

theorem RefsWF.live (wf : RefsWF c) (owner : U) : LiveEntries c owner := fun h => by
  obtain ⟨r, hr, -⟩ := wf.entry h
  exact ⟨r, hr⟩

theorem entryInCombat_spec (hlive : LiveEntries c u) (b : Bool) (v : U) :
    wp E (entryInCombat u b v) c fun res c' => res = entryKeepsCombat c u b v ∧ c' = c := by
  unfold entryInCombat
  simp only [wp_bind, wp_get]
  split
  · next hnone => exact ⟨by simp [entryKeepsCombat, hnone], rfl⟩
  · next id hid =>
    obtain ⟨r, hr⟩ := hlive hid
    simp only [wp_bind]
    exact wp_derefCombat hr ⟨by simp [entryKeepsCombat, hid, hr], rfl⟩

theorem hasCombatIn_spec (hlive : LiveEntries c u) (b : Bool) :
    wp E (hasCombatIn env b u) c fun res c' =>
      (res = true ↔ ∃ v, entryKeepsCombat c u b v = true) ∧ c' = c := by
  unfold hasCombatIn
  simp only [wp_bind, wp_get]
  refine (wp_anyOf (entryKeepsCombat c u b) _ fun v _ => entryInCombat_spec hlive b v).mono ?_
  rintro res _ ⟨rfl, rfl⟩
  refine ⟨?_, rfl⟩
  rw [List.any_eq_true]
  constructor
  · rintro ⟨v, _, hv⟩
    exact ⟨v, hv⟩
  · rintro ⟨v, hv⟩
    exact ⟨v, env.mem_combatOrder .., hv⟩

theorem hasCombat_spec (hlive : LiveEntries c u) :
    wp E (hasCombat env u) c fun res c' => (res = true ↔ HasCombat c u) ∧ c' = c := by
  unfold hasCombat
  simp only [wp_bind]
  refine (hasCombatIn_spec hlive false).mono ?_
  rintro pve _ ⟨hpve, rfl⟩
  refine wp_ite (fun htrue => ⟨?_, rfl⟩) fun hfalse => ?_
  · obtain ⟨v, hv⟩ := hpve.mp htrue
    exact ⟨fun _ => (hasCombat_iff u).mpr ⟨false, v, hv⟩, fun _ => rfl⟩
  · refine (hasCombatIn_spec hlive true).mono ?_
    rintro pvp _ ⟨hpvp, rfl⟩
    refine ⟨?_, rfl⟩
    rw [hpvp, hasCombat_iff]
    constructor
    · rintro ⟨v, hv⟩
      exact ⟨true, v, hv⟩
    · rintro ⟨b, v, hv⟩
      cases b with
      | true => exact ⟨v, hv⟩
      | false => exact absurd (hpve.mpr ⟨v, hv⟩) hfalse

/-- The flag of `u` was recomputed. -/
structure Flagged (u : U) (c c' : CombatState U) : Prop where
  refs : c'.refs = c.refs
  nextRef : c'.nextRef = c.nextRef
  combatRefs : c'.combatRefs = c.combatRefs
  others : ∀ x, x ≠ u → c'.inCombat x = c.inCombat x
  flag : FlagOK c' u

theorem Flagged.hasCombat (h : Flagged u c c') (x : U) : HasCombat c' x ↔ HasCombat c x := by
  unfold HasCombat
  rw [h.refs, h.combatRefs]

theorem Flagged.flagOK (h : Flagged u c c') {x : U} (hx : x = u ∨ FlagOK c x) : FlagOK c' x := by
  by_cases hxu : x = u
  · exact hxu ▸ h.flag
  · unfold FlagOK
    rw [h.others x hxu, h.hasCombat]
    exact hx.resolve_left hxu

theorem Flagged.refsWF (h : Flagged u c c') (wf : RefsWF c) : RefsWF c' where
  entry he := by rw [h.combatRefs] at he; rw [h.refs]; exact wf.entry he
  symm he := by rw [h.combatRefs] at he ⊢; exact wf.symm he
  exclusive x y := by rw [h.combatRefs]; exact wf.exclusive x y
  fresh hr := by rw [h.refs] at hr; rw [h.nextRef]; exact wf.fresh hr
  timer hr := by rw [h.refs] at hr; exact wf.timer hr

theorem Flagged.extends (h : Flagged u c c') : Extends c c' where
  entries he := by rw [h.combatRefs]; exact he
  new he := by rw [h.combatRefs] at he; exact Or.inl he
  refs hr := ⟨_, by rw [h.refs]; exact hr, rfl, rfl, rfl, Or.inl rfl⟩

/-- **Specification of `UpdateOwnerCombatState`.** -/
theorem updateOwnerCombatState_spec (hlive : LiveEntries c u) :
    wp E (updateOwnerCombatState env u) c fun _ c' => Flagged u c c' := by
  unfold updateOwnerCombatState
  simp only [wp_bind]
  refine (hasCombat_spec hlive).mono ?_
  rintro state c ⟨hstate, rfl⟩
  simp only [wp_get]
  refine wp_ite (fun hsame => ?_) fun _ => ?_
  · exact ⟨rfl, rfl, rfl, fun _ _ => rfl, by unfold FlagOK; rw [← hsame]; exact hstate⟩
  · simp only [wp_bind, wp_modify, wp_pure]
    refine ⟨rfl, rfl, rfl, fun x hx => Function.update_of_ne hx _ _, ?_⟩
    show Function.update c.inCombat u state u = true ↔ HasCombat c u
    rw [Function.update_self]
    exact hstate

end EGServer.Combat

/-!
# What the combat code does

One specification for each function that works on combat references alone.
-/

set_option linter.unusedSectionVars false

namespace EGServer.Combat

open StateExcept

variable {U F : Type} [DecidableEq U] [RoundedArith F] {env : Env U F} {E : Abort → Prop}
variable {c c' c'' : CombatState U} {id : RefId} {r r' : CombatReference U} {u v x : U} {b : Bool}

theorem CombatReference.Joins.symm (h : r.Joins u v) : r.Joins v u := Or.symm h

theorem CombatReference.Joins.left_mem (h : r.Joins u v) : u = r.first ∨ u = r.second := by
  rcases h with ⟨h, -⟩ | ⟨-, h⟩
  · exact Or.inl h.symm
  · exact Or.inr h.symm

theorem RefsWF.distinct (wf : RefsWF c) (he : c.combatRefs b u v = some id)
    (hr : c.refs id = some r) : r.first ≠ r.second := by
  obtain ⟨q, hq, -, hne, hj⟩ := wf.entry he
  rw [hr] at hq
  cases hq
  rcases hj with ⟨rfl, rfl⟩ | ⟨rfl, rfl⟩
  · exact hne
  · exact hne.symm

theorem RefsWF.joins (wf : RefsWF c) (he : c.combatRefs b u v = some id)
    (hr : c.refs id = some r) : r.isPvP = b ∧ r.Joins u v := by
  obtain ⟨q, hq, hp, -, hj⟩ := wf.entry he
  rw [hr] at hq
  cases hq
  exact ⟨hp, hj⟩

/-! ## Writing a reference -/

/-- The fields that a write must not change. -/
structure SameUnits (r r' : CombatReference U) : Prop where
  first : r'.first = r.first
  second : r'.second = r.second
  isPvP : r'.isPvP = r.isPvP

theorem write_refs_self (c : CombatState U) (id : RefId) (r : CombatReference U) :
    (c.write id r).refs id = some r := Function.update_self ..

theorem write_refs_ne {i : RefId} (h : i ≠ id) (c : CombatState U) (r : CombatReference U) :
    (c.write id r).refs i = c.refs i := Function.update_of_ne h ..

theorem RefsWF.write (wf : RefsWF c) (hr : c.refs id = some r) (hu : SameUnits r r')
    (ht : r'.combatTimer ≤ PVP_COMBAT_TIMEOUT) : RefsWF (c.write id r') where
  entry {b u v i} he := by
    obtain ⟨q, hq, hp, hne, hj⟩ := wf.entry he
    by_cases hi : i = id
    · subst hi
      rw [hr] at hq
      cases hq
      refine ⟨r', write_refs_self .., hu.isPvP.trans hp, hne, ?_⟩
      unfold CombatReference.Joins
      rw [hu.first, hu.second]
      exact hj
    · exact ⟨q, by rw [write_refs_ne hi]; exact hq, hp, hne, hj⟩
  symm he := wf.symm he
  exclusive x y := wf.exclusive x y
  fresh {i q} hq := by
    by_cases hi : i = id
    · subst hi
      exact wf.fresh hr
    · rw [write_refs_ne hi] at hq
      exact wf.fresh hq
  timer {i q} hq := by
    by_cases hi : i = id
    · subst hi
      rw [write_refs_self] at hq
      cases hq
      exact ht
    · rw [write_refs_ne hi] at hq
      exact wf.timer hq

theorem extends_write (hr : c.refs id = some r) (hu : SameUnits r r')
    (ht : r'.combatTimer = r.combatTimer ∨ r'.combatTimer = PVP_COMBAT_TIMEOUT) :
    Extends c (c.write id r') where
  entries he := he
  new he := Or.inl he
  refs {i q} hq := by
    by_cases hi : i = id
    · subst hi
      rw [hr] at hq
      cases hq
      exact ⟨r', write_refs_self .., hu.first, hu.second, hu.isPvP, ht⟩
    · exact ⟨q, by rw [write_refs_ne hi]; exact hq, rfl, rfl, rfl, Or.inl rfl⟩

/-- A write that does not change whether the reference is suppressed for `x` does not
change what the flag of `x` should be. -/
theorem FlagOK.write (wf : RefsWF c) (hr : c.refs id = some r)
    (hx : x = r.first ∨ x = r.second → r'.isSuppressedFor x = r.isSuppressedFor x)
    (h : FlagOK c x) : FlagOK (c.write id r') x := by
  have hiff : HasCombat (c.write id r') x ↔ HasCombat c x := by
    constructor
    · rintro ⟨b, v, i, q, he, hq, hs⟩
      have he : c.combatRefs b x v = some i := he
      by_cases hi : i = id
      · subst hi
        rw [write_refs_self] at hq
        cases hq
        exact ⟨b, v, i, r, he, hr, by rw [← hx (wf.joins he hr).2.left_mem]; exact hs⟩
      · rw [write_refs_ne hi] at hq
        exact ⟨b, v, i, q, he, hq, hs⟩
    · rintro ⟨b, v, i, q, he, hq, hs⟩
      by_cases hi : i = id
      · subst hi
        rw [hr] at hq
        cases hq
        exact ⟨b, v, i, r', he, write_refs_self .., by rw [hx (wf.joins he hr).2.left_mem]; exact hs⟩
      · exact ⟨b, v, i, q, he, by rw [write_refs_ne hi]; exact hq, hs⟩
  unfold FlagOK
  rw [hiff]
  exact h

@[simp] theorem suppress_first (r : CombatReference U) (w : U) : (r.suppress w).first = r.first := by
  unfold CombatReference.suppress; split <;> rfl

@[simp] theorem suppress_second (r : CombatReference U) (w : U) :
    (r.suppress w).second = r.second := by
  unfold CombatReference.suppress; split <;> rfl

@[simp] theorem suppress_isPvP (r : CombatReference U) (w : U) : (r.suppress w).isPvP = r.isPvP := by
  unfold CombatReference.suppress; split <;> rfl

@[simp] theorem suppress_combatTimer (r : CombatReference U) (w : U) :
    (r.suppress w).combatTimer = r.combatTimer := by
  unfold CombatReference.suppress; split <;> rfl

theorem sameUnits_suppress (r : CombatReference U) (w : U) : SameUnits r (r.suppress w) :=
  ⟨suppress_first r w, suppress_second r w, suppress_isPvP r w⟩

theorem isSuppressedFor_suppress (hw : u = r.first ∨ u = r.second) (hx : x = r.first ∨ x = r.second)
    (hne : x ≠ u) (hd : r.first ≠ r.second) :
    (r.suppress u).isSuppressedFor x = r.isSuppressedFor x := by
  rcases hw with rfl | rfl
  · rcases hx with rfl | rfl
    · exact absurd rfl hne
    · simp [CombatReference.suppress, CombatReference.isSuppressedFor, hne]
  · rcases hx with rfl | rfl
    · simp [CombatReference.suppress, CombatReference.isSuppressedFor, Ne.symm hd]
    · exact absurd rfl hne

/-- A write that changes the suppression for `u` alone, followed by an update of `u`'s flag. -/
theorem writeAndUpdate_spec (wf : CombatWF c) (hr : c.refs id = some r) (hu : SameUnits r r')
    (ht : r'.combatTimer = r.combatTimer)
    (hs : ∀ x, x ≠ u → x = r.first ∨ x = r.second →
      r'.isSuppressedFor x = r.isSuppressedFor x) :
    wp E (updateOwnerCombatState env u) (c.write id r') fun _ c' => CombatWF c' ∧ Extends c c' := by
  have wf' := wf.refs.write hr hu (ht ▸ wf.refs.timer hr)
  refine (updateOwnerCombatState_spec (wf'.live u)).mono fun _ c' hf => ⟨⟨?_, fun x => ?_⟩, ?_⟩
  · exact hf.refsWF wf'
  · refine hf.flagOK ?_
    by_cases hx : x = u
    · exact Or.inl hx
    · exact Or.inr ((wf.flags x).write wf.refs hr (hs x hx))
  · exact (extends_write hr hu (Or.inl ht)).trans hf.extends

theorem refreshTimer_spec (wf : CombatWF c) (hr : c.refs id = some r) :
    wp E (refreshTimer id) c fun _ c' => CombatWF c' ∧ Extends c c' := by
  unfold refreshTimer
  simp only [wp_bind]
  refine wp_derefCombat hr ?_
  simp only [wp_modify]
  have hu : SameUnits r { r with combatTimer := PVP_COMBAT_TIMEOUT } := ⟨rfl, rfl, rfl⟩
  exact ⟨⟨wf.refs.write hr hu le_rfl, fun x => (wf.flags x).write wf.refs hr fun _ => rfl⟩,
    extends_write hr hu (Or.inr rfl)⟩

theorem unsuppressFirst_spec (wf : CombatWF c) (hr : c.refs id = some r) :
    wp E (unsuppressFirst env id) c fun _ c' => CombatWF c' ∧ Extends c c' := by
  unfold unsuppressFirst
  simp only [wp_bind]
  refine wp_derefCombat hr (wp_ite (fun _ => ?_) fun _ => ⟨wf, Extends.refl c⟩)
  simp only [wp_bind, wp_modify]
  refine writeAndUpdate_spec wf hr ⟨rfl, rfl, rfl⟩ rfl fun x hx _ => ?_
  simp [CombatReference.isSuppressedFor, hx]

theorem unsuppressSecond_spec (wf : CombatWF c) (hr : c.refs id = some r) :
    wp E (unsuppressSecond env id) c fun _ c' => CombatWF c' ∧ Extends c c' := by
  unfold unsuppressSecond
  simp only [wp_bind]
  refine wp_derefCombat hr (wp_ite (fun _ => ?_) fun _ => ⟨wf, Extends.refl c⟩)
  simp only [wp_bind, wp_modify]
  refine writeAndUpdate_spec wf hr ⟨rfl, rfl, rfl⟩ rfl fun x hx hmem => ?_
  simp [CombatReference.isSuppressedFor, hmem.resolve_right hx]

/-! ## New references -/

theorem setEntry_combatRefs (c : CombatState U) (p : Bool) (a z : U) (i : Option RefId) (b : Bool)
    (u v : U) : (c.setEntry p a z i).combatRefs b u v =
      if b = p ∧ u = a ∧ v = z then i else c.combatRefs b u v := rfl

/-- A fresh reference is entered in both managers' maps. -/
structure Joined (r : CombatReference U) (c c' : CombatState U) : Prop where
  refs : c'.refs = Function.update c.refs c.nextRef (some r)
  nextRef : c'.nextRef = c.nextRef + 1
  combatRefs : ∀ b u v, c'.combatRefs b u v =
    if b = r.isPvP ∧ r.Joins u v then some c.nextRef else c.combatRefs b u v
  inCombat : c'.inCombat = c.inCombat

section joined

variable (wf : RefsWF c) (hne : r.first ≠ r.second)
  (hnone : ∀ b, c.combatRefs b r.first r.second = none) (h : Joined r c c')

include wf in
theorem RefsWF.ne_nextRef (hr : c.refs id = some r') : id ≠ c.nextRef := (wf.fresh hr).ne

include wf hnone in
theorem RefsWF.none_of_joins (hj : r.Joins u v) (b : Bool) : c.combatRefs b u v = none := by
  rcases hj with ⟨rfl, rfl⟩ | ⟨rfl, rfl⟩
  · exact hnone b
  · cases he : c.combatRefs b r.second r.first with
    | none => rfl
    | some i =>
      have := wf.symm he
      rw [hnone b] at this
      cases this

include wf hnone h in
theorem Joined.extends : Extends c c' where
  entries {b u v i} he := by
    rw [h.combatRefs, if_neg]
    · exact he
    · rintro ⟨-, hj⟩
      rw [wf.none_of_joins hnone hj b] at he
      cases he
  new {b u v i} he := by
    rw [h.combatRefs] at he
    split at he
    · next hbj =>
      cases he
      refine Or.inr ⟨?_, wf.none_of_joins hnone hbj.2⟩
      cases hr : c.refs c.nextRef with
      | none => rfl
      | some q => exact absurd rfl (wf.ne_nextRef hr)
    · exact Or.inl he
  refs {i q} hq := by
    refine ⟨q, ?_, rfl, rfl, rfl, Or.inl rfl⟩
    rw [h.refs, Function.update_of_ne (wf.ne_nextRef hq)]
    exact hq

include wf hne hnone h in
theorem Joined.refsWF (ht : r.combatTimer ≤ PVP_COMBAT_TIMEOUT) : RefsWF c' where
  entry {b u v i} he := by
    rw [h.combatRefs] at he
    rw [h.refs]
    split at he
    · next hbj =>
      cases he
      refine ⟨r, Function.update_self .., hbj.1.symm, ?_, hbj.2⟩
      rcases hbj.2 with ⟨rfl, rfl⟩ | ⟨rfl, rfl⟩
      · exact hne
      · exact hne.symm
    · obtain ⟨q, hq, hp, hd, hj⟩ := wf.entry he
      exact ⟨q, by rw [Function.update_of_ne (wf.ne_nextRef hq)]; exact hq, hp, hd, hj⟩
  symm {b u v i} he := by
    rw [h.combatRefs] at he ⊢
    split at he
    · next hbj => rw [if_pos ⟨hbj.1, hbj.2.symm⟩]; exact he
    · next hbj =>
      rw [if_neg fun hc => hbj ⟨hc.1, hc.2.symm⟩]
      exact wf.symm he
  exclusive u v := by
    simp only [h.combatRefs]
    by_cases hj : r.Joins u v
    · have hno := wf.none_of_joins hnone hj
      grind
    · simpa [hj] using wf.exclusive u v
  fresh {i q} hq := by
    rw [h.refs] at hq
    rw [h.nextRef]
    by_cases hi : i = c.nextRef
    · rw [hi]
      exact Nat.lt_succ_self _
    · rw [Function.update_of_ne hi] at hq
      exact Nat.lt_succ_of_lt (wf.fresh hq)
  timer {i q} hq := by
    rw [h.refs] at hq
    by_cases hi : i = c.nextRef
    · subst hi
      rw [Function.update_self] at hq
      cases hq
      exact ht
    · rw [Function.update_of_ne hi] at hq
      exact wf.timer hq

include wf h in
theorem Joined.flagOK (hx : x ≠ r.first) (hx' : x ≠ r.second) (hf : FlagOK c x) : FlagOK c' x := by
  have hold : ∀ b v, c'.combatRefs b x v = c.combatRefs b x v := fun b v => by
    rw [h.combatRefs, if_neg]
    rintro ⟨-, ⟨h1, -⟩ | ⟨-, h1⟩⟩
    · exact hx h1.symm
    · exact hx' h1.symm
  have hiff : HasCombat c' x ↔ HasCombat c x := by
    constructor
    · rintro ⟨b, v, i, q, he, hq, hs⟩
      rw [hold] at he
      obtain ⟨q', hq', -⟩ := wf.entry he
      rw [h.refs, Function.update_of_ne (wf.ne_nextRef hq')] at hq
      exact ⟨b, v, i, q, he, hq, hs⟩
    · rintro ⟨b, v, i, q, he, hq, hs⟩
      refine ⟨b, v, i, q, by rw [hold]; exact he, ?_, hs⟩
      rw [h.refs, Function.update_of_ne (wf.ne_nextRef hq)]
      exact hq
  unfold FlagOK
  rw [hiff, h.inCombat]
  exact hf

end joined

/-- The reference that `SetInCombatWith` creates. -/
def createdReference (env : Env U F) (owner who : U) (suppressed : Bool) : CombatReference U :=
  let r : CombatReference U :=
    { first := owner, second := who,
      isPvP := env.isControlledByPlayer owner && env.isControlledByPlayer who }
  if suppressed then r.suppress who else r

theorem createReference_spec (wf : RefsWF c) {owner who : U} (hne : owner ≠ who)
    (hnone : ∀ b, c.combatRefs b owner who = none) (suppressed : Bool) :
    wp E (createReference env owner who suppressed) c fun _ c' =>
      Joined (createdReference env owner who suppressed) c c' := by
  unfold createReference newCombatReference putReference
  simp only [wp_bind, wp_get, wp_modify, wp_pure]
  refine wp_derefCombat (r := createdReference env owner who suppressed)
    (Function.update_self ..) ?_
  generalize hrd : createdReference env owner who suppressed = r
  have hf : r.first = owner := by subst hrd; unfold createdReference; split <;> simp
  have hs : r.second = who := by subst hrd; unfold createdReference; split <;> simp
  simp only [hnone, wp_modify]
  refine wp_derefCombat (r := r) ?_ ?_
  · rw [← hrd]
    exact Function.update_self ..
  have hback : c.combatRefs r.isPvP who owner = none :=
    wf.none_of_joins (r := r) (by rw [hf, hs]; exact hnone) (Or.inr ⟨hf, hs⟩) _
  simp only [setEntry_combatRefs, hne, hne.symm, and_false, if_false, hback, wp_modify]
  refine ⟨by rw [← hrd]; rfl, rfl, fun b u v => ?_, rfl⟩
  simp only [setEntry_combatRefs, CombatReference.Joins, hf, hs]
  grind

/-! ## Removing a reference -/

/-- At most entries of the pair that `r` joins are missing from the maps of `c`. -/
structure Torn (r : CombatReference U) (c c' : CombatState U) : Prop where
  refs : c'.refs = c.refs
  nextRef : c'.nextRef = c.nextRef
  inCombat : c'.inCombat = c.inCombat
  combatRefs : ∀ b u v, c'.combatRefs b u v = c.combatRefs b u v ∨ (b = r.isPvP ∧ r.Joins u v)

theorem Torn.refl (r : CombatReference U) (c : CombatState U) : Torn r c c :=
  ⟨rfl, rfl, rfl, fun _ _ _ => Or.inl rfl⟩

theorem torn_setEntry (hj : r.Joins u v) : Torn r c (c.setEntry r.isPvP u v none) where
  refs := rfl
  nextRef := rfl
  inCombat := rfl
  combatRefs b x y := by
    rw [setEntry_combatRefs]
    split
    · next h => exact Or.inr ⟨h.1, by rw [h.2.1, h.2.2]; exact hj⟩
    · exact Or.inl rfl

/-- The two entries of the pair that `r` joins are gone. -/
structure Parted (r : CombatReference U) (c c' : CombatState U) : Prop where
  refs : c'.refs = c.refs
  nextRef : c'.nextRef = c.nextRef
  inCombat : c'.inCombat = c.inCombat
  combatRefs : ∀ b u v, c'.combatRefs b u v =
    if b = r.isPvP ∧ r.Joins u v then none else c.combatRefs b u v

theorem parted_of_torn (h : Torn r c c') :
    Parted r c ((c'.setEntry r.isPvP r.first r.second none).setEntry
      r.isPvP r.second r.first none) where
  refs := h.refs
  nextRef := h.nextRef
  inCombat := h.inCombat
  combatRefs b u v := by
    simp only [setEntry_combatRefs]
    by_cases h1 : b = r.isPvP ∧ u = r.second ∧ v = r.first
    · rw [if_pos h1, if_pos ⟨h1.1, Or.inr ⟨h1.2.2.symm, h1.2.1.symm⟩⟩]
    · rw [if_neg h1]
      by_cases h2 : b = r.isPvP ∧ u = r.first ∧ v = r.second
      · rw [if_pos h2, if_pos ⟨h2.1, Or.inl ⟨h2.2.1.symm, h2.2.2.symm⟩⟩]
      · have hnot : ¬(b = r.isPvP ∧ r.Joins u v) := by
          rintro ⟨hb, ⟨rfl, rfl⟩ | ⟨rfl, rfl⟩⟩
          · exact h2 ⟨hb, rfl, rfl⟩
          · exact h1 ⟨hb, rfl, rfl⟩
        rw [if_neg h2, if_neg hnot]
        exact (h.combatRefs b u v).resolve_right hnot

/-- No map holds the reference. -/
def Unmapped (id : RefId) (c : CombatState U) : Prop := ∀ b u v, c.combatRefs b u v ≠ some id

theorem Parted.of_entry (h : Parted r c c') {i : RefId} (he : c'.combatRefs b u v = some i) :
    c.combatRefs b u v = some i ∧ ¬(b = r.isPvP ∧ r.Joins u v) := by
  rw [h.combatRefs] at he
  split at he
  · cases he
  · next hn => exact ⟨he, hn⟩

theorem Parted.unmapped (h : Parted r c c') (wf : RefsWF c) (hr : c.refs id = some r) :
    Unmapped id c' := fun b u v he => by
  obtain ⟨he, hn⟩ := h.of_entry he
  obtain ⟨hp, hj⟩ := wf.joins he hr
  exact hn ⟨hp.symm, hj⟩

theorem Parted.refsWF (h : Parted r c c') (wf : RefsWF c) : RefsWF c' where
  entry he := by
    rw [h.refs]
    exact wf.entry (h.of_entry he).1
  symm {b u v i} he := by
    obtain ⟨he, hn⟩ := h.of_entry he
    rw [h.combatRefs, if_neg fun hc => hn ⟨hc.1, hc.2.symm⟩]
    exact wf.symm he
  exclusive u v := by
    rcases wf.exclusive u v with hx | hx
    · exact Or.inl (by rw [h.combatRefs, hx]; split <;> rfl)
    · exact Or.inr (by rw [h.combatRefs, hx]; split <;> rfl)
  fresh hr := by
    rw [h.refs] at hr
    rw [h.nextRef]
    exact wf.fresh hr
  timer hr := by
    rw [h.refs] at hr
    exact wf.timer hr

theorem Parted.flagOK (h : Parted r c c') (hx : x ≠ r.first) (hx' : x ≠ r.second)
    (hf : FlagOK c x) : FlagOK c' x := by
  have hold : ∀ b v, c'.combatRefs b x v = c.combatRefs b x v := fun b v => by
    rw [h.combatRefs, if_neg]
    rintro ⟨-, ⟨h1, -⟩ | ⟨-, h1⟩⟩
    · exact hx h1.symm
    · exact hx' h1.symm
  unfold FlagOK HasCombat
  simp only [hold, h.refs, h.inCombat]
  exact hf

theorem deleteCombatReference_spec (wf : CombatWF c) (hr : c.refs id = some r)
    (hun : Unmapped id c) :
    wp E (deleteCombatReference id) c fun _ c' => CombatWF c' ∧ c'.combatRefs = c.combatRefs ∧
      c'.refs = Function.update c.refs id none := by
  unfold deleteCombatReference
  simp only [wp_bind]
  refine wp_derefCombat hr ?_
  rw [wp_modify]
  have hne : ∀ {b u v i}, c.combatRefs b u v = some i → i ≠ id := by
    rintro b u v i he rfl
    exact hun b u v he
  refine ⟨⟨?_, fun x => ?_⟩, rfl, rfl⟩
  · exact {
      entry := fun he => by
        obtain ⟨q, hq, hrest⟩ := wf.refs.entry he
        exact ⟨q, (Function.update_of_ne (hne he) _ _).trans hq, hrest⟩
      symm := fun he => wf.refs.symm he
      exclusive := wf.refs.exclusive
      fresh := fun {i q} hq => by
        by_cases hi : i = id
        · subst hi
          exact wf.refs.fresh hr
        · exact wf.refs.fresh ((Function.update_of_ne hi _ _).symm.trans hq)
      timer := fun {i q} hq => by
        by_cases hi : i = id
        · subst hi
          cases (Function.update_self ..).symm.trans hq
        · exact wf.refs.timer ((Function.update_of_ne hi _ _).symm.trans hq) }
  · refine (wf.flags x).trans ⟨?_, ?_⟩
    · rintro ⟨b, v, i, q, he, hq, hs⟩
      exact ⟨b, v, i, q, he, (Function.update_of_ne (hne he) _ _).trans hq, hs⟩
    · rintro ⟨b, v, i, q, he, hq, hs⟩
      exact ⟨b, v, i, q, he, (Function.update_of_ne (hne he) _ _).symm.trans hq, hs⟩

/-! ## Suppression and timers -/

theorem tickReference_spec (wf : CombatWF c) (hr : c.refs id = some r) (owner : U) (tdiff : Nat) :
    wp E (tickReference owner tdiff id) c fun res c' =>
      if res then c' = c ∧ r.first = owner ∧ r.combatTimer ≤ tdiff
      else CombatWF c' ∧ c'.combatRefs = c.combatRefs ∧ ∀ i, i ≠ id → c'.refs i = c.refs i := by
  unfold tickReference
  simp only [wp_bind]
  refine wp_derefCombat hr (wp_ite (fun _ => ?_) fun hfirst => wp_ite (fun hexp => ?_) fun _ => ?_)
  · exact ⟨wf, rfl, fun _ _ => rfl⟩
  · exact ⟨rfl, not_not.mp hfirst, hexp⟩
  · simp only [wp_bind, wp_modify, wp_pure]
    have hle : r.combatTimer - tdiff ≤ PVP_COMBAT_TIMEOUT :=
      le_trans (Nat.sub_le ..) (wf.refs.timer hr)
    exact ⟨⟨wf.refs.write hr ⟨rfl, rfl, rfl⟩ hle,
        fun x => (wf.flags x).write wf.refs hr fun _ => rfl⟩,
      rfl, fun i hi => write_refs_ne hi ..⟩

/-- **Specification of the combat half of `SuppressFor`.** -/
theorem suppressFor_combat_spec (wf : CombatWF c) (he : c.combatRefs b u v = some id)
    (hr : c.refs id = some r) :
    wp E (updateOwnerCombatState env u) (c.write id (r.suppress u)) fun _ c' =>
      CombatWF c' ∧ Extends c c' := by
  have hd := wf.refs.distinct he hr
  exact writeAndUpdate_spec wf hr (sameUnits_suppress r u) (suppress_combatTimer r u) fun x hx hmem =>
    isSuppressedFor_suppress (wf.refs.joins he hr).2.left_mem hmem hx hd

/-- **Specification of the combat half of `SuppressPvPCombat`.** Between the suppressions
and the update, only the flag of `u` may be out of date. -/
theorem suppressPvPCombat_combat_spec (wf : CombatWF c) (u : U) :
    wp E (do
      forEach (env.combatOrder (← get) true u) (suppressEntry u)
      updateOwnerCombatState env u) c fun _ c' => CombatWF c' ∧ Extends c c' := by
  simp only [wp_bind, wp_get]
  let I : CombatState U → Prop := fun c₁ =>
    RefsWF c₁ ∧ (∀ x, x ≠ u → FlagOK c₁ x) ∧ Extends c c₁
  refine (wp_forEach_inv I _ ?_ c ⟨wf.refs, fun x _ => wf.flags x, Extends.refl c⟩).mono ?_
  · rintro v - c₁ ⟨wf₁, hf₁, hext₁⟩
    unfold suppressEntry
    simp only [wp_bind, wp_get]
    split
    · exact ⟨wf₁, hf₁, hext₁⟩
    · next id he =>
      obtain ⟨r, hr, -⟩ := wf₁.entry he
      have hd := wf₁.distinct he hr
      have hu := sameUnits_suppress r u
      have ht := suppress_combatTimer r u
      simp only [wp_bind]
      refine wp_derefCombat hr ?_
      simp only [wp_modify]
      refine ⟨wf₁.write hr hu (ht ▸ wf₁.timer hr), fun x hx => ?_,
        hext₁.trans (extends_write hr hu (Or.inl ht))⟩
      exact (hf₁ x hx).write wf₁ hr fun hmem =>
        isSuppressedFor_suppress (wf₁.joins he hr).2.left_mem hmem hx hd
  · rintro - c₁ ⟨wf₁, hf₁, hext₁⟩
    refine (updateOwnerCombatState_spec (wf₁.live u)).mono fun _ c' hf => ⟨⟨?_, fun x => ?_⟩, ?_⟩
    · exact hf.refsWF wf₁
    · by_cases hx : x = u
      · exact hf.flagOK (Or.inl hx)
      · exact hf.flagOK (Or.inr (hf₁ x hx))
    · exact hext₁.trans hf.extends

theorem isInCombatWith_spec (owner guid : U) :
    wp E (isInCombatWith owner guid) c fun res c' => c' = c ∧
      (res = true → ∃ b id, c.combatRefs b owner guid = some id) := by
  unfold isInCombatWith
  rw [wp_bind, wp_get, wp_pure]
  refine ⟨rfl, fun h => ?_⟩
  rw [Bool.or_eq_true, Option.isSome_iff_exists, Option.isSome_iff_exists] at h
  rcases h with ⟨id, h⟩ | ⟨id, h⟩
  · exact ⟨false, id, h⟩
  · exact ⟨true, id, h⟩

end EGServer.Combat
