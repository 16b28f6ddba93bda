import EGServer.DungeonFinding.Compatible
import EGServer.DungeonFinding.SearchSpec

/-!
# What a check decides

When nobody is busy and no dungeon is locked, the answer of `CheckCompatibility` about
distinct queued entries depends on the set of the entries only, and says what the set is: a
set that others can join, a set that is matched, or neither. The cache is right when its
answers say the same.
-/

namespace EGServer.DungeonFinding

open StateExcept

/-- Everybody is still queued, and no dungeon is locked for anybody. -/
structure LfgEnv.Steady (env : LfgEnv) : Prop where
  allQueued : ∀ check, env.allQueued check = true
  unlocked : ∀ dungeons players isContinue,
    (env.getCompatibleDungeons dungeons players isContinue).1 = dungeons

/-- The entries are no full group yet, and others may join them. -/
def Joinable (rules : LfgRules) (q : LFGQueue) (s : Finset ObjectGuid) : Prop :=
  q.playersIn s ≠ MAX_GROUP_SIZE ∧ (s.card = 1 ∨ Compatible rules q s)

/-- The entries are proposed as a group. Of a single entry only the players and the dungeons
are looked at. -/
def Matched (rules : LfgRules) (q : LFGQueue) (s : Finset ObjectGuid) : Prop :=
  q.playersIn s = MAX_GROUP_SIZE ∧
    (s.card = 1 ∧ (∃ d, ∀ g ∈ s, d ∈ q.dungeonsOf g) ∨ 1 < s.card ∧ Compatible rules q s)

/-- The answer says what the set is. -/
structure Settles (rules : LfgRules) (q : LFGQueue) (s : Finset ObjectGuid)
    (c : LfgCompatibility) : Prop where
  joinable : c = .withLessPlayers ↔ Joinable rules q s
  matched : c = .matched ↔ Matched rules q s

/-- What the cache knows of distinct queued entries with at most five players is right. -/
def LFGQueue.CacheRight (rules : LfgRules) (q : LFGQueue) : Prop :=
  ∀ (check : List ObjectGuid) (c : LfgCompatibility), check ≠ [] → check.Nodup →
    (∀ g ∈ check, q.isQueued g = true) → q.total check ≤ MAX_GROUP_SIZE →
    q.compatibleMapStore (concatenateGuids check) = some c →
    Settles rules q check.toFinset c

variable {rules : LfgRules} {env : LfgEnv} {q q' : LFGQueue} {s : Finset ObjectGuid}
  {check : List ObjectGuid} {w w' w'' : LfgWorld} {c : LfgCompatibility}

theorem Settles.of_joinable (hj : Joinable rules q s) (hm : ¬Matched rules q s) :
    Settles rules q s .withLessPlayers where
  joinable := ⟨fun _ => hj, fun _ => rfl⟩
  matched := ⟨fun h => (by cases h), fun h => absurd h hm⟩

theorem Settles.of_matched (hj : ¬Joinable rules q s) (hm : Matched rules q s) :
    Settles rules q s .matched where
  joinable := ⟨fun h => (by cases h), fun h => absurd h hj⟩
  matched := ⟨fun _ => hm, fun _ => rfl⟩

theorem Settles.of_incompatible (hc : c.isIncompatible = true) (hj : ¬Joinable rules q s)
    (hm : ¬Matched rules q s) : Settles rules q s c where
  joinable := ⟨fun h => (by rw [h] at hc; cases hc), fun h => absurd h hj⟩
  matched := ⟨fun h => (by rw [h] at hc; cases hc), fun h => absurd h hm⟩

/-! ## Only the entries matter -/

section Congr

variable (h : q'.queueDataStore = q.queueDataStore)

include h

theorem isQueued_congr : q'.isQueued = q.isQueued := by
  funext g
  rw [LFGQueue.isQueued, LFGQueue.isQueued, h]

theorem rolesOf_congr : q'.rolesOf = q.rolesOf := by
  funext g
  rw [LFGQueue.rolesOf, LFGQueue.rolesOf, h]

theorem dungeonsOf_congr : q'.dungeonsOf = q.dungeonsOf := by
  funext g
  rw [LFGQueue.dungeonsOf, LFGQueue.dungeonsOf, h]

theorem playersIn_congr : q'.playersIn = q.playersIn := by
  funext s
  exact playersIn_of_agree fun g _ => congrFun h g

theorem total_congr : q'.total = q.total := by
  funext check
  rw [LFGQueue.total, LFGQueue.total, rolesOf_congr h]

theorem sized_congr : q'.Sized ↔ q.Sized := by
  rw [LFGQueue.Sized, LFGQueue.Sized, isQueued_congr h, rolesOf_congr h]

theorem compatible_congr : Compatible rules q' s ↔ Compatible rules q s :=
  compatible_iff_of_agree fun g _ => congrFun h g

theorem joinable_congr : Joinable rules q' s ↔ Joinable rules q s := by
  rw [Joinable, Joinable, playersIn_congr h, compatible_congr h]

theorem matched_congr : Matched rules q' s ↔ Matched rules q s := by
  rw [Matched, Matched, playersIn_congr h, dungeonsOf_congr h, compatible_congr h]

theorem settles_congr : Settles rules q' s c ↔ Settles rules q s c := by
  constructor
  · rintro ⟨hj, hm⟩
    exact ⟨hj.trans (joinable_congr h), hm.trans (matched_congr h)⟩
  · rintro ⟨hj, hm⟩
    exact ⟨hj.trans (joinable_congr h).symm, hm.trans (matched_congr h).symm⟩

end Congr

/-! ## The cache -/

theorem LFGQueue.CacheRight.of_results (hright : q.CacheRight rules)
    (h : q'.queueDataStore = q.queueDataStore)
    (hc : ∀ key c, q'.compatibleMapStore key = some c → q.compatibleMapStore key = some c) :
    q'.CacheRight rules := by
  intro check c hne hnodup hq htotal hcache
  rw [isQueued_congr h] at hq
  rw [total_congr h] at htotal
  exact (settles_congr h).mpr (hright check c hne hnodup hq htotal (hc _ _ hcache))

theorem LFGQueue.CacheRight.set (hright : q.CacheRight rules) (hne : check ≠ [])
    (hnodup : check.Nodup)
    (hsettles : (∀ g ∈ check, q.isQueued g = true) → q.total check ≤ MAX_GROUP_SIZE →
      Settles rules q check.toFinset c) :
    (q.setCompatibles (concatenateGuids check) c).CacheRight rules := by
  intro other c' hother hnodup' hq htotal hcache
  have hq : ∀ g ∈ other, q.isQueued g = true := hq
  have htotal : q.total other ≤ MAX_GROUP_SIZE := htotal
  have hstore : (q.setCompatibles (concatenateGuids check) c).queueDataStore =
      q.queueDataStore := rfl
  rw [settles_congr hstore]
  by_cases hkey : concatenateGuids other = concatenateGuids check
  · have hmem := (concatenateGuids_eq_iff hother hne).mp hkey
    have hset : other.toFinset = check.toFinset := by
      ext g
      rw [List.mem_toFinset, List.mem_toFinset]
      exact hmem g
    have hc : c = c' := by
      rw [hkey] at hcache
      have hnew : (q.setCompatibles (concatenateGuids check) c).compatibleMapStore
          (concatenateGuids check) = some c := Function.update_self ..
      exact Option.some.inj (hnew.symm.trans hcache)
    grind [total_eq_playersIn]
  · have hold : q.compatibleMapStore (concatenateGuids other) = some c' :=
      (Function.update_of_ne hkey ..).symm.trans hcache
    exact hright other c' hother hnodup' hq htotal hold

/-! ## The checks -/

/-- The entries are as they were, the cache stays right, and no check is given back. -/
structure Stays (rules : LfgRules) (w w' : LfgWorld) : Prop where
  store : w'.queue.queueDataStore = w.queue.queueDataStore
  checks : w'.queue.remainingChecks ≤ w.queue.remainingChecks
  stopped : w.stoppedSearches <+: w'.stoppedSearches
  cache : w.queue.CacheRight rules → w'.queue.CacheRight rules

theorem Stays.refl (rules : LfgRules) (w : LfgWorld) : Stays rules w w where
  store := rfl
  checks := Nat.le_refl _
  stopped := List.prefix_rfl
  cache h := h

theorem Stays.trans (h : Stays rules w w') (h' : Stays rules w' w'') : Stays rules w w'' where
  store := h'.store.trans h.store
  checks := h'.checks.trans h.checks
  stopped := h.stopped.trans h'.stopped
  cache hq := h'.cache (h.cache hq)

theorem Collected.stays (h : Collected w w') : Stays rules w w' where
  store := h.store
  checks := h.checks.le
  stopped := h.stopped
  cache hq := hq.of_results h.store h.results

/-- The answer to a check of distinct entries. -/
structure Verdict (env : LfgEnv) (check : List ObjectGuid) (w : LfgWorld)
    (c : LfgCompatibility) (w' : LfgWorld) : Prop extends Stays env.toLfgRules w w' where
  settles : (∀ g ∈ check, w.queue.isQueued g = true) → w.queue.total check ≤ MAX_GROUP_SIZE →
    Settles env.toLfgRules w.queue check.toFinset c

theorem Stays.verdict (h : Stays env.toLfgRules w w') (h' : Verdict env check w' c w'') :
    Verdict env check w c w'' where
  toStays := h.trans h'.toStays
  settles hq htotal := by
    rw [← isQueued_congr h.store] at hq
    rw [← total_congr h.store] at htotal
    exact (settles_congr h.store).mp (h'.settles hq htotal)

theorem Verdict.settles_after (h : Verdict env check w c w')
    (hq : ∀ g ∈ check, w'.queue.isQueued g = true)
    (htotal : w'.queue.total check ≤ MAX_GROUP_SIZE) :
    Settles env.toLfgRules w'.queue check.toFinset c := by
  rw [isQueued_congr h.store] at hq
  rw [total_congr h.store] at htotal
  exact (settles_congr h.store).mpr (h.settles hq htotal)

theorem Verdict.recorded (hw : w'.queue = w.queue.setCompatibles (concatenateGuids check) c)
    (hstopped : w'.stoppedSearches = w.stoppedSearches) (hne : check ≠ []) (hnodup : check.Nodup)
    (hsettles : (∀ g ∈ check, w.queue.isQueued g = true) →
      w.queue.total check ≤ MAX_GROUP_SIZE →
      Settles env.toLfgRules w.queue check.toFinset c) :
    Verdict env check w c w' where
  store := by rw [hw]; rfl
  checks := by rw [hw]; exact Nat.le_refl _
  stopped := by rw [hstopped]
  cache h := by rw [hw]; exact h.set hne hnodup hsettles
  settles := hsettles

theorem joinable_several (hmany : 1 < check.length) (hnodup : check.Nodup) :
    Joinable rules q check.toFinset ↔
      q.total check ≠ MAX_GROUP_SIZE ∧ Compatible rules q check.toFinset := by
  grind [total_eq_playersIn, Joinable, List.toFinset_card_of_nodup]

theorem matched_several (hmany : 1 < check.length) (hnodup : check.Nodup) :
    Matched rules q check.toFinset ↔
      q.total check = MAX_GROUP_SIZE ∧ Compatible rules q check.toFinset := by
  grind [total_eq_playersIn, Matched, List.toFinset_card_of_nodup]

theorem playersIn_singleton (g : ObjectGuid) : q.playersIn {g} = (q.rolesOf g).size := by
  rw [LFGQueue.playersIn, Finset.sum_singleton]

theorem joinable_single (g : ObjectGuid) :
    Joinable rules q {g} ↔ (q.rolesOf g).size ≠ MAX_GROUP_SIZE := by
  rw [Joinable, playersIn_singleton]
  simp

theorem matched_single (g : ObjectGuid) :
    Matched rules q {g} ↔
      (q.rolesOf g).size = MAX_GROUP_SIZE ∧ (q.dungeonsOf g).Nonempty := by
  rw [Matched, playersIn_singleton]
  simp [Finset.Nonempty]

/-- **A full group** is matched. -/
theorem propose_verdict (hsteady : env.Steady) (hnodup : check.Nodup) {tally : Tally}
    {roles : LfgRolesMap} {dungeons : Finset DungeonId}
    (hfull : FullGroup env w.queue check tally roles dungeons)
    (hsettles : (∀ g ∈ check, w.queue.isQueued g = true) →
      w.queue.total check ≤ MAX_GROUP_SIZE →
      Settles env.toLfgRules w.queue check.toFinset .matched) :
    wp Never (propose env check tally roles dungeons) w (Verdict env check w) := by
  have hvalidated : validatedDungeons env roles dungeons (isNewProposal env tally) = dungeons := by
    rw [validatedDungeons, hsteady.unlocked]
    simp
  have hunlist : Stays env.toLfgRules w { w with queue := w.queue.unlist check } := {
    store := unlist_queueDataStore ..
    checks := (unlist_remainingChecks ..).le
    stopped := List.prefix_rfl
    cache := fun h => h.of_results (unlist_queueDataStore ..) fun key c hc =>
      unlist_cache _ _ key c hc }
  unfold propose
  dsimp only
  rw [if_neg (by rw [hsteady.allQueued]; decide), hvalidated,
    if_neg (Finset.nonempty_iff_ne_empty.mp hfull.nonempty), wp_bind, wp_get, wp_bind, wp_onQueue,
    wp_bind, addProposal, wp_modify, wp_record]
  apply hunlist.verdict
  refine Verdict.recorded ?_ ?_ hfull.check_ne_nil hnodup fun hq htotal => ?_
  · rfl
  · rfl
  rw [settles_congr (unlist_queueDataStore ..)]
  rw [isQueued_congr (unlist_queueDataStore ..)] at hq
  rw [total_congr (unlist_queueDataStore ..)] at htotal
  exact hsettles hq htotal

theorem settles_of_examine (env : LfgEnv) (hsized : q.Sized) (hne : check ≠ [])
    (hnodup : check.Nodup) (hq : ∀ g ∈ check, q.isQueued g = true)
    (htotal : q.total check ≤ MAX_GROUP_SIZE) :
    (∃ c, examine env q check = .verdict c ∧ Settles env.toLfgRules q check.toFinset c) ∨
    ∃ tally roles dungeons, examine env q check = .full tally roles dungeons ∧
      Settles env.toLfgRules q check.toFinset .matched := by
  have hone : check.length = 1 ∨ 1 < check.length := by
    have := List.length_pos_of_ne_nil hne
    omega
  obtain hone | hmany := hone
  · obtain ⟨g, rfl⟩ := List.length_eq_one_iff.mp hone
    have hset : [g].toFinset = {g} := rfl
    rw [hset]
    obtain ⟨hsize, he⟩ | ⟨hsize, hno, he⟩ | ⟨hsize, hsome, tally, roles, he⟩ :=
      examine_single env hsized (hq g (List.mem_singleton_self g))
    · refine .inl ⟨_, he, .of_joinable ((joinable_single g).mpr hsize) fun h => ?_⟩
      exact hsize ((matched_single g).mp h).1
    · refine .inl ⟨_, he, .of_incompatible rfl (fun h => ?_) fun h => ?_⟩
      · exact (joinable_single g).mp h hsize
      · exact Finset.not_nonempty_empty (hno ▸ ((matched_single g).mp h).2)
    · refine .inr ⟨tally, roles, _, he, .of_matched (fun h => ?_) ?_⟩
      · exact (joinable_single g).mp h hsize
      · exact (matched_single g).mpr ⟨hsize, hsome⟩
  · have hjoins : Joins env q check ↔ _ := joins_iff hnodup hne hq htotal
    have hjoinable : Joinable env.toLfgRules q check.toFinset ↔ _ := joinable_several hmany hnodup
    have hmatched : Matched env.toLfgRules q check.toFinset ↔ _ := matched_several hmany hnodup
    rw [← hjoins] at hjoinable hmatched
    obtain ⟨hno, c, hc, _, he⟩ | ⟨hyes, hless, he⟩ | ⟨hyes, hfull, tally, roles, dungeons, he⟩ :=
      examine_several env hsized hmany hq htotal
    · refine .inl ⟨c, he, .of_incompatible hc (fun h => ?_) fun h => ?_⟩
      · exact hno (hjoinable.mp h).2
      · exact hno (hmatched.mp h).2
    · refine .inl ⟨_, he, .of_joinable (hjoinable.mpr ⟨hless, hyes⟩) fun h => ?_⟩
      exact hless (hmatched.mp h).1
    · refine .inr ⟨tally, roles, dungeons, he, .of_matched (fun h => ?_) ?_⟩
      · exact (hjoinable.mp h).1 hfull
      · exact hmatched.mpr ⟨hfull, hyes⟩

/-- **The checks on the entries themselves.** -/
theorem checkEntries_verdict (hsteady : env.Steady) (hsized : w.queue.Sized) (hne : check ≠ [])
    (hnodup : check.Nodup) :
    wp Never (checkEntries env check) w (Verdict env check w) := by
  unfold checkEntries
  rw [wp_bind, wp_get]
  cases hex : examine env w.queue check with
  | notQueued guid =>
    obtain ⟨hmem, hnot⟩ := examine_notQueued hsized hex
    have hnone : w.queue.queueDataStore guid = none := by
      rw [LFGQueue.isQueued, Option.isSome_eq_false_iff, Option.isNone_iff_eq_none] at hnot
      exact hnot
    have hremove := collected_removeFromQueue hnone
    show Verdict env check w .pending { w with queue := w.queue.removeFromQueue guid }
    refine ⟨hremove.stays, fun hq => ?_⟩
    rw [hq guid hmem] at hnot
    cases hnot
  | verdict c =>
    show wp Never (record check c) w _
    rw [wp_record]
    refine Verdict.recorded (by rfl) (by rfl) hne hnodup fun hq htotal => ?_
    obtain ⟨c', he, hs⟩ | ⟨tally, roles, dungeons, he, _⟩ :=
      settles_of_examine env hsized hne hnodup hq htotal
    · rw [hex] at he
      cases he
      exact hs
    · rw [hex] at he
      cases he
  | full tally roles dungeons =>
    grind [settles_of_examine, examine_full, propose_verdict]

theorem settles_of_child {front : ObjectGuid} {rest : List ObjectGuid} (hsized : q.Sized)
    (hmany : 1 < rest.length) (hnodup : (front :: rest).Nodup)
    (hq : ∀ g ∈ front :: rest, q.isQueued g = true)
    (htotal : q.total (front :: rest) ≤ MAX_GROUP_SIZE)
    (hchild : Settles rules q rest.toFinset c) (hc : c.isIncompatible = true) :
    Settles rules q (front :: rest).toFinset c := by
  have hpos := hsized.size_pos (hq front (List.mem_cons_self ..))
  rw [LFGQueue.total_cons] at htotal
  have hno : ¬Compatible rules q (front :: rest).toFinset := by
    intro h
    have hpart : Compatible rules q rest.toFinset := by
      apply h.subset hsized
      · rw [List.toFinset_cons]
        exact Finset.subset_insert ..
      · rw [List.toFinset_nonempty_iff]
        exact List.ne_nil_of_length_pos (by omega)
    have hless : c = .withLessPlayers := by
      apply hchild.joinable.mpr
      rw [joinable_several hmany hnodup.of_cons]
      exact ⟨by omega, hpart⟩
    rw [hless] at hc
    cases hc
  grind [matched_several, joinable_several, Settles.of_incompatible]

theorem stays_spendCheck (rules : LfgRules) (w : LfgWorld) :
    Stays rules w { w with queue := w.queue.spendCheck } where
  store := rfl
  checks := Nat.sub_le ..
  stopped := List.prefix_rfl
  cache h := h.of_results rfl fun _ _ hc => hc

/-- **`CheckCompatibility`** decides about distinct entries. -/
theorem checkCompatibility_verdict (hsteady : env.Steady) : ∀ (check : List ObjectGuid)
    (w : LfgWorld), w.queue.Sized → check ≠ [] → check.Nodup →
    wp Never (checkCompatibility env check) w (Verdict env check w)
  | [], _ => by
    intro _ hne
    exact absurd rfl hne
  | front :: rest, w => by
    intro hsized hne hnodup
    have hspend := stays_spendCheck env.toLfgRules w
    have hentries : ∀ w₁, Stays env.toLfgRules w w₁ →
        wp Never (checkEntries env (front :: rest)) w₁ (Verdict env (front :: rest) w) := by
      intro w₁ h₁
      have hsized₁ := (sized_congr h₁.store).mpr hsized
      apply (checkEntries_verdict hsteady hsized₁ hne hnodup).mono
      intro c w' h
      exact h₁.verdict h
    rw [checkCompatibility, wp_bind, wp_onQueue]
    split
    · next hlong =>
      rw [wp_pure]
      refine ⟨hspend, fun hq htotal => ?_⟩
      have hlength := LFGQueue.length_le_total hsized hq
      rw [List.length_cons] at hlength
      omega
    split
    · next hmany =>
      have hrest : rest ≠ [] := List.ne_nil_of_length_pos (by omega)
      have hrec := checkCompatibility_verdict hsteady rest
        { w with queue := w.queue.spendCheck } hsized hrest hnodup.of_cons
      rw [wp_bind]
      apply hrec.mono
      intro child w₁ hchild
      have hstays := hspend.trans hchild.toStays
      split
      · next hincompatible =>
        rw [wp_record]
        apply hstays.verdict
        refine Verdict.recorded (by rfl) (by rfl) hne hnodup fun hq htotal => ?_
        have hsized₁ := (sized_congr hstays.store).mpr hsized
        apply settles_of_child hsized₁ (by omega) hnodup hq htotal _ hincompatible
        apply hchild.settles_after fun g hg => hq g (List.mem_cons_of_mem _ hg)
        rw [LFGQueue.total_cons] at htotal
        omega
      · exact hentries w₁ hstays
    · exact hentries _ hspend

end EGServer.DungeonFinding

/-!
# Why pruning by coverage is sound

A full group has a tank, a healer and three damage dealers, each among the players that
selected the role; so for every set of roles it has as many players that selected one of
them as the roles need. `LfgRoleCoverage` counts those players, and
`canCompleteGroupWith` compares the counts of a list and of all that can still be added
to it. Adding more than a part of it only raises the counts.
-/

namespace EGServer.DungeonFinding

open Assignment

/-! ## The counters -/

/-- A counter of `LfgRoleCoverage`: how many players it was shown that selected one of
`roles`. -/
structure CoverageCount where
  get : LfgRoleCoverage → Nat
  roles : Finset LfgRole
  counts : UInt8 → Bool := fun r => ∃ k ∈ roles, selects r k
  get_empty : get {} = 0 := by rfl
  get_addPlayer : ∀ c r, get (c.addPlayer r) = get c + (counts r).toNat := by
    intro c r
    simp [LfgRoleCoverage.addPlayer]
  get_add : ∀ c other, get (c.add other) = get c + get other := by
    intro c other
    rfl
  counts_of_selects : ∀ r, ∀ k ∈ roles, selects r k → counts r = true := by
    intro r k hk h
    exact decide_eq_true ⟨k, hk, h⟩

namespace CoverageCount

def tank : CoverageCount where
  get := (·.tank)
  roles := {.tank}

def healer : CoverageCount where
  get := (·.healer)
  roles := {.healer}

def damage : CoverageCount where
  get := (·.damage)
  roles := {.damage}

def tankOrHealer : CoverageCount where
  get := (·.tankOrHealer)
  roles := {.tank, .healer}

def tankOrDamage : CoverageCount where
  get := (·.tankOrDamage)
  roles := {.tank, .damage}

def healerOrDamage : CoverageCount where
  get := (·.healerOrDamage)
  roles := {.healer, .damage}

/-- Every player is counted, whatever it selected. -/
def players : CoverageCount where
  get := (·.players)
  roles := Finset.univ
  counts _ := true
  get_addPlayer _ _ := rfl
  counts_of_selects _ _ _ _ := rfl

def all : List CoverageCount :=
  [tank, healer, damage, tankOrHealer, tankOrDamage, healerOrDamage, players]

/-- How many such players a group needs. -/
def needed (f : CoverageCount) : Nat := ∑ k ∈ f.roles, k.needed

/-- How many such players an entry has. -/
def of (f : CoverageCount) (m : LfgRolesMap) : Nat := f.get (({} : LfgRoleCoverage).addRoles m)

variable (f : CoverageCount) {coverage other : LfgRoleCoverage} {m : LfgRolesMap}

theorem get_foldl (l : List (ObjectGuid × UInt8)) (c : LfgRoleCoverage) :
    f.get (l.foldl (fun c player => c.addPlayer player.2) c) =
      f.get c + l.countP fun player => f.counts player.2 := by
  induction l generalizing c with
  | nil => rfl
  | cons p l ih =>
    rw [List.foldl_cons, ih, f.get_addPlayer, List.countP_cons]
    cases f.counts p.2
    · simp
    · simp; omega

theorem get_addRoles : f.get (coverage.addRoles m) = f.get coverage + f.of m := by
  rw [of, LfgRoleCoverage.addRoles, LfgRoleCoverage.addRoles, get_foldl, get_foldl, f.get_empty,
    Nat.zero_add]

theorem of_eq_card :
    f.of m = (m.players.filter fun p => f.counts (m.getD p PLAYER_ROLE_NONE)).card := by
  have hentries : m.toList.countP (fun player => f.counts player.2) =
      m.toList.countP fun player => f.counts (m.getD player.1 PLAYER_ROLE_NONE) := by
    grind [EGServer.DungeonFinding.LfgRolesMap.getD_of_getElem?, List.countP_congr]
  rw [of, LfgRoleCoverage.addRoles, get_foldl, f.get_empty, Nat.zero_add, hentries,
    LfgRolesMap.players, ← List.toFinset_filter,
    List.toFinset_card_of_nodup (m.nodup_keys.filter _), ← List.countP_eq_length_filter,
    ← Std.ExtTreeMap.map_fst_toList_eq_keys, List.countP_map]
  rfl

/-- What the entries of a list have. -/
def ofList (q : LFGQueue) (check : List ObjectGuid) : Nat :=
  (check.map fun g => f.of (q.rolesOf g)).sum

/-- **A full group has enough players for each counter.** -/
theorem needed_le {rules : LfgRules} {q : LFGQueue} {check : List ObjectGuid}
    (hnodup : check.Nodup) (h : Compatible rules q check.toFinset)
    (hfull : q.total check = MAX_GROUP_SIZE) : f.needed ≤ f.ofList q check := by
  obtain ⟨merged, hmerged, hsolve⟩ := h.roles
  have hsize : merged.size = MAX_GROUP_SIZE := by
    rw [size_merged h.disjoint hmerged, ← total_eq_playersIn hnodup, hfull]
  have hlt : merged.size < 256 := by
    rw [hsize]
    decide
  obtain ⟨_, _, assignment, hassigns⟩ := (checkGroupRoles_iff merged hlt).mp hsolve
  have hcard : merged.players.card = ∑ k, LfgRole.needed k := by
    rw [LfgRolesMap.card_players, hsize, sum_needed]
  calc f.needed
      ≤ (merged.players.filter fun p => ∃ k ∈ f.roles, merged.Able p k).card :=
        hassigns.hall hcard f.roles
    _ ≤ (check.toFinset.biUnion fun g => (q.rolesOf g).players.filter fun p =>
          f.counts ((q.rolesOf g).getD p PLAYER_ROLE_NONE)).card := by
        apply Finset.card_le_card
        intro p hp
        rw [Finset.mem_filter] at hp
        obtain ⟨hp, k, hk, hable⟩ := hp
        obtain ⟨r, hr⟩ := LfgRolesMap.getElem?_of_mem hp
        obtain ⟨g, hg, hget⟩ := (hmerged p r).mp hr
        rw [LfgRolesMap.Able, LfgRolesMap.getD_of_getElem? hr] at hable
        rw [Finset.mem_biUnion]
        refine ⟨g, hg, ?_⟩
        rw [Finset.mem_filter, LfgRolesMap.mem_players, LfgRolesMap.getD_of_getElem? hget]
        exact ⟨LfgRolesMap.mem_of_getElem? hget, f.counts_of_selects r k hk hable⟩
    _ ≤ ∑ g ∈ check.toFinset, f.of (q.rolesOf g) := by
        simp only [of_eq_card]
        exact Finset.card_biUnion_le
    _ = f.ofList q check := List.sum_toFinset _ hnodup

end CoverageCount

/-- **The bound** that the search prunes by holds when it holds for each counter. -/
theorem canCompleteGroupWith_iff (c other : LfgRoleCoverage) :
    c.canCompleteGroupWith other = true ↔
      ∀ f ∈ CoverageCount.all, f.needed ≤ f.get c + f.get other := by
  have htank : LfgRole.needed .tank = LFG_TANKS_NEEDED := rfl
  have hhealer : LfgRole.needed .healer = LFG_HEALERS_NEEDED := rfl
  have hdamage : LfgRole.needed .damage = LFG_DPS_NEEDED := rfl
  simp [CoverageCount.all, CoverageCount.needed, CoverageCount.tank, CoverageCount.healer,
    CoverageCount.damage, CoverageCount.tankOrHealer, CoverageCount.tankOrDamage,
    CoverageCount.healerOrDamage, CoverageCount.players, LfgRoleCoverage.canCompleteGroupWith,
    sum_needed, htank, hhealer, hdamage, and_assoc]

/-! ## What can still be added -/

variable {q : LFGQueue} {check gs extension : List ObjectGuid} {d : DungeonId}

theorem get_suffixCoverage (f : CoverageCount) (d : DungeonId) (gs : List ObjectGuid) :
    f.get (suffixCoverage d (gs.map (candidateOf q))) =
      f.ofList q (gs.filter fun g => d ∈ q.dungeonsOf g) := by
  induction gs with
  | nil => exact f.get_empty
  | cons g gs ih =>
    have hhead : (candidateOf q g).dungeons = q.dungeonsOf g := rfl
    have hcount : f.get (candidateOf q g).coverage = f.of (q.rolesOf g) := rfl
    rw [List.map_cons, suffixCoverage, hhead, List.filter_cons]
    split
    · next hd =>
      rw [f.get_add, ih, hcount, if_pos (by simpa using hd)]
      show _ = f.of (q.rolesOf g) + f.ofList q _
      omega
    · next hd => rw [ih, if_neg (by simpa using hd)]

/-- **Nothing is cut off.** When a list with some of the candidates after it is a full group,
the coverage of the list and of all the candidates for the dungeon is enough. -/
theorem canComplete_of_full {rules : LfgRules} {coverage : LfgRoleCoverage}
    (hcoverage : ∀ f ∈ CoverageCount.all, f.get coverage = f.ofList q check)
    (hnodup : (check ++ extension).Nodup)
    (h : Compatible rules q (check ++ extension).toFinset)
    (hfull : q.total (check ++ extension) = MAX_GROUP_SIZE)
    (hsub : extension.Sublist gs) (hd : ∀ g ∈ extension, d ∈ q.dungeonsOf g) :
    coverage.canCompleteGroupWith (suffixCoverage d (gs.map (candidateOf q))) = true := by
  rw [canCompleteGroupWith_iff]
  intro f hf
  have hneeded := f.needed_le hnodup h hfull
  have hsplit : f.ofList q (check ++ extension) = f.ofList q check + f.ofList q extension := by
    simp [CoverageCount.ofList]
  have hkept : extension.filter (fun g => d ∈ q.dungeonsOf g) = extension := by
    apply List.filter_eq_self.mpr
    intro g hg
    exact decide_eq_true (hd g hg)
  have hmore : f.ofList q extension ≤ f.ofList q (gs.filter fun g => d ∈ q.dungeonsOf g) := by
    have hsub' := (hsub.filter fun g => d ∈ q.dungeonsOf g).map fun g => f.of (q.rolesOf g)
    rw [hkept] at hsub'
    exact hsub'.sum_le_sum fun _ _ => Nat.zero_le _
  rw [hcoverage f hf, get_suffixCoverage]
  omega

end EGServer.DungeonFinding
