import EGServer.DungeonFinding.Coverage
import EGServer.DungeonFinding.FindGroups

/-!
# The search finds every group

The search for a list ends with a match exactly when the list, with some of the other entries
after it, is matched. No break, skip or filter loses a group: a group that is left out would
have needed an entry that cannot be in it, or players that are not there.
-/

namespace EGServer.DungeonFinding

open StateExcept

variable {rules : LfgRules} {env : LfgEnv} {q q' : LFGQueue} {check all gs extension : List ObjectGuid}
  {w w' w'' : LfgWorld} {c : LfgCompatibility} {guid : ObjectGuid} {dungeons : Finset DungeonId}
  {coverage : LfgRoleCoverage} {hasLfgGroup : Bool}

/-! ## What the search is told -/

/-- A list of entries that may be extended, and what the search carries along about it. -/
structure Search (env : LfgEnv) (q : LFGQueue) (check all : List ObjectGuid)
    (dungeons : Finset DungeonId) (coverage : LfgRoleCoverage) (hasLfgGroup : Bool) : Prop where
  sized : q.Sized
  nonempty : check ≠ []
  nodup : (check ++ all).Nodup
  queued : ∀ g ∈ check, q.isQueued g = true
  fits : q.total check ≤ MAX_GROUP_SIZE
  common : dungeons = commonDungeons q check
  counted : ∀ f ∈ CoverageCount.all, f.get coverage = f.ofList q check
  lfgGroup : hasLfgGroup = check.any env.isLfgGroup

theorem commonDungeons_congr (h : q'.queueDataStore = q.queueDataStore) :
    commonDungeons q' = commonDungeons q := by
  funext check
  cases check with
  | nil => rfl
  | cons g rest => rw [commonDungeons, commonDungeons, dungeonsOf_congr h]

theorem Search.congr (hs : Search env q check all dungeons coverage hasLfgGroup)
    (h : q'.queueDataStore = q.queueDataStore) :
    Search env q' check all dungeons coverage hasLfgGroup where
  sized := (sized_congr h).mpr hs.sized
  nonempty := hs.nonempty
  nodup := hs.nodup
  queued := by
    rw [isQueued_congr h]
    exact hs.queued
  fits := by
    rw [total_congr h]
    exact hs.fits
  common := by
    rw [commonDungeons_congr h]
    exact hs.common
  counted f hf := by
    rw [CoverageCount.ofList, rolesOf_congr h]
    exact hs.counted f hf
  lfgGroup := hs.lfgGroup

theorem Search.players (hs : Search env q check all dungeons coverage hasLfgGroup) :
    coverage.players = q.total check := by
  have h : coverage.players = _ := hs.counted .players (by simp [CoverageCount.all])
  have hof : ∀ m, CoverageCount.of .players m = m.size := by
    intro m
    show (({} : LfgRoleCoverage).addRoles m).players = m.size
    rw [players_addRoles]
    exact Nat.zero_add _
  rw [h, CoverageCount.ofList, LFGQueue.total]
  simp only [hof]

theorem Search.snoc (hs : Search env q check all dungeons coverage hasLfgGroup)
    (hsub : (guid :: gs).Sublist all)
    (hcandidate : isCandidate env q dungeons coverage hasLfgGroup guid = true) :
    Search env q (check ++ [guid]) gs (dungeons ∩ q.dungeonsOf guid)
      (coverage.add (candidateOf q guid).coverage) (hasLfgGroup || env.isLfgGroup guid) := by
  simp only [isCandidate, decide_eq_true_eq, not_or] at hcandidate
  obtain ⟨hq, hsize, _⟩ := hcandidate
  constructor
  · exact hs.sized
  · simp
  · rw [List.append_assoc, List.singleton_append]
    exact hs.nodup.sublist (hsub.append_left check)
  · intro g hg
    rw [List.mem_append, List.mem_singleton] at hg
    obtain hg | rfl := hg
    · exact hs.queued g hg
    · exact hq
  · rw [hs.players] at hsize
    rw [LFGQueue.total_append, LFGQueue.total_cons, LFGQueue.total_nil]
    omega
  · ext d
    rw [Finset.mem_inter, hs.common, mem_commonDungeons, mem_commonDungeons]
    simp [hs.nonempty, or_imp, forall_and]
  · intro f hf
    have hlast : f.get (candidateOf q guid).coverage = f.of (q.rolesOf guid) := rfl
    rw [f.get_add, hs.counted f hf, hlast]
    simp [CoverageCount.ofList]
  · rw [hs.lfgGroup]
    simp

/-! ## What a matched extension looks like -/

theorem Search.length_append (hs : Search env q check all dungeons coverage hasLfgGroup)
    (hne : extension ≠ []) : 1 < (check ++ extension).length := by
  have h₁ := List.length_pos_of_ne_nil hs.nonempty
  have h₂ := List.length_pos_of_ne_nil hne
  rw [List.length_append]
  omega

theorem Search.compatible (hs : Search env q check all dungeons coverage hasLfgGroup)
    (hsub : extension.Sublist all) (hmany : 1 < (check ++ extension).length)
    (h : Matched rules q (check ++ extension).toFinset) :
    (check ++ extension).Nodup ∧ q.total (check ++ extension) = MAX_GROUP_SIZE ∧
      Compatible rules q (check ++ extension).toFinset := by
  have hnodup := hs.nodup.sublist (hsub.append_left check)
  exact ⟨hnodup, (matched_several hmany hnodup).mp h⟩

theorem Search.joinable_of_matched
    (hs : Search env q check all dungeons coverage hasLfgGroup) (hsub : extension.Sublist all)
    (hne : extension ≠ []) (h : Matched rules q (check ++ extension).toFinset) :
    Joinable rules q check.toFinset := by
  obtain ⟨hnodup, hfull, hcompatible⟩ := hs.compatible hsub (hs.length_append hne) h
  have hcheck : check.Nodup := (List.nodup_append.mp hnodup).1
  have hless : q.total check ≠ MAX_GROUP_SIZE := by
    obtain ⟨g, hg⟩ := List.exists_mem_of_ne_nil extension hne
    have hpos := hs.sized.size_pos (hcompatible.queued g (by simp [hg]))
    have hle : (q.rolesOf g).size ≤ q.total extension :=
      List.single_le_sum (fun _ _ => Nat.zero_le _) _ (List.mem_map_of_mem hg)
    rw [LFGQueue.total_append] at hfull
    omega
  have hpart : Compatible rules q check.toFinset := by
    apply hcompatible.subset hs.sized
    · rw [List.toFinset_append]
      exact Finset.subset_union_left
    · exact (List.toFinset_nonempty_iff _).mpr hs.nonempty
  exact ⟨by rwa [← total_eq_playersIn hcheck], .inr hpart⟩

/-- **The filter** keeps every entry of a matched extension. -/
theorem Search.isCandidate_of_matched
    (hs : Search env q check all dungeons coverage hasLfgGroup) (hsub : extension.Sublist all)
    (h : Matched env.toLfgRules q (check ++ extension).toFinset) {g : ObjectGuid}
    (hg : g ∈ extension) : isCandidate env q dungeons coverage hasLfgGroup g = true := by
  obtain ⟨hnodup, hfull, hcompatible⟩ := hs.compatible hsub (hs.length_append (List.ne_nil_of_mem hg)) h
  have hmem : ∀ g', g' ∈ (check ++ extension).toFinset ↔ g' ∈ check ∨ g' ∈ extension := by
    intro g'
    rw [List.mem_toFinset, List.mem_append]
  simp only [isCandidate, decide_eq_true_eq, not_or, not_and]
  refine ⟨hcompatible.queued g ((hmem g).mpr (.inr hg)), ?_, ?_, ?_⟩
  · have hle : (q.rolesOf g).size ≤ q.total extension :=
      List.single_le_sum (fun _ _ => Nat.zero_le _) _ (List.mem_map_of_mem hg)
    rw [LFGQueue.total_append] at hfull
    rw [hs.players]
    omega
  · intro hhas hlfg
    rw [hs.lfgGroup, List.any_eq_true] at hhas
    obtain ⟨g', hg', hlfg'⟩ := hhas
    have heq : g' = g := by
      apply Finset.card_le_one.mp hcompatible.lfgGroups
      · exact Finset.mem_filter.mpr ⟨(hmem g').mpr (.inl hg'), hlfg'⟩
      · exact Finset.mem_filter.mpr ⟨(hmem g).mpr (.inr hg), hlfg⟩
    exact (List.nodup_append.mp hnodup).2.2 g' hg' g hg heq
  · obtain ⟨d, hd⟩ := hcompatible.dungeon
    apply Finset.ne_empty_of_mem (a := d)
    rw [Finset.mem_inter, hs.common, mem_commonDungeons]
    exact ⟨hd g ((hmem g).mpr (.inr hg)), hs.nonempty, fun g' hg' => hd g' ((hmem g').mpr (.inl hg'))⟩

/-- **The breaks and skips** keep every matched extension: it has a dungeon for which the
candidates can complete the group. -/
theorem Search.canComplete_of_matched
    (hs : Search env q check all dungeons coverage hasLfgGroup) (hsub : extension.Sublist all)
    (hgs : extension.Sublist gs) (hmany : 1 < (check ++ extension).length)
    (h : Matched rules q (check ++ extension).toFinset) :
    ∃ d ∈ dungeons, (∀ g ∈ extension, d ∈ q.dungeonsOf g) ∧
      coverage.canCompleteGroupWith (suffixCoverage d (gs.map (candidateOf q))) = true := by
  obtain ⟨hnodup, hfull, hcompatible⟩ := hs.compatible hsub hmany h
  obtain ⟨d, hd⟩ := hcompatible.dungeon
  have hmem : ∀ g', g' ∈ check ∨ g' ∈ extension → d ∈ q.dungeonsOf g' := by
    intro g' hg'
    apply hd
    rw [List.mem_toFinset, List.mem_append]
    exact hg'
  refine ⟨d, ?_, fun g hg => hmem g (.inr hg), ?_⟩
  · rw [hs.common, mem_commonDungeons]
    exact ⟨hs.nonempty, fun g hg => hmem g (.inl hg)⟩
  · exact canComplete_of_full hs.counted hnodup hcompatible hfull hgs fun g hg => hmem g (.inr hg)

/-! ## What a search finds -/

/-- The search decided about the extensions in `P`: it ended with a match when one of them is
matched, unless it used up its checks. -/
structure Finds (rules : LfgRules) (check : List ObjectGuid) (P : List ObjectGuid → Prop)
    (w : LfgWorld) (c : LfgCompatibility) (w' : LfgWorld) : Prop extends Stays rules w w' where
  sound : c = .matched → ∃ extension, P extension ∧
    Matched rules w.queue (check ++ extension).toFinset
  complete : c ≠ .matched → w'.queue.remainingChecks ≠ 0 → ∀ extension, P extension →
    ¬Matched rules w.queue (check ++ extension).toFinset

variable {P P' : List ObjectGuid → Prop}

theorem Stays.finds (h : Stays rules w w') (h' : Finds rules check P w' c w'') :
    Finds rules check P w c w'' where
  toStays := h.trans h'.toStays
  sound hc := by
    obtain ⟨extension, he, hm⟩ := h'.sound hc
    exact ⟨extension, he, (matched_congr h.store).mp hm⟩
  complete hc hchecks extension he hm :=
    h'.complete hc hchecks extension he ((matched_congr h.store).mpr hm)

theorem Finds.of_iff (h : Finds rules check P w c w')
    (hiff : ∀ extension, Matched rules w.queue (check ++ extension).toFinset →
      (P' extension ↔ P extension)) : Finds rules check P' w c w' where
  toStays := h.toStays
  sound hc := by
    obtain ⟨extension, he, hm⟩ := h.sound hc
    exact ⟨extension, (hiff extension hm).mpr he, hm⟩
  complete hc hchecks extension he hm :=
    h.complete hc hchecks extension ((hiff extension hm).mp he) hm

/-- The recursive call finds the extensions of its list, when it has fuel for the others. -/
def FindsAll (env : LfgEnv) (fuel : Nat) (self : SearchCall) : Prop :=
  ∀ check all dungeons coverage hasLfgGroup w, all.length < fuel →
    Search env w.queue check all dungeons coverage hasLfgGroup →
    w.queue.CacheRight env.toLfgRules →
    wp Never (self check all dungeons coverage hasLfgGroup) w
      (Finds env.toLfgRules check (·.Sublist all) w)

/-- **The loop over the candidates** finds the extensions that begin with one of them. -/
theorem tryCandidates_finds {fuel : Nat} {self : SearchCall} (hself : FindsAll env fuel self)
    (hs : Search env q check all dungeons coverage hasLfgGroup) (hc : c ≠ .matched) :
    ∀ (gs : List ObjectGuid) (w : LfgWorld), gs.length ≤ fuel → gs.Sublist all →
      w.queue.queueDataStore = q.queueDataStore → w.queue.CacheRight env.toLfgRules →
      (∀ g ∈ gs, isCandidate env q dungeons coverage hasLfgGroup g = true) →
      wp Never (tryCandidates env self check dungeons coverage hasLfgGroup c
        (gs.map (candidateOf q))) w
        (Finds env.toLfgRules check (fun e => e ≠ [] ∧ e.Sublist gs) w)
  | [], w => by
    intro _ _ _ _ _
    refine ⟨.refl _ w, fun h => absurd h hc, ?_⟩
    rintro _ _ extension ⟨hne, hsub⟩
    exact absurd (List.sublist_nil.mp hsub) hne
  | g :: gs, w => by
    intro hfuel hsub hstore hright hcandidates
    have hmatched : ∀ e, Matched env.toLfgRules w.queue (check ++ e).toFinset →
        Matched env.toLfgRules q (check ++ e).toFinset :=
      fun e h => (matched_congr hstore).mp h
    rw [List.map_cons, tryCandidates, wp_bind, wp_get]
    split
    · next hzero => exact ⟨.refl _ w, fun h => absurd h hc, fun _ h => absurd hzero h⟩
    split
    · next hreachable =>
      refine ⟨.refl _ w, fun h => absurd h hc, ?_⟩
      rintro _ _ e ⟨hne, he⟩ hm
      obtain ⟨d, hd, _, hcomplete⟩ :=
        hs.canComplete_of_matched (he.trans hsub) he (hs.length_append hne) (hmatched e hm)
      exact hreachable ⟨d, hd, hcomplete⟩
    -- what begins with a later candidate, after a search that did not match
    have hrest : ∀ w', Stays env.toLfgRules w w' →
        (w'.queue.remainingChecks ≠ 0 → ∀ e, e.Sublist gs →
          ¬Matched env.toLfgRules w.queue (check ++ g :: e).toFinset) →
        wp Never (tryCandidates env self check dungeons coverage hasLfgGroup c
          (gs.map (candidateOf q))) w'
          (Finds env.toLfgRules check (fun e => e ≠ [] ∧ e.Sublist (g :: gs)) w) := by
      intro w' h' hnone
      have hrec := tryCandidates_finds hself hs hc gs w' (Nat.le_of_succ_le hfuel)
        ((List.sublist_cons_self g gs).trans hsub) (h'.store.trans hstore) (h'.cache hright)
        fun g' hg' => hcandidates g' (List.mem_cons_of_mem _ hg')
      apply hrec.mono
      intro c' w'' h''
      have hall := h'.finds h''
      refine ⟨hall.toStays, fun hc' => ?_, ?_⟩
      · obtain ⟨e, ⟨hne, he⟩, hm⟩ := hall.sound hc'
        exact ⟨e, ⟨hne, he.cons g⟩, hm⟩
      · rintro hc' hchecks e ⟨hne, he⟩ hm
        obtain he | ⟨e', rfl, he'⟩ := List.sublist_cons_iff.mp he
        · exact hall.complete hc' hchecks e ⟨hne, he⟩ hm
        · have hleft : w'.queue.remainingChecks ≠ 0 := by
            have := h''.checks
            omega
          exact hnone hleft e' he' hm
    have hsnoc := hs.snoc hsub (hcandidates g (List.mem_cons_self ..))
    have happend : ∀ e, check ++ g :: e = check ++ [g] ++ e := by simp
    dsimp only
    rw [dungeonsOf_congr hstore]
    split
    · next hskip =>
      apply hrest w (.refl _ w)
      intro _ e he hm
      apply hskip
      have hm := hmatched _ hm
      rw [happend] at hm
      have hmany : 1 < (check ++ [g] ++ e).length := by
        rw [← happend]
        exact hs.length_append (List.cons_ne_nil g e)
      obtain ⟨d, hd, _, hcomplete⟩ := hsnoc.canComplete_of_matched he he hmany hm
      exact ⟨d, (Finset.mem_inter.mp hd).1, hd, hcomplete⟩
    · have hlength : ((gs.map (candidateOf q)).map (·.guid)).length < fuel := by
        rw [List.length_map, List.length_map]
        exact hfuel
      have hguids : (gs.map (candidateOf q)).map (·.guid) = gs := by
        rw [List.map_map]
        exact List.map_id _
      rw [wp_bind]
      rw [hguids] at hlength ⊢
      apply (hself _ _ _ _ _ w hlength (hsnoc.congr hstore) hright).mono
      intro sub w' h'
      split
      · next hsub' =>
        rw [wp_pure]
        refine ⟨h'.toStays, fun _ => ?_, fun h => absurd rfl h⟩
        obtain ⟨e, he, hm⟩ := h'.sound hsub'
        rw [← happend] at hm
        exact ⟨g :: e, ⟨List.cons_ne_nil g e, he.cons_cons g⟩, hm⟩
      · next hsub' =>
        apply hrest w' h'.toStays
        intro hchecks e he hm
        rw [happend] at hm
        exact h'.complete hsub' hchecks e he hm

theorem cachedOrChecked_verdict (hsteady : env.Steady) (hsized : w.queue.Sized)
    (hright : w.queue.CacheRight env.toLfgRules) (hne : check ≠ []) (hnodup : check.Nodup) :
    wp Never (cachedOrChecked env check) w (Verdict env check w) := by
  unfold cachedOrChecked
  rw [wp_bind, wp_get]
  dsimp only
  split
  · exact checkCompatibility_verdict hsteady check w hsized hne hnodup
  · next hcached =>
    rw [wp_pure]
    refine ⟨.refl _ w, fun hq htotal => hright check _ hne hnodup hq htotal ?_⟩
    exact LFGQueue.compatibleMapStore_of_getCompatibles fun h => hcached (.inl h)

/-- **The recursive search** finds every group that extends its list. -/
theorem findNewGroupsFuel_finds (hsteady : env.Steady) :
    ∀ fuel, FindsAll env fuel (findNewGroupsFuel env fuel)
  | 0 => by
    intro _ _ _ _ _ _ h
    exact absurd h (Nat.not_lt_zero _)
  | fuel + 1 => by
    intro check all dungeons coverage hasLfgGroup w hfuel hs hright
    have hnodup : check.Nodup := (List.nodup_append.mp hs.nodup).1
    rw [findNewGroupsFuel, wp_bind]
    apply (cachedOrChecked_verdict hsteady hs.sized hright hs.nonempty hnodup).mono
    intro c w₁ h₁
    have hsettles := h₁.settles hs.queued hs.fits
    split
    · next hless =>
      rw [wp_pure]
      refine ⟨h₁.toStays, fun hc => ?_, fun hc _ e he hm => ?_⟩
      · refine ⟨[], List.nil_sublist _, ?_⟩
        rw [List.append_nil]
        exact hsettles.matched.mp hc
      · by_cases hne : e = []
        · rw [hne, List.append_nil] at hm
          exact hc (hsettles.matched.mpr hm)
        · exact hless (hsettles.joinable.mpr (hs.joinable_of_matched he hne hm))
    · next hless =>
      have hc : c = .withLessPlayers := Decidable.not_not.mp hless
      have hne : c ≠ .matched := by rw [hc]; decide
      rw [wp_bind, wp_get]
      split
      · next hzero => exact ⟨h₁.toStays, fun h => absurd h hne, fun _ h => absurd hzero h⟩
      · rw [wp_bind]
        apply (collectCandidates_spec dungeons coverage hasLfgGroup all w₁).mono
        rintro candidates w₂ ⟨hcandidates, hcollected⟩
        have hstays : Stays env.toLfgRules w₁ w₂ := hcollected.stays
        have hs₁ := hs.congr h₁.store
        have hlength : (all.filter
            (isCandidate env w₁.queue dungeons coverage hasLfgGroup)).length ≤ fuel :=
          (List.length_filter_le ..).trans (Nat.lt_succ_iff.mp hfuel)
        rw [hcandidates]
        have htry := tryCandidates_finds (findNewGroupsFuel_finds hsteady fuel) hs₁ hne
          (all.filter (isCandidate env w₁.queue dungeons coverage hasLfgGroup)) w₂ hlength
          List.filter_sublist hcollected.store (hstays.cache (h₁.cache hright))
          fun g hg => (List.mem_filter.mp hg).2
        apply htry.mono
        intro c' w₃ h₃
        apply h₁.toStays.finds
        apply (hstays.finds h₃).of_iff
        intro e hm
        constructor
        · intro he
          have hnonempty : e ≠ [] := by
            intro hnil
            rw [hnil, List.append_nil, matched_congr h₁.store] at hm
            exact hne (hsettles.matched.mpr hm)
          have hkept := he.filter (isCandidate env w₁.queue dungeons coverage hasLfgGroup)
          rw [List.filter_eq_self.mpr fun g hg => hs₁.isCandidate_of_matched he hm hg] at hkept
          exact ⟨hnonempty, hkept⟩
        · rintro ⟨_, he⟩
          exact he.trans List.filter_sublist

/-! ## `FindNewGroups` -/

/-- The cache only holds answers that `CheckCompatibility` gave for the entries as they are. -/
def LFGQueue.CacheCurrent (env : LfgEnv) (q : LFGQueue) : Prop :=
  ∀ key c, q.compatibleMapStore key = some c →
    ∃ (check : List ObjectGuid) (w w' : LfgWorld), check ≠ [] ∧ check.Nodup ∧
      concatenateGuids check = key ∧ w.queue.queueDataStore = q.queueDataStore ∧
      (checkCompatibility env check).run w = .ok (c, w')

theorem LFGQueue.CacheCurrent.right (hsteady : env.Steady) (hsized : q.Sized)
    (h : q.CacheCurrent env) : q.CacheRight env.toLfgRules := by
  intro check c hne hnodup hq htotal hcache
  obtain ⟨other, w, w', hne', hnodup', hkey, hstore, hrun⟩ := h _ _ hcache
  have hmem := (concatenateGuids_eq_iff hne' hne).mp hkey
  have hset : other.toFinset = check.toFinset := by
    ext g
    rw [List.mem_toFinset, List.mem_toFinset]
    exact hmem g
  have hsized' : w.queue.Sized := (sized_congr hstore).mpr hsized
  have hverdict := (checkCompatibility_verdict hsteady other w hsized' hne' hnodup').of_ok hrun
  rw [← hset, ← settles_congr hstore]
  apply hverdict.settles
  · intro g hg
    rw [isQueued_congr hstore]
    exact hq g ((hmem g).mp hg)
  · rw [total_congr hstore, total_eq_playersIn hnodup', hset, ← total_eq_playersIn hnodup]
    exact htotal

theorem search_gatherCheck (hsized : q.Sized) (hnodup : (guid :: all).Nodup)
    (hq : q.isQueued guid = true) :
    Search env q [guid] all (gatherCheck env q [guid]).1 (gatherCheck env q [guid]).2.1
      (gatherCheck env q [guid]).2.2 := by
  have hqueued : [guid].filter (fun g => q.isQueued g) = [guid] := by simp [hq]
  have hgather : gatherCheck env q [guid] =
      (commonDungeons q [guid], ({} : LfgRoleCoverage).addRoles (q.rolesOf guid),
        [guid].any env.isLfgGroup) := by
    rw [gatherCheck, hqueued]
    rfl
  rw [hgather]
  constructor
  · exact hsized
  · simp
  · exact hnodup
  · simpa using hq
  · rw [LFGQueue.total_cons, LFGQueue.total_nil]
    exact hsized.size_le guid
  · rfl
  · intro f _
    rw [f.get_addRoles, f.get_empty]
    simp [CoverageCount.ofList]
  · rfl

/-- The search for an entry left the entries alone, and found the groups with it unless it was
stopped. -/
structure Searched (rules : LfgRules) (guid : ObjectGuid) (all : List ObjectGuid) (w : LfgWorld)
    (c : LfgCompatibility) (w' : LfgWorld) : Prop where
  store : w'.queue.queueDataStore = w.queue.queueDataStore
  cache : w'.queue.CacheRight rules
  found : w'.stoppedSearches = w.stoppedSearches → (c = .matched ↔
    ∃ extension, extension.Sublist all ∧ Matched rules w.queue (guid :: extension).toFinset)

/-- **The search for a queued entry.** -/
theorem findNewGroups_searched (hsteady : env.Steady) (hsized : w.queue.Sized)
    (hright : w.queue.CacheRight env.toLfgRules) (hnodup : (guid :: all).Nodup)
    (hq : w.queue.isQueued guid = true) :
    wp Never (findNewGroups env [guid] all) w (Searched env.toLfgRules guid all w) := by
  unfold findNewGroups
  rw [wp_bind, wp_get, wp_bind, wp_onQueue, wp_bind]
  have hright' : LFGQueue.CacheRight env.toLfgRules
      { w.queue with remainingChecks := LFG_MATCH_CHECK_BUDGET } :=
    hright.of_results rfl fun _ _ h => h
  have hsearch := findNewGroupsFuel_finds hsteady (all.length + 1) [guid] all
    (gatherCheck env w.queue [guid]).1 (gatherCheck env w.queue [guid]).2.1
    (gatherCheck env w.queue [guid]).2.2
    { w with queue := { w.queue with remainingChecks := LFG_MATCH_CHECK_BUDGET } }
    (Nat.lt_succ_self _) ((search_gatherCheck hsized hnodup hq).congr rfl) hright'
  apply hsearch.mono
  intro c w₁ h₁
  have hiff : ∀ e, Matched env.toLfgRules
      { w.queue with remainingChecks := LFG_MATCH_CHECK_BUDGET } ([guid] ++ e).toFinset ↔
      Matched env.toLfgRules w.queue (guid :: e).toFinset := fun e => matched_congr rfl
  rw [wp_bind, logStopped, wp_modify, wp_pure]
  split
  · next hstopped =>
    refine ⟨h₁.store, h₁.cache hright', fun hsame => ?_⟩
    have hlength := congrArg List.length hsame
    have hle := h₁.stopped.length_le
    grind
  · next hgoes =>
    refine ⟨h₁.store, h₁.cache hright', fun _ => ⟨fun hc => ?_, ?_⟩⟩
    · obtain ⟨e, he, hm⟩ := h₁.sound hc
      exact ⟨e, he, (hiff e).mp hm⟩
    · rintro ⟨e, he, hm⟩
      by_contra hc
      exact h₁.complete hc (fun hzero => hgoes ⟨hc, hzero⟩) e he ((hiff e).mpr hm)

theorem exists_matched_iff (hnodup : (guid :: all).Nodup) :
    (∃ extension, extension.Sublist all ∧ Matched rules q (guid :: extension).toFinset) ↔
      ((q.rolesOf guid).size = MAX_GROUP_SIZE ∧ (q.dungeonsOf guid).Nonempty) ∨
        ∃ s ⊆ all.toFinset, s.Nonempty ∧ FullyCompatible rules q (insert guid s) := by
  constructor
  · rintro ⟨e, he, hm⟩
    by_cases hnil : e = []
    · left
      subst hnil
      exact (matched_single guid).mp hm
    · right
      have hnodup' : (guid :: e).Nodup := hnodup.sublist (he.cons_cons guid)
      have hmany : 1 < (guid :: e).length := by
        have := List.length_pos_of_ne_nil hnil
        rw [List.length_cons]
        omega
      obtain ⟨hfull, hcompatible⟩ := (matched_several hmany hnodup').mp hm
      rw [total_eq_playersIn hnodup'] at hfull
      rw [List.toFinset_cons] at hfull hcompatible
      refine ⟨e.toFinset, ?_, (List.toFinset_nonempty_iff e).mpr hnil, hcompatible, hfull⟩
      intro g hg
      rw [List.mem_toFinset] at hg ⊢
      exact he.subset hg
  · rintro (hsingle | ⟨s, hs, hne, hfull⟩)
    · exact ⟨[], List.nil_sublist _, (matched_single guid).mpr hsingle⟩
    · have hset : (guid :: all.filter (· ∈ s)).toFinset = insert guid s := by
        ext g
        rw [List.toFinset_cons, Finset.mem_insert, Finset.mem_insert, List.mem_toFinset,
          List.mem_filter, decide_eq_true_iff]
        constructor
        · exact fun h => h.imp id fun h => h.2
        · exact fun h => h.imp id fun h => ⟨List.mem_toFinset.mp (hs h), h⟩
      refine ⟨all.filter (· ∈ s), List.filter_sublist, ?_⟩
      obtain ⟨g, hg⟩ := hne
      have hguid : guid ≠ g := by
        rintro rfl
        exact (List.nodup_cons.mp hnodup).1 (List.mem_toFinset.mp (hs hg))
      rw [hset]
      refine ⟨hfull.full, .inr ⟨?_, hfull.toCompatible⟩⟩
      exact Finset.one_lt_card.mpr ⟨guid, Finset.mem_insert_self .., g,
        Finset.mem_insert_of_mem hg, hguid⟩

theorem CheckOutcome.isQueued (h : CheckOutcome env [guid] w c w')
    (hc : c = .withLessPlayers ∨ c = .matched) : w.queue.isQueued guid = true := by
  obtain hc | hc := hc
  · exact h.queued hc guid (List.mem_singleton_self guid)
  · obtain ⟨q, call, _, tally, roles, dungeons, rfl, hk, hp, _⟩ := (h.isMatch hc).call
    rw [← hk.queued]
    exact hp.full.queued guid (List.mem_singleton_self guid)

theorem findNewGroups_notQueued (hsized : w.queue.Sized) (hcache : w.queue.CacheCurrent env)
    (hq : w.queue.isQueued guid = false) :
    wp Never (findNewGroups env [guid] all) w fun c _ => c ≠ .matched := by
  have hchecked : ∀ w₀ : LfgWorld, w₀.queue.queueDataStore = w.queue.queueDataStore →
      wp Never (checkCompatibility env [guid]) w₀ fun c _ =>
        c ≠ .withLessPlayers ∧ c ≠ .matched := by
    intro w₀ hstore
    have hspec : wp Never (checkCompatibility env [guid]) w₀ (CheckOutcome env [guid] w₀) :=
      checkCompatibility_spec [guid] w₀ ((sized_congr hstore).mpr hsized) (List.cons_ne_nil guid [])
        fun h => absurd h (by simp)
    apply hspec.mono
    intro c w' h
    rw [← not_or]
    intro hc
    have hyes := h.isQueued hc
    rw [isQueued_congr hstore, hq] at hyes
    cases hyes
  unfold findNewGroups
  rw [wp_bind, wp_get, wp_bind, wp_onQueue, wp_bind, findNewGroupsFuel, wp_bind]
  have hcached : wp Never (cachedOrChecked env [guid])
      { w with queue := { w.queue with remainingChecks := LFG_MATCH_CHECK_BUDGET } }
      fun c _ => c ≠ .withLessPlayers ∧ c ≠ .matched := by
    unfold cachedOrChecked
    rw [wp_bind, wp_get]
    dsimp only
    split
    · exact hchecked _ rfl
    · next hresult =>
      rw [wp_pure]
      refine ⟨fun hless => ?_, fun h => hresult (.inr (.inl h))⟩
      have hkey := LFGQueue.compatibleMapStore_of_getCompatibles fun h => hresult (.inl h)
      rw [hless] at hkey
      obtain ⟨other, w₀, w', hne, hnodup, hother, hstore, hrun⟩ := hcache _ _ hkey
      have hsame : other = [guid] := by
        apply List.perm_singleton.mp
        apply (List.perm_ext_iff_of_nodup hnodup (List.nodup_singleton guid)).mpr
        exact (concatenateGuids_eq_iff hne (List.cons_ne_nil guid [])).mp hother
      rw [hsame] at hrun
      exact ((hchecked w₀ hstore).of_ok hrun).1 rfl
  apply hcached.mono
  rintro c w₁ ⟨hless, hc⟩
  rw [if_pos hless, wp_pure, wp_bind, logStopped, wp_modify, wp_pure]
  exact hc

/-- **The search is complete.** For distinct entries, with nobody busy, no dungeon locked and
a current cache, a search that was not stopped ends with a match exactly when the entry is a
full group of its own, or is one together with some of the others. -/
theorem findNewGroups_matched_iff (hsteady : env.Steady) (hsized : w.queue.Sized)
    (hcache : w.queue.CacheCurrent env) (hnodup : (guid :: all).Nodup) :
    wp Never (findNewGroups env [guid] all) w fun c w' =>
      w'.stoppedSearches = w.stoppedSearches →
        (c = .matched ↔
          ((w.queue.rolesOf guid).size = MAX_GROUP_SIZE ∧ (w.queue.dungeonsOf guid).Nonempty) ∨
          ∃ s ⊆ all.toFinset, s.Nonempty ∧
            FullyCompatible env.toLfgRules w.queue (insert guid s)) := by
  cases hq : w.queue.isQueued guid with
  | true =>
    have hright := hcache.right hsteady hsized
    apply (findNewGroups_searched hsteady hsized hright hnodup hq).mono
    intro c w' h hstopped
    rw [h.found hstopped, exists_matched_iff hnodup]
  | false =>
    have hnone : w.queue.queueDataStore guid = none := by
      rw [LFGQueue.isQueued, Option.isSome_eq_false_iff, Option.isNone_iff_eq_none] at hq
      exact hq
    apply (findNewGroups_notQueued hsized hcache hq).mono
    intro c w' hc _
    refine iff_of_false hc ?_
    rintro (⟨hsize, _⟩ | ⟨s, _, _, hfull⟩)
    · rw [LFGQueue.rolesOf, hnone] at hsize
      exact absurd hsize (by decide)
    · have hyes := hfull.queued guid (Finset.mem_insert_self ..)
      rw [hq] at hyes
      cases hyes

/-! ## A party that is on bad terms -/

theorem openEnv_steady : openEnv.Steady where
  allQueued _ := rfl
  unlocked _ _ _ := rfl

/-- Nothing was checked yet. -/
def LFGQueue.CacheEmpty (q : LFGQueue) : Prop :=
  ∀ key, q.compatibleMapStore key = none

theorem LFGQueue.CacheEmpty.addQueueData (h : q.CacheEmpty) {roles : LfgRolesMap} :
    (q.addQueueData guid dungeons roles).CacheEmpty := by
  intro key
  rw [compatibleMapStore_addQueueData, h key, ite_self]

theorem LFGQueue.CacheEmpty.current (h : q.CacheEmpty) : q.CacheCurrent env := by
  intro key c hc
  rw [h key] at hc
  cases hc

theorem LFGQueue.cacheEmpty_empty : LFGQueue.empty.CacheEmpty := fun _ => rfl

theorem twoParties_cacheCurrent : twoParties.queue.CacheCurrent openEnv := by
  show LFGQueue.CacheCurrent openEnv
    ((LFGQueue.empty.addQueueData 1 {30, 31} partyOfThree).addQueueData 2 {31} partyOfTwo)
  exact LFGQueue.cacheEmpty_empty.addQueueData.addQueueData.current

theorem twoParties_matched_iff : wp Never (findNewGroups openEnv [2] [1]) twoParties fun c w' =>
    w'.stoppedSearches = twoParties.stoppedSearches →
      (c = .matched ↔
        ((twoParties.queue.rolesOf 2).size = MAX_GROUP_SIZE ∧
          (twoParties.queue.dungeonsOf 2).Nonempty) ∨
        ∃ s ⊆ [1].toFinset, s.Nonempty ∧
          FullyCompatible openEnv.toLfgRules twoParties.queue (insert 2 s)) :=
  findNewGroups_matched_iff openEnv_steady twoParties_valid.sized twoParties_cacheCurrent
    (by decide)

/-- Players 11 and 12 ignore each other. -/
def quarrelEnv : LfgEnv where
  toLfgRules := {
    isLfgGroup := fun _ => false
    hasIgnore := fun a b => (a = 11 ∧ b = 12) ∨ (a = 12 ∧ b = 11)
    hasIgnore_comm := fun a b => by
      apply decide_eq_decide.mpr
      tauto }
  getOldState := openEnv.getOldState
  allQueued := openEnv.allQueued
  getCompatibleDungeons := openEnv.getCompatibleDungeons
  getCompatibleDungeons_subset := openEnv.getCompatibleDungeons_subset
  gameTime := 0
  selectDungeon := openEnv.selectDungeon
  selectDungeon_mem := openEnv.selectDungeon_mem
  urand := openEnv.urand

def partyOfFive : LfgRolesMap := (partyOfThree.insert 14 0x02).insert 15 0x08

/-- A full party that 11 and 12 are in has joined. -/
def quarrel : LfgWorld where
  queue := LFGQueue.empty.addQueueData 1 {30} partyOfFive
  lfgProposalId := 0
  addProposalCalls := []
  stoppedSearches := []

/-- **A party is not asked about its own ignores.** It is matched as it is, though no set of
entries that ignore nobody is there. -/
theorem quarrel_matched :
    quarrelEnv.Steady ∧ quarrel.queue.Valid ∧ quarrel.queue.CacheCurrent quarrelEnv ∧
    ((findNewGroups quarrelEnv [1] []).run quarrel).toOption.map
      (fun r => (r.1, r.2.stoppedSearches)) = some (.matched, quarrel.stoppedSearches) ∧
    ¬∃ s ⊆ ([] : List ObjectGuid).toFinset,
      FullyCompatible quarrelEnv.toLfgRules quarrel.queue (insert 1 s) := by
  refine ⟨⟨fun _ => rfl, fun _ _ _ => rfl⟩, ?_, ?_, by decide +kernel, ?_⟩
  · show (LFGQueue.empty.addQueueData 1 {30} partyOfFive).Valid
    apply LFGQueue.Valid.addQueueData LFGQueue.valid_empty
    · decide +kernel
    · decide +kernel
    · decide +kernel
    · intro g hg
      cases hg
  · show LFGQueue.CacheCurrent quarrelEnv (LFGQueue.empty.addQueueData 1 {30} partyOfFive)
    exact LFGQueue.cacheEmpty_empty.addQueueData.current
  · rintro ⟨s, _, hfull⟩
    have hno := hfull.ignores 1 (Finset.mem_insert_self ..) 1 (Finset.mem_insert_self ..)
      11 (by decide +kernel) 12 (by decide +kernel) (by decide)
    exact absurd hno (by decide)

end EGServer.DungeonFinding
