import EGServer.DungeonFinding.Legal

/-!
# What a search does to the queue

One specification for each level of the search: the checks on a list of entries, the check
with its child checks, the search for a list, and `FindGroups`. Each says that the queue is
kept, and that `AddProposal` was called exactly when the answer is a match, with a proposal
made of the list that was matched.
-/

namespace EGServer.DungeonFinding

open StateExcept

/-- No error is tolerated: the code returns. -/
abbrev Never (_ : Stuck) : Prop := False

@[simp] theorem wp_onQueue {E : Stuck → Prop} (f : LFGQueue → LFGQueue) (w : LfgWorld)
    (Q : Unit → LfgWorld → Prop) :
    wp E (onQueue f) w Q ↔ Q () { w with queue := f w.queue } := Iff.rfl

@[simp] theorem wp_record {E : Stuck → Prop} (check : List ObjectGuid) (c : LfgCompatibility)
    (w : LfgWorld) (Q : LfgCompatibility → LfgWorld → Prop) :
    wp E (record check c) w Q ↔
      Q c { w with queue := w.queue.setCompatibles (concatenateGuids check) c } := Iff.rfl

/-- The cache calls a list joinable only when all its entries are queued. -/
def LFGQueue.CacheQueued (q : LFGQueue) : Prop :=
  ∀ check, check ≠ [] → q.compatibleMapStore (concatenateGuids check) = some .withLessPlayers →
    ∀ g ∈ check, q.isQueued g = true

/-- The queue is kept, and `AddProposal` was not called. -/
structure Quiet (w w' : LfgWorld) : Prop where
  keeps : w.queue.Keeps w'.queue
  stopped : w.stoppedSearches <+: w'.stoppedSearches
  cache : w.queue.CacheQueued → w'.queue.CacheQueued
  calls : w'.addProposalCalls = w.addProposalCalls

/-- `AddProposal` was called once, with a list among `lists`. -/
structure Match (env : LfgEnv) (lists : List ObjectGuid → Prop) (w w' : LfgWorld) : Prop where
  keeps : w.queue.Keeps w'.queue
  stopped : w.stoppedSearches <+: w'.stoppedSearches
  cache : w.queue.CacheQueued → w'.queue.CacheQueued
  call : ∃ q call check tally roles dungeons, lists check ∧ w.queue.Keeps q ∧
    Proposes env q check tally roles dungeons call ∧ call.queue.Keeps w'.queue ∧
    w'.addProposalCalls = w.addProposalCalls ++ [call]

/-- What a search did: it proposed a list exactly when the answer is a match. -/
structure Outcome (env : LfgEnv) (lists : List ObjectGuid → Prop) (w : LfgWorld)
    (c : LfgCompatibility) (w' : LfgWorld) : Prop where
  quiet : c ≠ .matched → Quiet w w'
  isMatch : c = .matched → Match env lists w w'

/-- What the check of one list did. Only queued entries can be joined by others. -/
structure CheckOutcome (env : LfgEnv) (check : List ObjectGuid) (w : LfgWorld)
    (c : LfgCompatibility) (w' : LfgWorld) : Prop extends Outcome env (· = check) w c w' where
  queued : c = .withLessPlayers → ∀ g ∈ check, w.queue.isQueued g = true

variable {env : LfgEnv} {check : List ObjectGuid} {w w' w'' : LfgWorld} {c : LfgCompatibility}
  {lists lists' : List ObjectGuid → Prop}

theorem Quiet.refl (w : LfgWorld) : Quiet w w where
  keeps := .refl _
  stopped := List.prefix_rfl
  cache h := h
  calls := rfl

theorem Quiet.trans (h : Quiet w w') (h' : Quiet w' w'') : Quiet w w'' where
  keeps := h.keeps.trans h'.keeps
  stopped := h.stopped.trans h'.stopped
  cache hq := h'.cache (h.cache hq)
  calls := h'.calls.trans h.calls

theorem Outcome.keeps (h : Outcome env lists w c w') : w.queue.Keeps w'.queue := by
  by_cases hc : c = .matched
  · exact (h.isMatch hc).keeps
  · exact (h.quiet hc).keeps

theorem Outcome.cache (h : Outcome env lists w c w') (hq : w.queue.CacheQueued) :
    w'.queue.CacheQueued := by
  by_cases hc : c = .matched
  · exact (h.isMatch hc).cache hq
  · exact (h.quiet hc).cache hq

theorem Quiet.andThen (h : Quiet w w') (h' : Outcome env lists w' c w'') :
    Outcome env lists w c w'' where
  quiet hc := h.trans (h'.quiet hc)
  isMatch hc := by
    have hm := h'.isMatch hc
    obtain ⟨q, call, check, tally, roles, dungeons, hl, hk, hp, hk', hcalls⟩ := hm.call
    refine ⟨h.keeps.trans hm.keeps, h.stopped.trans hm.stopped, fun hq => hm.cache (h.cache hq),
      q, call, check, tally, roles, dungeons, hl, h.keeps.trans hk, hp, hk', ?_⟩
    rw [hcalls, h.calls]

theorem Outcome.mono (h : Outcome env lists w c w') (hsub : ∀ l, lists l → lists' l) :
    Outcome env lists' w c w' where
  quiet := h.quiet
  isMatch hc := by
    have hm := h.isMatch hc
    obtain ⟨q, call, check, tally, roles, dungeons, hl, hrest⟩ := hm.call
    exact ⟨hm.keeps, hm.stopped, hm.cache, q, call, check, tally, roles, dungeons, hsub _ hl, hrest⟩

theorem Quiet.outcome (h : Quiet w w') (hc : c ≠ .matched) : Outcome env lists w c w' where
  quiet _ := h
  isMatch he := absurd he hc

theorem Quiet.checkOutcome (h : Quiet w w') (h' : CheckOutcome env check w' c w'') :
    CheckOutcome env check w c w'' where
  toOutcome := h.andThen h'.toOutcome
  queued hc g hg := by
    rw [← h.keeps.queued]
    exact h'.queued hc g hg

theorem Outcome.ne_matched (h : Outcome env (· = check) w c w')
    (ht : w.queue.total check ≠ MAX_GROUP_SIZE) : c ≠ .matched := by
  intro hc
  obtain ⟨q, call, _, tally, roles, dungeons, rfl, hk, hp, _⟩ := (h.isMatch hc).call
  rw [← hk.total] at ht
  exact ht hp.full.players

/-! ## The cache -/

namespace LFGQueue

variable {q q' : LFGQueue} {guid : ObjectGuid}

theorem CacheQueued.keeps (h : q.CacheQueued) (hk : q.Keeps q')
    (hc : ∀ key c, q'.compatibleMapStore key = some c → q.compatibleMapStore key = some c) :
    q'.CacheQueued := by
  intro check hne hcache g hg
  rw [hk.queued]
  exact h check hne (hc _ _ hcache) g hg

theorem CacheQueued.set (h : q.CacheQueued) (hne : check ≠ [])
    (hq : c = .withLessPlayers → ∀ g ∈ check, q.isQueued g = true) :
    (q.setCompatibles (concatenateGuids check) c).CacheQueued := by
  intro other hother hcache g hg
  by_cases hkey : concatenateGuids other = concatenateGuids check
  · have hc : c = .withLessPlayers := by
      rw [hkey] at hcache
      have hnew : (q.setCompatibles (concatenateGuids check) c).compatibleMapStore
          (concatenateGuids check) = some c := Function.update_self ..
      exact Option.some.inj (hnew.symm.trans hcache)
    exact hq hc g (((concatenateGuids_eq_iff hother hne).mp hkey g).mp hg)
  · have hold : q.compatibleMapStore (concatenateGuids other) = some .withLessPlayers :=
      (Function.update_of_ne hkey ..).symm.trans hcache
    exact h other hother hold g hg

theorem compatibleMapStore_invalidate (key : CompatibleKey) (c : LfgCompatibility)
    (h : (q.invalidateCompatibleData guid).compatibleMapStore key = some c) :
    q.compatibleMapStore key = some c := by
  have heq : (q.invalidateCompatibleData guid).compatibleMapStore key =
      if compatibleKeyContainsGuid key guid then none else q.compatibleMapStore key := rfl
  rw [heq] at h
  split at h
  · cases h
  · exact h

theorem compatibleMapStore_of_getCompatibles {key : CompatibleKey}
    (h : q.getCompatibles key ≠ .pending) :
    q.compatibleMapStore key = some (q.getCompatibles key) := by
  unfold getCompatibles at h ⊢
  cases hs : q.compatibleMapStore key with
  | none => rw [hs] at h; exact absurd rfl h
  | some c => rfl

end LFGQueue

theorem quiet_record (hne : check ≠ [])
    (hq : c = .withLessPlayers → ∀ g ∈ check, w.queue.isQueued g = true) :
    Quiet w { w with queue := w.queue.setCompatibles (concatenateGuids check) c } where
  keeps := LFGQueue.keeps_setCompatibles ..
  stopped := List.prefix_rfl
  cache h := h.set hne hq
  calls := rfl

theorem CheckOutcome.recorded (hne : check ≠ []) (hc : c ≠ .matched)
    (hq : c = .withLessPlayers → ∀ g ∈ check, w.queue.isQueued g = true) :
    CheckOutcome env check w c
      { w with queue := w.queue.setCompatibles (concatenateGuids check) c } where
  toOutcome := (quiet_record hne hq).outcome hc
  queued := hq

/-! ## The checks -/

theorem pruneLocked_cache (tally : Tally) (isNew : Bool) (locks : LfgLockPartyMap) (q : LFGQueue) :
    ∀ key c, (locks.foldl (pruneLocked tally isNew) q).compatibleMapStore key = some c →
      q.compatibleMapStore key = some c := by
  induction locks generalizing q with
  | nil => exact fun _ _ h => h
  | cons lock locks ih =>
    intro key c h
    have hstep := ih (pruneLocked tally isNew q lock) key c h
    unfold pruneLocked pruneEntry at hstep
    dsimp only at hstep
    split at hstep
    · exact hstep
    split at hstep
    · exact hstep
    split at hstep
    · exact hstep
    split at hstep
    · exact LFGQueue.compatibleMapStore_invalidate key c hstep
    · exact LFGQueue.compatibleMapStore_invalidate key c hstep

theorem unlist_cache (queues : List ObjectGuid) (q : LFGQueue) :
    ∀ key c, (q.unlist queues).compatibleMapStore key = some c →
      q.compatibleMapStore key = some c := by
  induction queues generalizing q with
  | nil => exact fun _ _ h => h
  | cons g rest ih => exact fun key c h => ih ((q.removeFromNewQueue g).removeFromCurrentQueue g) key c h

/-- **A full group** is proposed, unless its entries are busy or its dungeons are locked. -/
theorem propose_spec {tally : Tally} {roles : LfgRolesMap} {dungeons : Finset DungeonId}
    (hfull : FullGroup env w.queue check tally roles dungeons) :
    wp Never (propose env check tally roles dungeons) w (CheckOutcome env check w) := by
  have hne := hfull.check_ne_nil
  unfold propose
  dsimp only
  split
  · rw [wp_record]
    exact .recorded hne (by decide) (fun h => by cases h)
  split
  · rw [wp_bind, wp_onQueue, wp_record]
    have hkeep := LFGQueue.keeps_foldl_pruneLocked (q := w.queue) tally (isNewProposal env tally)
      (env.getCompatibleDungeons dungeons roles.keys (!isNewProposal env tally)).2
    have hprune : Quiet w { w with queue := (env.getCompatibleDungeons dungeons roles.keys
        (!isNewProposal env tally)).2.foldl (pruneLocked tally (isNewProposal env tally)) w.queue } :=
      { keeps := hkeep
        stopped := List.prefix_rfl
        cache := fun h => h.keeps hkeep fun key c hc => pruneLocked_cache _ _ _ _ key c hc
        calls := rfl }
    exact hprune.checkOutcome (.recorded hne (by decide) fun h => by cases h)
  · next hvalidated =>
    have hsub : validatedDungeons env roles dungeons (isNewProposal env tally) ⊆ dungeons := by
      unfold validatedDungeons
      dsimp only
      split
      · exact env.getCompatibleDungeons_subset ..
      · exact Finset.Subset.refl _
    rw [wp_bind, wp_get, wp_bind, wp_onQueue, wp_bind, addProposal, wp_modify, wp_record]
    have hkeep : w.queue.Keeps (w.queue.unlist check) := LFGQueue.keeps_unlist
    refine ⟨⟨fun h => absurd rfl h, fun _ => ?_⟩, fun h => by cases h⟩
    exact {
      keeps := hkeep.trans (LFGQueue.keeps_setCompatibles ..)
      stopped := List.prefix_rfl
      cache := fun h =>
        (h.keeps hkeep fun key c hc => unlist_cache _ _ key c hc).set hne (fun h => by cases h)
      call := ⟨w.queue, _, check, tally, roles, dungeons, rfl, .refl _,
        ⟨hfull, rfl, _, _, _, hsub, Finset.nonempty_iff_ne_empty.mpr hvalidated, rfl⟩,
        LFGQueue.keeps_setCompatibles .., rfl⟩ }

/-- **The checks on the entries themselves.** -/
theorem checkEntries_spec (hsized : w.queue.Sized) (hne : check ≠ []) :
    wp Never (checkEntries env check) w (CheckOutcome env check w) := by
  unfold checkEntries
  rw [wp_bind, wp_get]
  cases hex : examine env w.queue check with
  | notQueued guid =>
    obtain ⟨_, hnot⟩ := examine_notQueued hsized hex
    have hkeep := LFGQueue.keeps_removeFromQueue hnot
    have hquiet : Quiet w { w with queue := w.queue.removeFromQueue guid } :=
      { keeps := hkeep
        stopped := List.prefix_rfl
        cache := fun h => h.keeps hkeep fun key c hc =>
          LFGQueue.compatibleMapStore_invalidate key c hc
        calls := rfl }
    show CheckOutcome env check w .pending { w with queue := w.queue.removeFromQueue guid }
    exact ⟨hquiet.outcome (by decide), fun h => by cases h⟩
  | verdict c =>
    show wp Never (record check c) w _
    rw [wp_record]
    apply CheckOutcome.recorded hne
    · obtain ⟨hc, _⟩ | rfl := examine_verdict hex
      · intro he
        rw [he] at hc
        exact absurd hc (by decide)
      · decide
    · intro hc
      subst hc
      exact queued_of_withLessPlayers hsized hex
  | full tally roles dungeons => exact propose_spec (examine_full hsized hex)

theorem quiet_spendCheck (w : LfgWorld) :
    Quiet w { w with queue := w.queue.spendCheck } where
  keeps := LFGQueue.keeps_spendCheck
  stopped := List.prefix_rfl
  cache h := h
  calls := rfl

/-- **`CheckCompatibility`.** When the list has more than two entries, they are queued and few
enough that the child check cannot be full. -/
theorem checkCompatibility_spec : ∀ (check : List ObjectGuid) (w : LfgWorld), w.queue.Sized →
    check ≠ [] →
    (2 < check.length →
      (∀ g ∈ check, w.queue.isQueued g = true) ∧ w.queue.total check ≤ MAX_GROUP_SIZE) →
    wp Never (checkCompatibility env check) w (CheckOutcome env check w)
  | [], _ => by
    intro _ hne
    exact absurd rfl hne
  | front :: rest, w => by
    intro hsized hne hfits
    have hspend := quiet_spendCheck w
    have hentries : ∀ w₁, Quiet w w₁ →
        wp Never (checkEntries env (front :: rest)) w₁ (CheckOutcome env (front :: rest) w) := by
      intro w₁ h₁
      apply (checkEntries_spec (h₁.keeps.sized hsized) hne).mono
      intro c w' h
      exact h₁.checkOutcome h
    rw [checkCompatibility, wp_bind, wp_onQueue]
    split
    · exact ⟨hspend.outcome (by decide), fun h => by cases h⟩
    split
    · next hmany =>
      obtain ⟨hq, htotal⟩ := hfits hmany
      have hrest : rest ≠ [] := by
        intro he
        rw [he] at hmany
        exact absurd hmany (by decide)
      have hpos := hsized.size_pos (hq front (List.mem_cons_self ..))
      have hless : w.queue.total rest < MAX_GROUP_SIZE := by
        rw [LFGQueue.total_cons] at htotal
        omega
      rw [wp_bind]
      have hrec := checkCompatibility_spec rest { w with queue := w.queue.spendCheck } hsized hrest
        fun _ => ⟨fun g hg => hq g (List.mem_cons_of_mem _ hg), hless.le⟩
      apply hrec.mono
      intro child w₁ hchild
      have hne' : child ≠ .matched := hchild.ne_matched (Nat.ne_of_lt hless)
      have hquiet := hspend.trans (hchild.quiet hne')
      split
      · next hincompatible =>
        have hw : child = .withLessPlayers → False := by
          intro he
          rw [he] at hincompatible
          cases hincompatible
        rw [wp_record]
        exact hquiet.checkOutcome (.recorded hne hne' fun he => (hw he).elim)
      · exact hentries w₁ hquiet
    · exact hentries _ hspend

theorem cachedOrChecked_spec (hsized : w.queue.Sized) (hcache : w.queue.CacheQueued)
    (hne : check ≠ []) (hfits : 2 < check.length →
      (∀ g ∈ check, w.queue.isQueued g = true) ∧ w.queue.total check ≤ MAX_GROUP_SIZE) :
    wp Never (cachedOrChecked env check) w (CheckOutcome env check w) := by
  unfold cachedOrChecked
  rw [wp_bind, wp_get]
  dsimp only
  split
  · exact checkCompatibility_spec check w hsized hne hfits
  · next hcached =>
    rw [wp_pure]
    have hc : w.queue.getCompatibles (concatenateGuids check) ≠ .matched :=
      fun he => hcached (.inr (.inl he))
    refine ⟨(Quiet.refl w).outcome hc, fun he => hcache check hne ?_⟩
    rw [LFGQueue.compatibleMapStore_of_getCompatibles fun h => hcached (.inl h), he]

/-! ## The candidates -/

/-- An entry that can extend a list with these dungeons and this coverage. -/
def isCandidate (env : LfgEnv) (q : LFGQueue) (dungeons : Finset DungeonId)
    (coverage : LfgRoleCoverage) (hasLfgGroup : Bool) (guid : ObjectGuid) : Bool :=
  q.isQueued guid ∧ ¬(coverage.players + (q.rolesOf guid).size > MAX_GROUP_SIZE
    ∨ (hasLfgGroup ∧ env.isLfgGroup guid) ∨ q.dungeonsOf guid ∩ dungeons = ∅)

/-- What the search notes about a candidate. -/
def candidateOf (q : LFGQueue) (guid : ObjectGuid) : Candidate where
  guid := guid
  dungeons := q.dungeonsOf guid
  coverage := ({} : LfgRoleCoverage).addRoles (q.rolesOf guid)

theorem candidates_congr {q q' : LFGQueue} (h : q'.queueDataStore = q.queueDataStore)
    (env : LfgEnv) (dungeons : Finset DungeonId) (coverage : LfgRoleCoverage)
    (hasLfgGroup : Bool) :
    isCandidate env q' dungeons coverage hasLfgGroup =
      isCandidate env q dungeons coverage hasLfgGroup ∧ candidateOf q' = candidateOf q := by
  constructor
  · funext g
    rw [isCandidate, isCandidate, LFGQueue.isQueued, LFGQueue.rolesOf, LFGQueue.dungeonsOf, h]
    rfl
  · funext g
    rw [candidateOf, candidateOf, LFGQueue.rolesOf, LFGQueue.dungeonsOf, h]
    rfl

/-- What was not queued is taken off the lists; the entries are as they were. -/
structure Collected (w w' : LfgWorld) : Prop extends Quiet w w' where
  store : w'.queue.queueDataStore = w.queue.queueDataStore
  checks : w'.queue.remainingChecks = w.queue.remainingChecks
  results : ∀ key c, w'.queue.compatibleMapStore key = some c →
    w.queue.compatibleMapStore key = some c

theorem Collected.refl (w : LfgWorld) : Collected w w where
  toQuiet := .refl w
  store := rfl
  checks := rfl
  results _ _ h := h

theorem Collected.trans (h : Collected w w') (h' : Collected w' w'') : Collected w w'' where
  toQuiet := h.toQuiet.trans h'.toQuiet
  store := h'.store.trans h.store
  checks := h'.checks.trans h.checks
  results key c hc := h.results key c (h'.results key c hc)

theorem collected_removeFromQueue {guid : ObjectGuid} (h : w.queue.queueDataStore guid = none) :
    Collected w { w with queue := w.queue.removeFromQueue guid } where
  keeps := LFGQueue.keeps_removeFromQueue (by rw [LFGQueue.isQueued, h, Option.isSome_none])
  stopped := List.prefix_rfl
  cache hq := hq.keeps
    (LFGQueue.keeps_removeFromQueue (by rw [LFGQueue.isQueued, h, Option.isSome_none]))
    fun key c hc => LFGQueue.compatibleMapStore_invalidate key c hc
  calls := rfl
  store := by
    show Function.update w.queue.queueDataStore guid none = _
    rw [← h, Function.update_eq_self]
  checks := rfl
  results key c hc := LFGQueue.compatibleMapStore_invalidate key c hc

/-- **The candidates** are the entries of `all` that can extend the list. -/
theorem collectCandidates_spec (dungeons : Finset DungeonId) (coverage : LfgRoleCoverage)
    (hasLfgGroup : Bool) (all : List ObjectGuid) (w : LfgWorld) :
    wp Never (collectCandidates env dungeons coverage hasLfgGroup all) w fun candidates w' =>
      candidates = (all.filter (isCandidate env w.queue dungeons coverage hasLfgGroup)).map
        (candidateOf w.queue) ∧ Collected w w' := by
  induction all generalizing w with
  | nil => exact ⟨rfl, .refl w⟩
  | cons guid rest ih =>
    rw [collectCandidates, wp_bind, wp_get]
    split
    · next hnone =>
      have hremove := collected_removeFromQueue hnone
      have hnot : isCandidate env w.queue dungeons coverage hasLfgGroup guid = false := by
        simp [isCandidate, LFGQueue.isQueued, hnone]
      obtain ⟨h₁, h₂⟩ := candidates_congr hremove.store env dungeons coverage hasLfgGroup
      rw [wp_bind, wp_onQueue]
      apply (ih _).mono
      rintro candidates w' ⟨hc, h⟩
      refine ⟨?_, hremove.trans h⟩
      rw [List.filter_cons, if_neg (by simp [hnot]), hc, h₁, h₂]
    · next data hdata =>
      have hq : w.queue.isQueued guid = true := by rw [LFGQueue.isQueued, hdata]; rfl
      have hroles := LFGQueue.rolesOf_eq hdata
      have hdungeons := LFGQueue.dungeonsOf_eq hdata
      split
      · next hskip =>
        have hnot : isCandidate env w.queue dungeons coverage hasLfgGroup guid = false := by
          rw [← hroles, ← hdungeons] at hskip
          simp only [isCandidate, decide_eq_false_iff_not, not_and, Decidable.not_not]
          exact fun _ => hskip
        grind
      · next hkeep =>
        have hyes : isCandidate env w.queue dungeons coverage hasLfgGroup guid = true := by
          rw [← hroles, ← hdungeons] at hkeep
          simp only [isCandidate, decide_eq_true_eq]
          exact ⟨hq, hkeep⟩
        rw [wp_bind]
        apply (ih w).mono
        rintro candidates w' ⟨hc, h⟩
        rw [wp_pure, List.filter_cons, if_pos hyes, List.map_cons, hc]
        refine ⟨?_, h⟩
        rw [candidateOf, hroles, hdungeons]

end EGServer.DungeonFinding
