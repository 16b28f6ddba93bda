import EGServer.DungeonFinding.Entries

/-!
# What the checks on a list of entries decide

`examine` is the pure part of `CheckCompatibility`. Its answer is characterised once: what
holds of a group it calls full, and, for entries that are queued and not too many, which
lists it accepts.
-/

namespace EGServer.DungeonFinding

variable {env : LfgEnv} {q : LFGQueue} {check : List ObjectGuid}

theorem sub_ofNat_ne_zero_iff (a : UInt8) (n : Nat) (h : n ≤ a.toNat) :
    a - UInt8.ofNat n ≠ 0 ↔ n ≠ a.toNat := by
  have ha := a.toNat_lt
  have hsub : (a - UInt8.ofNat n).toNat = a.toNat - n := by
    rw [UInt8.toNat_sub, UInt8.toNat_ofNat']
    omega
  rw [Ne, ← UInt8.toNat_inj, hsub]
  show ¬a.toNat - n = 0 ↔ _
  omega

/-! ## Full groups -/

/-- A list of entries that `CheckCompatibility` proposes as a group. -/
structure FullGroup (env : LfgEnv) (q : LFGQueue) (check : List ObjectGuid) (tally : Tally)
    (roles : LfgRolesMap) (dungeons : Finset DungeonId) : Prop where
  queued : ∀ g ∈ check, q.isQueued g = true
  players : q.total check = MAX_GROUP_SIZE
  lfgGroups : check.countP env.isLfgGroup ≤ 1
  tallied : tally.numLfgGroups = check.countP env.isLfgGroup
  group : tally.group = (check.find? env.isLfgGroup).getD 0
  mergeable : 1 < check.length → Mergeable env.toLfgRules (q.playersOf check)
  solvable : 1 < check.length → (checkGroupRoles (mergeRoles env q check)).1 = true
  solved : roles = (checkGroupRoles (proposalRoles env q check)).2
  common : dungeons = commonDungeons q check
  nonempty : dungeons.Nonempty

theorem proposalData_ok {numPlayers : UInt8} {roles : LfgRolesMap} {dungeons : Finset DungeonId}
    (hplayers : numPlayers.toNat = q.total check)
    (h : proposalData env q check numPlayers = .ok (roles, dungeons)) :
    (1 < check.length → Mergeable env.toLfgRules (q.playersOf check)) ∧
    (1 < check.length → (checkGroupRoles (mergeRoles env q check)).1 = true) ∧
    roles = (checkGroupRoles (proposalRoles env q check)).2 ∧
    dungeons = commonDungeons q check ∧ dungeons.Nonempty := by
  unfold proposalData at h
  dsimp only at h
  split at h
  · cases h
  · next hignores =>
    split at h
    · cases h
    · next hroles =>
      split at h
      · cases h
      · next hdungeons =>
        injection h with h
        injection h with hr hd
        refine ⟨?_, ?_, hr.symm, hd.symm, ?_⟩
        · intro hmany
          have heq : proposalRoles env q check = mergeRoles env q check := if_pos hmany
          grind [size_mergeRoles_eq_iff, sub_ofNat_ne_zero_iff, size_mergeRoles_le]
        · intro hmany
          have heq : proposalRoles env q check = mergeRoles env q check := if_pos hmany
          rw [heq] at hroles
          by_contra hne
          exact hroles ⟨hmany, hne⟩
        · exact hd ▸ Finset.nonempty_iff_ne_empty.mpr hdungeons

/-- **What a full group satisfies.** -/
theorem examine_full (hsized : q.Sized) {tally : Tally} {roles : LfgRolesMap}
    {dungeons : Finset DungeonId} (h : examine env q check = .full tally roles dungeons) :
    FullGroup env q check tally roles dungeons := by
  unfold examine at h
  obtain ⟨g, _, he, _⟩ | ⟨t, ht, _, hcases⟩ :=
    tallyEntries_cases env hsized check {} (Nat.zero_le _)
  · rw [he] at h
    cases h
  · rw [ht] at h
    dsimp only at h
    split at h
    · cases h
    split at h
    · cases h
    · next hgroups =>
      split at h
      · cases h
      · next hmany =>
        split at h
        · cases h
        · next roles' dungeons' hdata =>
          split at h
          · cases h
          · next hfull =>
            cases h
            obtain h2 | h5 | hcounted := hcases
            · omega
            · omega
            have hplayers : tally.numPlayers.toNat = q.total check := by
              rw [hcounted.players]; exact Nat.zero_add _
            have htallied : tally.numLfgGroups = check.countP env.isLfgGroup := by
              rw [hcounted.lfgGroups]; exact Nat.zero_add _
            obtain ⟨hmerge, hsolve, hr, hd, hne⟩ := proposalData_ok hplayers hdata
            exact {
              queued := hcounted.queued
              players := by rw [← hplayers]; exact Decidable.not_not.mp hfull
              lfgGroups := by rw [← htallied]; omega
              tallied := htallied
              group := by rw [hcounted.group]; rfl
              mergeable := hmerge
              solvable := hsolve
              solved := hr
              common := hd
              nonempty := hne }

theorem examine_verdict {compatibles : LfgCompatibility}
    (h : examine env q check = .verdict compatibles) :
    compatibles.isIncompatible = true ∧ compatibles ≠ .pending ∨
      compatibles = .withLessPlayers := by
  have herror : ∀ {n c}, proposalData env q check n = .error c →
      c.isIncompatible = true ∧ c ≠ .pending := by
    intro n c hc
    unfold proposalData at hc
    dsimp only at hc
    split at hc
    · cases hc; decide
    split at hc
    · cases hc; decide
    split at hc
    · cases hc; decide
    · cases hc
  unfold examine at h
  split at h
  · cases h
  split at h
  · cases h; decide
  split at h
  · cases h; decide
  split at h
  · cases h; decide
  grind

theorem queued_of_withLessPlayers (hsized : q.Sized)
    (h : examine env q check = .verdict .withLessPlayers) :
    ∀ g ∈ check, q.isQueued g = true := by
  unfold examine at h
  obtain ⟨g, _, he, _⟩ | ⟨t, ht, hmost, hcases⟩ :=
    tallyEntries_cases env hsized check {} (Nat.zero_le _)
  · rw [he] at h
    cases h
  have hplayers : t.numPlayers.toNat ≤ q.total check := by
    simpa using hmost.players
  have hgroups : t.numLfgGroups ≤ check.countP env.isLfgGroup := by
    simpa using hmost.lfgGroups
  rw [ht] at h
  dsimp only at h
  split at h
  · next hsingle =>
    obtain ⟨g, rfl⟩ := List.length_eq_one_iff.mp hsingle.1
    have hone : [g].countP env.isLfgGroup ≤ 1 := List.countP_le_length
    have hsize := hsized.size_le g
    rw [LFGQueue.total_cons, LFGQueue.total_nil] at hplayers
    obtain h2 | h5 | hcounted := hcases
    · omega
    · omega
    · exact hcounted.queued
  split at h
  · cases h
  split at h
  · cases h
  · obtain h2 | h5 | hcounted := hcases
    · omega
    · omega
    · exact hcounted.queued

theorem examine_notQueued (hsized : q.Sized) {guid : ObjectGuid}
    (h : examine env q check = .notQueued guid) : guid ∈ check ∧ q.isQueued guid = false := by
  unfold examine at h
  obtain ⟨g, hg, he, hq⟩ | ⟨t, ht, _⟩ :=
    tallyEntries_cases env hsized check {} (Nat.zero_le _)
  · rw [he] at h
    cases h
    exact ⟨hg, hq⟩
  · grind

/-! ## Queued entries with at most five players -/

/-- The entries can be in one group, as far as `CheckCompatibility` checks more than one. -/
structure Joins (env : LfgEnv) (q : LFGQueue) (check : List ObjectGuid) : Prop where
  lfgGroups : check.countP env.isLfgGroup ≤ 1
  mergeable : Mergeable env.toLfgRules (q.playersOf check)
  solvable : (checkGroupRoles (mergeRoles env q check)).1 = true
  dungeons : (commonDungeons q check).Nonempty

theorem tally_of_queued (env : LfgEnv) (hsized : q.Sized) (hq : ∀ g ∈ check, q.isQueued g = true)
    (htotal : q.total check ≤ MAX_GROUP_SIZE) :
    ∃ t, tallyEntries env q check {} = .ok t ∧
      (2 ≤ t.numLfgGroups ∧ 2 ≤ check.countP env.isLfgGroup ∨
        t.numPlayers.toNat = q.total check ∧ t.numLfgGroups = check.countP env.isLfgGroup) := by
  have hzero : ({} : Tally).numPlayers.toNat = 0 := rfl
  have hzero' : ({} : Tally).numLfgGroups = 0 := rfl
  obtain ⟨g, hg, _, hno⟩ | ⟨t, ht, hmost, hcases⟩ :=
    tallyEntries_cases env hsized check {} (Nat.zero_le _)
  · rw [hq g hg] at hno
    cases hno
  · refine ⟨t, ht, ?_⟩
    have hplayers := hmost.players
    have hgroups := hmost.lfgGroups
    obtain h | h | h := hcases
    · left
      omega
    · omega
    · right
      have h1 := h.players
      have h2 := h.lfgGroups
      omega

theorem examine_eq {t : Tally} (ht : tallyEntries env q check {} = .ok t)
    (hsingle : ¬(check.length = 1 ∧ t.numPlayers.toNat ≠ MAX_GROUP_SIZE))
    (hgroups : ¬t.numLfgGroups > 1) (hfits : ¬t.numPlayers.toNat > MAX_GROUP_SIZE) :
    examine env q check =
      match proposalData env q check t.numPlayers with
      | .error compatibles => .verdict compatibles
      | .ok data =>
        if t.numPlayers.toNat ≠ MAX_GROUP_SIZE then .verdict .withLessPlayers
        else .full t data.1 data.2 := by
  unfold examine
  grind

/-- **A single entry** is full when it has five players and a dungeon. -/
theorem examine_single (env : LfgEnv) (hsized : q.Sized) {guid : ObjectGuid}
    (hq : q.isQueued guid = true) :
    ((q.rolesOf guid).size ≠ MAX_GROUP_SIZE ∧ examine env q [guid] = .verdict .withLessPlayers) ∨
    ((q.rolesOf guid).size = MAX_GROUP_SIZE ∧ q.dungeonsOf guid = ∅ ∧
      examine env q [guid] = .verdict .noDungeons) ∨
    ((q.rolesOf guid).size = MAX_GROUP_SIZE ∧ (q.dungeonsOf guid).Nonempty ∧
      ∃ tally roles, examine env q [guid] = .full tally roles (q.dungeonsOf guid)) := by
  have htotal : q.total [guid] = (q.rolesOf guid).size := by simp
  have hle : q.total [guid] ≤ MAX_GROUP_SIZE := htotal ▸ hsized.size_le guid
  have hq' : ∀ g ∈ [guid], q.isQueued g = true := by simpa using hq
  obtain ⟨t, ht, hcount⟩ := tally_of_queued env hsized hq' hle
  have hone : [guid].countP env.isLfgGroup ≤ 1 := List.countP_le_length
  have hplayers : t.numPlayers.toNat = (q.rolesOf guid).size := by omega
  have hgroups : ¬t.numLfgGroups > 1 := by omega
  have hmany : ¬t.numPlayers.toNat > MAX_GROUP_SIZE := by omega
  by_cases hfive : (q.rolesOf guid).size = MAX_GROUP_SIZE
  · right
    have hnot : ¬([guid].length = 1 ∧ t.numPlayers.toNat ≠ MAX_GROUP_SIZE) := by omega
    by_cases hd : q.dungeonsOf guid = ∅
    · grind [examine_eq, commonDungeons, proposalData]
    · refine .inr ⟨hfive, Finset.nonempty_iff_ne_empty.mpr hd, t,
        (checkGroupRoles (q.rolesOf guid)).2, ?_⟩
      have hdata : proposalData env q [guid] t.numPlayers =
          .ok ((checkGroupRoles (q.rolesOf guid)).2, q.dungeonsOf guid) := by
        simp [proposalData, commonDungeons, hd, proposalRoles]
      have hfull : ¬t.numPlayers.toNat ≠ MAX_GROUP_SIZE := by omega
      rw [examine_eq ht hnot hgroups hmany, hdata]
      exact if_neg hfull
  · left
    have hyes : [guid].length = 1 ∧ t.numPlayers.toNat ≠ MAX_GROUP_SIZE := ⟨rfl, by omega⟩
    refine ⟨hfive, ?_⟩
    unfold examine
    rw [ht]
    exact if_pos hyes

/-- **Several entries** are accepted exactly when they join. -/
theorem examine_several (env : LfgEnv) (hsized : q.Sized) (hmany : 1 < check.length)
    (hq : ∀ g ∈ check, q.isQueued g = true) (htotal : q.total check ≤ MAX_GROUP_SIZE) :
    (¬Joins env q check ∧ ∃ c : LfgCompatibility, c.isIncompatible = true ∧ c ≠ .pending ∧
      examine env q check = .verdict c) ∨
    (Joins env q check ∧ q.total check ≠ MAX_GROUP_SIZE ∧
      examine env q check = .verdict .withLessPlayers) ∨
    (Joins env q check ∧ q.total check = MAX_GROUP_SIZE ∧
      ∃ tally roles dungeons, examine env q check = .full tally roles dungeons) := by
  obtain ⟨t, ht, hcount⟩ := tally_of_queued env hsized hq htotal
  have hlength : ¬(check.length = 1 ∧ t.numPlayers.toNat ≠ MAX_GROUP_SIZE) := by omega
  by_cases hgroups : t.numLfgGroups > 1
  · left
    refine ⟨fun h => ?_, .multipleLfgGroups, rfl, by decide, ?_⟩
    · have h1 := h.lfgGroups
      omega
    · unfold examine
      rw [ht]
      dsimp only
      rw [if_neg hlength, if_pos hgroups]
  have hplayers : t.numPlayers.toNat = q.total check := by omega
  have hgroups' : check.countP env.isLfgGroup ≤ 1 := by omega
  have hfits : ¬t.numPlayers.toNat > MAX_GROUP_SIZE := by omega
  have hroles : proposalRoles env q check = mergeRoles env q check := if_pos hmany
  have hmerge : t.numPlayers - UInt8.ofNat (mergeRoles env q check).size ≠ 0 ↔
      ¬Mergeable env.toLfgRules (q.playersOf check) := by
    grind [size_mergeRoles_eq_iff, sub_ofNat_ne_zero_iff, size_mergeRoles_le]
  rw [examine_eq ht hlength hgroups hfits]
  unfold proposalData
  rw [hroles]
  dsimp only
  by_cases hm : Mergeable env.toLfgRules (q.playersOf check)
  · rw [if_neg (fun h => hmerge.mp h.2 hm)]
    by_cases hs : (checkGroupRoles (mergeRoles env q check)).1 = true
    · rw [if_neg (fun h => h.2 hs)]
      by_cases hd : commonDungeons q check = ∅
      · rw [if_pos hd]
        left
        refine ⟨fun h => ?_, .noDungeons, rfl, by decide, rfl⟩
        exact Finset.nonempty_iff_ne_empty.mp h.dungeons hd
      · rw [if_neg hd]
        right
        have hjoins : Joins env q check :=
          ⟨hgroups', hm, hs, Finset.nonempty_iff_ne_empty.mpr hd⟩
        grind
    · rw [if_pos ⟨hmany, hs⟩]
      left
      exact ⟨fun h => hs h.solvable, .noRoles, rfl, by decide, rfl⟩
  · rw [if_pos ⟨hmany, hmerge.mpr hm⟩]
    left
    exact ⟨fun h => hm h.mergeable, .hasIgnores, rfl, by decide, rfl⟩

end EGServer.DungeonFinding

/-!
# What a check leaves alone

No check adds an entry, changes the roles of one, or puts one on a list: entries lose
dungeons at most, the lists only get shorter, and only a match calls `AddProposal`. A list
of queued entries with at most five players is proposed by the check of that list, never by
the check of the list without its first entry.
-/

namespace EGServer.DungeonFinding

open StateExcept

/-! ## The frame -/

/-- `q'` has the entries of `q` with their roles, perhaps fewer dungeons, and no list of it
is longer. What is queued is still to be matched again. -/
structure LFGQueue.Keeps (q q' : LFGQueue) : Prop where
  queued : ∀ g, q'.isQueued g = q.isQueued g
  roles : ∀ g, q'.rolesOf g = q.rolesOf g
  dungeons : ∀ g, q'.dungeonsOf g ⊆ q.dungeonsOf g
  current : q'.currentQueueStore.Sublist q.currentQueueStore
  newToQueue : q'.newToQueueStore.Sublist q.newToQueueStore
  rematch : q'.rematchStore.Sublist q.rematchStore
  rematched : ∀ g ∈ q.rematchStore, q.isQueued g = true → g ∈ q'.rematchStore

namespace LFGQueue

variable {q q' q'' : LFGQueue} {guid : ObjectGuid} {check : List ObjectGuid}

theorem Keeps.refl (q : LFGQueue) : q.Keeps q where
  queued _ := rfl
  roles _ := rfl
  dungeons _ := Finset.Subset.refl _
  current := .refl _
  newToQueue := .refl _
  rematch := .refl _
  rematched _ h _ := h

theorem Keeps.trans (h : q.Keeps q') (h' : q'.Keeps q'') : q.Keeps q'' where
  queued g := (h'.queued g).trans (h.queued g)
  roles g := (h'.roles g).trans (h.roles g)
  dungeons g := (h'.dungeons g).trans (h.dungeons g)
  current := h'.current.trans h.current
  newToQueue := h'.newToQueue.trans h.newToQueue
  rematch := h'.rematch.trans h.rematch
  rematched g hg hq := h'.rematched g (h.rematched g hg hq) (by rwa [h.queued])

theorem Keeps.sized (h : q.Keeps q') (hsized : q.Sized) : q'.Sized := by
  intro guid hguid
  rw [h.queued] at hguid
  rw [h.roles]
  exact hsized guid hguid

theorem Keeps.total (h : q.Keeps q') (check : List ObjectGuid) : q'.total check = q.total check := by
  simp [LFGQueue.total, h.roles]

theorem keeps_setCompatibles (key : CompatibleKey) (c : LfgCompatibility) :
    q.Keeps (q.setCompatibles key c) :=
  { Keeps.refl q with }

theorem keeps_invalidate (guid : ObjectGuid) : q.Keeps (q.invalidateCompatibleData guid) :=
  { Keeps.refl q with }

theorem keeps_spendCheck : q.Keeps q.spendCheck :=
  { Keeps.refl q with }

theorem keeps_removeFromQueue (h : q.isQueued guid = false) : q.Keeps (q.removeFromQueue guid) := by
  have hnone : q.queueDataStore guid = none := by
    rw [isQueued, Option.isSome_eq_false_iff, Option.isNone_iff_eq_none] at h
    exact h
  have hstore : (q.removeFromQueue guid).queueDataStore = q.queueDataStore := by
    show Function.update q.queueDataStore guid none = _
    rw [← hnone, Function.update_eq_self]
  exact {
    queued := fun g => by rw [isQueued, isQueued, hstore]
    roles := fun g => by rw [rolesOf, rolesOf, hstore]
    dungeons := fun g => by rw [dungeonsOf, dungeonsOf, hstore]
    current := removeGuid_sublist ..
    newToQueue := removeGuid_sublist ..
    rematch := removeGuid_sublist ..
    rematched := fun g hg hq => mem_removeGuid.mpr ⟨hg, fun he => by
      rw [he, h] at hq
      cases hq⟩ }

theorem keeps_unlist : q.Keeps (q.unlist check) := by
  induction check generalizing q with
  | nil => exact Keeps.refl q
  | cons g rest ih =>
    have hstep : q.Keeps ((q.removeFromNewQueue g).removeFromCurrentQueue g) :=
      { Keeps.refl q with
        current := removeGuid_sublist ..
        newToQueue := removeGuid_sublist .. }
    exact hstep.trans ih

theorem notMem_unlist (h : guid ∈ check) :
    guid ∉ (q.unlist check).newToQueueStore ∧ guid ∉ (q.unlist check).currentQueueStore := by
  induction check generalizing q with
  | nil => cases h
  | cons g rest ih =>
    have hrest : (q.unlist (g :: rest)) =
        ((q.removeFromNewQueue g).removeFromCurrentQueue g).unlist rest := rfl
    rw [hrest]
    by_cases hmem : guid ∈ rest
    · exact ih hmem
    · have heq : guid = g := (List.mem_cons.mp h).resolve_right hmem
      subst heq
      have hkeep : LFGQueue.Keeps _ (((q.removeFromNewQueue guid).removeFromCurrentQueue guid).unlist rest) := keeps_unlist
      constructor
      · intro hin
        exact (mem_removeGuid.mp (hkeep.newToQueue.subset hin)).2 rfl
      · intro hin
        exact (mem_removeGuid.mp (hkeep.current.subset hin)).2 rfl

theorem foldl_erase_subset (locks : LfgLockMap) (dungeons : Finset DungeonId) :
    locks.foldl (fun d entry => d.erase (entry.1 &&& 0x00FFFFFF)) dungeons ⊆ dungeons := by
  induction locks generalizing dungeons with
  | nil => exact Finset.Subset.refl _
  | cons l locks ih => exact (ih _).trans (Finset.erase_subset ..)

theorem keeps_update {data : LfgQueueData} {dungeons : Finset DungeonId}
    (hd : q.queueDataStore guid = some data) (hsub : dungeons ⊆ data.dungeons) :
    q.Keeps { q with queueDataStore :=
      Function.update q.queueDataStore guid (some { data with dungeons := dungeons }) } := by
  have hroles := rolesOf_eq hd
  have hdungeons := dungeonsOf_eq hd
  refine { Keeps.refl q with queued := ?_, roles := ?_, dungeons := ?_ }
  · intro g
    show (Function.update q.queueDataStore guid _ g).isSome = (q.queueDataStore g).isSome
    grind
  · intro g
    show ((Function.update q.queueDataStore guid _ g).map _).getD ∅ = q.rolesOf g
    by_cases hg : g = guid
    · subst hg
      rw [Function.update_self, hroles]
      rfl
    · rw [Function.update_of_ne hg]
      rfl
  · intro g
    show ((Function.update q.queueDataStore guid _ g).map _).getD ∅ ⊆ q.dungeonsOf g
    by_cases hg : g = guid
    · subst hg
      rw [Function.update_self, hdungeons]
      exact hsub
    · rw [Function.update_of_ne hg]
      exact Finset.Subset.refl _

theorem keeps_pruneEntry (player : ObjectGuid) (locks : LfgLockMap) :
    q.Keeps (pruneEntry q guid player locks) := by
  unfold pruneEntry
  split
  · exact Keeps.refl q
  · next data hd =>
    dsimp only
    split
    · exact Keeps.refl q
    have hkeep := (keeps_update hd (foldl_erase_subset locks data.dungeons)).trans
      (keeps_invalidate guid)
    split
    · exact hkeep.trans { Keeps.refl _ with }
    · exact hkeep

theorem keeps_foldl_pruneLocked (tally : Tally) (isNew : Bool) (locks : LfgLockPartyMap) :
    q.Keeps (locks.foldl (pruneLocked tally isNew) q) := by
  induction locks generalizing q with
  | nil => exact Keeps.refl q
  | cons lock locks ih =>
    have hstep : q.Keeps (pruneLocked tally isNew q lock) := by
      grind [keeps_pruneEntry, Keeps.refl, pruneLocked]
    exact hstep.trans ih

end LFGQueue

end EGServer.DungeonFinding
