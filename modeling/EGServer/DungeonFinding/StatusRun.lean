import EGServer.DungeonFinding.QueueStatus
import EGServer.DungeonFinding.FindGroups
import EGServer.Lib.GuardedRun

/-!
# The queue status over a run

Whatever `LFGQueue` does to the status is one of a few events: an entry joins or leaves, an
entry loses dungeons, a check finds a list that needs more players, the status of an entry is
computed for a status message.

In every state of a run the counters of an entry are those of a party of entries that are
queued now, or those that `UpdateStatusNeeds` computed last, for entries that were queued
then: the key of the best combination, by which stale counters are found, does not name the
entries that `UpdateStatusNeeds` merged.
-/

namespace EGServer.DungeonFinding

/-! ## The state with the status -/

/-- A queue with what the status needs besides: the counters of every entry, and the roles in
the cached results. -/
structure StatusQueue where
  queue : LFGQueue
  status : ObjectGuid → QueueStatus
  cachedRoles : CompatibleKey → LfgRolesMap

/-- `LFGQueue::FindBestCompatibleInQueue`, where `order` is the order of the hash map. -/
def findBestCompatible (q : LFGQueue) (cachedRoles : CompatibleKey → LfgRolesMap)
    (order : List CompatibleKey) (guid : ObjectGuid) (status : QueueStatus) : QueueStatus :=
  order.foldl (fun status key =>
    if q.compatibleMapStore key = some .withLessPlayers ∧ compatibleKeyContainsGuid key guid then
      status.updateBestCompatible key (cachedRoles key)
    else status) status

/-- The loop of `InvalidateCompatibleData`, after the results with the guid were removed. -/
def rebuildStatus (q : LFGQueue) (cachedRoles : CompatibleKey → LfgRolesMap)
    (order : List CompatibleKey) (guid : ObjectGuid) (status : ObjectGuid → QueueStatus) :
    ObjectGuid → QueueStatus :=
  fun g =>
    if q.isQueued g = true ∧ compatibleKeyContainsGuid (status g).bestCompatible guid = true then
      findBestCompatible q cachedRoles order g
        (QueueStatus.resetBestCompatibleToSelf g (q.rolesOf g))
    else status g

/-- What may happen to a queue. `relist` stands for every change of the lists and of the budget
of a search. -/
inductive StatusEvent where
  | addQueueData (guid : ObjectGuid) (dungeons : Finset DungeonId) (roles : LfgRolesMap)
  | removeFromQueue (guid : ObjectGuid)
  | relist (current newToQueue rematch : List ObjectGuid) (checks : Nat)
  | clearCompatibles
  | setCompatibles (check : List ObjectGuid) (compatibles : LfgCompatibility)
  | lessPlayers (env : LfgEnv) (check : List ObjectGuid)
  | pruneEntry (guid player : ObjectGuid) (locks : LfgLockMap)
  | updateStatusNeeds (rules : LfgRules) (guid : ObjectGuid)

namespace StatusEvent

/-- What the event does; `order` is the order of the hash map it walks through. -/
def run (order : List CompatibleKey) : StatusEvent → StatusQueue → StatusQueue
  | addQueueData guid dungeons roles, b =>
    let removed := b.queue.removeFromQueue guid
    let status := rebuildStatus removed b.cachedRoles order guid b.status
    { b with
      queue := b.queue.addQueueData guid dungeons roles
      status := Function.update status guid (.resetBestCompatibleToSelf guid roles) }
  | removeFromQueue guid, b =>
    let removed := b.queue.removeFromQueue guid
    { b with
      queue := removed
      status := rebuildStatus removed b.cachedRoles order guid b.status }
  | relist current newToQueue rematch checks, b =>
    { b with queue := { b.queue with
        currentQueueStore := current
        newToQueueStore := newToQueue
        rematchStore := rematch
        remainingChecks := checks } }
  | clearCompatibles, b => { b with queue := b.queue.clearCompatibles }
  | setCompatibles check compatibles, b =>
    { b with queue := b.queue.setCompatibles (concatenateGuids check) compatibles }
  | lessPlayers env check, b =>
    let key := concatenateGuids check
    let roles := (checkGroupRoles (proposalRoles env b.queue check)).2
    { queue := b.queue.setCompatibles key .withLessPlayers
      status := fun g =>
        if g ∈ check then (b.status g).updateBestCompatible key roles else b.status g
      cachedRoles := Function.update b.cachedRoles key roles }
  | pruneEntry guid player locks, b =>
    let pruned := DungeonFinding.pruneEntry b.queue guid player locks
    { b with
      queue := pruned
      status :=
        if pruned.dungeonsOf guid = b.queue.dungeonsOf guid then b.status
        else rebuildStatus pruned b.cachedRoles order guid b.status }
  | updateStatusNeeds rules guid, b =>
    let counted := (b.status guid).updateStatusNeeds rules b.queue guid
    { b with status := Function.update b.status guid counted }

/-- When the code lets the event happen: entries join with roles that passed the role check, a
result that needs more players is one that the examination of the entries gave, and the status
is computed for an entry of the queue. -/
def Allowed (b : StatusQueue) : StatusEvent → Prop
  | addQueueData _ _ roles => roles.size < 256 ∧ (checkGroupRoles roles).1 = true
  | setCompatibles _ compatibles => compatibles ≠ .withLessPlayers
  | lessPlayers env check => examine env b.queue check = .verdict .withLessPlayers
  | updateStatusNeeds _ guid => b.queue.isQueued guid = true
  | _ => True

end StatusEvent

/-- A step of the queue. -/
def StatusStep (b : StatusQueue) (event : StatusEvent) (b' : StatusQueue) : Prop :=
  ∃ order, b' = event.run order b

/-- A queue as the server starts with it. -/
def StatusQueue.start : StatusQueue where
  queue := LFGQueue.empty
  status _ := QueueStatus.needed []
  cachedRoles _ := ∅

/-! ## What a key stands for -/

/-- The key was made of a party, and these are the roles that the solver gave its players. -/
def KeyParty (q : LFGQueue) (key : CompatibleKey) (roles : LfgRolesMap) : Prop :=
  ∃ check merged, check ≠ [] ∧ key = concatenateGuids check ∧ Party q check.toFinset merged ∧
    merged.size < 256 ∧ roles = (checkGroupRoles merged).2

/-- The counters are those of the party that the best combination names. -/
def ByKey (q : LFGQueue) (guid : ObjectGuid) (status : QueueStatus) : Prop :=
  compatibleKeyContainsGuid status.bestCompatible guid = true ∧
    ∃ roles, KeyParty q status.bestCompatible roles ∧
      status = (QueueStatus.needed status.bestCompatible).countRoles roles

/-- What holds of every state: the entries passed the role check, and the cached results that
need more players are about parties. -/
structure StatusQueue.Right (b : StatusQueue) : Prop where
  own : b.queue.OwnRoles
  cached : ∀ key, b.queue.compatibleMapStore key = some .withLessPlayers →
    KeyParty b.queue key (b.cachedRoles key)

section Keys

variable {q q' : LFGQueue} {key : CompatibleKey} {roles : LfgRolesMap} {guid gone : ObjectGuid}
  {status : QueueStatus}

theorem ByKey.described (h : ByKey q guid status) : Described q guid status := by
  obtain ⟨hcontains, _, ⟨check, merged, hne, hkey, hparty, hsize, rfl⟩, hstatus⟩ := h
  rw [hkey, compatibleKeyContainsGuid_iff hne] at hcontains
  refine ⟨check.toFinset, merged, List.mem_toFinset.mpr hcontains, hparty, ?_⟩
  rw [hstatus]
  exact hparty.counts hsize _

theorem KeyParty.of_agree (h : KeyParty q key roles)
    (hnot : compatibleKeyContainsGuid key gone = false)
    (hagree : ∀ g, g ≠ gone → q.isQueued g = true → q'.queueDataStore g = q.queueDataStore g) :
    KeyParty q' key roles := by
  obtain ⟨check, merged, hne, rfl, hparty, hsize, rfl⟩ := h
  refine ⟨check, merged, hne, rfl, hparty.of_agree ?_, hsize, rfl⟩
  intro g hg
  apply hagree g ?_ (hparty.queued g hg)
  rintro rfl
  rw [List.mem_toFinset] at hg
  rw [(compatibleKeyContainsGuid_iff hne).mpr hg] at hnot
  cases hnot

theorem KeyParty.congr (h : KeyParty q key roles)
    (hstore : q'.queueDataStore = q.queueDataStore) : KeyParty q' key roles := by
  obtain ⟨check, merged, hne, rfl, hparty, hsize, rfl⟩ := h
  exact ⟨check, merged, hne, rfl, hparty.of_agree fun g _ => congrFun hstore g, hsize, rfl⟩

theorem ByKey.congr (h : ByKey q guid status) (hstore : q'.queueDataStore = q.queueDataStore) :
    ByKey q' guid status := by
  obtain ⟨hcontains, roles, hparty, hstatus⟩ := h
  exact ⟨hcontains, roles, hparty.congr hstore, hstatus⟩

theorem bestCompatible_countRoles (status : QueueStatus) (roles : LfgRolesMap) :
    (status.countRoles roles).bestCompatible = status.bestCompatible := by
  rw [QueueStatus.countRoles, QueueStatus.foldl_countDown]

theorem ByKey.count (h : KeyParty q key roles)
    (hcontains : compatibleKeyContainsGuid key guid = true) :
    ByKey q guid ((QueueStatus.needed key).countRoles roles) := by
  have hbest := bestCompatible_countRoles (QueueStatus.needed key) roles
  refine ⟨?_, roles, ?_, ?_⟩
  · rw [hbest]
    exact hcontains
  · rw [hbest]
    exact h
  · rw [hbest]
    rfl

/-- `UpdateBestCompatibleInQueue` leaves the counters, or counts the party of the key. -/
theorem updateBestCompatible_byKey (h : KeyParty q key roles)
    (hcontains : compatibleKeyContainsGuid key guid = true) (status : QueueStatus) :
    status.updateBestCompatible key roles = status ∨
      ByKey q guid (status.updateBestCompatible key roles) := by
  unfold QueueStatus.updateBestCompatible
  split
  · exact Or.inl rfl
  · exact Or.inr (ByKey.count h hcontains)

theorem resetBestCompatibleToSelf_byKey (hown : q.OwnRoles) (hq : q.isQueued guid = true) :
    ByKey q guid (.resetBestCompatibleToSelf guid (q.rolesOf guid)) := by
  rw [resetBestCompatibleToSelf_eq]
  apply ByKey.count
  · refine ⟨[guid], q.rolesOf guid, List.cons_ne_nil _ _, rfl, ?_, (hown guid hq).1, rfl⟩
    simpa using Party.single hown hq
  · exact (compatibleKeyContainsGuid_iff (List.cons_ne_nil _ _)).mpr (List.mem_singleton_self guid)

/-- `FindBestCompatibleInQueue` counts parties only. -/
theorem findBestCompatible_byKey {cachedRoles : CompatibleKey → LfgRolesMap}
    (hcached : ∀ key, q.compatibleMapStore key = some .withLessPlayers →
      KeyParty q key (cachedRoles key)) (order : List CompatibleKey) (h : ByKey q guid status) :
    ByKey q guid (findBestCompatible q cachedRoles order guid status) := by
  unfold findBestCompatible
  induction order generalizing status with
  | nil => exact h
  | cons key order ih =>
    grind [updateBestCompatible_byKey]

end Keys

/-! ## The lists that need more players -/

section LessPlayers

variable {env : LfgEnv} {q : LFGQueue} {check : List ObjectGuid}

theorem joins_of_withLessPlayers (hsized : q.Sized) (hmany : 1 < check.length)
    (h : examine env q check = .verdict .withLessPlayers) :
    Joins env q check ∧ q.total check ≤ MAX_GROUP_SIZE := by
  have hq := queued_of_withLessPlayers hsized h
  have htotal : q.total check ≤ MAX_GROUP_SIZE := by
    have hexamine := h
    unfold examine at hexamine
    obtain ⟨g, -, hno, -⟩ | ⟨t, ht, -, hcases⟩ :=
      tallyEntries_cases env hsized check {} (Nat.zero_le _)
    · rw [hno] at hexamine
      cases hexamine
    · rw [ht] at hexamine
      dsimp only at hexamine
      rw [if_neg (by omega)] at hexamine
      split at hexamine
      · cases hexamine
      split at hexamine
      · cases hexamine
      · obtain h2 | h5 | hcounted := hcases
        · omega
        · omega
        · have hzero : ({} : Tally).numPlayers.toNat = 0 := rfl
          have hplayers := hcounted.players
          omega
  refine ⟨?_, htotal⟩
  rcases examine_several env hsized hmany hq htotal with
    ⟨-, c, hc, -, hverdict⟩ | ⟨hjoins, -, -⟩ | ⟨hjoins, -, -⟩
  · rw [h] at hverdict
    cases hverdict
    cases hc
  · exact hjoins
  · exact hjoins

theorem nodup_of_mergeable (hsized : q.Sized) (hq : ∀ g ∈ check, q.isQueued g = true)
    (h : Mergeable env.toLfgRules (q.playersOf check)) : check.Nodup := by
  have hdistinct := h.1
  rw [LFGQueue.playersOf, List.map_flatMap, List.nodup_flatMap] at hdistinct
  refine hdistinct.2.imp_of_mem ?_
  rintro g g' hg - hdisjoint rfl
  have hpos := hsized.size_pos (hq g hg)
  rw [← Std.ExtTreeMap.length_toList, List.length_pos_iff_exists_mem] at hpos
  obtain ⟨player, hplayer⟩ := hpos
  have hmem : player.1 ∈ (q.rolesOf g).toList.map Prod.fst :=
    List.mem_map.mpr ⟨player, hplayer, rfl⟩
  exact hdisjoint hmem hmem

/-- **What needs more players is a party**, whose players hold the roles given to the solver. -/
theorem keyParty_of_withLessPlayers (hown : q.OwnRoles)
    (h : examine env q check = .verdict .withLessPlayers) :
    check ≠ [] ∧ KeyParty q (concatenateGuids check)
      (checkGroupRoles (proposalRoles env q check)).2 := by
  have hsized := hown.sized
  have hq := queued_of_withLessPlayers hsized h
  cases check with
  | nil => cases h
  | cons g rest =>
    have hne : g :: rest ≠ [] := List.cons_ne_nil _ _
    refine ⟨hne, ?_⟩
    cases rest with
    | nil =>
      have hg := hq g (List.mem_singleton_self g)
      refine ⟨[g], q.rolesOf g, hne, rfl, ?_, (hown g hg).1, rfl⟩
      simpa using Party.single hown hg
    | cons g' rest =>
      have hmany : 1 < (g :: g' :: rest).length := by simp
      obtain ⟨hjoins, htotal⟩ := joins_of_withLessPlayers hsized hmany h
      have hnodup := nodup_of_mergeable hsized hq hjoins.mergeable
      have hcompatible := (joins_iff hnodup hne hq htotal).mp hjoins
      have hroles : proposalRoles env q (g :: g' :: rest) = mergeRoles env q (g :: g' :: rest) :=
        if_pos hmany
      have hsize : (mergeRoles env q (g :: g' :: rest)).size ≤ q.total (g :: g' :: rest) :=
        size_mergeRoles_le ..
      rw [hroles]
      refine ⟨_, mergeRoles env q (g :: g' :: rest), hne, rfl, ?_, ?_, rfl⟩
      · exact {
          queued := hcompatible.queued
          disjoint := hcompatible.disjoint
          merged := fun player r => by
            rw [getElem?_mergeRoles hjoins.mergeable]
            simp only [List.mem_toFinset]
          solvable := hjoins.solvable
          dungeon := Or.inr hcompatible.dungeon }
      · unfold MAX_GROUP_SIZE at htotal
        omega

end LessPlayers

/-! ## An entry goes, or loses dungeons -/

/-- The entry `gone` is not queued any more or has other dungeons, the others are as they were,
and the cached results with `gone` are removed. -/
structure LFGQueue.Drops (q q' : LFGQueue) (gone : ObjectGuid) : Prop where
  others : ∀ g, g ≠ gone → q'.queueDataStore g = q.queueDataStore g
  own : q'.isQueued gone = true → q.isQueued gone = true ∧ q'.rolesOf gone = q.rolesOf gone
  results : ∀ key, q'.compatibleMapStore key =
    if compatibleKeyContainsGuid key gone then none else q.compatibleMapStore key

namespace LFGQueue.Drops

variable {q q' : LFGQueue} {gone guid : ObjectGuid}

theorem queued (h : q.Drops q' gone) (hq : q'.isQueued guid = true) :
    q.isQueued guid = true ∧ q'.rolesOf guid = q.rolesOf guid := by
  by_cases hg : guid = gone
  · subst hg
    exact h.own hq
  · rw [LFGQueue.isQueued, h.others guid hg] at hq
    rw [LFGQueue.rolesOf, h.others guid hg]
    exact ⟨hq, rfl⟩

theorem ownRoles (h : q.Drops q' gone) (hown : q.OwnRoles) : q'.OwnRoles := by
  intro guid hq
  obtain ⟨hold, hroles⟩ := h.queued hq
  rw [hroles]
  exact hown guid hold

theorem keyParty (h : q.Drops q' gone) {key : CompatibleKey} {roles : LfgRolesMap}
    (hkey : KeyParty q key roles) (hnot : compatibleKeyContainsGuid key gone = false) :
    KeyParty q' key roles :=
  hkey.of_agree hnot fun g hg _ => h.others g hg

theorem cached (h : q.Drops q' gone) {cachedRoles : CompatibleKey → LfgRolesMap}
    (hcached : ∀ key, q.compatibleMapStore key = some .withLessPlayers →
      KeyParty q key (cachedRoles key)) :
    ∀ key, q'.compatibleMapStore key = some .withLessPlayers →
      KeyParty q' key (cachedRoles key) := by
  intro key hkey
  rw [h.results] at hkey
  split at hkey
  · cases hkey
  · next hnot => exact h.keyParty (hcached key hkey) (Bool.eq_false_iff.mpr hnot)

theorem status (h : q.Drops q' gone) (b : StatusQueue) (hright : b.Right) (hb : b.queue = q)
    (order : List CompatibleKey) (hq : q'.isQueued guid = true) :
    ByKey q' guid (rebuildStatus q' b.cachedRoles order gone b.status guid) ∨
      rebuildStatus q' b.cachedRoles order gone b.status guid = b.status guid ∧
      (ByKey q guid (b.status guid) → ByKey q' guid (b.status guid)) := by
  subst hb
  unfold rebuildStatus
  split
  · left
    exact findBestCompatible_byKey (h.cached hright.cached) order
      (resetBestCompatibleToSelf_byKey (h.ownRoles hright.own) hq)
  · next hno =>
    right
    refine ⟨rfl, ?_⟩
    rintro ⟨hcontains, roles, hkey, hstatus⟩
    have hnot : compatibleKeyContainsGuid (b.status guid).bestCompatible gone = false := by
      rw [← Bool.not_eq_true]
      exact fun hin => hno ⟨hq, hin⟩
    exact ⟨hcontains, roles, h.keyParty hkey hnot, hstatus⟩

end LFGQueue.Drops

theorem drops_removeFromQueue (q : LFGQueue) (gone : ObjectGuid) :
    q.Drops (q.removeFromQueue gone) gone where
  others g hg := Function.update_of_ne hg ..
  own hq := by
    have hnone : (q.removeFromQueue gone).queueDataStore gone = none := Function.update_self ..
    rw [LFGQueue.isQueued, hnone] at hq
    cases hq
  results _ := rfl

theorem pruneEntry_cases (q : LFGQueue) (gone player : ObjectGuid) (locks : LfgLockMap) :
    pruneEntry q gone player locks = q ∨
      q.Drops (pruneEntry q gone player locks) gone ∧
        (pruneEntry q gone player locks).dungeonsOf gone ≠ q.dungeonsOf gone := by
  unfold pruneEntry
  split
  · exact Or.inl rfl
  · next data hdata =>
    dsimp only
    generalize locks.foldl _ data.dungeons = dungeons
    split
    · exact Or.inl rfl
    · next hchanged =>
      right
      have hroles := LFGQueue.rolesOf_eq hdata
      have hdungeons := LFGQueue.dungeonsOf_eq hdata
      have hdrops : ∀ q' : LFGQueue, q'.queueDataStore =
            Function.update q.queueDataStore gone (some { data with dungeons := dungeons }) →
          (∀ key, q'.compatibleMapStore key =
            if compatibleKeyContainsGuid key gone then none else q.compatibleMapStore key) →
          q.Drops q' gone ∧ q'.dungeonsOf gone ≠ q.dungeonsOf gone := by
        intro q' hstore hresults
        have hself := (congrFun hstore gone).trans (Function.update_self ..)
        refine ⟨⟨fun g hg => ?_, fun _ => ⟨?_, ?_⟩, hresults⟩, ?_⟩
        · rw [hstore, Function.update_of_ne hg]
        · exact LFGQueue.isQueued_iff.mpr ⟨data, hdata⟩
        · rw [LFGQueue.rolesOf_eq hself, hroles]
        · rw [LFGQueue.dungeonsOf_eq hself, hdungeons]
          exact hchanged
      split
      · exact hdrops _ rfl fun _ => rfl
      · exact hdrops _ rfl fun _ => rfl

/-! ## An entry joins -/

section Joining

variable {q : LFGQueue} {guid g : ObjectGuid} {dungeons : Finset DungeonId} {roles : LfgRolesMap}
  {key : CompatibleKey}

theorem queueDataStore_addQueueData_of_removed
    (hq : (q.removeFromQueue guid).isQueued g = true) :
    (q.addQueueData guid dungeons roles).queueDataStore g =
      (q.removeFromQueue guid).queueDataStore g := by
  have hstore : (q.removeFromQueue guid).queueDataStore =
      Function.update q.queueDataStore guid none := rfl
  rw [LFGQueue.queueDataStore_addQueueData, hstore]
  by_cases hg : g = guid
  · rw [LFGQueue.isQueued, hstore, hg, Function.update_self] at hq
    cases hq
  · rw [Function.update_of_ne hg, Function.update_of_ne hg]

theorem KeyParty.addQueueData (h : KeyParty (q.removeFromQueue guid) key roles)
    {own : LfgRolesMap} : KeyParty (q.addQueueData guid dungeons own) key roles := by
  obtain ⟨check, merged, hne, rfl, hparty, hsize, rfl⟩ := h
  refine ⟨check, merged, hne, rfl, hparty.of_agree fun g hg => ?_, hsize, rfl⟩
  exact queueDataStore_addQueueData_of_removed (hparty.queued g hg)

theorem ownRoles_addQueueData (hown : q.OwnRoles)
    (hroles : roles.size < 256 ∧ (checkGroupRoles roles).1 = true) :
    (q.addQueueData guid dungeons roles).OwnRoles := by
  intro g hg
  rw [LFGQueue.rolesOf_addQueueData]
  rw [LFGQueue.isQueued_addQueueData] at hg
  split
  · exact hroles
  · next hne =>
    rw [decide_eq_false hne, Bool.false_or] at hg
    exact hown g hg

end Joining

/-! ## One event -/

section Step

variable {b b' : StatusQueue} {event : StatusEvent} {guid : ObjectGuid}

theorem StatusStep.right (h : StatusStep b event b') (hright : b.Right) (ok : event.Allowed b) :
    b'.Right := by
  obtain ⟨order, rfl⟩ := h
  cases event with
  | addQueueData gone dungeons roles =>
    have hdrops := drops_removeFromQueue b.queue gone
    refine ⟨ownRoles_addQueueData hright.own ok, fun key hkey => ?_⟩
    apply KeyParty.addQueueData
    apply hdrops.cached hright.cached
    rw [hdrops.results]
    exact (LFGQueue.compatibleMapStore_addQueueData dungeons roles key).symm.trans hkey
  | removeFromQueue gone =>
    have hdrops := drops_removeFromQueue b.queue gone
    exact ⟨hdrops.ownRoles hright.own, hdrops.cached hright.cached⟩
  | relist current newToQueue rematch checks =>
    exact ⟨hright.own, fun key hkey => (hright.cached key hkey).congr rfl⟩
  | clearCompatibles => exact ⟨hright.own, fun key hkey => by cases hkey⟩
  | setCompatibles check compatibles =>
    refine ⟨hright.own, fun key hkey => ?_⟩
    by_cases he : key = concatenateGuids check
    · have hset : (b.queue.setCompatibles (concatenateGuids check) compatibles).compatibleMapStore
          (concatenateGuids check) = some compatibles := Function.update_self ..
      change (b.queue.setCompatibles _ compatibles).compatibleMapStore key = _ at hkey
      rw [he, hset] at hkey
      exact absurd (Option.some.inj hkey) ok
    · exact (hright.cached key ((Function.update_of_ne he ..).symm.trans hkey)).congr rfl
  | lessPlayers env check =>
    refine ⟨hright.own, fun key hkey => ?_⟩
    by_cases he : key = concatenateGuids check
    · subst he
      have hroles : (StatusEvent.run order (.lessPlayers env check) b).cachedRoles
          (concatenateGuids check) = (checkGroupRoles (proposalRoles env b.queue check)).2 :=
        Function.update_self ..
      rw [hroles]
      exact (keyParty_of_withLessPlayers hright.own ok).2.congr rfl
    · have hroles : (StatusEvent.run order (.lessPlayers env check) b).cachedRoles key =
          b.cachedRoles key := Function.update_of_ne he ..
      rw [hroles]
      exact (hright.cached key ((Function.update_of_ne he ..).symm.trans hkey)).congr rfl
  | pruneEntry gone player locks =>
    rcases pruneEntry_cases b.queue gone player locks with hsame | ⟨hdrops, -⟩
    · have hqueue : (StatusEvent.run order (.pruneEntry gone player locks) b).queue = b.queue :=
        hsame
      exact ⟨hqueue ▸ hright.own, fun key hkey => by
        rw [hqueue] at hkey ⊢
        exact hright.cached key hkey⟩
    · exact ⟨hdrops.ownRoles hright.own, hdrops.cached hright.cached⟩
  | updateStatusNeeds rules g => exact ⟨hright.own, hright.cached⟩

/-- The counters of an entry are those of the party that its key names, or they are what they
were, or they were computed for a status message. -/
theorem StatusStep.status (h : StatusStep b event b') (hright : b.Right) (ok : event.Allowed b)
    (hq : b'.queue.isQueued guid = true) :
    ByKey b'.queue guid (b'.status guid) ∨
      (b.queue.isQueued guid = true ∧ b'.status guid = b.status guid ∧
        (ByKey b.queue guid (b.status guid) → ByKey b'.queue guid (b.status guid))) ∨
      ∃ rules, event = .updateStatusNeeds rules guid := by
  have hright' := h.right hright ok
  obtain ⟨order, rfl⟩ := h
  cases event with
  | addQueueData gone dungeons roles =>
    have hdrops := drops_removeFromQueue b.queue gone
    by_cases hg : guid = gone
    · subst hg
      left
      have hself : (StatusEvent.run order (.addQueueData guid dungeons roles) b).status guid =
          .resetBestCompatibleToSelf guid
            ((b.queue.addQueueData guid dungeons roles).rolesOf guid) := by
        rw [LFGQueue.rolesOf_addQueueData, if_pos rfl]
        exact Function.update_self ..
      rw [hself]
      exact resetBestCompatibleToSelf_byKey hright'.own hq
    · have hother : (StatusEvent.run order (.addQueueData gone dungeons roles) b).status guid =
          rebuildStatus (b.queue.removeFromQueue gone) b.cachedRoles order gone b.status guid :=
        Function.update_of_ne hg ..
      have hadd : ∀ status, ByKey (b.queue.removeFromQueue gone) guid status →
          ByKey (b.queue.addQueueData gone dungeons roles) guid status := by
        rintro status ⟨hcontains, roles, hkey, hstatus⟩
        exact ⟨hcontains, roles, hkey.addQueueData, hstatus⟩
      have hold : b.queue.isQueued guid = true := by
        have hadded : (b.queue.addQueueData gone dungeons roles).isQueued guid = true := hq
        rw [LFGQueue.isQueued_addQueueData, decide_eq_false hg, Bool.false_or] at hadded
        exact hadded
      have hq₁ : (b.queue.removeFromQueue gone).isQueued guid = true := by
        rw [LFGQueue.isQueued, hdrops.others guid hg]
        exact hold
      rw [hother]
      rcases hdrops.status b hright rfl order hq₁ with hkey | ⟨hsame, hkept⟩
      · exact Or.inl (hadd _ hkey)
      · exact Or.inr (Or.inl ⟨hold, hsame, fun hkey => hadd _ (hkept hkey)⟩)
  | removeFromQueue gone =>
    have hdrops := drops_removeFromQueue b.queue gone
    rcases hdrops.status b hright rfl order hq with hkey | ⟨hsame, hkept⟩
    · exact Or.inl hkey
    · exact Or.inr (Or.inl ⟨(hdrops.queued hq).1, hsame, hkept⟩)
  | relist current newToQueue rematch checks =>
    exact Or.inr (Or.inl ⟨hq, rfl, fun hkey => hkey.congr rfl⟩)
  | clearCompatibles => exact Or.inr (Or.inl ⟨hq, rfl, fun hkey => hkey.congr rfl⟩)
  | setCompatibles check compatibles =>
    exact Or.inr (Or.inl ⟨hq, rfl, fun hkey => hkey.congr rfl⟩)
  | lessPlayers env check =>
    obtain ⟨hne, hparty⟩ := keyParty_of_withLessPlayers hright.own ok
    by_cases hg : guid ∈ check
    · have hself : (StatusEvent.run order (.lessPlayers env check) b).status guid =
          (b.status guid).updateBestCompatible (concatenateGuids check)
            (checkGroupRoles (proposalRoles env b.queue check)).2 := if_pos hg
      rw [hself]
      have hcontains := (compatibleKeyContainsGuid_iff hne).mpr hg
      rcases updateBestCompatible_byKey hparty hcontains (b.status guid) with hsame | hkey
      · exact Or.inr (Or.inl ⟨hq, hsame, fun hkey => hkey.congr rfl⟩)
      · exact Or.inl (hkey.congr rfl)
    · exact Or.inr (Or.inl ⟨hq, if_neg hg, fun hkey => hkey.congr rfl⟩)
  | pruneEntry gone player locks =>
    rcases pruneEntry_cases b.queue gone player locks with hsame | ⟨hdrops, hchanged⟩
    · have hqueue : (StatusEvent.run order (.pruneEntry gone player locks) b).queue = b.queue :=
        hsame
      have hstatus : (StatusEvent.run order (.pruneEntry gone player locks) b).status = b.status :=
        if_pos (congrArg (LFGQueue.dungeonsOf · gone) hsame)
      rw [hqueue] at hq ⊢
      rw [hstatus]
      exact Or.inr (Or.inl ⟨hq, rfl, id⟩)
    · have hstatus : (StatusEvent.run order (.pruneEntry gone player locks) b).status =
          rebuildStatus (pruneEntry b.queue gone player locks) b.cachedRoles order gone b.status :=
        if_neg hchanged
      rw [hstatus]
      rcases hdrops.status b hright rfl order hq with hkey | ⟨hsame, hkept⟩
      · exact Or.inl hkey
      · exact Or.inr (Or.inl ⟨(hdrops.queued hq).1, hsame, hkept⟩)
  | updateStatusNeeds rules g =>
    by_cases hg : guid = g
    · subst hg
      exact Or.inr (Or.inr ⟨rules, rfl⟩)
    · exact Or.inr (Or.inl ⟨hq, Function.update_of_ne hg .., fun hkey => hkey.congr rfl⟩)

end Step

/-! ## A run -/

/-- A run from `b` to `b'`, of events that the code lets happen. -/
abbrev StatusRun (b b' : StatusQueue) : Prop :=
  Reaches StatusStep (fun b event => event.Allowed b) b b'

theorem StatusRun.step {b b' : StatusQueue} (h : StatusRun b b') (event : StatusEvent)
    (order : List CompatibleKey) (ok : event.Allowed b') : StatusRun b (event.run order b') :=
  h.next ok ⟨order, rfl⟩

theorem StatusRun.right {b : StatusQueue} (h : StatusRun .start b) : b.Right := by
  apply Reaches.invariant h
  · exact ⟨fun g hg => (by cases hg), fun key hkey => (by cases hkey)⟩
  · exact fun hright ok hstep => hstep.right hright ok

/-- The counters are what `UpdateStatusNeeds` made of them in an earlier state of the run, and
they are those of a party of entries that were queued in that state. -/
def Remembered (guid : ObjectGuid) (b : StatusQueue) : Prop :=
  ∃ b₀ rules order, StatusRun .start b₀ ∧ b₀.queue.isQueued guid = true ∧
    StatusRun ((StatusEvent.updateStatusNeeds rules guid).run order b₀) b ∧
    b.status guid = (b₀.status guid).updateStatusNeeds rules b₀.queue guid ∧
    Described b₀.queue guid (b.status guid)

/-- **The counters of every entry describe a party.** They are those of entries that are queued,
among them the entry itself, whose players can be given roles and who share a dungeon; or
`UpdateStatusNeeds` was the last to compute them, and the entries were queued when it did. -/
theorem queueStatus_described {b : StatusQueue} (h : StatusRun .start b) (guid : ObjectGuid)
    (hq : b.queue.isQueued guid = true) :
    Described b.queue guid (b.status guid) ∨ Remembered guid b := by
  have hrun : ∀ guid, b.queue.isQueued guid = true →
      ByKey b.queue guid (b.status guid) ∨ Remembered guid b := by
    clear hq
    induction h with
    | refl => exact fun guid hq => (by cases hq)
    | @tail b b' hb hstep ih =>
      intro guid hq
      obtain ⟨event, ok, hstep⟩ := hstep
      have hright : b.Right := StatusRun.right hb
      rcases hstep.status hright ok hq with hkey | ⟨hold, hsame, hkept⟩ | ⟨rules, rfl⟩
      · exact Or.inl hkey
      · rcases ih guid hold with hkey | ⟨b₀, rules, order, h₀, hq₀, hrest, hstatus, hdescribed⟩
        · rw [hsame]
          exact Or.inl (hkept hkey)
        · right
          rw [Remembered, hsame]
          exact ⟨b₀, rules, order, h₀, hq₀, hrest.next ok hstep, hstatus, hdescribed⟩
      · right
        obtain ⟨order, rfl⟩ := hstep
        have hself : ((StatusEvent.updateStatusNeeds rules guid).run order b).status guid =
            (b.status guid).updateStatusNeeds rules b.queue guid := Function.update_self ..
        rw [Remembered, hself]
        exact ⟨b, rules, order, hb, ok, .refl _, rfl,
          described_updateStatusNeeds hright.own rules ok _⟩
  exact (hrun guid hq).imp_left ByKey.described

/-! ## Counters that are out of date -/

/-- A tank is alone in the queue. -/
def loneTank : StatusQueue :=
  (StatusEvent.addQueueData 1 {7} ((∅ : LfgRolesMap).insert 11 0x02)).run [] .start

/-- A damage dealer has joined, both are on the current queue, and the tank is to be matched
again. -/
def tankAndDamage : StatusQueue :=
  (StatusEvent.relist [1, 2] [] [1] 0).run []
    ((StatusEvent.addQueueData 2 {7} ((∅ : LfgRolesMap).insert 12 0x08)).run [] loneTank)

/-- The status of the tank was sent, then the damage dealer left. -/
def parted : StatusQueue :=
  (StatusEvent.removeFromQueue 2).run []
    ((StatusEvent.updateStatusNeeds openEnv.toLfgRules 1).run [] tankAndDamage)

/-- The tank was checked again, which calls `UpdateBestCompatibleInQueue` for it. -/
def checkedAgain : StatusQueue := (StatusEvent.lessPlayers openEnv [1]).run [] parted

theorem eq_of_queued_parted {g : ObjectGuid} (h : parted.queue.isQueued g = true) : g = 1 := by
  have hstore : parted.queue.queueDataStore =
      Function.update tankAndDamage.queue.queueDataStore 2 none := rfl
  have hjoined : tankAndDamage.queue.isQueued g = (g = 2 || loneTank.queue.isQueued g) := by
    show (loneTank.queue.addQueueData 2 {7} ((∅ : LfgRolesMap).insert 12 0x08)).isQueued g = _
    exact LFGQueue.isQueued_addQueueData ..
  have hlone : loneTank.queue.isQueued g = (g = 1 || LFGQueue.empty.isQueued g) := by
    show (LFGQueue.empty.addQueueData 1 {7} ((∅ : LfgRolesMap).insert 11 0x02)).isQueued g = _
    exact LFGQueue.isQueued_addQueueData ..
  have hempty : LFGQueue.empty.isQueued g = false := rfl
  by_cases h2 : g = 2
  · rw [LFGQueue.isQueued, hstore, h2, Function.update_self] at h
    cases h
  · have htank : tankAndDamage.queue.isQueued g = true := by
      rw [LFGQueue.isQueued, hstore, Function.update_of_ne h2] at h
      exact h
    rw [hjoined, hlone, hempty] at htank
    simpa [h2] using htank

theorem parted_run : StatusRun .start parted := by
  have h₁ : StatusRun .start loneTank :=
    StatusRun.step (Reaches.refl .start) (.addQueueData 1 {7} _) []
      ⟨by decide +kernel, by decide +kernel⟩
  have h₂ : StatusRun .start tankAndDamage :=
    (h₁.step (.addQueueData 2 {7} _) [] ⟨by decide +kernel, by decide +kernel⟩).step
      (.relist [1, 2] [] [1] 0) [] trivial
  have hq : tankAndDamage.queue.isQueued 1 = true := rfl
  exact (h₂.step (.updateStatusNeeds openEnv.toLfgRules 1) [] hq).step (.removeFromQueue 2) []
    trivial

theorem checkedAgain_run : StatusRun .start checkedAgain := by
  have hsized := parted_run.right.own.sized
  have hq : parted.queue.isQueued 1 = true := rfl
  have hsize : (parted.queue.rolesOf 1).size ≠ MAX_GROUP_SIZE := by decide +kernel
  apply parted_run.step (.lessPlayers openEnv [1])
  rcases examine_single openEnv hsized hq with ⟨-, h⟩ | ⟨h, -⟩ | ⟨h, -⟩
  · exact h
  · exact absurd h hsize
  · exact absurd h hsize

/-- `UpdateBestCompatibleInQueue` has left counters that are not those of any queued entries. -/
theorem checkedAgain_outOfDate :
    ¬∀ b guid, StatusRun .start b → b.queue.isQueued guid = true →
      Described b.queue guid (b.status guid) := by
  intro hall
  have hq : checkedAgain.queue.isQueued 1 = true := rfl
  obtain ⟨s, roles, hmem, hparty, hcounts⟩ := hall checkedAgain 1 checkedAgain_run hq
  have hone : s = {1} := by
    apply Finset.eq_singleton_iff_unique_mem.mpr
    exact ⟨hmem, fun g hg => eq_of_queued_parted (hparty.queued g hg)⟩
  have hplayers : checkedAgain.queue.playersIn {1} = 1 := by
    rw [LFGQueue.playersIn, Finset.sum_singleton]
    decide +kernel
  have hsum := hcounts.sum
  rw [hone, hplayers] at hsum
  exact absurd hsum (by decide +kernel)

/-- The tank's counters are those that `UpdateStatusNeeds` made with the damage dealer. -/
theorem queueStatus_described_checkedAgain :
    Described checkedAgain.queue 1 (checkedAgain.status 1) ∨ Remembered 1 checkedAgain :=
  queueStatus_described checkedAgain_run 1 rfl

end EGServer.DungeonFinding
