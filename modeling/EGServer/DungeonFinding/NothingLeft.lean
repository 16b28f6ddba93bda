import EGServer.DungeonFinding.Completeness

/-!
# No match is left behind

Entries join, are added again after a proposal failed, leave, and are matched, in any order.
Only new and re-added entries are searched for, each against the queue of that moment. That
is enough: every fully compatible set of the current queue has an entry that waits to be
matched again, and the last of its entries that was searched for met all the others.
-/

namespace EGServer.DungeonFinding

open StateExcept

variable {rules : LfgRules} {env : LfgEnv} {q q' : LFGQueue} {s : Finset ObjectGuid}
  {all : List ObjectGuid} {w w' : LfgWorld} {c : LfgCompatibility} {guid : ObjectGuid}

/-! ## The operations -/

inductive QueueOperation where
  | addQueueData (guid : ObjectGuid) (dungeons : Finset DungeonId) (roles : LfgRolesMap)
  | addToQueue (guid : ObjectGuid) (reAdd : Bool)
  | removeFromQueue (guid : ObjectGuid)
  | findGroups (env : LfgEnv)

def QueueOperation.run : QueueOperation → LfgM Unit
  | .addQueueData guid dungeons roles => onQueue fun q => q.addQueueData guid dungeons roles
  | .addToQueue guid reAdd => onQueue fun q => q.addToQueue guid reAdd
  | .removeFromQueue guid => onQueue fun q => q.removeFromQueue guid
  | .findGroups env => do
    let _ ← EGServer.DungeonFinding.findGroups env
    pure ()

/-- Who joins has one to five players. While groups are sought nobody is busy, no dungeon is
locked, and who may be matched with whom does not change. -/
def QueueOperation.Allowed (rules : LfgRules) : QueueOperation → Prop
  | .addQueueData _ _ roles => 0 < roles.size ∧ roles.size ≤ MAX_GROUP_SIZE
  | .findGroups env => env.toLfgRules = rules ∧ env.Steady
  | _ => True

/-- The server starts with an empty queue. -/
def LfgWorld.start : LfgWorld where
  queue := .empty
  lfgProposalId := 0
  addProposalCalls := []
  stoppedSearches := []

/-! ## The invariant -/

/-- What waits is queued, and waits once. -/
structure LFGQueue.Listed (q : LFGQueue) : Prop where
  sized : q.Sized
  current : q.currentQueueStore.Nodup
  newToQueue : q.newToQueueStore.Nodup
  disjoint : ∀ g ∈ q.currentQueueStore, g ∉ q.newToQueueStore
  currentQueued : ∀ g ∈ q.currentQueueStore, q.isQueued g = true
  newQueued : ∀ g ∈ q.newToQueueStore, q.isQueued g = true

/-- Of every fully compatible set of the current queue that `P` holds of, an entry is to be
matched again. -/
def LFGQueue.CoveredIf (rules : LfgRules) (P : Finset ObjectGuid → Prop) (q : LFGQueue) : Prop :=
  ∀ s, (∀ g ∈ s, g ∈ q.currentQueueStore) → P s → FullyCompatible rules q s →
    ∃ g ∈ s, g ∈ q.rematchStore

abbrev LFGQueue.Covered (rules : LfgRules) (q : LFGQueue) : Prop :=
  q.CoveredIf rules fun _ => True

/-- What holds between the operations, as long as no search was stopped. -/
structure LfgWorld.Inv (rules : LfgRules) (w : LfgWorld) : Prop where
  listed : w.queue.Listed
  covered : w.stoppedSearches = [] → w.queue.Covered rules

theorem LFGQueue.CoveredIf.mono {P P' : Finset ObjectGuid → Prop} (h : q.CoveredIf rules P)
    (hP : ∀ s, (∀ g ∈ s, g ∈ q'.currentQueueStore) → P' s → P s)
    (hcurrent : ∀ g ∈ q'.currentQueueStore, g ∈ q.currentQueueStore)
    (hstore : ∀ g ∈ q'.currentQueueStore, q'.queueDataStore g = q.queueDataStore g)
    (hrematch : ∀ g ∈ q'.currentQueueStore, g ∈ q.rematchStore → g ∈ q'.rematchStore) :
    q'.CoveredIf rules P' := by
  intro s hs hp hfull
  have hfull' := (fullyCompatible_iff_of_agree fun g hg => hstore g (hs g hg)).mp hfull
  obtain ⟨g, hg, hmem⟩ := h s (fun g hg => hcurrent g (hs g hg)) (hP s hs hp) hfull'
  exact ⟨g, hg, hrematch g (hs g hg) hmem⟩

/-! ## Joining and leaving -/

theorem nodup_removeGuid_append {l : List ObjectGuid} (h : l.Nodup) :
    (removeGuid l guid ++ [guid]).Nodup := by
  apply List.nodup_append.mpr
  refine ⟨h.sublist (removeGuid_sublist ..), List.nodup_singleton guid, ?_⟩
  intro a ha b hb
  rw [List.mem_singleton] at hb
  rw [hb]
  exact (mem_removeGuid.mp ha).2

theorem nodup_cons_removeGuid {l : List ObjectGuid} (h : l.Nodup) :
    (guid :: removeGuid l guid).Nodup :=
  List.nodup_cons.mpr ⟨fun hin => (mem_removeGuid.mp hin).2 rfl, h.sublist (removeGuid_sublist ..)⟩

namespace LFGQueue

theorem isQueued_removeFromQueue (g : ObjectGuid) :
    (q.removeFromQueue guid).isQueued g = (g ≠ guid && q.isQueued g) := by
  show (Function.update q.queueDataStore guid none g).isSome = _
  rw [Function.update_apply]
  by_cases h : g = guid
  · simp [h]
  · simp [h, isQueued]

theorem Listed.addQueueData (h : q.Listed) {dungeons : Finset DungeonId} {roles : LfgRolesMap}
    (hpos : 0 < roles.size) (hsize : roles.size ≤ MAX_GROUP_SIZE) :
    (q.addQueueData guid dungeons roles).Listed := by
  have hqueued : ∀ g, g = guid ∨ q.isQueued g = true →
      (q.addQueueData guid dungeons roles).isQueued g = true := by
    intro g hg
    rw [isQueued_addQueueData, Bool.or_eq_true, decide_eq_true_iff]
    exact hg
  constructor
  · intro g hg
    rw [isQueued_addQueueData, Bool.or_eq_true, decide_eq_true_iff] at hg
    rw [rolesOf_addQueueData]
    split
    · exact ⟨hpos, hsize⟩
    · next hne => exact h.sized g (hg.resolve_left hne)
  · rw [currentQueueStore_addQueueData]
    exact h.current.sublist (removeGuid_sublist ..)
  · rw [newToQueueStore_addQueueData]
    exact nodup_removeGuid_append h.newToQueue
  · intro g hg hnew
    rw [currentQueueStore_addQueueData, mem_removeGuid] at hg
    rw [newToQueueStore_addQueueData, List.mem_append, mem_removeGuid, List.mem_singleton] at hnew
    obtain ⟨hnew, _⟩ | hnew := hnew
    · exact h.disjoint g hg.1 hnew
    · exact hg.2 hnew
  · intro g hg
    rw [currentQueueStore_addQueueData, mem_removeGuid] at hg
    exact hqueued g (.inr (h.currentQueued g hg.1))
  · intro g hg
    rw [newToQueueStore_addQueueData, List.mem_append, mem_removeGuid, List.mem_singleton] at hg
    obtain ⟨hg, _⟩ | hg := hg
    · exact hqueued g (.inr (h.newQueued g hg))
    · exact hqueued g (.inl hg)

theorem Covered.addQueueData (h : q.Covered rules) {dungeons : Finset DungeonId}
    {roles : LfgRolesMap} : (q.addQueueData guid dungeons roles).Covered rules := by
  apply h.mono (fun _ _ _ => trivial)
  · intro g hg
    rw [currentQueueStore_addQueueData, mem_removeGuid] at hg
    exact hg.1
  · intro g hg
    rw [currentQueueStore_addQueueData, mem_removeGuid] at hg
    rw [queueDataStore_addQueueData, Function.update_of_ne hg.2]
  · grind [mem_removeGuid, rematchStore_addQueueData, currentQueueStore_addQueueData]

theorem Listed.removeFromQueue (h : q.Listed) : (q.removeFromQueue guid).Listed := by
  have hqueued : ∀ g, q.isQueued g = true → g ≠ guid →
      (q.removeFromQueue guid).isQueued g = true := by
    intro g hg hne
    rw [isQueued_removeFromQueue, hg, Bool.and_true, decide_eq_true_iff]
    exact hne
  constructor
  · intro g hg
    rw [isQueued_removeFromQueue, Bool.and_eq_true, decide_eq_true_iff] at hg
    have hstore : (q.removeFromQueue guid).queueDataStore g = q.queueDataStore g :=
      Function.update_of_ne hg.1 ..
    rw [rolesOf, hstore]
    exact h.sized g hg.2
  · exact h.current.sublist (removeGuid_sublist ..)
  · exact h.newToQueue.sublist (removeGuid_sublist ..)
  · intro g hg hnew
    exact h.disjoint g (mem_removeGuid.mp hg).1 (mem_removeGuid.mp hnew).1
  · intro g hg
    exact hqueued g (h.currentQueued g (mem_removeGuid.mp hg).1) (mem_removeGuid.mp hg).2
  · intro g hg
    exact hqueued g (h.newQueued g (mem_removeGuid.mp hg).1) (mem_removeGuid.mp hg).2

theorem Covered.removeFromQueue (h : q.Covered rules) :
    (q.removeFromQueue guid).Covered rules := by
  apply h.mono (fun _ _ _ => trivial)
  · exact fun g hg => (mem_removeGuid.mp hg).1
  · exact fun g hg => Function.update_of_ne (mem_removeGuid.mp hg).2 ..
  · exact fun g hg hr => mem_removeGuid.mpr ⟨hr, (mem_removeGuid.mp hg).2⟩

theorem Listed.addToCurrentQueue (h : q.Listed) (hq : q.isQueued guid = true) :
    (q.addToCurrentQueue guid).Listed where
  sized := h.sized
  current := nodup_removeGuid_append h.current
  newToQueue := h.newToQueue.sublist (removeGuid_sublist ..)
  disjoint := by
    intro g hg hnew
    have hnew := mem_removeGuid.mp hnew
    obtain hg | hg := List.mem_append.mp hg
    · exact h.disjoint g (mem_removeGuid.mp hg).1 hnew.1
    · exact hnew.2 (List.mem_singleton.mp hg)
  currentQueued := by
    intro g hg
    obtain hg | hg := List.mem_append.mp hg
    · exact h.currentQueued g (mem_removeGuid.mp hg).1
    · rw [List.mem_singleton.mp hg]
      exact hq
  newQueued g hg := h.newQueued g (mem_removeGuid.mp hg).1

theorem Listed.addToQueue (h : q.Listed) (reAdd : Bool) : (q.addToQueue guid reAdd).Listed := by
  unfold LFGQueue.addToQueue
  split
  · exact h
  · next hsome =>
    have hq : q.isQueued guid = true := by
      rw [isQueued, Option.isSome_iff_ne_none]
      simpa using hsome
    split
    · refine ⟨h.sized, nodup_cons_removeGuid h.current,
        h.newToQueue.sublist (removeGuid_sublist ..), ?_, ?_, ?_⟩
      · intro g hg hnew
        have hnew := mem_removeGuid.mp hnew
        obtain hg | hg := List.mem_cons.mp hg
        · exact hnew.2 hg
        · exact h.disjoint g (mem_removeGuid.mp hg).1 hnew.1
      · intro g hg
        obtain rfl | hg := List.mem_cons.mp hg
        · exact hq
        · exact h.currentQueued g (mem_removeGuid.mp hg).1
      · exact fun g hg => h.newQueued g (mem_removeGuid.mp hg).1
    · refine ⟨h.sized, h.current.sublist (removeGuid_sublist ..),
        nodup_removeGuid_append h.newToQueue, ?_, ?_, ?_⟩
      · intro g hg hnew
        have hg := mem_removeGuid.mp hg
        obtain hnew | hnew := List.mem_append.mp hnew
        · exact h.disjoint g hg.1 (mem_removeGuid.mp hnew).1
        · exact hg.2 (List.mem_singleton.mp hnew)
      · exact fun g hg => h.currentQueued g (mem_removeGuid.mp hg).1
      · intro g hg
        obtain hg | hg := List.mem_append.mp hg
        · exact h.newQueued g (mem_removeGuid.mp hg).1
        · rw [List.mem_singleton.mp hg]
          exact hq

theorem Covered.addToQueue (h : q.Covered rules) (reAdd : Bool) :
    (q.addToQueue guid reAdd).Covered rules := by
  unfold LFGQueue.addToQueue
  split
  · exact h
  split
  · intro s hs _ hfull
    by_cases hg : guid ∈ s
    · exact ⟨guid, hg, List.mem_append.mpr (.inr (List.mem_singleton_self guid))⟩
    · have hold : ∀ g ∈ s, g ∈ q.currentQueueStore := by
        intro g hgs
        obtain rfl | hin := List.mem_cons.mp (hs g hgs)
        · exact absurd hgs hg
        · exact (mem_removeGuid.mp hin).1
      have hfull' : FullyCompatible rules q s :=
        (fullyCompatible_iff_of_agree fun _ _ => by rfl).mp hfull
      obtain ⟨g, hgs, hr⟩ := h s hold trivial hfull'
      refine ⟨g, hgs, List.mem_append.mpr (.inl (mem_removeGuid.mpr ⟨hr, ?_⟩))⟩
      rintro rfl
      exact hg hgs
  · apply h.mono (fun _ _ _ => trivial)
    · exact fun g hg => (mem_removeGuid.mp hg).1
    · exact fun _ _ => rfl
    · exact fun _ _ hr => hr

end LFGQueue

/-! ## One search -/

/-- What holds during `FindGroups`. The caches are right for the entries, none of which
changes. -/
structure LfgWorld.Pass (rules : LfgRules) (P : Finset ObjectGuid → Prop) (w : LfgWorld) :
    Prop where
  listed : w.queue.Listed
  covered : w.stoppedSearches = [] → w.queue.CoveredIf rules P
  right : w.queue.CacheRight rules
  queued : w.queue.CacheQueued

theorem Outcome.stopped {lists : List ObjectGuid → Prop} (h : Outcome env lists w c w') :
    w.stoppedSearches <+: w'.stoppedSearches := by
  by_cases hc : c = .matched
  · exact (h.isMatch hc).stopped
  · exact (h.quiet hc).stopped

theorem LFGQueue.Listed.keeps (h : q.Listed) (hk : q.Keeps q') : q'.Listed where
  sized := hk.sized h.sized
  current := h.current.sublist hk.current
  newToQueue := h.newToQueue.sublist hk.newToQueue
  disjoint g hg hnew := h.disjoint g (hk.current.subset hg) (hk.newToQueue.subset hnew)
  currentQueued g hg := by
    rw [hk.queued]
    exact h.currentQueued g (hk.current.subset hg)
  newQueued g hg := by
    rw [hk.queued]
    exact h.newQueued g (hk.newToQueue.subset hg)

theorem LFGQueue.CoveredIf.keeps {P P' : Finset ObjectGuid → Prop} (h : q.CoveredIf rules P)
    (hlisted : q.Listed) (hk : q.Keeps q') (hstore : q'.queueDataStore = q.queueDataStore)
    (hP : ∀ s, (∀ g ∈ s, g ∈ q'.currentQueueStore) → P' s → P s) : q'.CoveredIf rules P' := by
  apply h.mono hP
  · exact fun g hg => hk.current.subset hg
  · exact fun g _ => congrFun hstore g
  · exact fun g hg hr => hk.rematched g hr (hlisted.currentQueued g (hk.current.subset hg))

theorem FullyCompatible.nonempty (h : FullyCompatible rules q s) : s.Nonempty := by
  apply Finset.nonempty_iff_ne_empty.mpr
  rintro rfl
  have hzero := h.full
  rw [LFGQueue.playersIn, Finset.sum_empty] at hzero
  exact absurd hzero (by decide)

theorem FullyCompatible.matched (h : FullyCompatible rules q s) : Matched rules q s := by
  refine ⟨h.full, ?_⟩
  have hpos := Finset.card_pos.mpr h.nonempty
  obtain hone | hmany : s.card = 1 ∨ 1 < s.card := by omega
  · exact .inl ⟨hone, h.dungeon⟩
  · exact .inr ⟨hmany, h.toCompatible⟩

theorem Searched.none (h : Searched rules guid all w c w')
    (hstopped : w'.stoppedSearches = w.stoppedSearches) (hc : c ≠ .matched)
    (hs : ∀ g ∈ s, g = guid ∨ g ∈ all) (hguid : guid ∈ s) :
    ¬FullyCompatible rules w.queue s := by
  intro hfull
  apply hc
  rw [h.found hstopped]
  refine ⟨all.filter (· ∈ s), List.filter_sublist, ?_⟩
  have hset : (guid :: all.filter (· ∈ s)).toFinset = s := by
    ext g
    rw [List.toFinset_cons, Finset.mem_insert, List.mem_toFinset, List.mem_filter,
      decide_eq_true_iff]
    grind
  rw [hset]
  exact hfull.matched

/-- **A search during `FindGroups`**, for an entry beside the others of the current queue: it
is matched, or it is in no fully compatible set with them. -/
theorem findNewGroups_pass {P : Finset ObjectGuid → Prop} (hsteady : env.Steady)
    (h : w.Pass env.toLfgRules P) (hq : w.queue.isQueued guid = true)
    (hnodup : (guid :: all).Nodup) :
    wp Never (findNewGroups env [guid] all) w fun c w' =>
      Outcome env (Extends [guid] all) w c w' ∧ w'.Pass env.toLfgRules P ∧
      w'.queue.queueDataStore = w.queue.queueDataStore ∧
      (c = .matched → guid ∉ w'.queue.newToQueueStore ∧ guid ∉ w'.queue.currentQueueStore) ∧
      (c ≠ .matched → w'.stoppedSearches = [] → ∀ s, (∀ g ∈ s, g = guid ∨ g ∈ all) → guid ∈ s →
        ¬FullyCompatible env.toLfgRules w'.queue s) := by
  have houtcome : wp Never (findNewGroups env [guid] all) w (Outcome env (Extends [guid] all) w) :=
    findNewGroups_spec guid h.listed.sized h.queued
  have hsearched := findNewGroups_searched hsteady h.listed.sized h.right hnodup hq
  apply (houtcome.and hsearched).mono
  rintro c w' ⟨ho, hs⟩
  have hbefore : w'.stoppedSearches = [] → w.stoppedSearches = [] := by
    intro he
    exact List.prefix_nil.mp (he ▸ ho.stopped)
  refine ⟨ho, ⟨h.listed.keeps ho.keeps, ?_, hs.cache, ho.cache h.queued⟩, hs.store, ?_, ?_⟩
  · intro he
    exact (h.covered (hbefore he)).keeps h.listed ho.keeps hs.store fun _ _ hp => hp
  · intro hc
    obtain ⟨q, call, check, tally, roles, dungeons, ⟨e, _, rfl⟩, _, hp, hk, _⟩ :=
      (ho.isMatch hc).call
    obtain ⟨hnew, hcurrent⟩ : guid ∉ call.queue.newToQueueStore ∧
        guid ∉ call.queue.currentQueueStore := by
      rw [hp.queue]
      exact LFGQueue.notMem_unlist (by simp)
    exact ⟨fun hg => hnew (hk.newToQueue.subset hg), fun hg => hcurrent (hk.current.subset hg)⟩
  · intro hc he s hall hguid hfull
    have hsame : w'.stoppedSearches = w.stoppedSearches := he.trans (hbefore he).symm
    apply hs.none hsame hc hall hguid
    exact (fullyCompatible_iff_of_agree fun g _ => congrFun hs.store g).mp hfull

/-! ## `FindGroups` -/

theorem LfgWorld.Pass.of_forall {P P' : Finset ObjectGuid → Prop} (h : w.Pass rules P)
    (hP : w.stoppedSearches = [] → ∀ s, (∀ g ∈ s, g ∈ w.queue.currentQueueStore) →
      FullyCompatible rules w.queue s → P s) : w.Pass rules P' where
  listed := h.listed
  covered he s hs _ hfull := h.covered he s hs (hP he s hs hfull) hfull
  right := h.right
  queued := h.queued

theorem rematch_pass (hsteady : env.Steady) (n : UInt8) (h : w.Pass env.toLfgRules fun _ => True)
    (hnext : w.queue.rematchStore.head? = some guid) :
    wp Never (rematch env guid n) w fun _ w' => w'.Pass env.toLfgRules (fun _ => True) ∧
      w'.queue.rematchStore.length < w.queue.rematchStore.length := by
  obtain ⟨rest, hrest⟩ : ∃ rest, w.queue.rematchStore = guid :: rest :=
    List.head?_eq_some_iff.mp hnext
  have hpop : LfgWorld.Pass env.toLfgRules (guid ∉ ·)
      { w with queue := { w.queue with rematchStore := w.queue.rematchStore.tail } } := {
    listed := ⟨h.listed.sized, h.listed.current, h.listed.newToQueue, h.listed.disjoint,
      h.listed.currentQueued, h.listed.newQueued⟩
    covered := fun he s hs hguid hfull => by
      have hfull' : FullyCompatible env.toLfgRules w.queue s :=
        (fullyCompatible_iff_of_agree fun _ _ => by rfl).mp hfull
      obtain ⟨g, hg, hr⟩ := h.covered he s hs trivial hfull'
      grind
    right := h.right.of_results rfl fun _ _ hc => hc
    queued := h.queued }
  have hshort : w.queue.rematchStore.tail.length < w.queue.rematchStore.length := by
    rw [hrest]
    exact Nat.lt_succ_self _
  unfold rematch
  rw [wp_bind, wp_onQueue, wp_bind, wp_get]
  split
  · next hin =>
    rw [wp_bind]
    have hsearch := findNewGroups_pass hsteady hpop (h.listed.currentQueued guid hin)
      (nodup_cons_removeGuid h.listed.current)
    apply hsearch.mono
    rintro c w' ⟨ho, hpass, _, hmatched, hnone⟩
    rw [wp_pure]
    refine ⟨hpass.of_forall fun he s hs hfull => ?_, ?_⟩
    · intro hguid
      by_cases hc : c = .matched
      · exact (hmatched hc).2 (hs guid hguid)
      · refine hnone hc he s (fun g hg => ?_) hguid hfull
        by_cases heq : g = guid
        · exact .inl heq
        · exact .inr (mem_removeGuid.mpr ⟨ho.keeps.current.subset (hs g hg), heq⟩)
    · exact Nat.lt_of_le_of_lt ho.keeps.rematch.length_le hshort
  · next hout =>
    rw [wp_pure]
    exact ⟨hpop.of_forall fun _ s hs _ hguid => hout (hs guid hguid), hshort⟩

theorem matchNew_pass (hsteady : env.Steady) (n : UInt8) (h : w.Pass env.toLfgRules fun _ => True)
    (hempty : w.queue.rematchStore = []) (hnext : w.queue.newToQueueStore.head? = some guid) :
    wp Never (matchNew env guid n) w fun _ w' =>
      (w'.Pass env.toLfgRules (fun _ => True) ∧ w'.queue.rematchStore = []) ∧
      w'.queue.newToQueueStore.length < w.queue.newToQueueStore.length := by
  have hmem : guid ∈ w.queue.newToQueueStore := List.mem_of_head? hnext
  have hkeep : w.queue.Keeps (w.queue.removeFromNewQueue guid) :=
    { LFGQueue.Keeps.refl w.queue with newToQueue := removeGuid_sublist .. }
  have hpop : LfgWorld.Pass env.toLfgRules (fun _ => True)
      { w with queue := w.queue.removeFromNewQueue guid } := {
    listed := h.listed.keeps hkeep
    covered := fun he => (h.covered he).keeps h.listed hkeep rfl fun _ _ hp => hp
    right := h.right.of_results rfl fun _ _ hc => hc
    queued := h.queued }
  have hshort := length_removeGuid_lt hmem
  have hnodup : (guid :: w.queue.currentQueueStore).Nodup :=
    List.nodup_cons.mpr ⟨fun hin => h.listed.disjoint guid hin hmem, h.listed.current⟩
  unfold matchNew
  rw [wp_bind, wp_onQueue, wp_bind, wp_get, wp_bind]
  have hsearch := findNewGroups_pass hsteady hpop (h.listed.newQueued guid hmem) hnodup
  apply hsearch.mono
  rintro c w' ⟨ho, hpass, _, _, hnone⟩
  have hempty' : w'.queue.rematchStore = [] := by
    have hsub : w'.queue.rematchStore.Sublist w.queue.rematchStore := ho.keeps.rematch
    rw [hempty] at hsub
    exact List.sublist_nil.mp hsub
  have hshort' : w'.queue.newToQueueStore.length < w.queue.newToQueueStore.length :=
    Nat.lt_of_le_of_lt ho.keeps.newToQueue.length_le hshort
  split
  · rw [wp_pure]
    exact ⟨⟨hpass, hempty'⟩, hshort'⟩
  · next hc =>
    rw [wp_bind, wp_onQueue, wp_pure]
    have hq : w'.queue.isQueued guid = true := by
      rw [ho.keeps.queued]
      exact h.listed.newQueued guid hmem
    refine ⟨⟨⟨hpass.listed.addToCurrentQueue hq, fun he s hs _ hfull => ?_,
      hpass.right.of_results rfl fun _ _ hc => hc, hpass.queued⟩, hempty'⟩,
      Nat.lt_of_le_of_lt (removeGuid_sublist ..).length_le hshort'⟩
    have hs' : ∀ g ∈ s, g = guid ∨ g ∈ w'.queue.currentQueueStore := by
      intro g hg
      obtain hg | hg := List.mem_append.mp (hs g hg)
      · exact .inr (mem_removeGuid.mp hg).1
      · exact .inl (List.mem_singleton.mp hg)
    have hfull' : FullyCompatible env.toLfgRules w'.queue s :=
      (fullyCompatible_iff_of_agree fun _ _ => by rfl).mp hfull
    by_cases hguid : guid ∈ s
    · refine absurd hfull' (hnone hc he s (fun g hg => ?_) hguid)
      exact (hs' g hg).imp id fun h => ho.keeps.current.subset h
    · refine hpass.covered he s (fun g hg => ?_) trivial hfull'
      obtain rfl | hg' := hs' g hg
      · exact absurd hg hguid
      · exact hg'

/-- **`FindGroups`** leaves nothing new, nothing to match again, and no match. -/
theorem findGroups_inv (hsteady : env.Steady) (h : w.Inv env.toLfgRules) :
    wp Never (findGroups env) w fun _ w' => w'.Inv env.toLfgRules ∧
      w'.queue.newToQueueStore = [] ∧ w'.queue.rematchStore = [] := by
  have hstart : LfgWorld.Pass env.toLfgRules (fun _ => True)
      { w with queue := w.queue.clearCompatibles } := {
    listed := ⟨h.listed.sized, h.listed.current, h.listed.newToQueue, h.listed.disjoint,
      h.listed.currentQueued, h.listed.newQueued⟩
    covered := fun he s hs _ hfull => h.covered he s hs trivial
      ((fullyCompatible_iff_of_agree fun _ _ => by rfl).mp hfull)
    right := fun _ _ _ _ _ _ hc => by cases hc
    queued := fun _ _ hc => by cases hc }
  unfold findGroups
  rw [wp_bind, wp_onQueue, wp_bind, wp_get, wp_bind]
  have hrematch := wp_whileAcc (E := Never) .outOfFuel
    (fun w => w.queue.rematchStore.head?) (rematch env)
    (fun _ w' => w'.Pass env.toLfgRules fun _ => True) (fun w' => w'.queue.rematchStore.length)
    (fun w' h => by rw [List.eq_nil_of_length_eq_zero h]; rfl)
    (fun guid n w' h hnext => rematch_pass hsteady n h hnext)
  apply (hrematch _ 0 _ hstart (Nat.le_refl _)).mono
  rintro n w₁ ⟨h₁, hnone⟩
  rw [wp_bind, wp_get]
  have hnew := wp_whileAcc (E := Never) .outOfFuel
    (fun w => w.queue.newToQueueStore.head?) (matchNew env)
    (fun _ w' => w'.Pass env.toLfgRules (fun _ => True) ∧ w'.queue.rematchStore = [])
    (fun w' => w'.queue.newToQueueStore.length)
    (fun w' h => by rw [List.eq_nil_of_length_eq_zero h]; rfl)
    (fun guid n w' h hnext => matchNew_pass hsteady n h.1 h.2 hnext)
  apply (hnew _ n w₁ ⟨h₁, List.head?_eq_none_iff.mp hnone⟩ (Nat.le_refl _)).mono
  rintro _ w₂ ⟨⟨h₂, hempty⟩, hnone'⟩
  exact ⟨⟨h₂.listed, h₂.covered⟩, List.head?_eq_none_iff.mp hnone', hempty⟩

/-! ## Runs -/

theorem QueueOperation.run_inv (op : QueueOperation) (hop : op.Allowed rules) (h : w.Inv rules) :
    wp Never op.run w fun _ w' => w'.Inv rules := by
  cases op with
  | addQueueData guid dungeons roles =>
    rw [QueueOperation.run, wp_onQueue]
    exact ⟨h.listed.addQueueData hop.1 hop.2, fun he => (h.covered he).addQueueData⟩
  | addToQueue guid reAdd =>
    rw [QueueOperation.run, wp_onQueue]
    exact ⟨h.listed.addToQueue reAdd, fun he => (h.covered he).addToQueue reAdd⟩
  | removeFromQueue guid =>
    rw [QueueOperation.run, wp_onQueue]
    exact ⟨h.listed.removeFromQueue, fun he => (h.covered he).removeFromQueue⟩
  | findGroups env =>
    obtain ⟨rfl, hsteady⟩ := hop
    rw [QueueOperation.run, wp_bind]
    apply (findGroups_inv hsteady h).mono
    intro _ w' h'
    exact h'.1

theorem inv_start (rules : LfgRules) : LfgWorld.start.Inv rules where
  listed := {
    sized := fun _ hg => by cases hg
    current := List.nodup_nil
    newToQueue := List.nodup_nil
    disjoint := fun _ hg => by cases hg
    currentQueued := fun _ hg => by cases hg
    newQueued := fun _ hg => by cases hg }
  covered := by
    intro _ s hs _ hfull
    obtain ⟨g, hg⟩ := hfull.nonempty
    exact absurd (hs g hg) List.not_mem_nil

theorem run_inv (operations : List QueueOperation)
    (hops : ∀ op ∈ operations, op.Allowed rules) (h : w.Inv rules) :
    wp Never (forEach operations QueueOperation.run) w fun _ w' => w'.Inv rules :=
  wp_forEach_inv (LfgWorld.Inv rules) operations (fun op hop _ h => op.run_inv (hops op hop) h) w h

/-- **No match is left behind.** After any run that ends with `FindGroups`, when no search was
ever stopped, nothing is new, nothing is to be matched again, and no entries of the current
queue are fully compatible. -/
theorem run_nothingLeft (operations : List QueueOperation)
    (hops : ∀ op ∈ operations, op.Allowed env.toLfgRules) (hsteady : env.Steady) :
    wp Never (forEach operations QueueOperation.run >>= fun _ => findGroups env) .start
      fun _ w => w.stoppedSearches = [] →
        w.queue.newToQueueStore = [] ∧ w.queue.rematchStore = [] ∧
        ∀ s ⊆ w.queue.currentQueueStore.toFinset, ¬FullyCompatible env.toLfgRules w.queue s := by
  rw [wp_bind]
  apply (run_inv operations hops (inv_start _)).mono
  intro _ w h
  apply (findGroups_inv hsteady h).mono
  rintro _ w' ⟨h', hnew, hempty⟩ he
  refine ⟨hnew, hempty, fun s hs hfull => ?_⟩
  obtain ⟨g, _, hg⟩ := h'.covered he s (fun g hg => List.mem_toFinset.mp (hs hg)) trivial hfull
  rw [hempty] at hg
  exact absurd hg List.not_mem_nil

/-- The two parties join, and are matched. -/
theorem twoParties_nothingLeft :
    wp Never (forEach [.addQueueData 1 {30, 31} partyOfThree, .addQueueData 2 {31} partyOfTwo]
      QueueOperation.run >>= fun _ => findGroups openEnv) .start
      fun _ w => w.stoppedSearches = [] →
        w.queue.newToQueueStore = [] ∧ w.queue.rematchStore = [] ∧
        ∀ s ⊆ w.queue.currentQueueStore.toFinset,
          ¬FullyCompatible openEnv.toLfgRules w.queue s := by
  apply run_nothingLeft _ _ openEnv_steady
  intro op hop
  simp only [List.mem_cons, List.not_mem_nil, or_false] at hop
  obtain rfl | rfl := hop
  · exact ⟨by decide +kernel, by decide +kernel⟩
  · exact ⟨by decide +kernel, by decide +kernel⟩

end EGServer.DungeonFinding
