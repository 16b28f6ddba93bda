import EGServer.DungeonFinding.SearchSpec
import Mathlib.Data.Finset.Max

/-!
# Every proposal is a legal group

The search for a list proposes the list or one of its extensions, and `FindGroups` proposes
what its searches found. An entry that goes to the current queue was not matched, and a
matched one is on no list; so at the end no entry of a proposal waits in the queue.
-/

namespace EGServer.DungeonFinding

open StateExcept

variable {env : LfgEnv} {check all : List ObjectGuid} {w w' : LfgWorld} {c : LfgCompatibility}

/-! ## The search for a list -/

@[simp] theorem players_addRoles (coverage : LfgRoleCoverage) (roles : LfgRolesMap) :
    (coverage.addRoles roles).players = coverage.players + roles.size := by
  have hfold : ∀ (l : List (ObjectGuid × UInt8)) (c : LfgRoleCoverage),
      (l.foldl (fun c player => c.addPlayer player.2) c).players = c.players + l.length := by
    intro l
    induction l with
    | nil => exact fun _ => rfl
    | cons p l ih =>
      intro c
      rw [List.foldl_cons, ih, List.length_cons]
      show c.players + 1 + l.length = _
      omega
  rw [LfgRoleCoverage.addRoles, hfold, Std.ExtTreeMap.length_toList]

/-- What a search may start from. -/
structure SearchPre (q : LFGQueue) (check : List ObjectGuid) (coverage : LfgRoleCoverage) :
    Prop where
  sized : q.Sized
  cache : q.CacheQueued
  nonempty : check ≠ []
  fits : 1 < check.length →
    (∀ g ∈ check, q.isQueued g = true) ∧ q.total check ≤ MAX_GROUP_SIZE
  coverage : (∀ g ∈ check, q.isQueued g = true) → coverage.players = q.total check

/-- The list, with some of the other entries after it. -/
def Extends (check all l : List ObjectGuid) : Prop :=
  ∃ extension, extension.Sublist all ∧ l = check ++ extension

theorem Extends.self : Extends check all check :=
  ⟨[], List.nil_sublist _, (List.append_nil _).symm⟩

theorem Extends.sublist {all' l : List ObjectGuid} (h : Extends check all l)
    (hsub : all.Sublist all') : Extends check all' l := by
  obtain ⟨extension, hl, he⟩ := h
  exact ⟨extension, hl.trans hsub, he⟩

theorem Extends.snoc {g : ObjectGuid} {l : List ObjectGuid} (h : Extends (check ++ [g]) all l) :
    Extends check (g :: all) l := by
  obtain ⟨extension, hl, rfl⟩ := h
  exact ⟨g :: extension, hl.cons_cons g, by simp⟩

/-- The type of the recursive call. -/
abbrev SearchCall :=
  List ObjectGuid → List ObjectGuid → Finset DungeonId → LfgRoleCoverage → Bool →
    LfgM LfgCompatibility

/-- The recursive call proposes extensions of its list, when it has fuel for the others. -/
def Searches (env : LfgEnv) (fuel : Nat) (self : SearchCall) : Prop :=
  ∀ check all dungeons coverage hasLfgGroup w, all.length < fuel →
    SearchPre w.queue check coverage →
    wp Never (self check all dungeons coverage hasLfgGroup) w (Outcome env (Extends check all) w)

/-- **The loop over the candidates** proposes an extension by one of them. -/
theorem tryCandidates_spec {fuel : Nat} {self : SearchCall} (hself : Searches env fuel self)
    {q : LFGQueue} {dungeons : Finset DungeonId} {coverage : LfgRoleCoverage} {hasLfgGroup : Bool}
    (hq : ∀ g ∈ check, q.isQueued g = true) (hcoverage : coverage.players = q.total check)
    (hne : check ≠ []) (hc : c ≠ .matched) :
    ∀ (gs : List ObjectGuid) (w : LfgWorld), gs.length ≤ fuel → q.Keeps w.queue →
      w.queue.Sized → w.queue.CacheQueued →
      (∀ g ∈ gs, isCandidate env q dungeons coverage hasLfgGroup g = true) →
      wp Never (tryCandidates env self check dungeons coverage hasLfgGroup c
        (gs.map (candidateOf q))) w (Outcome env (Extends check gs) w)
  | [], w => by
    intro _ _ _ _ _
    exact (Quiet.refl w).outcome hc
  | g :: gs, w => by
    intro hfuel hkeep hsized hcache hcandidates
    rw [List.map_cons, tryCandidates, wp_bind, wp_get]
    split
    · exact (Quiet.refl w).outcome hc
    split
    · exact (Quiet.refl w).outcome hc
    have hrest : ∀ w', Quiet w w' →
        wp Never (tryCandidates env self check dungeons coverage hasLfgGroup c
          (gs.map (candidateOf q))) w' (Outcome env (Extends check (g :: gs)) w) := by
      intro w' h'
      have hrec := tryCandidates_spec hself hq hcoverage hne hc gs w'
        (Nat.le_of_succ_le hfuel) (hkeep.trans h'.keeps) (h'.keeps.sized hsized) (h'.cache hcache)
        fun g' hg' => hcandidates g' (List.mem_cons_of_mem _ hg')
      apply hrec.mono
      intro c' w'' h''
      exact h'.andThen (h''.mono fun l hl => hl.sublist (List.sublist_cons_self ..))
    dsimp only
    split
    · exact hrest w (Quiet.refl w)
    · have hg := hcandidates g (List.mem_cons_self ..)
      simp only [isCandidate, decide_eq_true_eq, not_or] at hg
      obtain ⟨hgq, hsize, _⟩ := hg
      have hqueued : ∀ g' ∈ check ++ [g], w.queue.isQueued g' = true := by
        intro g' hg'
        rw [hkeep.queued]
        grind
      have htotal : w.queue.total (check ++ [g]) = coverage.players + (q.rolesOf g).size := by
        rw [hkeep.total, LFGQueue.total_append, hcoverage, LFGQueue.total_cons,
          LFGQueue.total_nil, Nat.add_zero]
      have hplayers : (candidateOf q g).coverage.players = (q.rolesOf g).size := by
        rw [candidateOf, players_addRoles]
        exact Nat.zero_add _
      have hpre : SearchPre w.queue (check ++ [g]) (coverage.add (candidateOf q g).coverage) := {
        sized := hsized
        cache := hcache
        nonempty := by simp
        fits := fun _ => ⟨hqueued, by rw [htotal]; exact Nat.not_lt.mp hsize⟩
        coverage := fun _ => by
          rw [htotal, ← hplayers]
          rfl }
      have hlength : ((gs.map (candidateOf q)).map (·.guid)).length < fuel := by
        rw [List.length_map, List.length_map]
        exact hfuel
      have hguids : (gs.map (candidateOf q)).map (·.guid) = gs := by
        rw [List.map_map]
        exact List.map_id _
      rw [wp_bind]
      apply (hself _ _ _ _ _ w hlength hpre).mono
      intro sub w' h'
      rw [hguids] at h'
      split
      · next hsub =>
        exact hsub ▸ h'.mono fun l hl => hl.snoc
      · next hsub => exact hrest w' (h'.quiet hsub)

/-- **The recursive search.** -/
theorem findNewGroupsFuel_spec (env : LfgEnv) : ∀ fuel, Searches env fuel (findNewGroupsFuel env fuel)
  | 0 => by
    intro _ _ _ _ _ _ h
    exact absurd h (Nat.not_lt_zero _)
  | fuel + 1 => by
    intro check all dungeons coverage hasLfgGroup w hfuel hpre
    have hfits : 2 < check.length →
        (∀ g ∈ check, w.queue.isQueued g = true) ∧ w.queue.total check ≤ MAX_GROUP_SIZE :=
      fun h => hpre.fits (by omega)
    rw [findNewGroupsFuel, wp_bind]
    apply (cachedOrChecked_spec hpre.sized hpre.cache hpre.nonempty hfits).mono
    intro c w₁ h₁
    split
    · exact h₁.toOutcome.mono fun l hl => hl ▸ .self
    · next hless =>
      have hc : c = .withLessPlayers := Decidable.not_not.mp hless
      have hne : c ≠ .matched := by rw [hc]; decide
      have hquiet := h₁.quiet hne
      rw [wp_bind, wp_get]
      split
      · exact hquiet.outcome hne
      · rw [wp_bind]
        apply (collectCandidates_spec dungeons coverage hasLfgGroup all w₁).mono
        rintro candidates w₂ ⟨hcandidates, hcollected⟩
        rw [hcandidates]
        have hqueued : ∀ g ∈ check, w₁.queue.isQueued g = true := by
          intro g hg
          rw [hquiet.keeps.queued]
          exact h₁.queued hc g hg
        have hcov : coverage.players = w₁.queue.total check := by
          rw [hquiet.keeps.total]
          exact hpre.coverage (h₁.queued hc)
        have hlength : (all.filter
            (isCandidate env w₁.queue dungeons coverage hasLfgGroup)).length ≤ fuel :=
          (List.length_filter_le ..).trans (Nat.lt_succ_iff.mp hfuel)
        have hsized₂ := (hquiet.trans hcollected.toQuiet).keeps.sized hpre.sized
        have htry := tryCandidates_spec (findNewGroupsFuel_spec env fuel) hqueued hcov hpre.nonempty hne
          (all.filter (isCandidate env w₁.queue dungeons coverage hasLfgGroup)) w₂ hlength
          hcollected.keeps hsized₂ (hcollected.cache (hquiet.cache hpre.cache))
          fun g hg => (List.mem_filter.mp hg).2
        apply htry.mono
        intro c' w₃ h₃
        exact hquiet.andThen (hcollected.toQuiet.andThen
          (h₃.mono fun l hl => hl.sublist List.filter_sublist))

theorem quiet_resetChecks (w : LfgWorld) (n : Nat) :
    Quiet w { w with queue := { w.queue with remainingChecks := n } } where
  keeps := { LFGQueue.Keeps.refl w.queue with }
  stopped := List.prefix_rfl
  cache h := h
  calls := rfl

theorem quiet_logStopped (w : LfgWorld) (check : List ObjectGuid) (c : LfgCompatibility) :
    wp Never (logStopped check c) w fun _ w' => Quiet w w' ∧ w'.queue = w.queue := by
  rw [logStopped, wp_modify]
  split
  · exact ⟨⟨.refl _, List.prefix_append .., fun h => h, rfl⟩, rfl⟩
  · exact ⟨.refl w, rfl⟩

theorem Outcome.andQuiet {lists : List ObjectGuid → Prop} {w'' : LfgWorld}
    (h : Outcome env lists w c w') (h' : Quiet w' w'') : Outcome env lists w c w'' where
  quiet hc := (h.quiet hc).trans h'
  isMatch hc := by
    have hm := h.isMatch hc
    obtain ⟨q, call, check, tally, roles, dungeons, hl, hk, hp, hk', hcalls⟩ := hm.call
    refine ⟨hm.keeps.trans h'.keeps, hm.stopped.trans h'.stopped, fun hq => h'.cache (hm.cache hq),
      q, call, check, tally, roles, dungeons, hl, hk, hp, hk'.trans h'.keeps, ?_⟩
    rw [h'.calls, hcalls]

/-- **The search for one entry.** -/
theorem findNewGroups_spec (guid : ObjectGuid) (hsized : w.queue.Sized)
    (hcache : w.queue.CacheQueued) :
    wp Never (findNewGroups env [guid] all) w (Outcome env (Extends [guid] all) w) := by
  have hreset := quiet_resetChecks w LFG_MATCH_CHECK_BUDGET
  have hpre : SearchPre w.queue [guid] (gatherCheck env w.queue [guid]).2.1 := {
    sized := hsized
    cache := hcache
    nonempty := by simp
    fits := fun h => absurd h (by simp)
    coverage := fun h => by
      have hq := h guid (List.mem_singleton_self _)
      simp [gatherCheck, hq] }
  unfold findNewGroups
  rw [wp_bind, wp_get, wp_bind, wp_onQueue, wp_bind]
  have hsearch := findNewGroupsFuel_spec env (all.length + 1) [guid] all
    (gatherCheck env w.queue [guid]).1 (gatherCheck env w.queue [guid]).2.1
    (gatherCheck env w.queue [guid]).2.2
    { w with queue := { w.queue with remainingChecks := LFG_MATCH_CHECK_BUDGET } }
    (Nat.lt_succ_self _) { hpre with }
  apply hsearch.mono
  intro c w₁ h₁
  rw [wp_bind]
  apply (quiet_logStopped w₁ [guid] c).mono
  rintro _ w₂ ⟨h₂, _⟩
  rw [wp_pure]
  exact hreset.andThen (h₁.andQuiet h₂)

/-! ## `FindGroups` -/

/-- A queue whose entries passed the checks made before they joined. -/
structure LFGQueue.Valid (q : LFGQueue) : Prop where
  disjoint : ∀ g g', q.isQueued g = true → q.isQueued g' = true → g ≠ g' →
    ∀ player ∈ q.rolesOf g, player ∉ q.rolesOf g'
  nonempty : ∀ g, q.isQueued g = true → 0 < (q.rolesOf g).size
  bounded : ∀ g, q.isQueued g = true → (q.rolesOf g).size < 256
  rolesPass : ∀ g, q.isQueued g = true → (checkGroupRoles (q.rolesOf g)).1 = true

theorem LFGQueue.Valid.sized {q : LFGQueue} (h : q.Valid) : q.Sized := by
  intro g hg
  exact ⟨h.nonempty g hg, size_le_of_checkGroupRoles _ (h.bounded g hg) (h.rolesPass g hg)⟩

/-- The entries of `q`, perhaps with fewer dungeons. -/
structure SameEntries (q q' : LFGQueue) : Prop where
  queued : ∀ g, q'.isQueued g = q.isQueued g
  roles : ∀ g, q'.rolesOf g = q.rolesOf g
  dungeons : ∀ g, q'.dungeonsOf g ⊆ q.dungeonsOf g

theorem LFGQueue.Keeps.sameEntries {q q' : LFGQueue} (h : q.Keeps q') : SameEntries q q' where
  queued := h.queued
  roles := h.roles
  dungeons := h.dungeons

theorem SameEntries.trans {q q' q'' : LFGQueue} (h : SameEntries q q') (h' : SameEntries q' q'') :
    SameEntries q q'' where
  queued g := (h'.queued g).trans (h.queued g)
  roles g := (h'.roles g).trans (h.roles g)
  dungeons g := (h'.dungeons g).trans (h.dungeons g)

theorem SameEntries.valid {q q' : LFGQueue} (h : SameEntries q q') (hv : q.Valid) : q'.Valid where
  disjoint g g' hg hg' hne := by
    rw [h.queued] at hg hg'
    rw [h.roles, h.roles]
    exact hv.disjoint g g' hg hg' hne
  nonempty g hg := by
    rw [h.queued] at hg
    rw [h.roles]
    exact hv.nonempty g hg
  bounded g hg := by
    rw [h.queued] at hg
    rw [h.roles]
    exact hv.bounded g hg
  rolesPass g hg := by
    rw [h.queued] at hg
    rw [h.roles]
    exact hv.rolesPass g hg

/-- A legal proposal, made of entries of `q`, none of which waits in `q'`. -/
structure LegalCall (env : LfgEnv) (q q' : LFGQueue) (call : AddProposalCall) : Prop where
  legal : call.proposal.Legal env.toLfgRules call.queue
  entries : SameEntries q call.queue
  unlisted : ∀ g ∈ call.proposal.queues, g ∉ q'.newToQueueStore ∧ g ∉ q'.currentQueueStore

/-- What `FindGroups` has done so far: all it proposed is legal and off the lists. -/
structure Progress (env : LfgEnv) (w w' : LfgWorld) : Prop where
  entries : SameEntries w.queue w'.queue
  cache : w'.queue.CacheQueued
  calls : ∃ calls, w'.addProposalCalls = w.addProposalCalls ++ calls ∧
    ∀ call ∈ calls, LegalCall env w.queue w'.queue call

theorem LegalCall.keeps {q q' q'' : LFGQueue} {call : AddProposalCall}
    (h : LegalCall env q q' call) (hk : q'.Keeps q'') : LegalCall env q q'' call where
  legal := h.legal
  entries := h.entries
  unlisted g hg :=
    ⟨fun hn => (h.unlisted g hg).1 (hk.newToQueue.subset hn),
      fun hn => (h.unlisted g hg).2 (hk.current.subset hn)⟩

theorem Progress.step {lists : List ObjectGuid → Prop} {w₁ w₂ : LfgWorld} (hv : w.queue.Valid)
    (h : Progress env w w₁) (ho : Outcome env lists w₁ c w₂) : Progress env w w₂ where
  entries := h.entries.trans ho.keeps.sameEntries
  cache := ho.cache h.cache
  calls := by
    obtain ⟨calls, hcalls, hlegal⟩ := h.calls
    have hold : ∀ call ∈ calls, LegalCall env w.queue w₂.queue call :=
      fun call hcall => (hlegal call hcall).keeps ho.keeps
    by_cases hc : c = .matched
    · obtain ⟨q, call, check, tally, roles, dungeons, _, hk, hp, hk', hadd⟩ :=
        (ho.isMatch hc).call
      have hsame := h.entries.trans hk.sameEntries
      have hvq := hsame.valid hv
      obtain ⟨hleg, hqueues⟩ := hp.legal hvq.sized hvq.rolesPass
      have hcallq : SameEntries w.queue call.queue := by
        rw [hp.queue]
        exact hsame.trans LFGQueue.keeps_unlist.sameEntries
      refine ⟨calls ++ [call], by rw [hadd, hcalls, List.append_assoc], ?_⟩
      intro call' hcall'
      rw [List.mem_append, List.mem_singleton] at hcall'
      obtain hcall' | rfl := hcall'
      · exact hold call' hcall'
      · have hnow : LegalCall env w.queue call'.queue call' := ⟨hleg, hcallq, hleg.unlisted⟩
        exact hnow.keeps hk'
    · refine ⟨calls, ?_, hold⟩
      rw [(ho.quiet hc).calls, hcalls]

theorem Progress.quiet {w₁ w₂ : LfgWorld} (hv : w.queue.Valid) (h : Progress env w w₁)
    (hq : Quiet w₁ w₂) : Progress env w w₂ := by
  have hnothing : Outcome env (fun _ => False) w₁ .pending w₂ := hq.outcome (by decide)
  exact h.step hv hnothing

theorem length_removeGuid_lt {l : List ObjectGuid} {guid : ObjectGuid} (h : guid ∈ l) :
    (removeGuid l guid).length < l.length := by
  unfold removeGuid
  rw [← List.countP_eq_length_filter]
  apply List.countP_lt_length_iff.mpr
  exact ⟨guid, h, by simp⟩

theorem rematch_spec (hv : w.queue.Valid) (guid : ObjectGuid) (n : UInt8)
    (h : Progress env w w') (hnext : w'.queue.rematchStore.head? = some guid) :
    wp Never (rematch env guid n) w' fun _ w₁ => Progress env w w₁ ∧
      w₁.queue.rematchStore.length < w'.queue.rematchStore.length := by
  have hshort : w'.queue.rematchStore.tail.length < w'.queue.rematchStore.length := by
    cases hs : w'.queue.rematchStore with
    | nil => rw [hs] at hnext; cases hnext
    | cons g l => simp
  have hprogress : Progress env w { w' with queue :=
      { w'.queue with rematchStore := w'.queue.rematchStore.tail } } := {
    entries := ⟨h.entries.queued, h.entries.roles, h.entries.dungeons⟩
    cache := h.cache
    calls := by
      obtain ⟨calls, hcalls, hlegal⟩ := h.calls
      exact ⟨calls, hcalls, fun call hcall =>
        ⟨(hlegal call hcall).legal, (hlegal call hcall).entries, (hlegal call hcall).unlisted⟩⟩ }
  unfold rematch
  rw [wp_bind, wp_onQueue, wp_bind, wp_get]
  split
  · rw [wp_bind]
    apply (findNewGroups_spec guid (hprogress.entries.valid hv).sized hprogress.cache).mono
    intro c w₁ h₁
    rw [wp_pure]
    refine ⟨hprogress.step hv h₁, Nat.lt_of_le_of_lt ?_ hshort⟩
    exact h₁.keeps.rematch.length_le
  · exact ⟨hprogress, hshort⟩

theorem matchNew_spec (hv : w.queue.Valid) (guid : ObjectGuid) (n : UInt8)
    (h : Progress env w w') (hnext : w'.queue.newToQueueStore.head? = some guid) :
    wp Never (matchNew env guid n) w' fun _ w₁ => Progress env w w₁ ∧
      w₁.queue.newToQueueStore.length < w'.queue.newToQueueStore.length := by
  have hmem : guid ∈ w'.queue.newToQueueStore := List.mem_of_head? hnext
  have hpop : Quiet w' { w' with queue := w'.queue.removeFromNewQueue guid } :=
    { keeps := { LFGQueue.Keeps.refl w'.queue with newToQueue := removeGuid_sublist .. }
      stopped := List.prefix_rfl
      cache := fun hq => hq
      calls := rfl }
  have hshort := length_removeGuid_lt hmem
  have hprogress := h.quiet hv hpop
  unfold matchNew
  rw [wp_bind, wp_onQueue, wp_bind, wp_get, wp_bind]
  apply (findNewGroups_spec guid (hprogress.entries.valid hv).sized hprogress.cache).mono
  intro c w₁ h₁
  have hshort₁ : w₁.queue.newToQueueStore.length < w'.queue.newToQueueStore.length :=
    Nat.lt_of_le_of_lt h₁.keeps.newToQueue.length_le hshort
  split
  · rw [wp_pure]
    exact ⟨hprogress.step hv h₁, hshort₁⟩
  · next hc =>
    rw [wp_bind, wp_onQueue, wp_pure]
    have hquiet := h₁.quiet hc
    have hprogress₁ := hprogress.quiet hv hquiet
    obtain ⟨calls, hcalls, hlegal⟩ := h.calls
    refine ⟨⟨⟨hprogress₁.entries.queued, hprogress₁.entries.roles, hprogress₁.entries.dungeons⟩,
      hprogress₁.cache, calls, ?_, ?_⟩, ?_⟩
    · show w₁.addProposalCalls = _
      rw [hquiet.calls, ← hcalls]
    · intro call hcall
      have hold := (hlegal call hcall).keeps (hpop.trans hquiet).keeps
      -- the entry waited as a new one, so it is in no proposal
      have hnot : ∀ g ∈ call.proposal.queues, g ≠ guid := by
        intro g hg he
        exact ((hlegal call hcall).unlisted g hg).1 (he ▸ hmem)
      refine ⟨hold.legal, hold.entries, fun g hg => ⟨?_, ?_⟩⟩
      · intro hin
        exact (hold.unlisted g hg).1 (mem_removeGuid.mp hin).1
      · intro hin
        have hin' : g ∈ removeGuid w₁.queue.currentQueueStore guid ++ [guid] := hin
        rw [List.mem_append, List.mem_singleton] at hin'
        obtain hin' | he := hin'
        · exact (hold.unlisted g hg).2 (mem_removeGuid.mp hin').1
        · exact hnot g hg he
    · exact Nat.lt_of_le_of_lt (removeGuid_sublist _ _).length_le hshort₁

/-- **Every proposal is a legal group.** `FindGroups` returns; each proposal it handed to
`AddProposal` was legal for the queue it found, with the entries that were queued at the
start, and none of its entries is left on a list. -/
theorem findGroups_legal (env : LfgEnv) (w : LfgWorld) (hv : w.queue.Valid) :
    wp Never (findGroups env) w fun _ w' =>
      ∃ calls, w'.addProposalCalls = w.addProposalCalls ++ calls ∧
        ∀ call ∈ calls, LegalCall env w.queue w'.queue call := by
  have hstart : Progress env w { w with queue := w.queue.clearCompatibles } :=
    { entries := ⟨fun _ => rfl, fun _ => rfl, fun _ => Finset.Subset.refl _⟩
      cache := fun _ _ h => by cases h
      calls := ⟨[], (List.append_nil _).symm, fun _ h => by cases h⟩ }
  unfold findGroups
  rw [wp_bind, wp_onQueue, wp_bind, wp_get, wp_bind]
  have hrematch := wp_whileAcc (E := Never) .outOfFuel
    (fun w => w.queue.rematchStore.head?) (rematch env)
    (fun _ w' => Progress env w w') (fun w' => w'.queue.rematchStore.length)
    (fun w' h => by rw [List.eq_nil_of_length_eq_zero h]; rfl)
    (fun guid n w' h hnext => rematch_spec hv guid n h hnext)
  apply (hrematch _ 0 _ hstart (Nat.le_refl _)).mono
  rintro n w₁ ⟨h₁, _⟩
  rw [wp_bind, wp_get]
  have hnew := wp_whileAcc (E := Never) .outOfFuel
    (fun w => w.queue.newToQueueStore.head?) (matchNew env)
    (fun _ w' => Progress env w w') (fun w' => w'.queue.newToQueueStore.length)
    (fun w' h => by rw [List.eq_nil_of_length_eq_zero h]; rfl)
    (fun guid n w' h hnext => matchNew_spec hv guid n h hnext)
  apply (hnew _ n w₁ h₁ (Nat.le_refl _)).mono
  rintro _ w₂ ⟨h₂, _⟩
  exact h₂.calls

/-! ## A party of three and a party of two -/

/-- Nobody is in an LFG group or ignores anybody, and no dungeon is locked. -/
def openEnv : LfgEnv where
  isLfgGroup _ := false
  hasIgnore _ _ := false
  hasIgnore_comm _ _ := rfl
  getOldState _ := .none
  allQueued _ := true
  getCompatibleDungeons dungeons _ _ := (dungeons, [])
  getCompatibleDungeons_subset _ _ _ := Finset.Subset.refl _
  gameTime := 0
  selectDungeon _ dungeons := if h : dungeons.Nonempty then dungeons.min' h else 0
  selectDungeon_mem _ dungeons h := by
    rw [dif_pos h]
    exact dungeons.min'_mem h
  urand _ _ := false

/-- The entries of `addQueueData` are valid when the role check passed and they are new. -/
theorem LFGQueue.Valid.addQueueData {q : LFGQueue} (h : q.Valid) {guid : ObjectGuid}
    {dungeons : Finset DungeonId} {roles : LfgRolesMap} (hpos : 0 < roles.size)
    (hsize : roles.size < 256) (hpass : (checkGroupRoles roles).1 = true)
    (hnew : ∀ g, q.isQueued g = true → g ≠ guid → ∀ player ∈ roles, player ∉ q.rolesOf g) :
    (q.addQueueData guid dungeons roles).Valid := by
  have hother : ∀ g, (q.addQueueData guid dungeons roles).isQueued g = true → g ≠ guid →
      q.isQueued g = true := by
    intro g hg hne
    rw [isQueued_addQueueData] at hg
    simpa [hne] using hg
  constructor
  · intro g g' hg hg' hne player hp hp'
    rw [rolesOf_addQueueData] at hp hp'
    split at hp
    · grind
    · next he =>
      split at hp'
      · exact hnew g (hother g hg he) he player hp' hp
      · next he' => exact h.disjoint g g' (hother g hg he) (hother g' hg' he') hne player hp hp'
  · intro g hg
    rw [rolesOf_addQueueData]
    split
    · exact hpos
    · next he => exact h.nonempty g (hother g hg he)
  · intro g hg
    rw [rolesOf_addQueueData]
    split
    · exact hsize
    · next he => exact h.bounded g (hother g hg he)
  · intro g hg
    rw [rolesOf_addQueueData]
    split
    · exact hpass
    · next he => exact h.rolesPass g (hother g hg he)

theorem LFGQueue.valid_empty : LFGQueue.empty.Valid := by
  constructor <;> intro g <;> intros <;> contradiction

def partyOfThree : LfgRolesMap := ((∅ : LfgRolesMap).insert 11 0x09).insert 12 0x0c |>.insert 13 0x08
def partyOfTwo : LfgRolesMap := ((∅ : LfgRolesMap).insert 21 0x03).insert 22 0x08

/-- The two parties have just joined. -/
def twoParties : LfgWorld where
  queue := (LFGQueue.empty.addQueueData 1 {30, 31} partyOfThree).addQueueData 2 {31} partyOfTwo
  lfgProposalId := 0
  addProposalCalls := []
  stoppedSearches := []

theorem twoParties_valid : twoParties.queue.Valid := by
  show ((LFGQueue.empty.addQueueData 1 {30, 31} partyOfThree).addQueueData 2 {31} partyOfTwo).Valid
  apply LFGQueue.Valid.addQueueData
  · apply LFGQueue.Valid.addQueueData LFGQueue.valid_empty
    · decide +kernel
    · decide +kernel
    · decide +kernel
    · intro g hg
      cases hg
  · decide +kernel
  · decide +kernel
  · decide +kernel
  · intro g _ _ player hp hp'
    rw [LFGQueue.rolesOf_addQueueData] at hp'
    split at hp'
    · have hkeys : partyOfTwo.keys.all (fun player => !partyOfThree.contains player) = true := by
        decide +kernel
      grind
    · exact absurd hp' (by simp [LFGQueue.rolesOf, LFGQueue.empty])

theorem twoParties_legal : wp Never (findGroups openEnv) twoParties fun _ w' =>
    ∃ calls, w'.addProposalCalls = twoParties.addProposalCalls ++ calls ∧
      ∀ call ∈ calls, LegalCall openEnv twoParties.queue w'.queue call :=
  findGroups_legal openEnv twoParties twoParties_valid

/-- Both parties are matched, for the one dungeon they share. -/
example : ((findGroups openEnv).run twoParties).toOption.map (fun r =>
    r.2.addProposalCalls.map fun call =>
      (call.proposal.queues, call.proposal.dungeonId, call.proposal.leader)) =
    some [([2, 1], 31, 11)] := by
  decide +kernel

example : ((findGroups openEnv).run twoParties).toOption.map (fun r =>
    r.2.addProposalCalls.map fun call =>
      call.proposal.players.toList.map fun player => (player.1, player.2.role)) =
    some [[(11, 0x09), (12, 0x04), (13, 0x08), (21, 0x03), (22, 0x08)]] := by
  decide +kernel

end EGServer.DungeonFinding
