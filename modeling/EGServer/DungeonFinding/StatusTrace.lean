import EGServer.DungeonFinding.StatusRun

/-!
# The operations of the queue as events

The status takes no part in the search, so the queue runs without it in `findGroups`. Here the
two are put together: every function of the search changes the queue by the events that a run
of the status is made of, and a list that needs more players is only ever recorded together
with the roles that the status counts.
-/

namespace EGServer.DungeonFinding

/-! ## The operations of the queue are sequences of events -/

/-- The queue becomes `q'` by events, whatever the status is. -/
def Traced (q q' : LFGQueue) : Prop :=
  ∀ b : StatusQueue, b.queue = q → ∃ b', StatusRun b b' ∧ b'.queue = q'

namespace Traced

variable {q q' q'' : LFGQueue}

theorem refl (q : LFGQueue) : Traced q q := fun b hb => ⟨b, Reaches.refl b, hb⟩

theorem trans (h : Traced q q') (h' : Traced q' q'') : Traced q q'' := by
  intro b hb
  obtain ⟨b₁, hrun, hb₁⟩ := h b hb
  obtain ⟨b₂, hrun', hb₂⟩ := h' b₁ hb₁
  exact ⟨b₂, Relation.ReflTransGen.trans hrun hrun', hb₂⟩

theorem event (event : StatusEvent) (hok : ∀ b : StatusQueue, b.queue = q → event.Allowed b)
    (hqueue : ∀ b : StatusQueue, b.queue = q → (event.run [] b).queue = q') : Traced q q' := by
  intro b hb
  exact ⟨_, StatusRun.step (Reaches.refl b) event [] (hok b hb), hqueue b hb⟩

theorem lists (current newToQueue rematch : List ObjectGuid) (checks : Nat) :
    Traced q { q with
      currentQueueStore := current
      newToQueueStore := newToQueue
      rematchStore := rematch
      remainingChecks := checks } :=
  event (.relist current newToQueue rematch checks) (fun _ _ => trivial) fun _ hb => hb ▸ rfl

theorem removeFromQueue (q : LFGQueue) (guid : ObjectGuid) : Traced q (q.removeFromQueue guid) :=
  event (.removeFromQueue guid) (fun _ _ => trivial) fun _ hb => hb ▸ rfl

theorem setCompatibles (q : LFGQueue) (check : List ObjectGuid) {c : LfgCompatibility}
    (hc : c ≠ .withLessPlayers) : Traced q (q.setCompatibles (concatenateGuids check) c) :=
  event (.setCompatibles check c) (fun _ _ => hc) fun _ hb => hb ▸ rfl

theorem unlist (q : LFGQueue) (queues : List ObjectGuid) : Traced q (q.unlist queues) := by
  induction queues generalizing q with
  | nil => exact refl q
  | cons guid rest ih => exact (lists _ _ _ _).trans (ih _)

theorem prune (tally : Tally) (isNew : Bool) (locks : LfgLockPartyMap) (q : LFGQueue) :
    Traced q (locks.foldl (pruneLocked tally isNew) q) := by
  induction locks generalizing q with
  | nil => exact refl q
  | cons lock rest ih =>
    have hstep : Traced q (pruneLocked tally isNew q lock) := by
      unfold pruneLocked
      dsimp only
      split
      · exact refl q
      · exact event (.pruneEntry (queueGuidOf tally lock.1) lock.1 lock.2) (fun _ _ => trivial)
          fun b hb => congrArg (pruneEntry · _ lock.1 lock.2) hb
    exact hstep.trans (ih _)

end Traced

section Search

open StateExcept

variable {α β : Type} {env : LfgEnv} {w : LfgWorld}

/-- The code changes the queue by events only. -/
def Traces (m : LfgM α) : Prop :=
  ∀ w, wp (fun _ => True) m w fun _ w' => Traced w.queue w'.queue

theorem Traces.pure (a : α) : Traces (pure a : LfgM α) := fun w => Traced.refl w.queue

theorem Traces.bind {m : LfgM α} {f : α → LfgM β} (hm : Traces m) (hf : ∀ a, Traces (f a)) :
    Traces (m >>= f) := by
  intro w
  rw [wp_bind]
  apply (hm w).mono
  intro a w₁ h₁
  exact (hf a w₁).mono fun _ _ h₂ => h₁.trans h₂

theorem Traces.get {f : LfgWorld → LfgM β}
    (hf : ∀ w, wp (fun _ => True) (f w) w fun _ w' => Traced w.queue w'.queue) :
    Traces (get >>= f) := by
  intro w
  rw [wp_bind, wp_get]
  exact hf w

theorem Traces.onQueue {f : LFGQueue → LFGQueue} (hf : ∀ q, Traced q (f q)) :
    Traces (onQueue f) := fun w => hf w.queue

theorem traces_record (check : List ObjectGuid) {c : LfgCompatibility}
    (hc : c ≠ .withLessPlayers) : Traces (record check c) :=
  fun w => Traced.setCompatibles w.queue check hc

theorem traces_propose (check : List ObjectGuid) (tally : Tally) (roles : LfgRolesMap)
    (dungeons : Finset DungeonId) : Traces (propose env check tally roles dungeons) := by
  unfold propose
  dsimp only
  split
  · exact traces_record check (by decide)
  split
  · exact (Traces.onQueue (Traced.prune tally _ _)).bind fun _ => traces_record check (by decide)
  · apply Traces.get
    intro w
    have hmark : Traces (onQueue fun q => q.unlist check) :=
      Traces.onQueue fun q => Traced.unlist q check
    apply hmark.bind
    intro _
    have hadd : ∀ proposal, Traces (addProposal proposal) := fun _ w => Traced.refl w.queue
    exact (hadd _).bind fun _ => traces_record check (by decide)

theorem traces_checkEntries (check : List ObjectGuid) : Traces (checkEntries env check) := by
  apply Traces.get
  intro w
  cases hexamine : examine env w.queue check with
  | notQueued guid =>
    exact (Traces.onQueue fun q => Traced.removeFromQueue q guid).bind (fun _ => Traces.pure _) w
  | verdict c =>
    by_cases hc : c = .withLessPlayers
    · subst hc
      -- the result that needs more players comes with roles, which the status is counted from
      apply Traced.event (.lessPlayers env check)
      · intro b hb
        rw [StatusEvent.Allowed, hb]
        exact hexamine
      · exact fun b hb => congrArg (LFGQueue.setCompatibles · _ _) hb
    · exact traces_record check hc w
  | full tally roles dungeons => exact traces_propose check tally roles dungeons w

theorem traces_checkCompatibility : ∀ check, Traces (checkCompatibility env check)
  | [] => (Traces.onQueue fun _ => Traced.lists _ _ _ _).bind fun _ => Traces.pure _
  | front :: rest => by
    rw [checkCompatibility]
    apply (Traces.onQueue fun _ => Traced.lists _ _ _ _).bind
    intro _
    split
    · exact Traces.pure _
    split
    · apply (traces_checkCompatibility rest).bind
      intro child
      split
      · next hincompatible =>
        apply traces_record
        rintro rfl
        cases hincompatible
      · exact traces_checkEntries _
    · exact traces_checkEntries _

theorem traces_cachedOrChecked (check : List ObjectGuid) :
    Traces (cachedOrChecked env check) := by
  apply Traces.get
  intro w
  dsimp only
  split
  · exact traces_checkCompatibility check w
  · exact Traces.pure _ w

theorem traces_collectCandidates (dungeons : Finset DungeonId) (coverage : LfgRoleCoverage)
    (hasLfgGroup : Bool) (all : List ObjectGuid) :
    Traces (collectCandidates env dungeons coverage hasLfgGroup all) := by
  induction all with
  | nil => exact Traces.pure _
  | cons guid rest ih =>
    apply Traces.get
    intro w
    split
    · exact (Traces.onQueue fun q => Traced.removeFromQueue q guid).bind (fun _ => ih) w
    · split
      · exact ih w
      · exact ih.bind (fun _ => Traces.pure _) w

theorem traces_tryCandidates
    {self : List ObjectGuid → List ObjectGuid → Finset DungeonId → LfgRoleCoverage → Bool →
      LfgM LfgCompatibility}
    (hself : ∀ check all dungeons coverage hasLfgGroup,
      Traces (self check all dungeons coverage hasLfgGroup))
    (check : List ObjectGuid) (dungeons : Finset DungeonId) (coverage : LfgRoleCoverage)
    (hasLfgGroup : Bool) (compatibles : LfgCompatibility) (candidates : List Candidate) :
    Traces (tryCandidates env self check dungeons coverage hasLfgGroup compatibles candidates) := by
  induction candidates with
  | nil => exact Traces.pure _
  | cons c rest ih =>
    apply Traces.get
    intro w
    split
    · exact Traces.pure _ w
    split
    · exact Traces.pure _ w
    dsimp only
    split
    · exact ih w
    · refine (hself _ _ _ _ _).bind (fun sub => ?_) w
      split
      · exact Traces.pure _
      · exact ih

theorem traces_findNewGroupsFuel (fuel : Nat) : ∀ check all dungeons coverage hasLfgGroup,
    Traces (findNewGroupsFuel env fuel check all dungeons coverage hasLfgGroup) := by
  induction fuel with
  | zero => exact fun _ _ _ _ _ _ => trivial
  | succ fuel ih =>
    intro check all dungeons coverage hasLfgGroup
    apply (traces_cachedOrChecked check).bind
    intro compatibles
    split
    · exact Traces.pure _
    · apply Traces.get
      intro w
      split
      · exact Traces.pure _ w
      · exact (traces_collectCandidates _ _ _ _).bind
          (fun candidates => traces_tryCandidates ih _ _ _ _ _ candidates) w

theorem traces_findNewGroups (check all : List ObjectGuid) :
    Traces (findNewGroups env check all) := by
  apply Traces.get
  intro w
  refine (Traces.onQueue fun _ => Traced.lists _ _ _ _).bind (fun _ => ?_) w
  apply (traces_findNewGroupsFuel _ _ _ _ _ _).bind
  intro compatibles
  have hlog : Traces (logStopped check compatibles) := by
    intro w
    show Traced w.queue (if _ then _ else w : LfgWorld).queue
    split
    · exact Traced.refl _
    · exact Traced.refl _
  exact hlog.bind fun _ => Traces.pure _

theorem traces_rematch (guid : ObjectGuid) (proposals : UInt8) :
    Traces (rematch env guid proposals) := by
  apply (Traces.onQueue fun _ => Traced.lists _ _ _ _).bind
  intro _
  apply Traces.get
  intro w
  split
  · exact (traces_findNewGroups _ _).bind (fun _ => Traces.pure _) w
  · exact Traces.pure _ w

theorem traces_matchNew (guid : ObjectGuid) (proposals : UInt8) :
    Traces (matchNew env guid proposals) := by
  apply (Traces.onQueue fun _ => Traced.lists _ _ _ _).bind
  intro _
  apply Traces.get
  intro w
  refine (traces_findNewGroups _ _).bind (fun compatibles => ?_) w
  split
  · exact Traces.pure _
  · exact (Traces.onQueue fun _ => Traced.lists _ _ _ _).bind fun _ => Traces.pure _

theorem traces_whileAcc (next : LfgWorld → Option ObjectGuid)
    {body : ObjectGuid → UInt8 → LfgM UInt8} (hbody : ∀ guid acc, Traces (body guid acc))
    (fuel : Nat) (acc : UInt8) : Traces (whileAcc .outOfFuel next body fuel acc) := by
  induction fuel generalizing acc with
  | zero =>
    apply Traces.get
    intro w
    split
    · exact trivial
    · exact Traces.pure _ w
  | succ fuel ih =>
    apply Traces.get
    intro w
    split
    · exact Traces.pure _ w
    · exact (hbody _ _).bind (fun acc => ih acc) w

/-- **`FindGroups` is a sequence of events.** -/
theorem traces_findGroups : Traces (findGroups env) := by
  have hclear : Traces (onQueue fun q => q.clearCompatibles) :=
    Traces.onQueue fun _ =>
      Traced.event .clearCompatibles (fun _ _ => trivial) fun _ hb => hb ▸ rfl
  apply hclear.bind
  intro _
  apply Traces.get
  intro w
  refine (traces_whileAcc _ traces_rematch _ _).bind (fun proposals => ?_) w
  apply Traces.get
  intro w
  exact traces_whileAcc _ traces_matchNew _ _ w

end Search

end EGServer.DungeonFinding
