import EGServer.DungeonFinding.LFGMgr

/-!
# A proposal that failed

`LFGMgr::RemoveProposal` ends a proposal that somebody declined or that nobody answered in
time. It goes over the players three times: it notes the answers that never came, it marks the
entries that leave the queue, and it tells every player which state he is in now. Then the
marked entries are removed from the queue and the others are added to its front again.

The passes look at a player under his own guid, under that of his group, and under that of the
entry he is part of. They agree on which entries leave: those whose group is gone, and those of
a player who did not accept.
-/

namespace EGServer.DungeonFinding

/-! ## `LFGMgr::RemoveProposal` -/

/-- The two reasons for which a proposal is removed. -/
inductive LfgUpdateType where
  | proposalFailed
  | proposalDeclined
  deriving DecidableEq

/-- A player of a proposal under his guid. -/
abbrev ProposalEntry := ObjectGuid × LfgProposalPlayer

/-- `gguid`: the entry of the queue that a player is part of. -/
def entryOf (it : ProposalEntry) : ObjectGuid :=
  if it.2.group.isEmpty then it.1 else it.2.group

/-- "Mark all people that didn't answered as no accept". -/
def markUnanswered (type : LfgUpdateType) (it : ProposalEntry) : ProposalEntry :=
  if type = .proposalFailed ∧ it.2.accept = .pending then (it.1, { it.2 with accept := .deny })
  else it

section Judge

variable (getGroupByGUID : ObjectGuid → Bool) (type : LfgUpdateType) (it : ProposalEntry)

/-- The player's group disbanded while the proposal was pending. -/
def isDisbanded : Bool := !it.2.group.isEmpty && !getGroupByGUID it.2.group

/-- The body of the loop that marks the entries to be removed: the guid it inserts into
`toRemove`, and what it leaves of the player. -/
def judge : Option ObjectGuid × ProposalEntry :=
  if isDisbanded getGroupByGUID it then (some it.2.group, it)
  else if it.2.accept = .agree then (none, it)
  else if it.2.accept = .deny ∨ type = .proposalFailed then
    (some (entryOf it), (it.1, { it.2 with accept := .deny }))
  else (none, it)

end Judge

/-- The players as the first two passes leave them. -/
def answered (getGroupByGUID : ObjectGuid → Bool) (type : LfgUpdateType) (p : LfgProposal) :
    List ProposalEntry :=
  p.players.toList.map fun it => (judge getGroupByGUID type (markUnanswered type it)).2

/-- `toRemove`, in the order of the `GuidSet`. -/
def toRemove (getGroupByGUID : ObjectGuid → Bool) (type : LfgUpdateType) (p : LfgProposal) :
    List ObjectGuid :=
  guidSet (p.players.toList.filterMap fun it =>
    (judge getGroupByGUID type (markUnanswered type it)).1)

/-- The body of the loop that notifies the players. -/
def LFGMgr.notify (removed : List ObjectGuid) (m : LFGMgr) (it : ProposalEntry) : LFGMgr :=
  let guid := it.1
  let gguid := entryOf it
  if gguid ∈ removed then
    let m := m.restoreState guid
    if gguid ≠ guid then m.restoreState it.2.group else m
  else
    let m := m.setState guid .queued
    if gguid ≠ guid then m.setState gguid .queued else m

/-- "Remove players/groups from queue". -/
def LFGQueue.removeAll (q : LFGQueue) (guids : List ObjectGuid) : LFGQueue :=
  guids.foldl LFGQueue.removeFromQueue q

/-- "Readd to queue". -/
def LFGQueue.readdAll (q : LFGQueue) (guids : List ObjectGuid) : LFGQueue :=
  guids.foldl (fun q guid => q.addToQueue guid true) q

/-- There is no result when the proposal does not exist, or has no player whose queue could be
asked for. -/
def LFGMgr.removeProposal (m : LFGMgr) (getGroupByGUID : ObjectGuid → Bool) (itProposal : Nat)
    (type : LfgUpdateType) : Option LFGMgr := do
  let proposal ← m.proposalsStore itProposal
  let removed := toRemove getGroupByGUID type proposal
  let players := answered getGroupByGUID type proposal
  let m := players.foldl (LFGMgr.notify removed) m
  let first ← players.head?
  let queueId := m.getQueueId first.1
  let queue := (m.queuesStore queueId).removeAll removed
  let queues := removed.foldl removeGuid proposal.queues
  let m := m.setQueue queueId (queue.readdAll queues)
  some { m with proposalsStore := Function.update m.proposalsStore itProposal none }

/-! ## The pass that notifies -/

namespace LFGMgr

variable (m : LFGMgr) (x : ObjectGuid)

/-- The pass sets the state of a guid when it is at one of these players. -/
def touches (it : ProposalEntry) (x : ObjectGuid) : Bool := x = it.1 || x = entryOf it

/-- What the notification of one player keeps. -/
structure Notified (m m' : LFGMgr) : Prop where
  oldState : ∀ x, m'.getOldState x = m.getOldState x
  team : ∀ x, m'.getTeam x = m.getTeam x
  queues : m'.queuesStore = m.queuesStore
  proposals : m'.proposalsStore = m.proposalsStore

theorem Notified.refl : Notified m m where
  oldState _ := rfl
  team _ := rfl
  queues := rfl
  proposals := rfl

variable {m} in
theorem Notified.trans {m' m'' : LFGMgr} (h : Notified m m') (h' : Notified m' m'') :
    Notified m m'' where
  oldState x := (h'.oldState x).trans (h.oldState x)
  team x := (h'.team x).trans (h.team x)
  queues := h'.queues.trans h.queues
  proposals := h'.proposals.trans h.proposals

variable (removed : List ObjectGuid) (it : ProposalEntry)

theorem entryOf_of_ne (h : entryOf it ≠ it.1) : entryOf it = it.2.group := by
  unfold entryOf at h ⊢
  split at h
  · exact absurd rfl h
  · next hg => rw [if_neg hg]

theorem notify_notified : Notified m (m.notify removed it) := by
  unfold notify
  dsimp only
  split <;> split <;> constructor <;> simp

theorem getState_notify :
    (m.notify removed it).getState x =
      if touches it x then
        if entryOf it ∈ removed then m.getOldState x else .queued
      else m.getState x := by
  unfold notify touches
  dsimp only
  by_cases hne : entryOf it = it.1
  · by_cases hmem : entryOf it ∈ removed
    · rw [if_pos hmem, if_neg (not_not.mpr hne), getState_restoreState, hne]
      simp [hne ▸ hmem]
    · rw [if_neg hmem, if_neg (not_not.mpr hne), getState_setState_queued, hne]
      simp [hne ▸ hmem]
  · by_cases hmem : entryOf it ∈ removed
    · rw [if_pos hmem, if_pos hne, ← entryOf_of_ne it hne, getState_restoreState,
        getState_restoreState, getOldState_restoreState]
      by_cases hx : x = entryOf it
      · simp [hx, hmem]
      · simp [hx, hmem]
    · rw [if_neg hmem, if_pos hne, getState_setState_queued, getState_setState_queued]
      by_cases hx : x = entryOf it
      · simp [hx, hmem]
      · simp [hx, hmem]

/-- **The pass over the players** leaves alone who is not in the proposal. All players that
touch a guid belong to one entry, which decides about its state. -/
theorem notify_fold (players : List ProposalEntry) (removed : List ObjectGuid) (m : LFGMgr) :
    Notified m (players.foldl (notify removed) m) ∧
    (∀ x, (∀ it ∈ players, touches it x = false) →
      (players.foldl (notify removed) m).getState x = m.getState x) ∧
    ∀ x e, (∀ it ∈ players, touches it x = true → entryOf it = e) →
      (∃ it ∈ players, touches it x = true) →
      (players.foldl (notify removed) m).getState x =
        if e ∈ removed then m.getOldState x else .queued := by
  induction players generalizing m with
  | nil => exact ⟨Notified.refl m, fun _ _ => rfl, fun _ _ _ h => by simp at h⟩
  | cons it rest ih =>
    obtain ⟨hkeep, hother, htouched⟩ := ih (m.notify removed it)
    have hstep := m.notify_notified removed it
    refine ⟨hstep.trans hkeep, fun x hx => ?_, fun x e he hx => ?_⟩
    · grind [getState_notify]
    · have herest : ∀ it' ∈ rest, touches it' x = true → entryOf it' = e :=
        fun it' h => he it' (List.mem_cons_of_mem _ h)
      rw [List.foldl_cons]
      by_cases hlater : ∃ it' ∈ rest, touches it' x = true
      · rw [htouched x e herest hlater, hstep.oldState]
      · -- nobody after `it` touches `x`, so `it` does
        have hnone : ∀ it' ∈ rest, touches it' x = false := by
          grind
        have hself : touches it x = true := by
          grind
        rw [hother x hnone, getState_notify, if_pos hself, he it (List.mem_cons_self ..) hself]

end LFGMgr

/-! ## The passes over the queue -/

theorem foldl_removeGuid (guids l : List ObjectGuid) :
    guids.foldl removeGuid l = l.filter fun g => g ∉ guids := by
  induction guids generalizing l with
  | nil => simp
  | cons guid rest ih =>
    rw [List.foldl_cons, ih, removeGuid, List.filter_filter]
    apply List.filter_congr
    intro g _
    simp [Bool.and_comm]

namespace LFGQueue

variable (q : LFGQueue) (guids : List ObjectGuid)

theorem queueDataStore_removeFromQueue (guid x : ObjectGuid) :
    (q.removeFromQueue guid).queueDataStore x =
      if x = guid then none else q.queueDataStore x := by
  show Function.update q.queueDataStore guid none x = _
  rw [Function.update_apply]

theorem queueDataStore_removeAll (x : ObjectGuid) :
    (q.removeAll guids).queueDataStore x =
      if x ∈ guids then none else q.queueDataStore x := by
  induction guids generalizing q with
  | nil => rfl
  | cons guid rest ih =>
    show ((q.removeFromQueue guid).removeAll rest).queueDataStore x = _
    rw [ih, queueDataStore_removeFromQueue]
    by_cases h : x ∈ rest
    · simp [h]
    · simp [h]

theorem lists_removeAll :
    (q.removeAll guids).currentQueueStore = guids.foldl removeGuid q.currentQueueStore ∧
    (q.removeAll guids).newToQueueStore = guids.foldl removeGuid q.newToQueueStore ∧
    (q.removeAll guids).rematchStore = guids.foldl removeGuid q.rematchStore := by
  induction guids generalizing q with
  | nil => exact ⟨rfl, rfl, rfl⟩
  | cons guid rest ih => exact ih (q.removeFromQueue guid)

variable {q guids}

/-- What adding entries to the front again makes of the queue. -/
structure Readded (q : LFGQueue) (guids : List ObjectGuid) (q' : LFGQueue) : Prop where
  data : q'.queueDataStore = q.queueDataStore
  current : q'.currentQueueStore = guids.reverse ++ guids.foldl removeGuid q.currentQueueStore
  newToQueue : q'.newToQueueStore = guids.foldl removeGuid q.newToQueueStore
  rematch : q'.rematchStore = guids.foldl removeGuid q.rematchStore ++ guids

theorem readdAll_readded (hnodup : guids.Nodup)
    (hdata : ∀ g ∈ guids, q.isQueued g = true) : Readded q guids (q.readdAll guids) := by
  induction guids generalizing q with
  | nil => exact ⟨rfl, rfl, rfl, (List.append_nil _).symm⟩
  | cons guid rest ih =>
    obtain ⟨hnotMem, hrest⟩ := List.nodup_cons.mp hnodup
    have hsome : (q.queueDataStore guid).isNone = false := by
      simpa [isQueued] using hdata guid (List.mem_cons_self ..)
    have hstep : q.addToQueue guid true =
        { q with
          newToQueueStore := removeGuid q.newToQueueStore guid
          currentQueueStore := guid :: removeGuid q.currentQueueStore guid
          rematchStore := removeGuid q.rematchStore guid ++ [guid] } := by
      simp [addToQueue, hsome, addToFrontCurrentQueue]
    have hlast := ih (q := q.addToQueue guid true) hrest fun g hg => by
      rw [hstep]
      exact hdata g (List.mem_cons_of_mem _ hg)
    rw [hstep] at hlast
    show Readded q (guid :: rest) ((q.addToQueue guid true).readdAll rest)
    rw [hstep]
    constructor
    · exact hlast.data
    · -- the entry is none of those added after it, so it stays where it is
      rw [hlast.current, foldl_removeGuid, List.filter_cons_of_pos (by simpa using hnotMem),
        List.foldl_cons, foldl_removeGuid]
      simp
    · exact hlast.newToQueue
    · rw [hlast.rematch, foldl_removeGuid, List.filter_append, List.foldl_cons, foldl_removeGuid]
      simp [hnotMem]

end LFGQueue

/-! ## The proposal -/

/-- A proposal as `CheckCompatibility` makes it: its players are those of its entries, each
under the guid of his group if he has one. -/
structure LfgProposal.WellFormed (p : LfgProposal) : Prop where
  nonempty : p.players.toList ≠ []
  nodup : p.queues.Nodup
  entry : ∀ it ∈ p.players.toList, entryOf it ∈ p.queues
  player : ∀ e ∈ p.queues, ∃ it ∈ p.players.toList, entryOf it = e
  guid : ∀ it ∈ p.players.toList, it.1.isGroup = false
  group : ∀ it ∈ p.players.toList, it.2.group.isEmpty = false → it.2.group.isGroup = true

/-- `proposal.players.begin()->first`. -/
def LfgProposal.first (p : LfgProposal) : ObjectGuid :=
  ((p.players.toList.head?).map Prod.fst).getD 0

/-- The entry's group no longer exists. -/
def groupGone (getGroupByGUID : ObjectGuid → Bool) (e : ObjectGuid) : Prop :=
  e.isGroup = true ∧ getGroupByGUID e = false

/-- The entry's group no longer exists, or one of its players ended with a denial. -/
def LfgProposal.Lost (getGroupByGUID : ObjectGuid → Bool) (type : LfgUpdateType)
    (p : LfgProposal) (e : ObjectGuid) : Prop :=
  groupGone getGroupByGUID e ∨
    ∃ it ∈ answered getGroupByGUID type p, entryOf it = e ∧ it.2.accept = .deny

/-- The entries that can be added again are in the queue of the proposal's first player. -/
def LFGMgr.Holds (m : LFGMgr) (getGroupByGUID : ObjectGuid → Bool) (p : LfgProposal) : Prop :=
  ∀ e ∈ p.queues, ¬groupGone getGroupByGUID e → (m.getQueue p.first).isQueued e = true

section Partition

variable {getGroupByGUID : ObjectGuid → Bool} {type : LfgUpdateType} {it : ProposalEntry}
  {p : LfgProposal} {e : ObjectGuid}

/-- The player after the first two passes. -/
abbrev answer (getGroupByGUID : ObjectGuid → Bool) (type : LfgUpdateType) (it : ProposalEntry) :
    ProposalEntry :=
  (judge getGroupByGUID type (markUnanswered type it)).2

@[simp] theorem markUnanswered_fst : (markUnanswered type it).1 = it.1 := by
  unfold markUnanswered
  split <;> rfl

@[simp] theorem markUnanswered_group : (markUnanswered type it).2.group = it.2.group := by
  unfold markUnanswered
  split <;> rfl

theorem isDisbanded_markUnanswered :
    isDisbanded getGroupByGUID (markUnanswered type it) = isDisbanded getGroupByGUID it := by
  simp [isDisbanded]

@[simp] theorem answer_fst : (answer getGroupByGUID type it).1 = it.1 := by
  unfold answer judge
  split
  · simp
  split
  · simp
  split <;> simp

@[simp] theorem answer_group : (answer getGroupByGUID type it).2.group = it.2.group := by
  unfold answer judge
  split
  · simp
  split
  · simp
  split <;> simp

@[simp] theorem entryOf_answer : entryOf (answer getGroupByGUID type it) = entryOf it := by
  simp [entryOf]

theorem touches_answer (x : ObjectGuid) :
    LFGMgr.touches (answer getGroupByGUID type it) x = LFGMgr.touches it x := by
  simp [LFGMgr.touches]

/-- **Who ends with a denial**: those who denied, and those who never answered a proposal that
ran out of time. -/
theorem answer_deny_iff :
    (answer getGroupByGUID type it).2.accept = .deny ↔
      it.2.accept = .deny ∨ (type = .proposalFailed ∧ it.2.accept = .pending) := by
  unfold answer judge markUnanswered
  cases type <;> cases haccept : it.2.accept <;> simp [haccept] <;> split <;> simp [haccept]

theorem judge_marks_iff :
    (judge getGroupByGUID type (markUnanswered type it)).1 = some e ↔
      entryOf it = e ∧ (isDisbanded getGroupByGUID it = true ∨
        (answer getGroupByGUID type it).2.accept = .deny) := by
  rw [answer_deny_iff]
  unfold judge
  rw [isDisbanded_markUnanswered]
  by_cases hgone : isDisbanded getGroupByGUID it = true
  · have hgroup : entryOf it = it.2.group := by
      have hempty : it.2.group.isEmpty = false := by simpa [isDisbanded] using (And.left <| by
        simpa [isDisbanded] using hgone)
      simp [entryOf, hempty]
    simp [hgone, hgroup]
  · unfold markUnanswered
    cases type <;> cases haccept : it.2.accept <;> simp [haccept, hgone, entryOf]

theorem mem_toRemove :
    e ∈ toRemove getGroupByGUID type p ↔
      ∃ it ∈ p.players.toList, entryOf it = e ∧ (isDisbanded getGroupByGUID it = true ∨
        (answer getGroupByGUID type it).2.accept = .deny) := by
  unfold toRemove
  rw [mem_guidSet, List.mem_filterMap]
  simp only [judge_marks_iff]

theorem mem_answered {it' : ProposalEntry} :
    it' ∈ answered getGroupByGUID type p ↔
      ∃ it ∈ p.players.toList, answer getGroupByGUID type it = it' :=
  List.mem_map

/-- **The passes agree**: what is marked is what is lost. -/
theorem mem_toRemove_iff (hwf : p.WellFormed) (he : e ∈ p.queues) :
    e ∈ toRemove getGroupByGUID type p ↔ p.Lost getGroupByGUID type e := by
  rw [mem_toRemove]
  constructor
  · intro h
    obtain ⟨it, hmem, hentry, hwhy⟩ := h
    cases hwhy with
    | inl hgone =>
      obtain ⟨hne, hgroup⟩ := Bool.and_eq_true_iff.mp hgone
      have hempty : it.2.group.isEmpty = false := by simpa using hne
      have heq : it.2.group = e := by
        rw [← hentry, entryOf, hempty]
        rfl
      left
      exact ⟨heq ▸ hwf.group it hmem hempty, by simpa [heq] using hgroup⟩
    | inr hdeny =>
      right
      exact ⟨_, mem_answered.mpr ⟨it, hmem, rfl⟩, by rw [entryOf_answer, hentry], hdeny⟩
  · intro h
    cases h with
    | inl hgone =>
      obtain ⟨it, hmem, hentry⟩ := hwf.player e he
      refine ⟨it, hmem, hentry, .inl ?_⟩
      -- a group is not a player, so the entry is the player's group
      cases hempty : it.2.group.isEmpty with
      | true =>
        have hself : it.1 = e := by
          rw [← hentry, entryOf, hempty]
          rfl
        have hguid := hwf.guid it hmem
        rw [hself, hgone.1] at hguid
        cases hguid
      | false =>
        have heq : it.2.group = e := by
          rw [← hentry, entryOf, hempty]
          rfl
        rw [heq] at hempty
        simp [isDisbanded, heq, hempty, hgone.2]
    | inr hdeny =>
      obtain ⟨it', hmem', hentry, haccept⟩ := hdeny
      obtain ⟨it, hmem, rfl⟩ := mem_answered.mp hmem'
      exact ⟨it, hmem, by rw [← hentry, entryOf_answer], .inr haccept⟩

end Partition

/-! ## What a failed proposal leaves -/

/-- The entry left the queue: it is in no list, and its players and its group are as they were
before they queued. -/
structure LeftQueue (m m' : LFGMgr) (q' : LFGQueue) (p : LfgProposal) (e : ObjectGuid) :
    Prop where
  data : q'.queueDataStore e = none
  current : e ∉ q'.currentQueueStore
  newToQueue : e ∉ q'.newToQueueStore
  rematch : e ∉ q'.rematchStore
  players : ∀ it ∈ p.players.toList, entryOf it = e →
    m'.getState it.1 = m.getOldState it.1 ∧ m'.getState it.1 ≠ .proposal
  group : m'.getState e = m.getOldState e ∧ m'.getState e ≠ .proposal

/-- The entry is back in the queue, and it is to be matched again. -/
structure BackInQueue (m' : LFGMgr) (q q' : LFGQueue) (p : LfgProposal) (e : ObjectGuid) :
    Prop where
  queued : q'.isQueued e = true
  data : q'.queueDataStore e = q.queueDataStore e
  current : q'.currentQueueStore.count e = 1
  newToQueue : e ∉ q'.newToQueueStore
  rematch : q'.rematchStore.count e = 1
  players : ∀ it ∈ p.players.toList, entryOf it = e → m'.getState it.1 = .queued
  group : m'.getState e = .queued

/-- The proposal is gone, and each of its entries is settled in the queue `queueId`. -/
structure Settled (getGroupByGUID : ObjectGuid → Bool) (type : LfgUpdateType) (m m' : LFGMgr)
    (id : Nat) (p : LfgProposal) (queueId : UInt8) : Prop where
  gone : m'.proposalsStore id = none
  proposals : ∀ other, other ≠ id → m'.proposalsStore other = m.proposalsStore other
  queues : ∀ other, other ≠ queueId → m'.queuesStore other = m.queuesStore other
  removed : ∀ e ∈ p.queues,
    (m'.queuesStore queueId).queueDataStore e = none ↔ p.Lost getGroupByGUID type e
  lost : ∀ e ∈ p.queues, p.Lost getGroupByGUID type e →
    LeftQueue m m' (m'.queuesStore queueId) p e
  kept : ∀ e ∈ p.queues, ¬p.Lost getGroupByGUID type e →
    BackInQueue m' (m.queuesStore queueId) (m'.queuesStore queueId) p e
  front : ∃ front rest, (m'.queuesStore queueId).currentQueueStore = front ++ rest ∧
    ∀ e, e ∈ front ↔ e ∈ p.queues ∧ ¬p.Lost getGroupByGUID type e

section Removal

variable {getGroupByGUID : ObjectGuid → Bool} {type : LfgUpdateType} {p : LfgProposal}
  {m : LFGMgr} {e : ObjectGuid}

/-- The entries that are added again, in the order of the proposal. -/
def readded (getGroupByGUID : ObjectGuid → Bool) (type : LfgUpdateType) (p : LfgProposal) :
    List ObjectGuid :=
  (toRemove getGroupByGUID type p).foldl removeGuid p.queues

theorem mem_readded (hwf : p.WellFormed) :
    e ∈ readded getGroupByGUID type p ↔ e ∈ p.queues ∧ ¬p.Lost getGroupByGUID type e := by
  rw [readded, foldl_removeGuid, List.mem_filter, decide_eq_true_eq]
  constructor
  · intro h
    exact ⟨h.1, mt (mem_toRemove_iff hwf h.1).mpr h.2⟩
  · intro h
    exact ⟨h.1, mt (mem_toRemove_iff hwf h.1).mp h.2⟩

theorem nodup_readded (hwf : p.WellFormed) : (readded getGroupByGUID type p).Nodup := by
  rw [readded, foldl_removeGuid]
  exact hwf.nodup.filter _

/-- The state after the players were notified. -/
def notified (getGroupByGUID : ObjectGuid → Bool) (type : LfgUpdateType) (p : LfgProposal)
    (m : LFGMgr) : LFGMgr :=
  (answered getGroupByGUID type p).foldl (LFGMgr.notify (toRemove getGroupByGUID type p)) m

theorem notified_spec : LFGMgr.Notified m (notified getGroupByGUID type p m) :=
  (LFGMgr.notify_fold _ _ m).1

theorem entryOf_eq_of_touches (hwf : p.WellFormed) {it it' : ProposalEntry}
    (hmem : it ∈ p.players.toList) (hmem' : it' ∈ p.players.toList) {x : ObjectGuid}
    (hx : x = it.1 ∨ x = entryOf it) (ht : LFGMgr.touches it' x = true) :
    entryOf it' = entryOf it := by
  have hself : ∀ it ∈ p.players.toList, (entryOf it).isGroup = false → entryOf it = it.1 := by
    intro it hmem hguid
    cases hempty : it.2.group.isEmpty with
    | true => simp [entryOf, hempty]
    | false =>
      have hgroup := hwf.group it hmem hempty
      rw [entryOf, hempty] at hguid
      exact absurd hguid (by simp [hgroup])
  have hsame : it'.1 = it.1 → entryOf it' = entryOf it := by
    grind
  have hx' : x = it'.1 ∨ x = entryOf it' := by simpa [LFGMgr.touches] using ht
  cases hx with
  | inl h =>
    cases hx' with
    | inl h' => exact hsame (h'.symm.trans h)
    | inr h' =>
      have heq : entryOf it' = it.1 := h'.symm.trans h
      have hfst := hself it' hmem' (heq ▸ hwf.guid it hmem)
      exact hsame (hfst.symm.trans heq)
  | inr h =>
    cases hx' with
    | inl h' =>
      have heq : entryOf it = it'.1 := h.symm.trans h'
      have hfst := hself it hmem (heq ▸ hwf.guid it' hmem')
      exact hsame (heq.symm.trans hfst)
    | inr h' => exact h'.symm.trans h

theorem getState_notified (hwf : p.WellFormed) {it : ProposalEntry}
    (hmem : it ∈ p.players.toList) {x : ObjectGuid} (hx : x = it.1 ∨ x = entryOf it) :
    (notified getGroupByGUID type p m).getState x =
      if entryOf it ∈ toRemove getGroupByGUID type p then m.getOldState x else .queued := by
  refine (LFGMgr.notify_fold (answered getGroupByGUID type p) _ m).2.2 x (entryOf it) ?_ ?_
  · intro it' hit' ht
    obtain ⟨it₀, hmem₀, rfl⟩ := mem_answered.mp hit'
    rw [touches_answer] at ht
    rw [entryOf_answer]
    exact entryOf_eq_of_touches hwf hmem hmem₀ hx ht
  · refine ⟨_, mem_answered.mpr ⟨it, hmem, rfl⟩, ?_⟩
    rw [touches_answer]
    simpa [LFGMgr.touches] using hx

theorem head?_answered (hwf : p.WellFormed) :
    ∃ it, (answered getGroupByGUID type p).head? = some it ∧ it.1 = p.first ∧
      p.first.isGroup = false := by
  cases hlist : p.players.toList with
  | nil => exact absurd hlist hwf.nonempty
  | cons it rest =>
    have hfirst : p.first = it.1 := by simp [LfgProposal.first, hlist]
    refine ⟨answer getGroupByGUID type it, by simp [answered, hlist], ?_, ?_⟩
    · rw [answer_fst, hfirst]
    · rw [hfirst]
      exact hwf.guid it (by simp [hlist])

theorem getQueueId_notified (hwf : p.WellFormed) :
    (notified getGroupByGUID type p m).getQueueId p.first = m.getQueueId p.first := by
  obtain ⟨it, _, _, hguid⟩ := @head?_answered getGroupByGUID type p hwf
  simp [LFGMgr.getQueueId, hguid, notified_spec.team]

theorem readded_queue (hwf : p.WellFormed) (hholds : m.Holds getGroupByGUID p) :
    let queue := (m.getQueue p.first).removeAll (toRemove getGroupByGUID type p)
    LFGQueue.Readded queue (readded getGroupByGUID type p)
      (queue.readdAll (readded getGroupByGUID type p)) := by
  apply LFGQueue.readdAll_readded (nodup_readded hwf)
  intro g hg
  obtain ⟨hqueues, hkept⟩ := (mem_readded hwf).mp hg
  have hmarked : g ∉ toRemove getGroupByGUID type p := mt (mem_toRemove_iff hwf hqueues).mp hkept
  have hqueued := hholds g hqueues fun hgone => hkept (.inl hgone)
  rw [LFGQueue.isQueued, LFGQueue.queueDataStore_removeAll, if_neg hmarked]
  exact hqueued

/-- What `RemoveProposal` does, pass by pass. -/
structure Passes (getGroupByGUID : ObjectGuid → Bool) (type : LfgUpdateType) (m m' : LFGMgr)
    (id : Nat) (p : LfgProposal) : Prop where
  gone : m'.proposalsStore id = none
  proposals : ∀ other, other ≠ id → m'.proposalsStore other = m.proposalsStore other
  queues : ∀ other, other ≠ m.getQueueId p.first → m'.queuesStore other = m.queuesStore other
  state : ∀ x, m'.getState x = (notified getGroupByGUID type p m).getState x
  queue : LFGQueue.Readded ((m.getQueue p.first).removeAll (toRemove getGroupByGUID type p))
    (readded getGroupByGUID type p) (m'.queuesStore (m.getQueueId p.first))

theorem removeProposal_passes (hwf : p.WellFormed) (hholds : m.Holds getGroupByGUID p) {id : Nat}
    (hp : m.proposalsStore id = some p) :
    ∃ m', m.removeProposal getGroupByGUID id type = some m' ∧
      Passes getGroupByGUID type m m' id p := by
  obtain ⟨it, hhead, hfirst, _⟩ := @head?_answered getGroupByGUID type p hwf
  have hid := @getQueueId_notified getGroupByGUID type p m hwf
  have hkeep := @notified_spec getGroupByGUID type p m
  unfold LFGMgr.removeProposal
  simp only [hp, hhead, Option.bind_eq_bind, Option.bind_some, hfirst]
  rw [← notified, hid, hkeep.queues]
  refine ⟨_, rfl, ?_, ?_, ?_, fun _ => rfl, ?_⟩
  · exact Function.update_self ..
  · intro other hother
    rw [← hkeep.proposals]
    exact Function.update_of_ne hother ..
  · intro other hother
    rw [← hkeep.queues]
    exact Function.update_of_ne hother ..
  · simp only [LFGMgr.setQueue, Function.update_self]
    exact readded_queue hwf hholds

variable {m' : LFGMgr} {id : Nat}

theorem Passes.leftQueue (h : Passes getGroupByGUID type m m' id p) (hwf : p.WellFormed)
    (he : e ∈ p.queues) (hlost : p.Lost getGroupByGUID type e) :
    LeftQueue m m' (m'.queuesStore (m.getQueueId p.first)) p e := by
  have hmarked : e ∈ toRemove getGroupByGUID type p := (mem_toRemove_iff hwf he).mpr hlost
  have hout : e ∉ readded getGroupByGUID type p := fun hin => ((mem_readded hwf).mp hin).2 hlost
  have hlists := LFGQueue.lists_removeAll (m.getQueue p.first) (toRemove getGroupByGUID type p)
  have hstate : ∀ it ∈ p.players.toList, entryOf it = e → ∀ x, x = it.1 ∨ x = entryOf it →
      m'.getState x = m.getOldState x ∧ m'.getState x ≠ .proposal := by
    intro it hmem hentry x hx
    have hold : m'.getState x = m.getOldState x := by
      rw [h.state, getState_notified hwf hmem hx, hentry, if_pos hmarked]
    refine ⟨hold, fun heq => ?_⟩
    have hlatched := m.getOldState_isLatched x
    rw [← hold, heq] at hlatched
    cases hlatched
  constructor
  · rw [h.queue.data, LFGQueue.queueDataStore_removeAll, if_pos hmarked]
  · rw [h.queue.current, hlists.1, foldl_removeGuid, foldl_removeGuid]
    simp [hout, hmarked]
  · rw [h.queue.newToQueue, hlists.2.1, foldl_removeGuid, foldl_removeGuid]
    simp [hmarked]
  · rw [h.queue.rematch, hlists.2.2, foldl_removeGuid, foldl_removeGuid]
    simp [hout, hmarked]
  · intro it hmem hentry
    exact hstate it hmem hentry it.1 (.inl rfl)
  · obtain ⟨it, hmem, hentry⟩ := hwf.player e he
    exact hstate it hmem hentry e (.inr hentry.symm)

theorem Passes.backInQueue (h : Passes getGroupByGUID type m m' id p) (hwf : p.WellFormed)
    (hholds : m.Holds getGroupByGUID p) (he : e ∈ p.queues)
    (hkept : ¬p.Lost getGroupByGUID type e) :
    BackInQueue m' (m.getQueue p.first) (m'.queuesStore (m.getQueueId p.first)) p e := by
  have hmarked : e ∉ toRemove getGroupByGUID type p := mt (mem_toRemove_iff hwf he).mp hkept
  have hin : e ∈ readded getGroupByGUID type p := (mem_readded hwf).mpr ⟨he, hkept⟩
  have hcount : (readded getGroupByGUID type p).count e = 1 :=
    List.count_eq_one_of_mem (nodup_readded hwf) hin
  have hdata : (m'.queuesStore (m.getQueueId p.first)).queueDataStore e =
      (m.getQueue p.first).queueDataStore e := by
    rw [h.queue.data, LFGQueue.queueDataStore_removeAll, if_neg hmarked]
  -- what was in a list before is not in it twice
  have hgone : ∀ l, ((readded getGroupByGUID type p).foldl removeGuid l).count e = 0 := by
    intro l
    rw [foldl_removeGuid]
    exact List.count_eq_zero_of_not_mem (by simp [hin])
  constructor
  · rw [LFGQueue.isQueued, hdata]
    exact hholds e he fun hgroup => hkept (.inl hgroup)
  · exact hdata
  · rw [h.queue.current, List.count_append, List.count_reverse, hcount, hgone]
  · rw [h.queue.newToQueue, ← List.count_eq_zero, hgone]
  · rw [h.queue.rematch, List.count_append, hcount, hgone]
  · intro it hmem hentry
    rw [h.state, getState_notified hwf hmem (.inl rfl), hentry, if_neg hmarked]
  · obtain ⟨it, hmem, hentry⟩ := hwf.player e he
    rw [h.state, getState_notified hwf hmem (.inr hentry.symm), hentry, if_neg hmarked]

end Removal

/-- **A failed proposal settles every participant**, whoever answered what and whichever groups
disbanded meanwhile. -/
theorem removeProposal_settles (getGroupByGUID : ObjectGuid → Bool) (type : LfgUpdateType)
    (m : LFGMgr) (id : Nat) (p : LfgProposal) (hp : m.proposalsStore id = some p)
    (hwf : p.WellFormed) (hholds : m.Holds getGroupByGUID p) :
    ∃ m', m.removeProposal getGroupByGUID id type = some m' ∧
      Settled getGroupByGUID type m m' id p (m.getQueueId p.first) := by
  obtain ⟨m', hrun, hpasses⟩ := @removeProposal_passes getGroupByGUID type p m hwf hholds id hp
  refine ⟨m', hrun, hpasses.gone, hpasses.proposals, hpasses.queues, ?_, ?_, ?_, ?_⟩
  · intro e he
    constructor
    · intro hnone
      by_contra hkept
      have hqueued := (hpasses.backInQueue hwf hholds he hkept).queued
      rw [LFGQueue.isQueued, hnone] at hqueued
      cases hqueued
    · intro hlost
      exact (hpasses.leftQueue hwf he hlost).data
  · intro e he hlost
    exact hpasses.leftQueue hwf he hlost
  · intro e he hkept
    exact hpasses.backInQueue hwf hholds he hkept
  · refine ⟨_, _, hpasses.queue.current, fun e => ?_⟩
    rw [List.mem_reverse]
    exact mem_readded hwf

/-- A party of two, and a group that disbands. -/
def partyGuid : ObjectGuid := 0x1F50000000000001
def disbandedGuid : ObjectGuid := 0x1F50000000000002

/-- Player 1 agreed, and so did one of the party; the other of the party declined. -/
def mixedProposal : LfgProposal where
  id := 1
  dungeonId := 5
  state := .initiating
  group := 0
  leader := 1
  cancelTime := 45
  isNew := true
  queues := [partyGuid, 1, disbandedGuid]
  players := ((((∅ : Std.ExtTreeMap ObjectGuid LfgProposalPlayer).insert 1
    { role := 2, accept := .agree, group := 0 }).insert 11
    { role := 4, accept := .agree, group := partyGuid }).insert 12
    { role := 8, accept := .deny, group := partyGuid }).insert 21
    { role := 8, group := disbandedGuid }

def mixedQueue : LFGQueue where
  queueDataStore guid := if guid ∈ mixedProposal.queues then some { dungeons := {5}, roles := ∅ }
    else none
  compatibleMapStore _ := none
  currentQueueStore := [77]
  newToQueueStore := [78]
  rematchStore := []
  remainingChecks := 0
  lockedOut _ _ := none

def mixedMgr : LFGMgr where
  playersStore _ := some { state := .proposal, latched := LfgState.none_isLatched }
  groupsStore _ := some { state := .proposal, latched := LfgState.none_isLatched }
  proposalsStore id := if id = 1 then some mixedProposal else none
  queuesStore _ := mixedQueue

theorem removeProposal_settles_mixed :
    ∃ m', mixedMgr.removeProposal (· = partyGuid) 1 .proposalDeclined = some m' ∧
      Settled (· = partyGuid) .proposalDeclined mixedMgr m' 1 mixedProposal 0 := by
  have hlist : mixedProposal.players.toList =
      [(1, { role := 2, accept := .agree, group := 0 }),
        (11, { role := 4, accept := .agree, group := partyGuid }),
        (12, { role := 8, accept := .deny, group := partyGuid }),
        (21, { role := 8, group := disbandedGuid })] := by decide +kernel
  have hplayers : mixedProposal.players.toList.all (fun it =>
      decide (entryOf it ∈ mixedProposal.queues) && !it.1.isGroup &&
        (it.2.group.isEmpty || it.2.group.isGroup)) = true := by
    rw [hlist]
    decide +kernel
  have hentries : mixedProposal.queues.all (fun e =>
      mixedProposal.players.toList.any fun it => decide (entryOf it = e)) = true := by
    rw [hlist]
    decide +kernel
  have hplayer : ∀ it ∈ mixedProposal.players.toList, entryOf it ∈ mixedProposal.queues ∧
      it.1.isGroup = false ∧ (it.2.group.isEmpty = true ∨ it.2.group.isGroup = true) := by
    grind
  apply removeProposal_settles (fun guid => guid = partyGuid) .proposalDeclined mixedMgr 1
    mixedProposal rfl
  · constructor
    · simp [hlist]
    · decide
    · exact fun it hit => (hplayer it hit).1
    · intro e he
      obtain ⟨it, hit, hentry⟩ := List.any_eq_true.mp (List.all_eq_true.mp hentries e he)
      exact ⟨it, hit, of_decide_eq_true hentry⟩
    · exact fun it hit => (hplayer it hit).2.1
    · grind
  · intro e he _
    show (mixedQueue.queueDataStore e).isSome = true
    simp [mixedQueue, he]

end EGServer.DungeonFinding
