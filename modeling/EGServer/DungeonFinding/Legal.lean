import EGServer.DungeonFinding.Examination

/-!
# Legal groups

A proposal is a legal group when its players are those of the entries it was made of, each
in one role it selected, in the numbers a dungeon needs, under one of its leaders, with a
dungeon every entry queued for. What `CheckCompatibility` puts into a proposal is one.
-/

namespace EGServer.DungeonFinding

/-- The proposal is a legal group of entries of the queue. -/
structure LfgProposal.Legal (rules : LfgRules) (q : LFGQueue) (p : LfgProposal) : Prop where
  queued : ∀ g ∈ p.queues, q.isQueued g = true
  nodup : p.queues.Nodup
  unlisted : ∀ g ∈ p.queues, g ∉ q.newToQueueStore ∧ g ∉ q.currentQueueStore
  size : p.players.size = MAX_GROUP_SIZE
  players : ∀ player, player ∈ p.players ↔ ∃ g ∈ p.queues, player ∈ q.rolesOf g
  disjoint : ∀ g ∈ p.queues, ∀ h ∈ p.queues, ∀ player,
    player ∈ q.rolesOf g → player ∈ q.rolesOf h → g = h
  role : ∀ (player : ObjectGuid) (data : LfgProposalPlayer), p.players[player]? = some data →
    ∃ g ∈ p.queues, ∃ selected, (q.rolesOf g)[player]? = some selected ∧
      (∃ k, isRole data.role k ∧ selects selected k) ∧
      data.role &&& PLAYER_ROLE_LEADER = selected &&& PLAYER_ROLE_LEADER
  roles : ∀ k : LfgRole,
    p.players.toList.countP (fun player => isRole player.2.role k) = k.needed
  ignores : ∀ g ∈ p.queues, ∀ h ∈ p.queues, g ≠ h →
    ∀ a ∈ q.rolesOf g, ∀ b ∈ q.rolesOf h, rules.hasIgnore a b = false
  oneLfgGroup : ∀ g ∈ p.queues, ∀ h ∈ p.queues,
    rules.isLfgGroup g = true → rules.isLfgGroup h = true → g = h
  group : ∀ g ∈ p.queues, rules.isLfgGroup g = true → p.group = g
  noGroup : (∀ g ∈ p.queues, rules.isLfgGroup g = false) → p.group = 0
  dungeon : ∀ g ∈ p.queues, p.dungeonId ∈ q.dungeonsOf g
  leader : p.leader ∈ p.players
  leaderFlag : ∀ (player : ObjectGuid) (data : LfgProposalPlayer),
    p.players[player]? = some data →
    data.role &&& PLAYER_ROLE_LEADER ≠ 0 →
    ∃ chosen, p.players[p.leader]? = some chosen ∧ chosen.role &&& PLAYER_ROLE_LEADER ≠ 0

/-! ## The leader -/

/-- What the loop that picks the leader knows after the players in `done`. -/
structure LeaderSoFar (done : List (ObjectGuid × UInt8)) (leader : Bool) (chosen : ObjectGuid) :
    Prop where
  start : done = [] → chosen = 0 ∧ leader = false
  chosen : done ≠ [] →
    ∃ role, (chosen, role) ∈ done ∧ (leader = true → role &&& PLAYER_ROLE_LEADER ≠ 0)
  flag : leader = true ↔ ∃ player ∈ done, player.2 &&& PLAYER_ROLE_LEADER ≠ 0

theorem chooseLeader_spec (urand : ObjectGuid → Bool) :
    ∀ (todo done : List (ObjectGuid × UInt8)) (leader : Bool) (chosen : ObjectGuid),
      LeaderSoFar done leader chosen →
      ∃ leader', LeaderSoFar (done ++ todo) leader' (chooseLeader urand todo leader chosen)
  | [], done, leader, chosen => by
    intro h
    rw [List.append_nil]
    exact ⟨leader, h⟩
  | (player, role) :: todo, done, leader, chosen => by
    intro h
    have hassoc : done ++ (player, role) :: todo = (done ++ [(player, role)]) ++ todo := by simp
    have hne : done ++ [(player, role)] ≠ [] := by simp
    have hempty : chosen.isEmpty = false → done ≠ [] := by
      intro hc hd
      rw [(h.start hd).1] at hc
      exact absurd hc (by decide)
    rw [hassoc, chooseLeader]
    split
    · next hflag =>
      apply chooseLeader_spec
      refine ⟨fun he => absurd he hne, fun _ => ?_, ?_⟩
      · split
        · exact ⟨role, by simp, fun _ => hflag⟩
        · next hpick =>
          simp only [Bool.or_eq_true, Bool.not_eq_true', not_or, Bool.not_eq_true] at hpick
          obtain ⟨role', hmem, hrole'⟩ := h.chosen (hempty hpick.1.2)
          refine ⟨role', List.mem_append_left _ hmem, fun _ => hrole' ?_⟩
          simpa using hpick.1.1
      · simp [hflag]
    · next hflag =>
      apply chooseLeader_spec
      refine ⟨fun he => absurd he hne, fun _ => ?_, ?_⟩
      · split
        · grind
        · next hpick =>
          have hdone : done ≠ [] := by
            intro hd
            obtain ⟨rfl, rfl⟩ := h.start hd
            exact hpick rfl
          obtain ⟨role', hmem, hrole'⟩ := h.chosen hdone
          exact ⟨role', List.mem_append_left _ hmem, hrole'⟩
      · rw [h.flag]
        simp only [ne_eq, Decidable.not_not] at hflag
        simp [hflag]

/-! ## The group that is proposed -/

theorem countP_toList (m : LfgRolesMap) (k : LfgRole) :
    m.toList.countP (fun player => isRole player.2 k) =
      (m.players.filter fun g => isRole (m.getD g PLAYER_ROLE_NONE) k).card := by
  have hlist : m.players.filter (fun g => isRole (m.getD g PLAYER_ROLE_NONE) k) =
      (m.keys.filter fun g => isRole (m.getD g PLAYER_ROLE_NONE) k).toFinset := by
    ext g
    simp
  rw [hlist, List.toFinset_card_of_nodup (m.nodup_keys.filter _), ← List.countP_eq_length_filter,
    ← Std.ExtTreeMap.map_fst_toList_eq_keys, List.countP_map]
  grind [EGServer.DungeonFinding.LfgRolesMap.getD_of_getElem?, List.countP_congr]

variable {env : LfgEnv} {q : LFGQueue} {check : List ObjectGuid} {tally : Tally}
  {roles : LfgRolesMap} {dungeons : Finset DungeonId}

theorem FullGroup.check_ne_nil (h : FullGroup env q check tally roles dungeons) : check ≠ [] := by
  intro he
  have hplayers := h.players
  rw [he, LFGQueue.total_nil] at hplayers
  exact absurd hplayers (by decide)

theorem FullGroup.single_or_several (h : FullGroup env q check tally roles dungeons) :
    (∃ g, check = [g]) ∨ 1 < check.length := by
  cases check with
  | nil => exact absurd rfl h.check_ne_nil
  | cons g rest =>
    cases rest with
    | nil => exact .inl ⟨g, rfl⟩
    | cons g' rest => exact .inr (by simp)

theorem FullGroup.getElem?_proposalRoles (h : FullGroup env q check tally roles dungeons)
    (player : ObjectGuid) (r : UInt8) :
    (proposalRoles env q check)[player]? = some r ↔
      ∃ g ∈ check, (q.rolesOf g)[player]? = some r := by
  obtain ⟨g, rfl⟩ | hmany := h.single_or_several
  · simp [proposalRoles]
  · rw [proposalRoles, if_pos hmany, getElem?_mergeRoles (h.mergeable hmany)]

theorem FullGroup.size_proposalRoles (h : FullGroup env q check tally roles dungeons) :
    (proposalRoles env q check).size = MAX_GROUP_SIZE := by
  rw [← h.players]
  obtain ⟨g, rfl⟩ | hmany := h.single_or_several
  · simp [proposalRoles]
  · rw [proposalRoles, if_pos hmany, size_mergeRoles_eq_iff]
    exact h.mergeable hmany

theorem FullGroup.narrows (h : FullGroup env q check tally roles dungeons)
    (hown : ∀ g, q.isQueued g = true → (checkGroupRoles (q.rolesOf g)).1 = true) :
    Narrows (proposalRoles env q check) roles := by
  have hsize : (proposalRoles env q check).size < 256 := by
    rw [h.size_proposalRoles]
    decide
  rw [h.solved]
  apply checkGroupRoles_narrows _ hsize
  obtain ⟨g, rfl⟩ | hmany := h.single_or_several
  · exact hown g (h.queued g (List.mem_singleton_self g))
  · rw [proposalRoles, if_pos hmany]
    exact h.solvable hmany

theorem FullGroup.pairwise (h : FullGroup env q check tally roles dungeons) :
    check.Pairwise fun g g' => (∀ player ∈ q.rolesOf g, player ∉ q.rolesOf g') ∧
      ∀ a ∈ q.rolesOf g, ∀ b ∈ q.rolesOf g', env.hasIgnore a b = false := by
  obtain ⟨g, rfl⟩ | hmany := h.single_or_several
  · exact List.pairwise_singleton ..
  · obtain ⟨hdistinct, hignore⟩ := h.mergeable hmany
    rw [LFGQueue.playersOf, List.map_flatMap, List.nodup_flatMap] at hdistinct
    rw [LFGQueue.playersOf, List.pairwise_flatMap] at hignore
    refine (hdistinct.2.and hignore.2).imp ?_
    rintro g g' ⟨hd, hi⟩
    have hmem : ∀ g player, player ∈ q.rolesOf g → ∃ r, (player, r) ∈ (q.rolesOf g).toList := by
      intro g player hp
      obtain ⟨r, hr⟩ := LfgRolesMap.getElem?_of_mem (LfgRolesMap.mem_players.mpr hp)
      exact ⟨r, Std.ExtTreeMap.mem_toList_iff_getElem?_eq_some.mpr hr⟩
    constructor
    · intro player hp hp'
      obtain ⟨r, hr⟩ := hmem g player hp
      obtain ⟨r', hr'⟩ := hmem g' player hp'
      exact hd (List.mem_map.mpr ⟨_, hr, rfl⟩) (List.mem_map.mpr ⟨_, hr', rfl⟩)
    · grind

/-- Two entries with nothing to keep them apart. -/
def Apart (env : LfgEnv) (q : LFGQueue) (g g' : ObjectGuid) : Prop :=
  (∀ player ∈ q.rolesOf g, player ∉ q.rolesOf g') ∧
    ∀ a ∈ q.rolesOf g, ∀ b ∈ q.rolesOf g', env.hasIgnore a b = false

theorem FullGroup.apart (h : FullGroup env q check tally roles dungeons) :
    ∀ g ∈ check, ∀ g' ∈ check, g ≠ g' → Apart env q g g' := by
  have hsymm : Std.Symm (Apart env q) := by
    constructor
    rintro g g' ⟨hd, hi⟩
    refine ⟨fun player hp hp' => hd player hp' hp, fun a ha b hb => ?_⟩
    rw [env.hasIgnore_comm]
    exact hi b hb a ha
  have hpairwise : check.Pairwise (Apart env q) := h.pairwise
  intro g hg g' hg' hne
  exact hpairwise.forall hg hg' hne

theorem FullGroup.nodup (h : FullGroup env q check tally roles dungeons) (hsized : q.Sized) :
    check.Nodup := by
  refine h.pairwise.imp_of_mem ?_
  rintro g g' hg _ ⟨hd, _⟩ he
  subst he
  have hpos := hsized.size_pos (h.queued g hg)
  rw [← LfgRolesMap.card_players, Finset.card_pos] at hpos
  obtain ⟨player, hp⟩ := hpos
  rw [LfgRolesMap.mem_players] at hp
  exact hd player hp hp

theorem eq_of_countP_le_one {p : ObjectGuid → Bool} {l : List ObjectGuid} (hnodup : l.Nodup)
    (hle : l.countP p ≤ 1) {g g' : ObjectGuid} (hg : g ∈ l) (hg' : g' ∈ l)
    (hp : p g = true) (hp' : p g' = true) : g = g' := by
  rw [List.countP_eq_length_filter, ← List.toFinset_card_of_nodup (hnodup.filter _)] at hle
  exact Finset.card_le_one.mp hle g (by simp [hg, hp]) g' (by simp [hg', hp'])

theorem unlist_queueDataStore (q : LFGQueue) (check : List ObjectGuid) :
    (q.unlist check).queueDataStore = q.queueDataStore := by
  induction check generalizing q with
  | nil => rfl
  | cons g rest ih => exact ih _

theorem unlist_remainingChecks (q : LFGQueue) (check : List ObjectGuid) :
    (q.unlist check).remainingChecks = q.remainingChecks := by
  induction check generalizing q with
  | nil => rfl
  | cons g rest ih => exact ih _

/-- The proposal that `CheckCompatibility` makes of a full group. -/
structure Proposes (env : LfgEnv) (q : LFGQueue) (check : List ObjectGuid) (tally : Tally)
    (roles : LfgRolesMap) (dungeons : Finset DungeonId) (call : AddProposalCall) : Prop where
  full : FullGroup env q check tally roles dungeons
  queue : call.queue = q.unlist check
  proposal : ∃ id isNew remaining, remaining ⊆ dungeons ∧ remaining.Nonempty ∧
    call.proposal = createProposal env id check tally isNew roles remaining

/-- **What is proposed is legal**, when the entries passed the role check before they joined. -/
theorem Proposes.legal {call : AddProposalCall}
    (h : Proposes env q check tally roles dungeons call) (hsized : q.Sized)
    (hown : ∀ g, q.isQueued g = true → (checkGroupRoles (q.rolesOf g)).1 = true) :
    call.proposal.Legal env.toLfgRules call.queue ∧ call.proposal.queues = check := by
  obtain ⟨id, isNew, remaining, hsub, hne, hproposal⟩ := h.proposal
  have hfull := h.full
  have hnarrows := hfull.narrows hown
  have hroles : ∀ g, call.queue.rolesOf g = q.rolesOf g := by
    intro g
    rw [LFGQueue.rolesOf, LFGQueue.rolesOf, h.queue, unlist_queueDataStore]
  have hqueued : ∀ g, call.queue.isQueued g = q.isQueued g := by
    intro g
    rw [LFGQueue.isQueued, LFGQueue.isQueued, h.queue, unlist_queueDataStore]
  have hdungeons : ∀ g, call.queue.dungeonsOf g = q.dungeonsOf g := by
    intro g
    rw [LFGQueue.dungeonsOf, LFGQueue.dungeonsOf, h.queue, unlist_queueDataStore]
  have hqueues : call.proposal.queues = check := by rw [hproposal]; rfl
  have hplayers : call.proposal.players = roles.map (proposalPlayer tally isNew) := by
    rw [hproposal]; rfl
  have hleader : call.proposal.leader = chooseLeader (env.urand id) roles.toList false 0 := by
    rw [hproposal]; rfl
  have hgroup : call.proposal.group = (check.find? env.isLfgGroup).getD 0 := by
    rw [hproposal, ← hfull.group]; rfl
  have hdungeon : call.proposal.dungeonId ∈ remaining := by
    rw [hproposal]
    exact env.selectDungeon_mem id remaining hne
  have hsize : roles.size = MAX_GROUP_SIZE := by
    rw [← LfgRolesMap.card_players, hnarrows.players, LfgRolesMap.card_players,
      hfull.size_proposalRoles]
  have hone : ∀ g ∈ check, ∀ g' ∈ check, env.isLfgGroup g = true → env.isLfgGroup g' = true →
      g = g' :=
    fun g hg g' hg' hl hl' => eq_of_countP_le_one (hfull.nodup hsized) hfull.lfgGroups hg hg' hl hl'
  have hselected : ∀ (player : ObjectGuid) (data : LfgProposalPlayer),
      (roles.map (proposalPlayer tally isNew))[player]? = some data →
      ∃ g ∈ check, ∃ selected, (q.rolesOf g)[player]? = some selected ∧
        (∃ k, isRole data.role k ∧ selects selected k) ∧
        data.role &&& PLAYER_ROLE_LEADER = selected &&& PLAYER_ROLE_LEADER := by
    intro player data hdata
    rw [Std.ExtTreeMap.getElem?_map, Option.map_eq_some_iff] at hdata
    obtain ⟨r, hr, rfl⟩ := hdata
    have hmem : player ∈ (proposalRoles env q check).players :=
      hnarrows.players ▸ LfgRolesMap.mem_players.mpr (LfgRolesMap.mem_of_getElem? hr)
    obtain ⟨selected, hs⟩ := LfgRolesMap.getElem?_of_mem hmem
    obtain ⟨g, hg, hget⟩ := (hfull.getElem?_proposalRoles player selected).mp hs
    exact ⟨g, hg, selected, hget, hnarrows.role player selected r hs hr⟩
  obtain ⟨leader, hsofar⟩ := chooseLeader_spec (env.urand id) roles.toList [] false 0
    ⟨fun _ => ⟨rfl, rfl⟩, fun h => absurd rfl h, by simp⟩
  rw [List.nil_append, ← hleader] at hsofar
  have hlist : roles.toList ≠ [] := by
    intro he
    have hlen := Std.ExtTreeMap.length_toList (t := roles)
    rw [he, hsize] at hlen
    exact absurd hlen (by decide)
  obtain ⟨leaderRole, hchosen, hflag⟩ := hsofar.chosen hlist
  have hget := Std.ExtTreeMap.mem_toList_iff_getElem?_eq_some.mp hchosen
  refine ⟨?_, hqueues⟩
  exact {
    queued := by
      intro g hg
      rw [hqueued]
      exact hfull.queued g (hqueues ▸ hg)
    nodup := hqueues ▸ hfull.nodup hsized
    unlisted := by
      intro g hg
      rw [h.queue]
      exact LFGQueue.notMem_unlist (hqueues ▸ hg)
    size := by rw [hplayers, Std.ExtTreeMap.size_map, hsize]
    players := by
      intro player
      rw [hplayers, Std.ExtTreeMap.mem_map, ← LfgRolesMap.mem_players, hnarrows.players, hqueues]
      constructor
      · intro hp
        obtain ⟨r, hr⟩ := LfgRolesMap.getElem?_of_mem hp
        obtain ⟨g, hg, hgr⟩ := (hfull.getElem?_proposalRoles player r).mp hr
        exact ⟨g, hg, hroles g ▸ LfgRolesMap.mem_of_getElem? hgr⟩
      · rintro ⟨g, hg, hp⟩
        rw [hroles, ← LfgRolesMap.mem_players] at hp
        obtain ⟨r, hr⟩ := LfgRolesMap.getElem?_of_mem hp
        rw [LfgRolesMap.mem_players]
        exact LfgRolesMap.mem_of_getElem? ((hfull.getElem?_proposalRoles player r).mpr ⟨g, hg, hr⟩)
    disjoint := by
      intro g hg g' hg' player hp hp'
      rw [hqueues] at hg hg'
      rw [hroles] at hp hp'
      by_contra hne
      exact (hfull.apart g hg g' hg' hne).1 player hp hp'
    role := by
      grind
    roles := by
      intro k
      rw [hplayers, Std.ExtTreeMap.toList_map, List.countP_map, ← hnarrows.fills
        hfull.size_proposalRoles k, ← countP_toList]
      rfl
    ignores := by
      intro g hg g' hg' hne a ha b hb
      rw [hqueues] at hg hg'
      rw [hroles] at ha hb
      exact (hfull.apart g hg g' hg' hne).2 a ha b hb
    oneLfgGroup := by
      rw [hqueues]
      exact hone
    group := by
      intro g hg hl
      rw [hqueues] at hg
      rw [hgroup]
      cases hfind : check.find? env.isLfgGroup with
      | none => exact absurd hl (by simpa using List.find?_eq_none.mp hfind g hg)
      | some g' =>
        exact hone g' (List.mem_of_find?_eq_some hfind) g hg (List.find?_some hfind) hl
    noGroup := by
      grind
    dungeon := by
      intro g hg
      rw [hqueues] at hg
      rw [hdungeons]
      have hcommon := hsub hdungeon
      rw [hfull.common] at hcommon
      exact (mem_commonDungeons.mp hcommon).2 g hg
    leader := by
      rw [hplayers, Std.ExtTreeMap.mem_map]
      exact LfgRolesMap.mem_of_getElem? hget
    leaderFlag := by
      intro player data hdata hled
      rw [hplayers, Std.ExtTreeMap.getElem?_map, Option.map_eq_some_iff] at hdata
      obtain ⟨r, hr, rfl⟩ := hdata
      have hsome : leader = true := hsofar.flag.mpr
        ⟨(player, r), Std.ExtTreeMap.mem_toList_iff_getElem?_eq_some.mpr hr, hled⟩
      grind [proposalPlayer] }

end EGServer.DungeonFinding
