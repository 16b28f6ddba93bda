import EGServer.DungeonFinding.RemoveProposal
import EGServer.DungeonFinding.FindGroups

/-!
# The proposals that are made

`CheckCompatibility` notes every player of a proposal under the guid of the group he queued
with. What it proposes is what `RemoveProposal` relies on: the players are those of the
entries, and each of them leads back to his entry.
-/

namespace EGServer.DungeonFinding

/-- The entries as `JoinLfg` and the role check make them: a player who joined alone holds his
own guid only, and no player is a group. -/
structure LFGQueue.Joined (q : LFGQueue) : Prop where
  alone : ∀ g, g.isGroup = false → ∀ player ∈ q.rolesOf g, player = g
  players : ∀ g, ∀ player ∈ q.rolesOf g, player.isGroup = false

section Created

variable {env : LfgEnv} {q : LFGQueue} {check : List ObjectGuid} {tally : Tally}

/-- The group that `CheckCompatibility` notes for the players of an entry. -/
def groupOf (g : ObjectGuid) : ObjectGuid := if g.isGroup then g else 0

theorem getD_foldl_insert (keys : List ObjectGuid) (v x : ObjectGuid)
    (m : Std.ExtTreeMap ObjectGuid ObjectGuid) :
    (keys.foldl (fun groups player => groups.insert player v) m).getD x 0 =
      if x ∈ keys then v else m.getD x 0 := by
  induction keys generalizing m with
  | nil => simp
  | cons k rest ih =>
    grind

theorem tallyEntries_groups (hsized : q.Sized) {t t' : Tally} {player v : ObjectGuid}
    (h : tallyEntries env q check t = .ok t')
    (hgroups : t.numLfgGroups + check.countP env.isLfgGroup ≤ 1)
    (hplayers : t.numPlayers.toNat + q.total check ≤ MAX_GROUP_SIZE)
    (hv : ∀ g ∈ check, player ∈ q.rolesOf g → groupOf g = v)
    (hnoted : (∃ g ∈ check, player ∈ q.rolesOf g) ∨ t.proposalGroups.getD player 0 = v) :
    t'.proposalGroups.getD player 0 = v := by
  induction check generalizing t with
  | nil =>
    cases h
    cases hnoted with
    | inl h => simp at h
    | inr h => exact h
  | cons g rest ih =>
    rw [LFGQueue.total_cons] at hplayers
    rw [List.countP_cons] at hgroups
    rw [tallyEntries, if_pos ⟨by omega, by omega⟩] at h
    cases hd : q.queueDataStore g with
    | none =>
      rw [hd] at h
      cases h
    | some data =>
      rw [hd] at h
      dsimp only at h
      rw [← LFGQueue.rolesOf_eq hd] at h
      -- the entry notes its group for its own players, and leaves the others
      have hstep : (t.addEntry (env.isLfgGroup g) g (q.rolesOf g)).proposalGroups.getD player 0 =
          if player ∈ q.rolesOf g then groupOf g else t.proposalGroups.getD player 0 := by
        show ((q.rolesOf g).keys.foldl _ t.proposalGroups).getD player 0 = _
        rw [getD_foldl_insert]
        simp only [Std.ExtTreeMap.mem_keys]
        rfl
      apply ih h
      · rw [addEntry_numLfgGroups]
        omega
      · rw [addEntry_numPlayers g t hsized _ (by omega)]
        omega
      · exact fun g' hg' => hv g' (List.mem_cons_of_mem _ hg')
      · grind

/-! ## The players of the proposal -/

section Players

variable {roles : LfgRolesMap} {dungeons remaining : Finset DungeonId} {id : Nat} {isNew : Bool}
variable {it : ObjectGuid × LfgProposalPlayer}

theorem mem_createProposal_players :
    it ∈ (createProposal env id check tally isNew roles remaining).players.toList ↔
      ∃ r, roles[it.1]? = some r ∧ proposalPlayer tally isNew it.1 r = it.2 := by
  show it ∈ (roles.map (proposalPlayer tally isNew)).toList ↔ _
  rw [Std.ExtTreeMap.mem_toList_iff_getElem?_eq_some, Std.ExtTreeMap.getElem?_map,
    Option.map_eq_some_iff]

variable (h : FullGroup env q check tally roles dungeons)
variable (hown : ∀ g, q.isQueued g = true → (checkGroupRoles (q.rolesOf g)).1 = true)

include h hown

theorem FullGroup.hasRole_iff (player : ObjectGuid) :
    (∃ r, roles[player]? = some r) ↔ ∃ g ∈ check, player ∈ q.rolesOf g := by
  have hplayers := (h.narrows hown).players
  constructor
  · intro hr
    obtain ⟨r, hr⟩ := hr
    have hp := LfgRolesMap.mem_players.mpr (LfgRolesMap.mem_of_getElem? hr)
    rw [hplayers] at hp
    obtain ⟨selected, hs⟩ := LfgRolesMap.getElem?_of_mem hp
    obtain ⟨g, hg, hget⟩ := (h.getElem?_proposalRoles player selected).mp hs
    exact ⟨g, hg, LfgRolesMap.mem_of_getElem? hget⟩
  · intro hg
    obtain ⟨g, hg, hp⟩ := hg
    obtain ⟨selected, hs⟩ := LfgRolesMap.getElem?_of_mem (LfgRolesMap.mem_players.mpr hp)
    have hget := (h.getElem?_proposalRoles player selected).mpr ⟨g, hg, hs⟩
    have hmem := LfgRolesMap.mem_players.mpr (LfgRolesMap.mem_of_getElem? hget)
    rw [← hplayers] at hmem
    exact LfgRolesMap.getElem?_of_mem hmem

theorem FullGroup.size_roles : roles.size = MAX_GROUP_SIZE := by
  rw [← LfgRolesMap.card_players, (h.narrows hown).players, LfgRolesMap.card_players,
    h.size_proposalRoles]

theorem FullGroup.entry_of_player
    (hit : it ∈ (createProposal env id check tally isNew roles remaining).players.toList) :
    ∃ g ∈ check, it.1 ∈ q.rolesOf g := by
  obtain ⟨r, hr, _⟩ := mem_createProposal_players.mp hit
  exact (h.hasRole_iff hown it.1).mp ⟨r, hr⟩

omit hown

theorem FullGroup.noted (htally : tallyEntries env q check {} = .ok tally) (hsized : q.Sized)
    {player g : ObjectGuid} (hg : g ∈ check) (hp : player ∈ q.rolesOf g) :
    tally.proposalGroups.getD player 0 = groupOf g := by
  refine tallyEntries_groups hsized htally ?_ ?_ ?_ (.inl ⟨g, hg, hp⟩)
  · exact Nat.le_trans (Nat.le_of_eq (Nat.zero_add _)) h.lfgGroups
  · exact Nat.le_of_eq ((Nat.zero_add _).trans h.players)
  · intro g' hg' hp'
    by_cases hne : g' = g
    · rw [hne]
    · exact absurd hp ((h.apart g' hg' g hg hne).1 player hp')

theorem FullGroup.entryOf_eq (htally : tallyEntries env q check {} = .ok tally) (hsized : q.Sized)
    (hjoined : q.Joined)
    (hit : it ∈ (createProposal env id check tally isNew roles remaining).players.toList)
    {g : ObjectGuid} (hg : g ∈ check) (hp : it.1 ∈ q.rolesOf g) :
    it.2.group = groupOf g ∧ entryOf it = g := by
  obtain ⟨r, _, hdata⟩ := mem_createProposal_players.mp hit
  have hgroup : it.2.group = groupOf g := by
    rw [← hdata]
    exact h.noted htally hsized hg hp
  refine ⟨hgroup, ?_⟩
  rw [entryOf, hgroup, groupOf]
  cases hisGroup : g.isGroup with
  | true =>
    have hne : g ≠ 0 := by
      intro h0
      rw [h0] at hisGroup
      exact absurd hisGroup (by decide)
    simp [ObjectGuid.isEmpty, hne]
  | false => simpa [ObjectGuid.isEmpty] using hjoined.alone g hisGroup it.1 hp

end Players

/-- **What `CheckCompatibility` proposes is well formed.** -/
theorem createProposal_wellFormed {roles : LfgRolesMap} {dungeons : Finset DungeonId}
    (htally : tallyEntries env q check {} = .ok tally)
    (h : FullGroup env q check tally roles dungeons) (hsized : q.Sized) (hjoined : q.Joined)
    (hown : ∀ g, q.isQueued g = true → (checkGroupRoles (q.rolesOf g)).1 = true) (id : Nat)
    (isNew : Bool) (remaining : Finset DungeonId) :
    (createProposal env id check tally isNew roles remaining).WellFormed := by
  constructor
  · intro hnil
    have hlength := congrArg List.length hnil
    have hmap : (createProposal env id check tally isNew roles remaining).players.size =
        roles.size := Std.ExtTreeMap.size_map
    rw [Std.ExtTreeMap.length_toList, hmap, h.size_roles hown] at hlength
    exact absurd hlength (by decide)
  · exact h.nodup hsized
  · intro it hit
    obtain ⟨g, hg, hp⟩ := h.entry_of_player hown hit
    rw [(h.entryOf_eq htally hsized hjoined hit hg hp).2]
    exact hg
  · intro g hg
    -- an entry has a player, and he was given a role
    have hpos := hsized.size_pos (h.queued g hg)
    rw [← LfgRolesMap.card_players, Finset.card_pos] at hpos
    obtain ⟨player, hp⟩ := hpos
    rw [LfgRolesMap.mem_players] at hp
    obtain ⟨r, hr⟩ := (h.hasRole_iff hown player).mpr ⟨g, hg, hp⟩
    have hmem : (player, proposalPlayer tally isNew player r) ∈
        (createProposal env id check tally isNew roles remaining).players.toList :=
      mem_createProposal_players.mpr ⟨r, hr, rfl⟩
    exact ⟨_, hmem, (h.entryOf_eq htally hsized hjoined hmem hg hp).2⟩
  · intro it hit
    obtain ⟨g, hg, hp⟩ := h.entry_of_player hown hit
    exact hjoined.players g it.1 hp
  · intro it hit hne
    obtain ⟨g, hg, hp⟩ := h.entry_of_player hown hit
    rw [(h.entryOf_eq htally hsized hjoined hit hg hp).1, groupOf] at hne ⊢
    cases hisGroup : g.isGroup with
    | true => simp [hisGroup]
    | false =>
      rw [hisGroup] at hne
      cases hne

end Created

/-- **What is matched can be settled**: a full group found in a queue of valid entries, as joining
makes them, becomes a proposal in which every player leads back to his entry and every entry has a
player. -/
theorem full_proposal_wellFormed {env : LfgEnv} {q : LFGQueue} {check : List ObjectGuid}
    {tally : Tally} {roles : LfgRolesMap} {dungeons : Finset DungeonId} (hv : q.Valid)
    (hjoined : q.Joined) (h : examine env q check = .full tally roles dungeons) (id : Nat)
    (isNew : Bool) (remaining : Finset DungeonId) :
    (createProposal env id check tally isNew roles remaining).WellFormed := by
  have htally : tallyEntries env q check {} = .ok tally := by
    unfold examine at h
    grind
  exact createProposal_wellFormed htally (examine_full hv.sized h) hv.sized hjoined hv.rolesPass id
    isNew remaining

/-- A group of five has joined. -/
def fullParty : LfgRolesMap :=
  ((((∅ : LfgRolesMap).insert 11 0x02).insert 12 0x04).insert 13 0x08).insert 14 0x08 |>.insert 15 0x08

def fullQueue : LFGQueue := LFGQueue.empty.addQueueData 0x1F50000000000001 {31} fullParty

theorem fullQueue_wellFormed : ∃ tally roles,
    (createProposal openEnv 1 [0x1F50000000000001] tally true roles {31}).WellFormed := by
  have hv : fullQueue.Valid :=
    LFGQueue.valid_empty.addQueueData (by decide +kernel) (by decide +kernel) (by decide +kernel)
      fun g hg => by cases hg
  have hroles : ∀ g, ∀ player ∈ fullQueue.rolesOf g,
      player ∈ fullParty ∧ g = 0x1F50000000000001 := by
    intro g player hp
    rw [fullQueue, LFGQueue.rolesOf_addQueueData] at hp
    split at hp
    · next hg => exact ⟨hp, hg⟩
    · exact absurd hp (by simp [LFGQueue.rolesOf, LFGQueue.empty])
  have hjoined : fullQueue.Joined := by
    constructor
    · intro g hg player hp
      rw [(hroles g player hp).2] at hg
      exact absurd hg (by decide)
    · intro g player hp
      have hkeys : fullParty.keys.all (fun player => !player.isGroup) = true := by decide +kernel
      rw [List.all_eq_true] at hkeys
      simpa using hkeys player (Std.ExtTreeMap.mem_keys.mpr (hroles g player hp).1)
  obtain ⟨hsize, -⟩ | ⟨-, hnone, -⟩ | ⟨-, -, tally, roles, hfull⟩ :=
    @examine_single fullQueue openEnv hv.sized 0x1F50000000000001 rfl
  · exact absurd (by decide +kernel) hsize
  · exact absurd hnone (by decide +kernel)
  · exact ⟨tally, roles, full_proposal_wellFormed hv hjoined hfull 1 true {31}⟩

end EGServer.DungeonFinding
