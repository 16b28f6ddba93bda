import EGServer.DungeonFinding.Compatible

/-!
# The queue status

What a queued player is shown: how many tanks, healers and damage dealers are still needed.
An entry carries the counters, and the key of the best combination that they were counted
for. `UpdateBestCompatibleInQueue` counts a combination that is larger than the one before,
`ResetBestCompatibleToSelf` starts again from the entry alone, and `UpdateStatusNeeds` merges
entries of the current queue into a group on its own, without a key.

The counters are bytes that are counted down from what a group needs. They do not wrap,
because the role solver gives no role out more often than it is needed.
-/

namespace EGServer.DungeonFinding

/-- The part of `LfgQueueData` that only the status reads. -/
structure QueueStatus where
  tanks : UInt8
  healers : UInt8
  dps : UInt8
  bestCompatible : CompatibleKey
  deriving DecidableEq

/-- `LFGQueue::CountGuidsInCompatibleKey`. -/
def countGuidsInCompatibleKey (key : CompatibleKey) : UInt8 :=
  if key = [] then 0 else UInt8.ofNat (key.count '|' + 1)

namespace QueueStatus

/-- The counters of an empty group. -/
def needed (bestCompatible : CompatibleKey) : QueueStatus where
  tanks := UInt8.ofNat LFG_TANKS_NEEDED
  healers := UInt8.ofNat LFG_HEALERS_NEEDED
  dps := UInt8.ofNat LFG_DPS_NEEDED
  bestCompatible := bestCompatible

/-- One player less is needed. -/
def countDown (status : QueueStatus) (player : ObjectGuid × UInt8) : QueueStatus :=
  if player.2 &&& PLAYER_ROLE_TANK ≠ 0 then { status with tanks := status.tanks - 1 }
  else if player.2 &&& PLAYER_ROLE_HEALER ≠ 0 then { status with healers := status.healers - 1 }
  else { status with dps := status.dps - 1 }

/-- The counters less the players of a role map. -/
def countRoles (status : QueueStatus) (roles : LfgRolesMap) : QueueStatus :=
  roles.toList.foldl countDown status

/-- `LFGQueue::UpdateBestCompatibleInQueue`. -/
def updateBestCompatible (status : QueueStatus) (key : CompatibleKey) (roles : LfgRolesMap) :
    QueueStatus :=
  if countGuidsInCompatibleKey key ≤ countGuidsInCompatibleKey status.bestCompatible then status
  else (needed key).countRoles roles

/-- `LFGQueue::ResetBestCompatibleToSelf`. -/
def resetBestCompatibleToSelf (guid : ObjectGuid) (roles : LfgRolesMap) : QueueStatus :=
  (needed []).updateBestCompatible (concatenateGuids [guid]) (checkGroupRoles roles).2

end QueueStatus

/-! ## `LFGQueue::UpdateStatusNeeds` -/

/-- The local variables of the loop over the current queue. -/
structure StatusMerge where
  roles : LfgRolesMap
  dungeons : Finset DungeonId
  hasLfgGroup : Bool

/-- The roles of both, for players that are not in both. -/
def mergeOther (roles other : LfgRolesMap) : LfgRolesMap :=
  other.toList.foldl (fun merged player => merged.insert player.1 player.2) roles

/-- The checks of the loop body behind each of which there is a `continue`. -/
def StatusMerge.accepts (rules : LfgRules) (s : StatusMerge) (guid : ObjectGuid)
    (other : LfgQueueData) : Bool :=
  s.roles.size + other.roles.size ≤ MAX_GROUP_SIZE
    && !(s.hasLfgGroup && rules.isLfgGroup guid)
    && !decide (other.dungeons ∩ s.dungeons = ∅)
    && !other.roles.keys.any (fun player => s.roles.contains player)
    && (checkGroupRoles (mergeOther s.roles other.roles)).1
    && !other.roles.keys.any fun player =>
      s.roles.keys.any fun member => rules.hasIgnore player member

/-- A turn of the loop. -/
def StatusMerge.add (rules : LfgRules) (q : LFGQueue) (self : ObjectGuid) (s : StatusMerge)
    (guid : ObjectGuid) : StatusMerge :=
  if guid = self then s
  else
    match q.queueDataStore guid with
    | none => s
    | some other =>
      if s.accepts rules guid other then
        { roles := mergeOther s.roles other.roles
          dungeons := s.dungeons ∩ other.dungeons
          hasLfgGroup := s.hasLfgGroup || rules.isLfgGroup guid }
      else s

/-- The loop, which ends when the group is full. -/
def mergeStatus (rules : LfgRules) (q : LFGQueue) (self : ObjectGuid) :
    List ObjectGuid → StatusMerge → StatusMerge
  | [], s => s
  | guid :: rest, s =>
    if MAX_GROUP_SIZE ≤ s.roles.size then s
    else mergeStatus rules q self rest (s.add rules q self guid)

/-- The group that the status of an entry is about. -/
def statusGroup (rules : LfgRules) (q : LFGQueue) (self : ObjectGuid) : StatusMerge :=
  mergeStatus rules q self q.currentQueueStore
    ⟨q.rolesOf self, q.dungeonsOf self, rules.isLfgGroup self⟩

def QueueStatus.updateStatusNeeds (rules : LfgRules) (q : LFGQueue) (self : ObjectGuid)
    (status : QueueStatus) : QueueStatus :=
  let roles := (statusGroup rules q self).roles
  if (checkGroupRoles roles).1 = false then needed status.bestCompatible
  else (needed status.bestCompatible).countRoles (checkGroupRoles roles).2

/-! ## Counting down -/

namespace QueueStatus

/-- The counters say what a group of `n` players still needs. -/
structure Counts (status : QueueStatus) (n : Nat) : Prop where
  tanks : status.tanks.toNat ≤ LFG_TANKS_NEEDED
  healers : status.healers.toNat ≤ LFG_HEALERS_NEEDED
  dps : status.dps.toNat ≤ LFG_DPS_NEEDED
  size : n ≤ MAX_GROUP_SIZE
  sum : status.tanks.toNat + status.healers.toNat + status.dps.toNat = MAX_GROUP_SIZE - n

/-- The player is counted as a tank, as a healer, or otherwise. -/
def countsAs (k : LfgRole) (player : ObjectGuid × UInt8) : Bool :=
  match k with
  | .tank => player.2 &&& PLAYER_ROLE_TANK ≠ 0
  | .healer => player.2 &&& PLAYER_ROLE_TANK = 0 ∧ player.2 &&& PLAYER_ROLE_HEALER ≠ 0
  | .damage => player.2 &&& PLAYER_ROLE_TANK = 0 ∧ player.2 &&& PLAYER_ROLE_HEALER = 0

theorem sub_one_sub_ofNat (a : UInt8) (n : Nat) :
    a - 1 - UInt8.ofNat n = a - UInt8.ofNat (n + 1) := by
  have hone : UInt8.ofNat 1 = 1 := rfl
  rw [UInt8.ofNat_add, hone]
  grind

theorem foldl_countDown (l : List (ObjectGuid × UInt8)) (status : QueueStatus) :
    l.foldl countDown status =
      { tanks := status.tanks - UInt8.ofNat (l.countP (countsAs .tank))
        healers := status.healers - UInt8.ofNat (l.countP (countsAs .healer))
        dps := status.dps - UInt8.ofNat (l.countP (countsAs .damage))
        bestCompatible := status.bestCompatible } := by
  induction l generalizing status with
  | nil =>
    show status = ⟨status.tanks - 0, status.healers - 0, status.dps - 0, status.bestCompatible⟩
    simp
  | cons player l ih =>
    rw [List.foldl_cons, ih, List.countP_cons, List.countP_cons, List.countP_cons]
    by_cases htank : player.2 &&& PLAYER_ROLE_TANK = 0
    · grind [sub_one_sub_ofNat, countsAs, countDown]
    · simp [countDown, countsAs, htank, sub_one_sub_ofNat]

theorem countsAs_iff {player : ObjectGuid × UInt8} {k : LfgRole} (h : isRole player.2 k)
    (k' : LfgRole) : countsAs k' player = true ↔ isRole player.2 k' := by
  have hselects := selects_of_isRole player.2 k h
  have htank : player.2 &&& PLAYER_ROLE_TANK = 0 ↔ LfgRole.tank ≠ k := by
    rw [← not_iff_not, not_not]
    exact hselects .tank
  have hhealer : player.2 &&& PLAYER_ROLE_HEALER = 0 ↔ LfgRole.healer ≠ k := by
    rw [← not_iff_not, not_not]
    exact hselects .healer
  have hunique : isRole player.2 k' ↔ k' = k :=
    ⟨fun h' => isRole_unique h' h, fun he => he ▸ h⟩
  rw [hunique]
  cases k' <;> cases k <;> simp [countsAs, htank, hhealer]

theorem countP_countsAs (l : List (ObjectGuid × UInt8)) :
    l.countP (countsAs .tank) + l.countP (countsAs .healer) + l.countP (countsAs .damage) =
      l.length := by
  induction l with
  | nil => rfl
  | cons player l ih =>
    grind [countsAs]

theorem toNat_ofNat_sub {a b : Nat} (ha : a < 256) (hb : b ≤ a) :
    (UInt8.ofNat a - UInt8.ofNat b).toNat = a - b := by
  grind [UInt8.toNat_ofNat_of_lt', UInt8.toNat_sub_of_le, UInt8.le_iff_toNat_le]

/-- **No counter wraps.** The roles that the solver gave out leave what the group still needs. -/
theorem counts_of_narrows {m m' : LfgRolesMap} (h : Narrows m m') (key : CompatibleKey) :
    ((needed key).countRoles m').Counts m.size := by
  have hcount : ∀ k, m'.toList.countP (countsAs k) =
      (m.players.filter fun g => isRole (m'.getD g PLAYER_ROLE_NONE) k).card := by
    intro k
    rw [← h.players, ← countP_toList]
    apply List.countP_congr
    intro player hplayer
    have hget := Std.ExtTreeMap.mem_toList_iff_getElem?_eq_some.mp hplayer
    have hmem := LfgRolesMap.mem_players.mpr (LfgRolesMap.mem_of_getElem? hget)
    obtain ⟨r, hr⟩ := LfgRolesMap.getElem?_of_mem (h.players ▸ hmem)
    obtain ⟨⟨k', hk', -⟩, -⟩ := h.role player.1 r player.2 hr hget
    rw [countsAs_iff hk', decide_eq_true_eq]
  have hfits : ∀ k, m'.toList.countP (countsAs k) ≤ k.needed := fun k => hcount k ▸ h.fits k
  have htank := hfits .tank
  have hhealer := hfits .healer
  have hdps := hfits .damage
  have hsum := countP_countsAs m'.toList
  have hsize : m'.toList.length = m.size := by
    rw [Std.ExtTreeMap.length_toList, ← LfgRolesMap.card_players, h.players,
      LfgRolesMap.card_players]
  simp only [LfgRole.needed] at htank hhealer hdps
  rw [hsize] at hsum
  have htanks : ((needed key).countRoles m').tanks.toNat =
      LFG_TANKS_NEEDED - m'.toList.countP (countsAs .tank) := by
    rw [countRoles, foldl_countDown]
    exact toNat_ofNat_sub (by decide) htank
  have hhealers : ((needed key).countRoles m').healers.toNat =
      LFG_HEALERS_NEEDED - m'.toList.countP (countsAs .healer) := by
    rw [countRoles, foldl_countDown]
    exact toNat_ofNat_sub (by decide) hhealer
  have hdamage : ((needed key).countRoles m').dps.toNat =
      LFG_DPS_NEEDED - m'.toList.countP (countsAs .damage) := by
    rw [countRoles, foldl_countDown]
    exact toNat_ofNat_sub (by decide) hdps
  unfold LFG_TANKS_NEEDED at htank htanks
  unfold LFG_HEALERS_NEEDED at hhealer hhealers
  unfold LFG_DPS_NEEDED at hdps hdamage
  constructor <;> simp only [LFG_TANKS_NEEDED, LFG_HEALERS_NEEDED, LFG_DPS_NEEDED, MAX_GROUP_SIZE]
    <;> omega

end QueueStatus

/-! ## Parties -/

/-- The entries are queued, no player is in two of them, the solver finds roles for all their
players, and they have a dungeon in common; an entry is a party of its own. -/
structure Party (q : LFGQueue) (s : Finset ObjectGuid) (roles : LfgRolesMap) : Prop where
  queued : ∀ g ∈ s, q.isQueued g = true
  disjoint : ∀ g ∈ s, ∀ g' ∈ s, g ≠ g' → ∀ player ∈ q.rolesOf g, player ∉ q.rolesOf g'
  merged : ∀ (player : ObjectGuid) (r : UInt8), roles[player]? = some r ↔
    ∃ g ∈ s, (q.rolesOf g)[player]? = some r
  solvable : (checkGroupRoles roles).1 = true
  dungeon : s.card ≤ 1 ∨ ∃ d, ∀ g ∈ s, d ∈ q.dungeonsOf g

/-- The counters of the entry are those of a party that it is in. -/
def Described (q : LFGQueue) (guid : ObjectGuid) (status : QueueStatus) : Prop :=
  ∃ s roles, guid ∈ s ∧ Party q s roles ∧ status.Counts (q.playersIn s)

/-- The roles of every entry passed the role check before it joined. -/
def LFGQueue.OwnRoles (q : LFGQueue) : Prop :=
  ∀ g, q.isQueued g = true →
    (q.rolesOf g).size < 256 ∧ (checkGroupRoles (q.rolesOf g)).1 = true

section Parties

variable {q q' : LFGQueue} {s : Finset ObjectGuid} {roles : LfgRolesMap} {guid : ObjectGuid}

theorem nonempty_of_checkGroupRoles (h : (checkGroupRoles roles).1 = true) :
    ∃ player, player ∈ roles := by
  by_contra hno
  have hempty : roles.isEmpty = true := by
    rw [isEmpty_iff]
    rintro ⟨player, hplayer⟩
    exact hno ⟨player, LfgRolesMap.mem_players.mp hplayer⟩
  simp [checkGroupRoles, checkGroupRolesFuel, hempty] at h

theorem LFGQueue.OwnRoles.sized (h : q.OwnRoles) : q.Sized := by
  intro g hg
  obtain ⟨hsize, hpass⟩ := h g hg
  refine ⟨?_, size_le_of_checkGroupRoles _ hsize hpass⟩
  obtain ⟨player, hplayer⟩ := nonempty_of_checkGroupRoles hpass
  rw [← LfgRolesMap.card_players, Finset.card_pos]
  exact ⟨player, LfgRolesMap.mem_players.mpr hplayer⟩

theorem Party.size (h : Party q s roles) : roles.size = q.playersIn s :=
  size_merged h.disjoint h.merged

theorem Party.single (hown : q.OwnRoles) (hq : q.isQueued guid = true) :
    Party q {guid} (q.rolesOf guid) where
  queued := by simpa using hq
  disjoint := by
    intro g hg g' hg' hne
    rw [Finset.mem_singleton] at hg hg'
    exact absurd (hg.trans hg'.symm) hne
  merged := by simp
  solvable := (hown guid hq).2
  dungeon := Or.inl (Finset.card_singleton guid).le

theorem Party.counts (h : Party q s roles) (hsize : roles.size < 256) (key : CompatibleKey) :
    ((QueueStatus.needed key).countRoles (checkGroupRoles roles).2).Counts (q.playersIn s) := by
  rw [← h.size]
  exact QueueStatus.counts_of_narrows (checkGroupRoles_narrows roles hsize h.solvable) key

theorem Party.of_agree (h : Party q s roles)
    (hagree : ∀ g ∈ s, q'.queueDataStore g = q.queueDataStore g) : Party q' s roles where
  queued g hg := by
    rw [isQueued_of_agree hagree g hg]
    exact h.queued g hg
  disjoint g hg g' hg' := by
    rw [rolesOf_of_agree hagree g hg, rolesOf_of_agree hagree g' hg']
    exact h.disjoint g hg g' hg'
  merged player r := by
    rw [h.merged]
    apply exists_congr
    intro g
    apply and_congr_right
    intro hg
    rw [rolesOf_of_agree hagree g hg]
  solvable := h.solvable
  dungeon := by
    apply h.dungeon.imp_right
    rintro ⟨d, hd⟩
    refine ⟨d, fun g hg => ?_⟩
    rw [dungeonsOf_of_agree hagree g hg]
    exact hd g hg

end Parties

/-! ## The group of `UpdateStatusNeeds` -/

theorem getElem?_foldl_insert (l : List (ObjectGuid × UInt8)) (m : LfgRolesMap)
    (hnodup : (l.map Prod.fst).Nodup) (hnew : ∀ x ∈ l, x.1 ∉ m) (player : ObjectGuid) (r : UInt8) :
    (l.foldl (fun merged player => merged.insert player.1 player.2) m)[player]? = some r ↔
      m[player]? = some r ∨ (player, r) ∈ l := by
  induction l generalizing m with
  | nil => simp
  | cons x l ih =>
    rw [List.map_cons, List.nodup_cons] at hnodup
    rw [List.forall_mem_cons] at hnew
    have hrest : ∀ y ∈ l, y.1 ∉ m.insert x.1 x.2 := by
      grind
    rw [List.foldl_cons, ih _ hnodup.2 hrest, Std.ExtTreeMap.getElem?_insert, List.mem_cons]
    grind

theorem getElem?_mergeOther {roles other : LfgRolesMap} (hnew : ∀ player ∈ other, player ∉ roles)
    (player : ObjectGuid) (r : UInt8) :
    (mergeOther roles other)[player]? = some r ↔
      roles[player]? = some r ∨ other[player]? = some r := by
  grind [LfgRolesMap.nodup_keys, EGServer.DungeonFinding.getElem?_foldl_insert, mergeOther]

/-- The loop has merged the entries of a party with the entry itself. -/
structure StatusMerge.Merged (q : LFGQueue) (entry : ObjectGuid) (m : StatusMerge)
    (s : Finset ObjectGuid) : Prop where
  member : entry ∈ s
  party : Party q s m.roles
  small : m.roles.size < 256
  dungeons : ∀ d, d ∈ m.dungeons ↔ ∀ g ∈ s, d ∈ q.dungeonsOf g

section Merge

variable {rules : LfgRules} {q : LFGQueue} {self guid : ObjectGuid} {m : StatusMerge}
  {s : Finset ObjectGuid}

theorem StatusMerge.Merged.accepted (h : m.Merged q self s) (hown : q.OwnRoles)
    {other : LfgQueueData} (hdata : q.queueDataStore guid = some other)
    (haccepts : m.accepts rules guid other = true) (b : Bool) :
    StatusMerge.Merged q self
      ⟨mergeOther m.roles other.roles, m.dungeons ∩ other.dungeons, b⟩ (insert guid s) := by
  simp only [StatusMerge.accepts, Bool.and_eq_true, decide_eq_true_eq, Bool.not_eq_true',
    decide_eq_false_iff_not, List.any_eq_false, Std.ExtTreeMap.mem_keys,
    Std.ExtTreeMap.contains_iff_mem] at haccepts
  obtain ⟨⟨⟨⟨⟨hsize, -⟩, hshare⟩, hnew⟩, hsolvable⟩, -⟩ := haccepts
  have hroles := LFGQueue.rolesOf_eq hdata
  have hdungeons := LFGQueue.dungeonsOf_eq hdata
  have hq : q.isQueued guid = true := LFGQueue.isQueued_iff.mpr ⟨other, hdata⟩
  -- a player of the group is in the role map, so no player of the other entry is
  have hapart : ∀ g ∈ s, ∀ player ∈ q.rolesOf g, player ∉ q.rolesOf guid := by
    intro g hg player hplayer hother
    obtain ⟨r, hr⟩ := LfgRolesMap.getElem?_of_mem (LfgRolesMap.mem_players.mpr hplayer)
    have hin := LfgRolesMap.mem_of_getElem? ((h.party.merged player r).mpr ⟨g, hg, hr⟩)
    exact hnew player (hroles ▸ hother) hin
  have hnotin : guid ∉ s := by
    intro hg
    obtain ⟨player, hplayer⟩ := nonempty_of_checkGroupRoles (hown guid hq).2
    exact hapart guid hg player hplayer hplayer
  have hparty : Party q (insert guid s) (mergeOther m.roles other.roles) := {
    queued := (Finset.forall_mem_insert ..).mpr ⟨hq, h.party.queued⟩
    disjoint := by
      intro g hg g' hg' hne player hplayer hplayer'
      rcases Finset.mem_insert.mp hg with rfl | hin
      · grind
      · rcases Finset.mem_insert.mp hg' with rfl | hin'
        · exact hapart g hin player hplayer hplayer'
        · exact h.party.disjoint g hin g' hin' hne player hplayer hplayer'
    merged := by
      intro player r
      rw [getElem?_mergeOther hnew, h.party.merged, ← hroles, or_comm]
      simp only [Finset.mem_insert, exists_eq_or_imp]
    solvable := hsolvable
    dungeon := by
      obtain ⟨d, hd⟩ := Finset.nonempty_iff_ne_empty.mpr hshare
      rw [Finset.mem_inter, ← hdungeons] at hd
      exact Or.inr ⟨d, (Finset.forall_mem_insert ..).mpr ⟨hd.1, (h.dungeons d).mp hd.2⟩⟩ }
  refine ⟨Finset.mem_insert_of_mem h.member, hparty, ?_, ?_⟩
  · have hsum : (mergeOther m.roles other.roles).size = other.roles.size + m.roles.size := by
      rw [hparty.size, h.party.size, LFGQueue.playersIn, Finset.sum_insert hnotin, hroles]
      rfl
    unfold MAX_GROUP_SIZE at hsize
    show (mergeOther m.roles other.roles).size < 256
    omega
  · intro d
    rw [Finset.mem_inter, h.dungeons, Finset.forall_mem_insert, hdungeons, and_comm]

theorem StatusMerge.Merged.add (h : m.Merged q self s) (hown : q.OwnRoles) (rules : LfgRules)
    (guid : ObjectGuid) : ∃ s', (m.add rules q self guid).Merged q self s' := by
  unfold StatusMerge.add
  split
  · exact ⟨s, h⟩
  split
  · exact ⟨s, h⟩
  · next other hdata =>
    split
    · next haccepts => exact ⟨_, h.accepted hown hdata haccepts _⟩
    · exact ⟨s, h⟩

theorem StatusMerge.Merged.loop (hown : q.OwnRoles) (rules : LfgRules) (guids : List ObjectGuid)
    (h : m.Merged q self s) : ∃ s', (mergeStatus rules q self guids m).Merged q self s' := by
  induction guids generalizing m s with
  | nil => exact ⟨s, h⟩
  | cons guid rest ih =>
    rw [mergeStatus]
    split
    · exact ⟨s, h⟩
    · obtain ⟨s', h'⟩ := h.add hown rules guid
      exact ih h'

theorem statusGroup_merged (hown : q.OwnRoles) (rules : LfgRules) (hq : q.isQueued self = true) :
    ∃ s, (statusGroup rules q self).Merged q self s := by
  apply StatusMerge.Merged.loop hown
  exact {
    member := Finset.mem_singleton_self self
    party := Party.single hown hq
    small := (hown self hq).1
    dungeons := by simp }

/-- **The counters of `UpdateStatusNeeds`** are those of a party of queued entries. -/
theorem described_updateStatusNeeds (hown : q.OwnRoles) (rules : LfgRules)
    (hq : q.isQueued self = true) (status : QueueStatus) :
    Described q self (status.updateStatusNeeds rules q self) := by
  obtain ⟨s, h⟩ := statusGroup_merged hown rules hq
  refine ⟨s, _, h.member, h.party, ?_⟩
  unfold QueueStatus.updateStatusNeeds
  dsimp only
  rw [h.party.solvable, if_neg Bool.true_eq_false_eq_False]
  exact h.party.counts h.small _

theorem guidSet_singleton (guid : ObjectGuid) : guidSet [guid] = [guid] := by
  have hlength : (guidSet [guid]).length = 1 := by
    grind [guidSet]
  obtain ⟨g, hg⟩ := List.length_eq_one_iff.mp hlength
  grind [mem_guidSet, List.mem_singleton_self]

theorem countGuidsInCompatibleKey_single (guid : ObjectGuid) :
    countGuidsInCompatibleKey (concatenateGuids [guid]) = 1 := by
  have hkey : concatenateGuids [guid] = guidToken guid := by
    rw [concatenateGuids, guidSet_singleton]
    simp
  have hne : guidToken guid ≠ [] := Nat.toDigits_ne_nil
  have hcount : (guidToken guid).count '|' = 0 :=
    List.count_eq_zero_of_not_mem (separator_notMem_guidToken guid)
  rw [hkey, countGuidsInCompatibleKey, if_neg hne, hcount]
  rfl

/-- `ResetBestCompatibleToSelf` counts the entry alone. -/
theorem resetBestCompatibleToSelf_eq (guid : ObjectGuid) (roles : LfgRolesMap) :
    QueueStatus.resetBestCompatibleToSelf guid roles =
      (QueueStatus.needed (concatenateGuids [guid])).countRoles (checkGroupRoles roles).2 := by
  unfold QueueStatus.resetBestCompatibleToSelf QueueStatus.updateBestCompatible
  rw [countGuidsInCompatibleKey_single]
  exact if_neg (by decide)

end Merge

end EGServer.DungeonFinding
