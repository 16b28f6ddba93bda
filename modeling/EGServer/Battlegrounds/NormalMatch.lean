import EGServer.Battlegrounds.FillPlayers

/-!
# New battlegrounds and arenas

`CheckNormalMatch` selects groups of each side until there are enough players, and then tries to make
the smaller side larger. For an arena, `CheckSkirmishForSameFaction` takes both teams from one side.
-/

namespace EGServer.Battlegrounds

/-! ## `CheckNormalMatch` -/

section

variable (groups : GroupRef → GroupQueueInfo)

/-- The first loop, for one side: the pool, and where the iterator is. -/
def selectTeam (minPlayers maxPlayers : Nat) :
    SelectionPool → List GroupRef → SelectionPool × List GroupRef
  | pool, [] => (pool, [])
  | pool, g :: rest =>
    if (groups g).invited then selectTeam minPlayers maxPlayers pool rest
    else if minPlayers ≤ (pool.addGroup groups g maxPlayers).2.playerCount then
      ((pool.addGroup groups g maxPlayers).2, g :: rest)
    else selectTeam minPlayers maxPlayers (pool.addGroup groups g maxPlayers).2 rest

/-- The groups that are not invited are added, until the pool is full. -/
def fillUninvited (desiredCount : Nat) : SelectionPool → List GroupRef → SelectionPool
  | pool, [] => pool
  | pool, g :: rest =>
    if (groups g).invited then fillUninvited desiredCount pool rest
    else
      match pool.addGroup groups g desiredCount with
      | (true, pool) => fillUninvited desiredCount pool rest
      | (false, pool) => pool

end

/-- The side with fewer players. -/
def smallerSide (pools : Team → SelectionPool) : Team :=
  if (pools .HORDE).playerCount < (pools .ALLIANCE).playerCount then .HORDE else .ALLIANCE

/-- The last lines of `CheckNormalMatch`. -/
def enoughPlayers (pools : Team → SelectionPool) (isTesting isBattleground : Bool) (minPlayers : Nat) : Bool :=
  if isTesting && isBattleground &&
      (decide (0 < (pools .ALLIANCE).playerCount) || decide (0 < (pools .HORDE).playerCount)) then true
  else decide (minPlayers ≤ (pools .ALLIANCE).playerCount) && decide (minPlayers ≤ (pools .HORDE).playerCount)

/-- `CheckNormalMatch`. There is no result where an iterator is moved past the end. -/
def checkNormalMatch (q : BattlegroundQueue) (isTesting isBattleground : Bool)
    (invitationType : InvitationType) (minPlayers maxPlayers : Nat) : Option (Bool × BattlegroundQueue) :=
  let selected (t : Team) := selectTeam q.groups minPlayers maxPlayers (q.selectionPools t)
    (q.queuedGroups (.normal t))
  let pools (t : Team) := (selected t).1
  let j := smallerSide pools
  if invitationType ≠ .NO_BALANCE ∧ minPlayers ≤ (pools .HORDE).playerCount ∧
      minPlayers ≤ (pools .ALLIANCE).playerCount then
    match (selected j).2 with
    | [] => none
    | _ :: rest =>
      let pools := Function.update pools j
        (fillUninvited q.groups (pools j.other).playerCount (pools j) rest)
      if 2 < |((pools .HORDE).playerCount : Int) - (pools .ALLIANCE).playerCount| then
        some (false, { q with selectionPools := pools })
      else
        some (enoughPlayers pools isTesting isBattleground minPlayers, { q with selectionPools := pools })
  else some (enoughPlayers pools isTesting isBattleground minPlayers, { q with selectionPools := pools })

/-! ## `CheckSkirmishForSameFaction` -/

/-- The first `g` after `ginfo` is erased. -/
def eraseAfter (ginfo g : GroupRef) : List GroupRef → List GroupRef
  | [] => []
  | a :: rest => if a = ginfo then a :: rest.erase g else a :: eraseAfter ginfo g rest

/-- A group is moved to the other side. -/
def moveGroup (ginfo : GroupRef) (team : Team) (q : BattlegroundQueue) (g : GroupRef) :
    BattlegroundQueue :=
  { q with
    groups := Function.update q.groups g { q.groups g with team := team.other }
    queuedGroups := Function.update
      (Function.update q.queuedGroups (.normal team.other) (g :: q.queuedGroups (.normal team.other)))
      (.normal team) (eraseAfter ginfo g (q.queuedGroups (.normal team))) }

/-- `CheckSkirmishForSameFaction`. There is no result where the last group of an empty pool is asked
for. -/
def checkSkirmishForSameFaction (q : BattlegroundQueue) (minPlayersPerTeam : Nat) :
    Option (Bool × BattlegroundQueue) :=
  if (q.selectionPools .ALLIANCE).playerCount < minPlayersPerTeam ∧
      (q.selectionPools .HORDE).playerCount < minPlayersPerTeam then some (false, q)
  else
    let team : Team :=
      if (q.selectionPools .HORDE).playerCount = minPlayersPerTeam then .HORDE else .ALLIANCE
    match (q.selectionPools team).selectedGroups.getLast? with
    | none => none
    | some ginfo =>
      match (q.queuedGroups (.normal team)).dropWhile fun g => g ≠ ginfo with
      | [] =>
        some (false, { q with selectionPools := Function.update q.selectionPools team.other .init })
      | _ :: rest =>
        let pool := fillUninvited q.groups minPlayersPerTeam .init rest
        let q := { q with selectionPools := Function.update q.selectionPools team.other pool }
        if pool.playerCount ≠ minPlayersPerTeam then some (false, q)
        else some (true, pool.selectedGroups.foldl (moveGroup ginfo team) q)

/-! ## Selecting a team -/

section

variable {groups : GroupRef → GroupQueueInfo} {queue rest : List GroupRef} {pool : SelectionPool}
  {minPlayers maxPlayers desiredCount limit : Nat}

/-- **A team is not complete, or it is since its last group was added**, where the iterator is. -/
theorem Selected.selectTeam (h : Selected groups queue maxPlayers pool rest)
    (hcount : pool.playerCount < minPlayers) :
    (∃ r, selectTeam groups minPlayers maxPlayers pool rest = (r, []) ∧ r.playerCount < minPlayers ∧
      Selected groups queue maxPlayers r []) ∨
    ∃ r g rest', selectTeam groups minPlayers maxPlayers pool rest = (r, g :: rest') ∧
      minPlayers ≤ r.playerCount ∧ Selected groups queue maxPlayers r rest' ∧
      r.selectedGroups.getLast? = some g ∧ (g :: rest').IsSuffix rest := by
  induction rest generalizing pool with
  | nil => exact .inl ⟨pool, rfl, hcount, h⟩
  | cons g rest ih =>
    rw [Battlegrounds.selectTeam]
    by_cases hinvited : (groups g).invited = true
    · rw [if_pos hinvited]
      rcases ih h.skip hcount with hleft | ⟨r, g', rest', hr, hmin, hselected, hlast, hsuffix⟩
      · exact .inl hleft
      · exact .inr ⟨r, g', rest', hr, hmin, hselected, hlast, hsuffix.trans (List.suffix_cons g rest)⟩
    · rw [if_neg hinvited]
      rcases pool.addGroup_cases groups g maxPlayers with ⟨hg, hle, hadd⟩ | ⟨_, hadd⟩
      · rw [hadd]
        split
        · rename_i hmin
          exact .inr ⟨_, g, rest, rfl, hmin, h.add hg hle, List.getLast?_concat .., List.suffix_refl _⟩
        · rename_i hmin
          rcases ih (h.add hg hle) (not_le.mp hmin) with
            hleft | ⟨r, g', rest', hr, hmin, hselected, hlast, hsuffix⟩
          · exact .inl hleft
          · exact .inr ⟨r, g', rest', hr, hmin, hselected, hlast, hsuffix.trans (List.suffix_cons g rest)⟩
      · rw [hadd, if_neg (not_le.mpr hcount)]
        rcases ih h.skip hcount with hleft | ⟨r, g', rest', hr, hmin, hselected, hlast, hsuffix⟩
        · exact .inl hleft
        · exact .inr ⟨r, g', rest', hr, hmin, hselected, hlast, hsuffix.trans (List.suffix_cons g rest)⟩

theorem Selected.nil (h : Selected groups queue limit pool rest) : Selected groups queue limit pool [] where
  sound := h.sound
  sublist := by
    rw [List.append_nil]
    exact (List.sublist_append_left _ rest).trans h.sublist
  le_limit := h.le_limit

theorem Selected.mono {limit' : Nat} (h : Selected groups queue limit pool rest) (hle : limit ≤ limit') :
    Selected groups queue limit' pool rest :=
  ⟨h.sound, h.sublist, h.le_limit.trans hle⟩

theorem Selected.fillUninvited (h : Selected groups queue limit pool rest) :
    Selected groups queue limit (fillUninvited groups limit pool rest) [] ∧
      pool.playerCount ≤ (Battlegrounds.fillUninvited groups limit pool rest).playerCount := by
  induction rest generalizing pool with
  | nil => exact ⟨h, Nat.le_refl _⟩
  | cons g rest ih =>
    rw [Battlegrounds.fillUninvited]
    by_cases hinvited : (groups g).invited = true
    · rw [if_pos hinvited]
      exact ih h.skip
    · rw [if_neg hinvited]
      rcases pool.addGroup_cases groups g limit with ⟨hg, hle, hadd⟩ | ⟨_, hadd⟩
      · rw [hadd]
        obtain ⟨hselected, hcount⟩ := ih (h.add hg hle)
        exact ⟨hselected, (Nat.le_add_right _ _).trans hcount⟩
      · rw [hadd]
        cases decide (pool.playerCount < limit) with
        | true => exact ih h.skip
        | false => exact ⟨h.nil, Nat.le_refl _⟩

end

/-! ## Legal teams -/

/-- **Legal teams**: the pools hold groups of their side's queue, in its order, that are not invited, with
between `minPlayers` and `maxPlayers` players; with a balanced invitation type the difference is at most
two. -/
structure LegalTeams (q : BattlegroundQueue) (invitationType : InvitationType) (minPlayers maxPlayers : Nat)
    (pools : Team → SelectionPool) : Prop where
  sublist : ∀ t, (pools t).selectedGroups.Sublist (q.queuedGroups (.normal t))
  distinct : ∀ t, (pools t).selectedGroups.Nodup
  uninvited : ∀ t, ∀ g ∈ (pools t).selectedGroups, (q.groups g).invited = false
  playerCount : ∀ t, (pools t).playerCount = countPlayers q.groups (pools t).selectedGroups
  min_le : ∀ t, minPlayers ≤ (pools t).playerCount
  le_max : ∀ t, (pools t).playerCount ≤ maxPlayers
  balanced : invitationType ≠ .NO_BALANCE →
    |((pools .HORDE).playerCount : Int) - (pools .ALLIANCE).playerCount| ≤ 2

section

variable {q : BattlegroundQueue} {invitationType : InvitationType} {minPlayers maxPlayers : Nat}
  {isBattleground : Bool} {pools : Team → SelectionPool}

theorem legalTeams_of_selected (hq : q.WellFormed)
    (h : ∀ t, Selected q.groups (q.queuedGroups (.normal t)) maxPlayers (pools t) [])
    (hmin : ∀ t, minPlayers ≤ (pools t).playerCount)
    (hbalanced : invitationType ≠ .NO_BALANCE →
      |((pools .HORDE).playerCount : Int) - (pools .ALLIANCE).playerCount| ≤ 2) :
    LegalTeams q invitationType minPlayers maxPlayers pools := by
  have hsublist : ∀ t, (pools t).selectedGroups.Sublist (q.queuedGroups (.normal t)) := fun t =>
    (List.sublist_append_left _ _).trans (h t).sublist
  exact ⟨hsublist, fun t => (hq.nodup_list _).sublist (hsublist t), fun t => (h t).sound.uninvited,
    fun t => (h t).sound.playerCount, hmin, fun t => (h t).le_limit, hbalanced⟩

/-- What the first loop of `CheckNormalMatch` selects. -/
def firstSelection (q : BattlegroundQueue) (minPlayers maxPlayers : Nat) (t : Team) :
    SelectionPool × List GroupRef :=
  selectTeam q.groups minPlayers maxPlayers .init (q.queuedGroups (.normal t))

/-- The side that has fewer players then. -/
def smallerTeam (q : BattlegroundQueue) (minPlayers maxPlayers : Nat) : Team :=
  smallerSide fun t => (firstSelection q minPlayers maxPlayers t).1

/-- The pools, after it was tried to invite more groups for the smaller side. -/
def evenedPools (q : BattlegroundQueue) (minPlayers maxPlayers : Nat) : Team → SelectionPool :=
  Function.update (fun t => (firstSelection q minPlayers maxPlayers t).1)
    (smallerTeam q minPlayers maxPlayers)
    (fillUninvited q.groups
      (firstSelection q minPlayers maxPlayers (smallerTeam q minPlayers maxPlayers).other).1.playerCount
      (firstSelection q minPlayers maxPlayers (smallerTeam q minPlayers maxPlayers)).1
      (firstSelection q minPlayers maxPlayers (smallerTeam q minPlayers maxPlayers)).2.tail)

theorem firstSelection_selected (q : BattlegroundQueue) (hmin : 1 ≤ minPlayers) (t : Team) :
    Selected q.groups (q.queuedGroups (.normal t)) maxPlayers (firstSelection q minPlayers maxPlayers t).1
      (firstSelection q minPlayers maxPlayers t).2.tail := by
  rcases (Selected.init q.groups (q.queuedGroups (.normal t)) maxPlayers).selectTeam hmin with
    ⟨r, hr, _, hselected⟩ | ⟨r, g, rest, hr, _, hselected, _⟩
  · rw [firstSelection, hr]
    exact hselected
  · rw [firstSelection, hr]
    exact hselected

theorem firstSelection_ne_nil (hmin : 1 ≤ minPlayers) {t : Team}
    (h : minPlayers ≤ (firstSelection q minPlayers maxPlayers t).1.playerCount) :
    ∃ g rest, (firstSelection q minPlayers maxPlayers t).2 = g :: rest ∧
      (firstSelection q minPlayers maxPlayers t).1.selectedGroups.getLast? = some g ∧
      (g :: rest).IsSuffix (q.queuedGroups (.normal t)) := by
  rcases (Selected.init q.groups (q.queuedGroups (.normal t)) maxPlayers).selectTeam hmin with
    ⟨r, hr, hlt, _⟩ | ⟨r, g, rest, hr, _, _, hlast, hsuffix⟩
  · rw [firstSelection, hr] at h
    exact (Nat.not_le_of_lt hlt h).elim
  · rw [firstSelection, hr]
    exact ⟨g, rest, rfl, hlast, hsuffix⟩

theorem smallerSide_le (pools : Team → SelectionPool) :
    (pools (smallerSide pools)).playerCount ≤ (pools (smallerSide pools).other).playerCount := by
  rw [smallerSide]
  split
  · rename_i hlt
    exact hlt.le
  · rename_i hle
    exact not_lt.mp hle

theorem evenedPools_selected (q : BattlegroundQueue) (maxPlayers : Nat) (hmin : 1 ≤ minPlayers) (t : Team) :
    Selected q.groups (q.queuedGroups (.normal t)) maxPlayers (evenedPools q minPlayers maxPlayers t) [] ∧
      (firstSelection q minPlayers maxPlayers t).1.playerCount ≤
        (evenedPools q minPlayers maxPlayers t).playerCount := by
  have hfirst : ∀ t, Selected q.groups (q.queuedGroups (.normal t)) maxPlayers
      (firstSelection q minPlayers maxPlayers t).1 (firstSelection q minPlayers maxPlayers t).2.tail :=
    firstSelection_selected q hmin
  have hle := smallerSide_le fun t => (firstSelection q minPlayers maxPlayers t).1
  unfold evenedPools smallerTeam
  generalize (smallerSide fun t => (firstSelection q minPlayers maxPlayers t).1) = j at hle ⊢
  obtain ⟨hfilled, hcount⟩ := (Selected.mk (hfirst j).sound (hfirst j).sublist hle).fillUninvited
  rcases j.eq_or_eq_other t with rfl | rfl
  · rw [Function.update_self]
    exact ⟨hfilled.mono (hfirst t.other).le_limit, hcount⟩
  · rw [Function.update_of_ne j.other_ne]
    exact ⟨(hfirst j.other).nil, Nat.le_refl _⟩

theorem enoughPlayers_iff : enoughPlayers pools false isBattleground minPlayers = true ↔
    ∀ t, minPlayers ≤ (pools t).playerCount := by
  rw [enoughPlayers, Bool.false_and, Bool.false_and, if_neg Bool.false_ne_true, Bool.and_eq_true,
    decide_eq_true_iff, decide_eq_true_iff]
  constructor
  · rintro ⟨ha, hh⟩ t
    cases t with
    | ALLIANCE => exact ha
    | HORDE => exact hh
  · intro h
    exact ⟨h .ALLIANCE, h .HORDE⟩

theorem checkNormalMatch_of_complete (hmin : 1 ≤ minPlayers) (htype : invitationType ≠ .NO_BALANCE)
    (h : ∀ t, minPlayers ≤ (firstSelection q minPlayers maxPlayers t).1.playerCount) :
    checkNormalMatch q.initPools false isBattleground invitationType minPlayers maxPlayers =
      if 2 < |((evenedPools q minPlayers maxPlayers .HORDE).playerCount : Int) -
          (evenedPools q minPlayers maxPlayers .ALLIANCE).playerCount| then
        some (false, { q with selectionPools := evenedPools q minPlayers maxPlayers })
      else some (enoughPlayers (evenedPools q minPlayers maxPlayers) false isBattleground minPlayers,
        { q with selectionPools := evenedPools q minPlayers maxPlayers }) := by
  obtain ⟨g, rest, hiterator, _⟩ := firstSelection_ne_nil hmin (h (smallerTeam q minPlayers maxPlayers))
  have hevened : evenedPools q minPlayers maxPlayers =
      Function.update (fun t => (firstSelection q minPlayers maxPlayers t).1)
        (smallerTeam q minPlayers maxPlayers)
        (fillUninvited q.groups
          (firstSelection q minPlayers maxPlayers (smallerTeam q minPlayers maxPlayers).other).1.playerCount
          (firstSelection q minPlayers maxPlayers (smallerTeam q minPlayers maxPlayers)).1 rest) := by
    rw [evenedPools, hiterator, List.tail_cons]
  rw [hevened]
  unfold checkNormalMatch
  rw [if_pos ⟨htype, h .HORDE, h .ALLIANCE⟩]
  show (match (firstSelection q minPlayers maxPlayers (smallerTeam q minPlayers maxPlayers)).2 with
    | [] => none
    | _ :: rest => _) = _
  rw [hiterator]
  rfl

theorem checkNormalMatch_of_first
    (h : ¬(invitationType ≠ .NO_BALANCE ∧
      ∀ t, minPlayers ≤ (firstSelection q minPlayers maxPlayers t).1.playerCount)) :
    checkNormalMatch q.initPools false isBattleground invitationType minPlayers maxPlayers =
      some (enoughPlayers (fun t => (firstSelection q minPlayers maxPlayers t).1) false isBattleground
        minPlayers, { q with selectionPools := fun t => (firstSelection q minPlayers maxPlayers t).1 }) := by
  unfold checkNormalMatch
  refine if_neg ?_
  rintro ⟨htype, hhorde, halliance⟩
  refine h ⟨htype, ?_⟩
  intro t
  cases t with
  | ALLIANCE => exact halliance
  | HORDE => exact hhorde

theorem exists_checkNormalMatch (q : BattlegroundQueue) (invitationType : InvitationType)
    (isBattleground : Bool) (hmin : 1 ≤ minPlayers) (maxPlayers : Nat) :
    ∃ r, checkNormalMatch q.initPools false isBattleground invitationType minPlayers maxPlayers = some r := by
  by_cases h : invitationType ≠ .NO_BALANCE ∧
      ∀ t, minPlayers ≤ (firstSelection q minPlayers maxPlayers t).1.playerCount
  · rw [checkNormalMatch_of_complete hmin h.1 h.2]
    split
    · exact ⟨_, rfl⟩
    · exact ⟨_, rfl⟩
  · exact ⟨_, checkNormalMatch_of_first h⟩

/-- **A match that `CheckNormalMatch` allows has legal teams.** -/
theorem legalTeams_of_checkNormalMatch {q' : BattlegroundQueue} (hq : q.WellFormed) (hmin : 1 ≤ minPlayers)
    (h : checkNormalMatch q.initPools false isBattleground invitationType minPlayers maxPlayers =
      some (true, q')) :
    q' = { q with selectionPools := q'.selectionPools } ∧
      LegalTeams q invitationType minPlayers maxPlayers q'.selectionPools := by
  by_cases hcomplete : invitationType ≠ .NO_BALANCE ∧
      ∀ t, minPlayers ≤ (firstSelection q minPlayers maxPlayers t).1.playerCount
  · rw [checkNormalMatch_of_complete hmin hcomplete.1 hcomplete.2] at h
    split at h
    · cases h
    · rename_i hdiff
      rw [Option.some.injEq, Prod.mk.injEq] at h
      obtain ⟨_, rfl⟩ := h
      refine ⟨rfl, legalTeams_of_selected hq (fun t => (evenedPools_selected q maxPlayers hmin t).1) ?_
        fun _ => not_lt.mp hdiff⟩
      intro t
      exact (hcomplete.2 t).trans (evenedPools_selected q maxPlayers hmin t).2
  · rw [checkNormalMatch_of_first hcomplete, Option.some.injEq, Prod.mk.injEq] at h
    obtain ⟨henough, rfl⟩ := h
    rw [enoughPlayers_iff] at henough
    refine ⟨rfl, legalTeams_of_selected hq (fun t => (firstSelection_selected q hmin t).nil) henough ?_⟩
    intro htype
    exact (hcomplete ⟨htype, henough⟩).elim

theorem checkNormalMatch_eq_false {q' : BattlegroundQueue} (hmin : 1 ≤ minPlayers)
    (h : checkNormalMatch q.initPools false isBattleground invitationType minPlayers minPlayers =
      some (false, q')) :
    q' = { q with selectionPools := fun t => (firstSelection q minPlayers minPlayers t).1 } := by
  by_cases hcomplete : invitationType ≠ .NO_BALANCE ∧
      ∀ t, minPlayers ≤ (firstSelection q minPlayers minPlayers t).1.playerCount
  · have heq : ∀ t, (evenedPools q minPlayers minPlayers t).playerCount = minPlayers := by
      intro t
      obtain ⟨hselected, hle⟩ := evenedPools_selected q minPlayers hmin t
      exact le_antisymm hselected.le_limit ((hcomplete.2 t).trans hle)
    rw [checkNormalMatch_of_complete hmin hcomplete.1 hcomplete.2, heq, heq, sub_self, abs_zero,
      if_neg (by omega), Option.some.injEq, Prod.mk.injEq] at h
    grind [enoughPlayers]
  · rw [checkNormalMatch_of_first hcomplete, Option.some.injEq, Prod.mk.injEq] at h
    exact h.2.symm

end

/-! ## A skirmish between groups of one side -/

/-- The groups are moved to the front of the other side's list, and their team is changed. All other
groups keep their list and their order. -/
structure Moved (q q' : BattlegroundQueue) (team : Team) (moved : List GroupRef) : Prop where
  other : q'.queuedGroups (.normal team.other) = moved.reverse ++ q.queuedGroups (.normal team.other)
  own : q'.queuedGroups (.normal team) = (q.queuedGroups (.normal team)).filter fun g => g ∉ moved
  premade : ∀ t, q'.queuedGroups (.premade t) = q.queuedGroups (.premade t)
  team_of_moved : ∀ g ∈ moved, q'.groups g = { q.groups g with team := team.other }
  groups_of_kept : ∀ g ∉ moved, q'.groups g = q.groups g

/-- **A skirmish**: both pools hold groups of one side's queue that are not invited, no group is in both,
and each pool has the players of a team. The groups of the second pool have been moved to the other
side. -/
structure SkirmishTeams (q q' : BattlegroundQueue) (team : Team) (minPlayers : Nat) : Prop where
  sublist : ∀ t, (q'.selectionPools t).selectedGroups.Sublist (q.queuedGroups (.normal team))
  distinct : ∀ t, (q'.selectionPools t).selectedGroups.Nodup
  uninvited : ∀ t, ∀ g ∈ (q'.selectionPools t).selectedGroups, (q.groups g).invited = false
  playerCount : ∀ t, (q'.selectionPools t).playerCount = minPlayers ∧
    countPlayers q.groups (q'.selectionPools t).selectedGroups = minPlayers
  disjoint : (q'.selectionPools team).selectedGroups.Disjoint (q'.selectionPools team.other).selectedGroups
  moved : Moved q q' team (q'.selectionPools team.other).selectedGroups

section

variable {q : BattlegroundQueue} {team : Team} {minPlayers : Nat} {ginfo g : GroupRef}
  {before rest moved : List GroupRef}

theorem eraseAfter_append (hbefore : ginfo ∉ before) :
    eraseAfter ginfo g (before ++ ginfo :: rest) = before ++ ginfo :: rest.erase g := by
  induction before with
  | nil => rw [List.nil_append, eraseAfter, if_pos rfl, List.nil_append]
  | cons a before ih =>
    rw [List.mem_cons, not_or] at hbefore
    rw [List.cons_append, eraseAfter, if_neg (Ne.symm hbefore.1), ih hbefore.2, List.cons_append]

/-- **Moving some groups**, one after the other: they are behind `ginfo` in the list. -/
theorem moved_foldl (hnodup : (before ++ ginfo :: rest).Nodup) (hmoved : moved.Nodup)
    (hsubset : ∀ g ∈ moved, g ∈ rest) (hq : q.queuedGroups (.normal team) = before ++ ginfo :: rest) :
    Moved q (moved.foldl (moveGroup ginfo team) q) team moved ∧
      (moved.foldl (moveGroup ginfo team) q).selectionPools = q.selectionPools := by
  induction moved generalizing q rest with
  | nil => exact ⟨⟨rfl, by simp, fun _ => rfl, fun _ h => (List.not_mem_nil h).elim, fun _ _ => rfl⟩, rfl⟩
  | cons g moved ih =>
    have hbefore : ginfo ∉ before := by
      intro hmem
      exact (List.disjoint_of_nodup_append hnodup) hmem List.mem_cons_self
    have hg := hsubset g List.mem_cons_self
    have hother : (moveGroup ginfo team q g).queuedGroups (.normal team.other) =
        g :: q.queuedGroups (.normal team.other) := by
      simp [moveGroup]
    have hown : (moveGroup ginfo team q g).queuedGroups (.normal team) =
        before ++ ginfo :: rest.erase g := by
      simp only [moveGroup, Function.update_self]
      rw [hq, eraseAfter_append hbefore]
    have herase : before ++ ginfo :: rest.erase g = (before ++ ginfo :: rest).erase g := by
      grind
    have hnodup' : (before ++ ginfo :: rest.erase g).Nodup := by
      rw [herase]
      exact hnodup.erase g
    have hsubset' : ∀ a ∈ moved, a ∈ rest.erase g := by
      grind
    obtain ⟨hmovedTo, hpools⟩ := ih hnodup' (List.nodup_cons.mp hmoved).2 hsubset' hown
    refine ⟨⟨?_, ?_, ?_, ?_, ?_⟩, hpools⟩
    · rw [List.foldl_cons, hmovedTo.other, hother, List.reverse_cons, List.append_assoc, List.singleton_append]
    · rw [List.foldl_cons, hmovedTo.own, hown, herase, hq, hnodup.erase_eq_filter, List.filter_filter]
      refine List.filter_congr ?_
      intro a _
      simp [Bool.and_comm, bne, Bool.beq_eq_decide_eq]
    · intro t
      rw [List.foldl_cons, hmovedTo.premade t]
      simp [moveGroup]
    · intro a ha
      rw [List.foldl_cons]
      rcases List.mem_cons.mp ha with rfl | ha'
      · rw [hmovedTo.groups_of_kept a (List.nodup_cons.mp hmoved).1]
        simp [moveGroup]
      · have hne : a ≠ g := by
          rintro rfl
          exact (List.nodup_cons.mp hmoved).1 ha'
        rw [hmovedTo.team_of_moved a ha']
        simp [moveGroup, Function.update_of_ne hne]
    · intro a ha
      rw [List.mem_cons, not_or] at ha
      rw [List.foldl_cons, hmovedTo.groups_of_kept a ha.2]
      simp [moveGroup, Function.update_of_ne ha.1]

theorem dropWhile_eq_of_suffix {queue : List GroupRef} (hnodup : queue.Nodup)
    (hsuffix : (ginfo :: rest).IsSuffix queue) :
    (queue.dropWhile fun g => g ≠ ginfo) = ginfo :: rest ∧ ∃ before, queue = before ++ ginfo :: rest := by
  obtain ⟨before, rfl⟩ := hsuffix
  refine ⟨?_, before, rfl⟩
  have hbefore : ∀ g ∈ before, decide (g ≠ ginfo) = true := by
    grind
  rw [List.dropWhile_append_of_pos hbefore, List.dropWhile_cons_of_neg (by simp)]

/-- **The team that is complete**, and the groups behind its last one. -/
theorem checkSkirmish_cases (q : BattlegroundQueue) (hq : q.WellFormed) (hmin : 1 ≤ minPlayers) :
    let q1 : BattlegroundQueue :=
      { q with selectionPools := fun t => (firstSelection q minPlayers minPlayers t).1 }
    checkSkirmishForSameFaction q1 minPlayers = some (false, q1) ∨
    ∃ team ginfo before rest pool,
      q.queuedGroups (.normal team) = before ++ ginfo :: rest ∧
      Selected q.groups (q.queuedGroups (.normal team)) minPlayers (q1.selectionPools team) rest ∧
      (q1.selectionPools team).playerCount = minPlayers ∧
      Selected q.groups rest minPlayers pool [] ∧
      checkSkirmishForSameFaction q1 minPlayers =
        if pool.playerCount ≠ minPlayers then
          some (false, { q1 with selectionPools := Function.update q1.selectionPools team.other pool })
        else some (true, pool.selectedGroups.foldl (moveGroup ginfo team)
          { q1 with selectionPools := Function.update q1.selectionPools team.other pool }) := by
  intro q1
  have hselected : ∀ t, Selected q.groups (q.queuedGroups (.normal t)) minPlayers (q1.selectionPools t)
      (firstSelection q minPlayers minPlayers t).2.tail := firstSelection_selected q hmin
  by_cases hfew : (q1.selectionPools .ALLIANCE).playerCount < minPlayers ∧
      (q1.selectionPools .HORDE).playerCount < minPlayers
  · left
    rw [checkSkirmishForSameFaction, if_pos hfew]
  · obtain ⟨team, hteam, hcount⟩ : ∃ team : Team,
        (if (q1.selectionPools .HORDE).playerCount = minPlayers then Team.HORDE else .ALLIANCE) = team ∧
        (q1.selectionPools team).playerCount = minPlayers := by
      have hhorde := (hselected .HORDE).le_limit
      have halliance := (hselected .ALLIANCE).le_limit
      split
      · rename_i heq
        exact ⟨_, rfl, heq⟩
      · exact ⟨_, rfl, by omega⟩
    obtain ⟨ginfo, rest, hiterator, hlast, hsuffix⟩ := firstSelection_ne_nil hmin hcount.ge
    obtain ⟨hdrop, before, hqueue⟩ := dropWhile_eq_of_suffix (hq.nodup_list (.normal team)) hsuffix
    have hteamSelected := hselected team
    rw [hiterator, List.tail_cons] at hteamSelected
    refine .inr ⟨team, ginfo, before, rest, fillUninvited q.groups minPlayers .init rest, hqueue,
      hteamSelected, hcount, (Selected.init q.groups rest minPlayers).fillUninvited.1, ?_⟩
    have hlast' : (q1.selectionPools team).selectedGroups.getLast? = some ginfo := hlast
    rw [checkSkirmishForSameFaction, if_neg hfew]
    grind

theorem skirmishTeams_foldl {pools : Team → SelectionPool} {pool : SelectionPool} (hq : q.WellFormed)
    (hqueue : q.queuedGroups (.normal team) = before ++ ginfo :: rest)
    (hselected : Selected q.groups (q.queuedGroups (.normal team)) minPlayers (pools team) rest)
    (hcount : (pools team).playerCount = minPlayers) (hpool : Selected q.groups rest minPlayers pool [])
    (hfull : pool.playerCount = minPlayers) :
    SkirmishTeams q (pool.selectedGroups.foldl (moveGroup ginfo team)
      { q with selectionPools := Function.update pools team.other pool }) team minPlayers := by
  have hnodup := hq.nodup_list (.normal team)
  have hpoolrest : pool.selectedGroups.Sublist rest := (List.sublist_append_left _ _).trans hpool.sublist
  have hsplit : (before ++ ginfo :: rest).Nodup := by
    rw [← hqueue]
    exact hnodup
  have hrest : rest.Nodup := (List.nodup_cons.mp (List.nodup_append.mp hsplit).2.1).2
  have hrestqueue : rest.Sublist (q.queuedGroups (.normal team)) := by
    rw [hqueue]
    exact (List.sublist_cons_self ginfo rest).trans (List.sublist_append_right before _)
  obtain ⟨hmoved, hpools⟩ := moved_foldl
    (q := { q with selectionPools := Function.update pools team.other pool })
    hsplit (hrest.sublist hpoolrest) (fun g hg => hpoolrest.subset hg) hqueue
  generalize pool.selectedGroups.foldl (moveGroup ginfo team)
    { q with selectionPools := Function.update pools team.other pool } = q' at hmoved hpools ⊢
  have hown : q'.selectionPools team = pools team := by
    rw [hpools]
    exact Function.update_of_ne team.other_ne.symm ..
  have hother : q'.selectionPools team.other = pool := by
    rw [hpools]
    exact Function.update_self ..
  have hsublist : ∀ t, (q'.selectionPools t).selectedGroups.Sublist (q.queuedGroups (.normal team)) := by
    intro t
    rcases team.eq_or_eq_other t with rfl | rfl
    · rw [hown]
      exact (List.sublist_append_left _ _).trans hselected.sublist
    · rw [hother]
      exact hpoolrest.trans hrestqueue
  refine ⟨hsublist, fun t => hnodup.sublist (hsublist t), ?_, ?_, ?_, ?_⟩
  · intro t
    rcases team.eq_or_eq_other t with rfl | rfl
    · rw [hown]
      exact hselected.sound.uninvited
    · rw [hother]
      exact hpool.sound.uninvited
  · intro t
    rcases team.eq_or_eq_other t with rfl | rfl
    · rw [hown, ← hselected.sound.playerCount]
      exact ⟨hcount, hcount⟩
    · rw [hother, ← hpool.sound.playerCount]
      exact ⟨hfull, hfull⟩
  · rw [hown, hother]
    intro g hg hgpool
    exact (List.disjoint_of_nodup_append (hnodup.sublist hselected.sublist)) hg (hpoolrest.subset hgpool)
  · rw [hother]
    exact ⟨hmoved.other, hmoved.own, hmoved.premade, hmoved.team_of_moved, hmoved.groups_of_kept⟩

/-- **A skirmish that is allowed has two teams of one side**, and the last group of an empty pool is
never asked for. -/
theorem skirmishTeams_of_checkSkirmish (hq : q.WellFormed) (hmin : 1 ≤ minPlayers) :
    (∃ r, checkSkirmishForSameFaction
      { q with selectionPools := fun t => (firstSelection q minPlayers minPlayers t).1 } minPlayers = some r) ∧
    ∀ q', checkSkirmishForSameFaction
        { q with selectionPools := fun t => (firstSelection q minPlayers minPlayers t).1 } minPlayers =
          some (true, q') → ∃ team, SkirmishTeams q q' team minPlayers := by
  rcases checkSkirmish_cases q hq hmin with
    hfalse | ⟨team, ginfo, before, rest, pool, hqueue, hselected, hcount, hpool, heq⟩
  · rw [hfalse]
    refine ⟨⟨_, rfl⟩, ?_⟩
    intro q' h
    cases h
  · rw [heq]
    split
    · refine ⟨⟨_, rfl⟩, ?_⟩
      intro q' h
      cases h
    · rename_i hfull
      refine ⟨⟨_, rfl⟩, ?_⟩
      intro q' h
      rw [Option.some.injEq, Prod.mk.injEq] at h
      obtain ⟨_, rfl⟩ := h
      exact ⟨team, skirmishTeams_foldl hq hqueue hselected hcount hpool (not_not.mp hfull)⟩

end

/-! ## New matches -/

section

variable {q : BattlegroundQueue} {minPlayers maxPlayers : Nat}

/-- **A new battleground or arena starts with legal teams**, and no iterator or empty pool is misused on
the way. -/
theorem newMatch_legal (hq : q.WellFormed) (hmin : 1 ≤ minPlayers) (hmax : minPlayers ≤ maxPlayers)
    (invitationType : InvitationType) (isBattleground : Bool) :
    (∃ r, checkNormalMatch q.initPools false isBattleground invitationType minPlayers maxPlayers = some r) ∧
    (∀ q', checkNormalMatch q.initPools false isBattleground invitationType minPlayers maxPlayers =
        some (true, q') → q' = { q with selectionPools := q'.selectionPools } ∧
      LegalTeams q invitationType minPlayers maxPlayers q'.selectionPools) ∧
    (minPlayers = maxPlayers → ∀ q₁,
      checkNormalMatch q.initPools false isBattleground invitationType minPlayers maxPlayers =
        some (false, q₁) →
      (∃ r, checkSkirmishForSameFaction q₁ minPlayers = some r) ∧
      ∀ q₂, checkSkirmishForSameFaction q₁ minPlayers = some (true, q₂) →
        ∃ team, SkirmishTeams q q₂ team minPlayers) := by
  refine ⟨exists_checkNormalMatch q invitationType isBattleground hmin maxPlayers, ?_, ?_⟩
  · intro q' h
    exact legalTeams_of_checkNormalMatch hq hmin h
  · rintro rfl q₁ h
    rw [checkNormalMatch_eq_false hmin h]
    exact skirmishTeams_of_checkSkirmish hq hmin

end

/-- Two alliance groups of two players, and no horde group. -/
def twoOfOneSide : BattlegroundQueue where
  groups
    | 0 => ⟨[1, 2], .ALLIANCE, false, 0, 0, 0, 0, 0, 0, 0, 0, 0⟩
    | _ => ⟨[3, 4], .ALLIANCE, false, 0, 0, 0, 0, 0, 0, 0, 0, 0⟩
  queuedGroups
    | .normal .ALLIANCE => [0, 1]
    | _ => []
  selectionPools _ := .init

theorem wellFormed_twoOfOneSide : twoOfOneSide.WellFormed :=
  ⟨by decide, by decide⟩

theorem newMatch_legal_twoOfOneSide :
    (∃ r, checkNormalMatch twoOfOneSide.initPools false false .BALANCED 2 2 = some r) ∧
    (∀ q', checkNormalMatch twoOfOneSide.initPools false false .BALANCED 2 2 = some (true, q') →
      q' = { twoOfOneSide with selectionPools := q'.selectionPools } ∧
      LegalTeams twoOfOneSide .BALANCED 2 2 q'.selectionPools) ∧
    (2 = 2 → ∀ q₁, checkNormalMatch twoOfOneSide.initPools false false .BALANCED 2 2 = some (false, q₁) →
      (∃ r, checkSkirmishForSameFaction q₁ 2 = some r) ∧
      ∀ q₂, checkSkirmishForSameFaction q₁ 2 = some (true, q₂) →
        ∃ team, SkirmishTeams twoOfOneSide q₂ team 2) :=
  newMatch_legal wellFormed_twoOfOneSide (by decide) (by decide) .BALANCED false

end EGServer.Battlegrounds
