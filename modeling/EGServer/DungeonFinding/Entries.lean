import EGServer.DungeonFinding.Matching
import Mathlib.Algebra.BigOperators.Group.List.Basic

/-!
# What is gathered about a list of entries

`CheckCompatibility` goes over a list of entries several times: it counts their players and
LFG groups, merges their roles and intersects their dungeons. Here each of these loops gets
its closed form. The role map the loop merges holds as many players as the entries have
exactly when no player is met twice and none ignores another.
-/

namespace EGServer.DungeonFinding

/-! ## Players of a list of entries -/

namespace LFGQueue

variable (q : LFGQueue)

/-- The players of the entries with the roles they selected, in the order they are met. -/
def playersOf (check : List ObjectGuid) : List (ObjectGuid × UInt8) :=
  check.flatMap fun guid => (q.rolesOf guid).toList

/-- How many players the entries have. -/
def total (check : List ObjectGuid) : Nat :=
  (check.map fun guid => (q.rolesOf guid).size).sum

/-- Every entry holds the players of one person or of one party. -/
def Sized : Prop :=
  ∀ guid, q.isQueued guid = true →
    0 < (q.rolesOf guid).size ∧ (q.rolesOf guid).size ≤ MAX_GROUP_SIZE

variable {q} {guid : ObjectGuid} {check : List ObjectGuid}

@[simp] theorem total_nil : q.total [] = 0 := rfl

@[simp] theorem total_cons : q.total (guid :: check) = (q.rolesOf guid).size + q.total check :=
  rfl

@[simp] theorem total_append (a b : List ObjectGuid) :
    q.total (a ++ b) = q.total a + q.total b := by
  simp [total]

theorem length_playersOf : (q.playersOf check).length = q.total check := by
  simp [playersOf, total, List.length_flatMap, Std.ExtTreeMap.length_toList]

theorem mem_playersOf {player : ObjectGuid} {roles : UInt8} :
    (player, roles) ∈ q.playersOf check ↔
      ∃ guid ∈ check, (q.rolesOf guid)[player]? = some roles := by
  simp [playersOf, Std.ExtTreeMap.mem_toList_iff_getElem?_eq_some]

theorem isQueued_iff : q.isQueued guid = true ↔ ∃ data, q.queueDataStore guid = some data := by
  rw [isQueued, Option.isSome_iff_exists]

theorem Sized.size_pos (h : q.Sized) (hq : q.isQueued guid = true) :
    0 < (q.rolesOf guid).size := by
  exact (h guid hq).1

theorem Sized.size_le (h : q.Sized) (guid : ObjectGuid) :
    (q.rolesOf guid).size ≤ MAX_GROUP_SIZE := by
  cases hd : q.queueDataStore guid with
  | none => simp [rolesOf, hd]
  | some data => exact (h guid (isQueued_iff.mpr ⟨data, hd⟩)).2

theorem length_le_total (h : q.Sized) (hq : ∀ g ∈ check, q.isQueued g = true) :
    check.length ≤ q.total check := by
  induction check with
  | nil => exact Nat.le_refl 0
  | cons g rest ih =>
    have hpos := h.size_pos (hq g (List.mem_cons_self ..))
    grind [total_cons]

end LFGQueue

variable {env : LfgEnv} {q : LFGQueue} {guid : ObjectGuid} {check : List ObjectGuid}

/-! ## The dungeons they share -/

theorem mem_commonDungeons {d : DungeonId} :
    d ∈ commonDungeons q check ↔ check ≠ [] ∧ ∀ g ∈ check, d ∈ q.dungeonsOf g := by
  cases check with
  | nil => simp [commonDungeons]
  | cons g rest =>
    have hfold : ∀ (l : List ObjectGuid) (common : Finset DungeonId),
        d ∈ l.foldl (fun common other => common ∩ q.dungeonsOf other) common ↔
          d ∈ common ∧ ∀ g ∈ l, d ∈ q.dungeonsOf g := by
      intro l
      induction l with
      | nil => simp
      | cons g l ih =>
        intro common
        rw [List.foldl_cons, ih, Finset.mem_inter, List.forall_mem_cons, and_assoc]
    rw [commonDungeons, hfold, List.forall_mem_cons]
    simp

/-! ## Counting -/

theorem addEntry_numPlayers (guid : ObjectGuid) (t : Tally) (hsized : q.Sized) (b : Bool)
    (ht : t.numPlayers.toNat ≤ MAX_GROUP_SIZE) :
    (t.addEntry b guid (q.rolesOf guid)).numPlayers.toNat =
      t.numPlayers.toNat + (q.rolesOf guid).size := by
  have hsize := hsized.size_le guid
  unfold MAX_GROUP_SIZE at hsize ht
  show (t.numPlayers + UInt8.ofNat (q.rolesOf guid).size).toNat = _
  rw [UInt8.toNat_add, UInt8.toNat_ofNat']
  omega

theorem tallyEntries_stop {t : Tally}
    (h : 2 ≤ t.numLfgGroups ∨ MAX_GROUP_SIZE < t.numPlayers.toNat) :
    tallyEntries env q check t = .ok t := by
  cases check with
  | nil => rfl
  | cons g rest =>
    rw [tallyEntries, if_neg]
    omega

/-- What the counting loop has when it went over every entry. -/
structure Counted (env : LfgEnv) (q : LFGQueue) (check : List ObjectGuid) (t t' : Tally) :
    Prop where
  queued : ∀ g ∈ check, q.isQueued g = true
  players : t'.numPlayers.toNat = t.numPlayers.toNat + q.total check
  lfgGroups : t'.numLfgGroups = t.numLfgGroups + check.countP env.isLfgGroup
  group : t'.group =
    if t.numLfgGroups = 0 then (check.find? env.isLfgGroup).getD t.group else t.group

/-- The counters are at most what the entries hold. -/
structure CountedAtMost (env : LfgEnv) (q : LFGQueue) (check : List ObjectGuid) (t t' : Tally) :
    Prop where
  players : t'.numPlayers.toNat ≤ t.numPlayers.toNat + q.total check
  lfgGroups : t'.numLfgGroups ≤ t.numLfgGroups + check.countP env.isLfgGroup

theorem addEntry_numLfgGroups (env : LfgEnv) (t : Tally) (g : ObjectGuid) (roles : LfgRolesMap) :
    (t.addEntry (env.isLfgGroup g) g roles).numLfgGroups =
      t.numLfgGroups + if env.isLfgGroup g then 1 else 0 := by
  show (if env.isLfgGroup g then t.numLfgGroups + 1 else t.numLfgGroups) = _
  split <;> rfl

/-- **The counting loop** meets an entry that is not queued, or stops because there are two
LFG groups or too many players, or counts every entry. -/
theorem tallyEntries_cases (env : LfgEnv) (hsized : q.Sized) (check : List ObjectGuid) (t : Tally)
    (ht : t.numPlayers.toNat ≤ MAX_GROUP_SIZE) :
    (∃ guid ∈ check, tallyEntries env q check t = .error guid ∧ q.isQueued guid = false) ∨
    ∃ t', tallyEntries env q check t = .ok t' ∧ CountedAtMost env q check t t' ∧
      (2 ≤ t'.numLfgGroups ∨ MAX_GROUP_SIZE < t'.numPlayers.toNat ∨
        Counted env q check t t') := by
  induction check generalizing t with
  | nil =>
    right
    refine ⟨t, rfl, ⟨Nat.le_refl _, Nat.le_refl _⟩, .inr (.inr ⟨?_, rfl, rfl, ?_⟩)⟩
    · simp
    · simp
  | cons g rest ih =>
    by_cases hstop : 2 ≤ t.numLfgGroups
    · have hmost : CountedAtMost env q (g :: rest) t t :=
        ⟨Nat.le_add_right _ _, Nat.le_add_right _ _⟩
      exact .inr ⟨t, tallyEntries_stop (.inl hstop), hmost, .inl hstop⟩
    have hcond : t.numLfgGroups < 2 ∧ t.numPlayers.toNat ≤ MAX_GROUP_SIZE := ⟨by omega, ht⟩
    rw [tallyEntries, if_pos hcond]
    cases hd : q.queueDataStore g with
    | none =>
      left
      refine ⟨g, List.mem_cons_self .., rfl, ?_⟩
      rw [LFGQueue.isQueued, hd, Option.isSome_none]
    | some data =>
      have hroles : q.rolesOf g = data.roles := LFGQueue.rolesOf_eq hd
      have hplayers := addEntry_numPlayers g t hsized (env.isLfgGroup g) ht
      have hgroups := addEntry_numLfgGroups env t g data.roles
      rw [hroles] at hplayers
      have hcount : (g :: rest).countP env.isLfgGroup =
          rest.countP env.isLfgGroup + if env.isLfgGroup g then 1 else 0 := List.countP_cons ..
      have htotal : q.total (g :: rest) = data.roles.size + q.total rest := by
        rw [LFGQueue.total_cons, hroles]
      show (∃ guid ∈ g :: rest, tallyEntries env q rest _ = _ ∧ _) ∨
        ∃ t', tallyEntries env q rest _ = _ ∧ _
      by_cases hmany : MAX_GROUP_SIZE <
          (t.addEntry (env.isLfgGroup g) g data.roles).numPlayers.toNat
      · refine .inr ⟨_, tallyEntries_stop (.inr hmany), ⟨?_, ?_⟩, .inr (.inl hmany)⟩
        · omega
        · omega
      obtain ⟨g', hg', he, hn⟩ | ⟨t', ht', hmost, hcases⟩ :=
        ih (t.addEntry (env.isLfgGroup g) g data.roles) (Nat.not_lt.mp hmany)
      · exact .inl ⟨g', List.mem_cons_of_mem _ hg', he, hn⟩
      right
      refine ⟨t', ht', ⟨?_, ?_⟩, ?_⟩
      · have h := hmost.players
        omega
      · have h := hmost.lfgGroups
        omega
      obtain h | h | h := hcases
      · exact .inl h
      · exact .inr (.inl h)
      right
      right
      exact {
        queued := by
          intro g' hg'
          rw [List.mem_cons] at hg'
          obtain rfl | hg' := hg'
          · rw [LFGQueue.isQueued, hd, Option.isSome_some]
          · exact h.queued g' hg'
        players := by
          rw [h.players, hplayers, htotal, Nat.add_assoc]
        lfgGroups := by
          rw [h.lfgGroups, hgroups, hcount]
          omega
        group := by
          rw [h.group, hgroups]
          show (if _ = 0 then (rest.find? env.isLfgGroup).getD
                (if env.isLfgGroup g && t.numLfgGroups = 0 then g else t.group)
            else (if env.isLfgGroup g && t.numLfgGroups = 0 then g else t.group)) = _
          grind }

/-! ## Merging the roles -/

/-- The ignore check and the duplicate check of the merge, over the players in order. -/
def Mergeable (rules : LfgRules) (players : List (ObjectGuid × UInt8)) : Prop :=
  (players.map Prod.fst).Nodup ∧
    players.Pairwise fun a b => rules.hasIgnore a.1 b.1 = false

theorem mergeRoles_eq : mergeRoles env q check = (q.playersOf check).foldl (insertPlayer env) ∅ := by
  rw [mergeRoles, LFGQueue.playersOf, List.foldl_flatMap]

theorem size_insertPlayer_le (env : LfgEnv) (m : LfgRolesMap) (p : ObjectGuid × UInt8) :
    (insertPlayer env m p).size ≤ m.size + 1 := by
  unfold insertPlayer
  split
  · omega
  · rw [Std.ExtTreeMap.size_insert]
    split <;> omega

theorem size_merge_le (env : LfgEnv) (players : List (ObjectGuid × UInt8)) (m : LfgRolesMap) :
    (players.foldl (insertPlayer env) m).size ≤ m.size + players.length := by
  induction players generalizing m with
  | nil => exact Nat.le_refl _
  | cons p players ih =>
    grind [size_insertPlayer_le]

/-- The player is not in the map, and neither ignores nor is ignored by one who is. -/
def NewTo (rules : LfgRules) (m : LfgRolesMap) (player : ObjectGuid) : Prop :=
  player ∉ m ∧ ∀ other ∈ m, rules.hasIgnore player other = false

theorem insertPlayer_of_newTo {m : LfgRolesMap} {p : ObjectGuid × UInt8}
    (h : NewTo env.toLfgRules m p.1) : insertPlayer env m p = m.insert p.1 p.2 := by
  unfold insertPlayer
  rw [if_neg]
  rw [List.any_eq_true]
  rintro ⟨other, hmem, hother⟩
  have hno := h.2 other (Std.ExtTreeMap.mem_keys.mp hmem)
  simp [hno] at hother

theorem size_insertPlayer_eq_iff (m : LfgRolesMap) (p : ObjectGuid × UInt8) :
    (insertPlayer env m p).size = m.size + 1 ↔ NewTo env.toLfgRules m p.1 := by
  constructor
  · intro h
    unfold insertPlayer at h
    split at h
    · omega
    · next hno =>
      rw [Std.ExtTreeMap.size_insert] at h
      have hmem : p.1 ∉ m := by
        intro hmem
        rw [if_pos (Std.ExtTreeMap.contains_iff_mem.mpr hmem)] at h
        omega
      refine ⟨hmem, ?_⟩
      grind
  · intro h
    have hcontains : m.contains p.1 ≠ true := fun hc => h.1 (Std.ExtTreeMap.contains_iff_mem.mp hc)
    rw [insertPlayer_of_newTo h, Std.ExtTreeMap.size_insert, if_neg hcontains]

theorem newTo_insert {m : LfgRolesMap} {player : ObjectGuid} {p : ObjectGuid × UInt8} :
    NewTo env.toLfgRules (m.insert p.1 p.2) player ↔
      NewTo env.toLfgRules m player ∧ p.1 ≠ player ∧ env.hasIgnore p.1 player = false := by
  unfold NewTo
  simp only [Std.ExtTreeMap.mem_insert, Std.compare_eq_iff_eq]
  constructor
  · rintro ⟨hmem, hno⟩
    refine ⟨⟨fun h => hmem (.inr h), fun other h => hno other (.inr h)⟩, fun h => hmem (.inl h), ?_⟩
    rw [env.hasIgnore_comm]
    exact hno p.1 (.inl rfl)
  · rintro ⟨⟨hmem, hno⟩, hne, hp⟩
    refine ⟨fun h => h.elim hne hmem, fun other h => ?_⟩
    obtain rfl | h := h
    · rw [env.hasIgnore_comm]
      exact hp
    · exact hno other h

/-- **The merge loses nobody** exactly when the players are distinct and ignore nobody. -/
theorem size_merge_eq_iff (env : LfgEnv) (players : List (ObjectGuid × UInt8))
    (m : LfgRolesMap) :
    (players.foldl (insertPlayer env) m).size = m.size + players.length ↔
      (∀ p ∈ players, NewTo env.toLfgRules m p.1) ∧ Mergeable env.toLfgRules players := by
  induction players generalizing m with
  | nil => simp [Mergeable]
  | cons p players ih =>
    have hle := size_insertPlayer_le env m p
    have hrest := size_merge_le env players (insertPlayer env m p)
    have hsplit : ((p :: players).foldl (insertPlayer env) m).size =
          m.size + (p :: players).length ↔
        (insertPlayer env m p).size = m.size + 1 ∧
          (players.foldl (insertPlayer env) (insertPlayer env m p)).size =
            (insertPlayer env m p).size + players.length := by
      rw [List.foldl_cons, List.length_cons]
      omega
    rw [hsplit, size_insertPlayer_eq_iff, ih]
    unfold Mergeable
    rw [List.map_cons, List.nodup_cons, List.pairwise_cons, List.forall_mem_cons]
    constructor
    · rintro ⟨hp, hnew, hdistinct, hignore⟩
      rw [insertPlayer_of_newTo hp] at hnew
      have hnew' := fun p' hp' => newTo_insert.mp (hnew p' hp')
      refine ⟨⟨hp, fun p' hp' => (hnew' p' hp').1⟩, ⟨?_, hdistinct⟩, ?_, hignore⟩
      · intro hmem
        obtain ⟨p', hp', he⟩ := List.mem_map.mp hmem
        exact (hnew' p' hp').2.1 he.symm
      · exact fun p' hp' => (hnew' p' hp').2.2
    · rintro ⟨⟨hp, hnew⟩, ⟨hmem, hdistinct⟩, hno, hignore⟩
      refine ⟨hp, ?_, hdistinct, hignore⟩
      rw [insertPlayer_of_newTo hp]
      intro p' hp'
      refine newTo_insert.mpr ⟨hnew p' hp', ?_, hno p' hp'⟩
      exact fun he => hmem (List.mem_map.mpr ⟨p', hp', he.symm⟩)

theorem getElem?_merge (players : List (ObjectGuid × UInt8)) (m : LfgRolesMap)
    (hnew : ∀ p ∈ players, NewTo env.toLfgRules m p.1) (h : Mergeable env.toLfgRules players)
    (player : ObjectGuid) (roles : UInt8) :
    (players.foldl (insertPlayer env) m)[player]? = some roles ↔
      m[player]? = some roles ∨ (player, roles) ∈ players := by
  induction players generalizing m with
  | nil => simp
  | cons p players ih =>
    have hp := hnew p (List.mem_cons_self ..)
    obtain ⟨hdistinct, hignore⟩ := h
    rw [List.map_cons, List.nodup_cons] at hdistinct
    rw [List.pairwise_cons] at hignore
    rw [List.foldl_cons, insertPlayer_of_newTo hp, ih _ _ ⟨hdistinct.2, hignore.2⟩,
      Std.ExtTreeMap.getElem?_insert, List.mem_cons]
    · by_cases he : p.1 = player
      · subst he
        have hnone : m[p.1]? = none := Std.ExtTreeMap.getElem?_eq_none hp.1
        grind
      · have hne : ¬(player, roles) = p := fun e => he (e ▸ rfl)
        simp [he, hne]
    · intro p' hp'
      refine newTo_insert.mpr ⟨hnew p' (List.mem_cons_of_mem _ hp'), ?_, hignore.1 p' hp'⟩
      exact fun he => hdistinct.1 (List.mem_map.mpr ⟨p', hp', he.symm⟩)

theorem newTo_empty (player : ObjectGuid) : NewTo env.toLfgRules ∅ player := by
  simp [NewTo]

theorem size_mergeRoles_le (env : LfgEnv) (q : LFGQueue) (check : List ObjectGuid) :
    (mergeRoles env q check).size ≤ q.total check := by
  have h := size_merge_le env (q.playersOf check) ∅
  rwa [← mergeRoles_eq, Std.ExtTreeMap.size_empty, Nat.zero_add, LFGQueue.length_playersOf] at h

theorem size_mergeRoles_eq_iff :
    (mergeRoles env q check).size = q.total check ↔
      Mergeable env.toLfgRules (q.playersOf check) := by
  have h := size_merge_eq_iff env (q.playersOf check) ∅
  rw [← mergeRoles_eq, Std.ExtTreeMap.size_empty, Nat.zero_add, LFGQueue.length_playersOf] at h
  rw [h]
  exact ⟨fun h => h.2, fun h => ⟨fun _ _ => newTo_empty _, h⟩⟩

theorem getElem?_mergeRoles (h : Mergeable env.toLfgRules (q.playersOf check))
    (player : ObjectGuid) (roles : UInt8) :
    (mergeRoles env q check)[player]? = some roles ↔
      ∃ guid ∈ check, (q.rolesOf guid)[player]? = some roles := by
  rw [mergeRoles_eq, getElem?_merge _ _ (fun _ _ => newTo_empty _) h, LFGQueue.mem_playersOf]
  simp

end EGServer.DungeonFinding
