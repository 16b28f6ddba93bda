import Mathlib.Algebra.BigOperators.Group.List.Basic
import Mathlib.Algebra.Ring.Nat
import Mathlib.Data.List.Pairwise
import Mathlib.Data.List.Sublists

/-!
# The queue of a battleground

The groups in queue, the four lists of pointers to them, and the two selection pools. A pool holds
pointers to groups and the number of their players, which `AddGroup` and `KickGroup` keep.
-/

namespace EGServer.Battlegrounds

/-! ## Groups -/

/-- `Team` and `TeamId`. -/
inductive Team where
  | ALLIANCE
  | HORDE
  deriving DecidableEq

/-- The other one, `(j + 1) % PVP_TEAMS_COUNT`. -/
def Team.other : Team → Team
  | .ALLIANCE => .HORDE
  | .HORDE => .ALLIANCE

@[simp] theorem Team.other_ne (t : Team) : t.other ≠ t := by
  cases t <;> simp [Team.other]

@[simp] theorem Team.other_other (t : Team) : t.other.other = t := by
  cases t <;> rfl

theorem Team.eq_or_eq_other (t t' : Team) : t' = t ∨ t' = t.other := by
  cases t <;> cases t' <;> simp [Team.other]

/-- A `GroupQueueInfo*`. -/
abbrev GroupRef := Nat

structure GroupQueueInfo where
  /-- The keys of the map. -/
  players : List UInt64
  team : Team
  isRated : Bool := false
  arenaTeamId : UInt32 := 0
  joinTime : UInt32 := 0
  removeInviteTime : UInt32 := 0
  isInvitedToBGInstanceGUID : UInt32 := 0
  arenaTeamRating : UInt32 := 0
  arenaMatchmakerRating : UInt32 := 0
  opponentsTeamRating : UInt32 := 0
  opponentsMatchmakerRating : UInt32 := 0
  previousOpponentsTeamId : UInt32 := 0
  deriving DecidableEq

def GroupQueueInfo.size (g : GroupQueueInfo) : Nat := g.players.length

def GroupQueueInfo.invited (g : GroupQueueInfo) : Bool := g.isInvitedToBGInstanceGUID ≠ 0

/-- `BattlegroundQueueGroupTypes` -/
inductive GroupType where
  | premade (team : Team)
  | normal (team : Team)
  deriving DecidableEq

inductive InvitationType where
  | NO_BALANCE
  | BALANCED
  | EVEN
  deriving DecidableEq

/-! ## Pools -/

structure SelectionPool where
  selectedGroups : List GroupRef
  playerCount : Nat
  deriving DecidableEq

/-- A pool after `Init`. -/
def SelectionPool.init : SelectionPool := ⟨[], 0⟩

section

variable (groups : GroupRef → GroupQueueInfo)

def SelectionPool.addGroup (pool : SelectionPool) (ginfo : GroupRef) (desiredCount : Nat) :
    Bool × SelectionPool :=
  if (groups ginfo).invited = false ∧ pool.playerCount + (groups ginfo).size ≤ desiredCount then
    (true, ⟨pool.selectedGroups ++ [ginfo], pool.playerCount + (groups ginfo).size⟩)
  else (decide (pool.playerCount < desiredCount), pool)

/-- The loop of `KickGroup`: `i` is where it is, and `groupToKick` where the group to kick is, which has
`kickSize` players. -/
def searchKick (size : Nat) : List GroupRef → Nat → Bool → Nat → Nat → Nat
  | [], _, _, groupToKick, _ => groupToKick
  | g :: rest, i, found, groupToKick, kickSize =>
    if (groups g).size ≤ size + 1 ∧ size ≤ (groups g).size + 1 then
      searchKick size rest (i + 1) true i (groups g).size
    else if !found && kickSize ≤ (groups g).size then
      searchKick size rest (i + 1) found i (groups g).size
    else searchKick size rest (i + 1) found groupToKick kickSize

/-- The position of the group that is kicked. -/
def kickIndex (size : Nat) : List GroupRef → Nat
  | [] => 0
  | g :: rest => searchKick groups size (g :: rest) 0 false 0 (groups g).size

/-- A pool with players has a group to kick. -/
def SelectionPool.kickGroup (pool : SelectionPool) (size : Nat) : Bool × SelectionPool :=
  if pool.playerCount = 0 then (true, pool)
  else
    match pool.selectedGroups[kickIndex groups size pool.selectedGroups]? with
    | none => (true, pool)
    | some ginfo =>
      (!decide ((groups ginfo).size ≤ size + 1),
        ⟨pool.selectedGroups.eraseIdx (kickIndex groups size pool.selectedGroups),
          pool.playerCount - (groups ginfo).size⟩)

end

/-! ## The queue -/

structure BattlegroundQueue where
  groups : GroupRef → GroupQueueInfo
  queuedGroups : GroupType → List GroupRef
  selectionPools : Team → SelectionPool

/-- Both pools after `Init`. -/
def BattlegroundQueue.initPools (q : BattlegroundQueue) : BattlegroundQueue :=
  { q with selectionPools := fun _ => .init }

/-- All lists of groups. -/
def GroupType.all : List GroupType :=
  [.premade .ALLIANCE, .premade .HORDE, .normal .ALLIANCE, .normal .HORDE]

theorem GroupType.mem_all (list : GroupType) : list ∈ all := by
  cases list with
  | premade team => cases team <;> simp [all]
  | normal team => cases team <;> simp [all]

/-- **What holds of the lists**: a group is in one of them, once, and it has players. -/
structure BattlegroundQueue.WellFormed (q : BattlegroundQueue) : Prop where
  nodup : (GroupType.all.flatMap q.queuedGroups).Nodup
  players : ∀ g ∈ GroupType.all.flatMap q.queuedGroups, 0 < (q.groups g).size

section

variable {q : BattlegroundQueue} {list list' : GroupType} {g : GroupRef}

theorem mem_flatMap_all (hg : g ∈ q.queuedGroups list) : g ∈ GroupType.all.flatMap q.queuedGroups :=
  List.mem_flatMap.mpr ⟨list, list.mem_all, hg⟩

theorem BattlegroundQueue.WellFormed.nodup_list (h : q.WellFormed) (list : GroupType) :
    (q.queuedGroups list).Nodup :=
  (List.nodup_flatMap.mp h.nodup).1 list list.mem_all

theorem BattlegroundQueue.WellFormed.players_list (h : q.WellFormed) (hg : g ∈ q.queuedGroups list) :
    0 < (q.groups g).size := h.players g (mem_flatMap_all hg)

theorem BattlegroundQueue.WellFormed.disjoint (h : q.WellFormed) (hne : list ≠ list') :
    (q.queuedGroups list).Disjoint (q.queuedGroups list') := by
  have hpairs := (List.nodup_flatMap.mp h.nodup).2
  have hsymm : Std.Symm (Function.onFun List.Disjoint q.queuedGroups) := 
    ⟨fun _ _ hd _ ha hb => hd hb ha⟩
  exact hpairs.forall list.mem_all list'.mem_all hne

end

/-! ## What a pool keeps -/

section

variable {groups : GroupRef → GroupQueueInfo} {pool : SelectionPool} {g : GroupRef} {desiredCount size : Nat}

/-- The players of some groups. -/
def countPlayers (groups : GroupRef → GroupQueueInfo) (refs : List GroupRef) : Nat :=
  (refs.map fun g => (groups g).size).sum

@[simp] theorem countPlayers_nil : countPlayers groups [] = 0 := rfl

@[simp] theorem countPlayers_cons (refs : List GroupRef) :
    countPlayers groups (g :: refs) = (groups g).size + countPlayers groups refs := by
  rw [countPlayers, List.map_cons, List.sum_cons, countPlayers]

@[simp] theorem countPlayers_append (refs refs' : List GroupRef) :
    countPlayers groups (refs ++ refs') = countPlayers groups refs + countPlayers groups refs' := by
  rw [countPlayers, List.map_append, List.sum_append, countPlayers, countPlayers]

theorem eq_nil_of_countPlayers (groups : GroupRef → GroupQueueInfo) {refs : List GroupRef}
    (hrefs : ∀ g ∈ refs, 0 < (groups g).size) (h : countPlayers groups refs = 0) : refs = [] := by
  cases refs with
  | nil => rfl
  | cons g refs =>
    have hg := hrefs g List.mem_cons_self
    rw [countPlayers_cons] at h
    omega

theorem countPlayers_eraseIdx (groups : GroupRef → GroupQueueInfo) {refs : List GroupRef} {i : Nat}
    (h : refs[i]? = some g) :
    countPlayers groups (refs.eraseIdx i) + (groups g).size = countPlayers groups refs := by
  induction refs generalizing i with
  | nil => cases h
  | cons a refs ih =>
    grind [countPlayers_cons, List.eraseIdx_cons_zero]

/-- **The invariant of a pool**: its groups are not invited, and it knows how many players they have. -/
structure SelectionPool.Sound (groups : GroupRef → GroupQueueInfo) (pool : SelectionPool) : Prop where
  uninvited : ∀ g ∈ pool.selectedGroups, (groups g).invited = false
  playerCount : pool.playerCount = countPlayers groups pool.selectedGroups

theorem SelectionPool.Sound.init : SelectionPool.init.Sound groups :=
  ⟨fun _ h => (List.not_mem_nil h).elim, rfl⟩

theorem SelectionPool.addGroup_cases (groups : GroupRef → GroupQueueInfo) (pool : SelectionPool)
    (g : GroupRef) (desiredCount : Nat) :
    ((groups g).invited = false ∧ pool.playerCount + (groups g).size ≤ desiredCount ∧
      pool.addGroup groups g desiredCount =
        (true, ⟨pool.selectedGroups ++ [g], pool.playerCount + (groups g).size⟩)) ∨
    (((groups g).invited = false → desiredCount < pool.playerCount + (groups g).size) ∧
      pool.addGroup groups g desiredCount = (decide (pool.playerCount < desiredCount), pool)) := by
  unfold SelectionPool.addGroup
  grind

theorem SelectionPool.Sound.add (h : pool.Sound groups) (hg : (groups g).invited = false) :
    (SelectionPool.mk (pool.selectedGroups ++ [g]) (pool.playerCount + (groups g).size)).Sound groups := by
  constructor
  · intro a ha
    rcases List.mem_append.mp ha with ha | ha
    · exact h.uninvited a ha
    · rw [List.mem_singleton.mp ha]
      exact hg
  · rw [countPlayers_append, countPlayers_cons, countPlayers_nil, Nat.add_zero, h.playerCount]

theorem searchKick_lt {refs : List GroupRef} {i groupToKick kickSize bound : Nat} {found : Bool}
    (hkick : groupToKick < bound) (hi : i + refs.length ≤ bound) :
    searchKick groups size refs i found groupToKick kickSize < bound := by
  induction refs generalizing i found groupToKick kickSize with
  | nil => exact hkick
  | cons g refs ih =>
    grind [searchKick]

theorem kickIndex_lt (groups : GroupRef → GroupQueueInfo) (size : Nat) {refs : List GroupRef}
    (h : refs ≠ []) : kickIndex groups size refs < refs.length := by
  cases refs with
  | nil => exact (h rfl).elim
  | cons g refs => exact searchKick_lt (Nat.succ_pos _) (by rw [Nat.zero_add])

/-- **A group is kicked**, unless the pool has no players. -/
theorem SelectionPool.Sound.kickGroup_cases (h : pool.Sound groups) (size : Nat) :
    (pool.playerCount = 0 ∧ pool.kickGroup groups size = (true, pool)) ∨
    ∃ i g, pool.selectedGroups[i]? = some g ∧ 0 < pool.playerCount ∧
      pool.kickGroup groups size = (!decide ((groups g).size ≤ size + 1),
        ⟨pool.selectedGroups.eraseIdx i, pool.playerCount - (groups g).size⟩) := by
  unfold SelectionPool.kickGroup
  by_cases hcount : pool.playerCount = 0
  · exact .inl ⟨hcount, if_pos hcount⟩
  · have hne : pool.selectedGroups ≠ [] := by
      intro hnil
      rw [h.playerCount, hnil] at hcount
      exact hcount rfl
    have hget := List.getElem?_eq_getElem (kickIndex_lt groups size hne)
    refine .inr ⟨_, _, hget, Nat.pos_of_ne_zero hcount, ?_⟩
    rw [if_neg hcount, hget]

theorem SelectionPool.Sound.kick {i : Nat} (h : pool.Sound groups) (hg : pool.selectedGroups[i]? = some g) :
    (SelectionPool.mk (pool.selectedGroups.eraseIdx i)
      (pool.playerCount - (groups g).size)).Sound groups := by
  constructor
  · intro a ha
    exact h.uninvited a (List.mem_of_mem_eraseIdx ha)
  · have hcount := countPlayers_eraseIdx groups hg
    rw [h.playerCount]
    exact (Nat.eq_sub_of_add_eq hcount).symm

end

end EGServer.Battlegrounds
