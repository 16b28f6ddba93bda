import EGServer.Battlegrounds.BattlegroundQueue
import EGServer.Lib.Loop
import Mathlib.Tactic

/-!
# `FillPlayersToBG`

Players are invited to a battleground that is already running. The pools are filled from the normal
queues, and then groups are kicked from the side with fewer free slots until the sides are even.
-/

namespace EGServer.Battlegrounds

/-! ## The model -/

/-- The loop that adds groups from the iterator on, and where the iterator stops. -/
def fill (groups : GroupRef → GroupQueueInfo) (desiredCount : Nat) :
    SelectionPool → List GroupRef → SelectionPool × List GroupRef
  | pool, [] => (pool, [])
  | pool, g :: rest =>
    match pool.addGroup groups g desiredCount with
    | (true, pool) => fill groups desiredCount pool rest
    | (false, pool) => (pool, g :: rest)

/-- The pools and the iterators. -/
structure Filling where
  pools : Team → SelectionPool
  rest : Team → List GroupRef

/-- The free slots that are left. -/
def Filling.diff (s : Filling) (free : Team → Int) (t : Team) : Int :=
  free t - (s.pools t).playerCount

def Filling.set (s : Filling) (t : Team) (pool : SelectionPool) (rest : List GroupRef) : Filling :=
  ⟨Function.update s.pools t pool, Function.update s.rest t rest⟩

/-- The pools are filled for the first time. -/
def firstFill (q : BattlegroundQueue) (free : Team → Int) : Filling where
  pools t := (fill q.groups (free t).toNat (q.selectionPools t) (q.queuedGroups (.normal t))).1
  rest t := (fill q.groups (free t).toNat (q.selectionPools t) (q.queuedGroups (.normal t))).2

/-- A group of the side is kicked, and its pool is filled up if that group was too large. -/
def kickAndFill (groups : GroupRef → GroupQueueInfo) (free : Team → Int) (s : Filling) (t : Team) :
    SelectionPool × List GroupRef :=
  match (s.pools t).kickGroup groups (s.diff free t.other - s.diff free t).toNat with
  | (true, pool) =>
    fill groups (if s.diff free t.other ≤ free t then (free t - s.diff free t.other).toNat else 0) pool
      (s.rest t)
  | (false, pool) => (pool, s.rest t)

/-- A turn of the loop for a side with fewer free slots than the other one. -/
def evenOut (groups : GroupRef → GroupQueueInfo) (free : Team → Int) (s : Filling) (t : Team) :
    Loop.Turn Filling Filling :=
  let kicked := s.set t (kickAndFill groups free s t).1 (kickAndFill groups free s t).2
  if (kicked.pools t).playerCount = 0 then
    if free t ≤ s.diff free t.other + 1 then .leave kicked
    else
      .again (kicked.set t.other
        ((kicked.pools t.other).kickGroup groups (s.diff free t.other - s.diff free t).toNat).2
        (kicked.rest t.other))
  else .again kicked

/-- The `while` loop. -/
def balanceTurn (groups : GroupRef → GroupQueueInfo) (free : Team → Int) (s : Filling) :
    Loop.Turn Filling Filling :=
  if 1 < |s.diff free .ALLIANCE - s.diff free .HORDE| ∧
      (0 < (s.pools .HORDE).playerCount ∨ 0 < (s.pools .ALLIANCE).playerCount) then
    if s.diff free .ALLIANCE < s.diff free .HORDE then evenOut groups free s .ALLIANCE
    else evenOut groups free s .HORDE
  else .leave s

/-- The free slots, after it was tried to get even teams. -/
def evenFree (q : BattlegroundQueue) (invitationType : InvitationType) (free : Team → Int) (t : Team) :
    Int :=
  let count (t : Team) : Int := (q.queuedGroups (.normal t)).length
  if invitationType = .EVEN ∧ free .HORDE = 1 ∧ free .ALLIANCE = 1 ∧ count .ALLIANCE ≠ count .HORDE then
    max (free t - max (count t - count t.other) 0) 0
  else free t

/-- `FillPlayersToBG`, for so many turns of its loop at most: `free` are the free slots of the
battleground. -/
def fillPlayersToBG (q : BattlegroundQueue) (invitationType : InvitationType) (free : Team → Int)
    (turns : Nat) : Option BattlegroundQueue :=
  let free := evenFree q invitationType free
  if invitationType = .NO_BALANCE then some { q with selectionPools := (firstFill q free).pools }
  else
    (Loop.run (balanceTurn q.groups free) turns (firstFill q free)).map fun s =>
      { q with selectionPools := s.pools }

/-! ## Filling -/

section

variable {groups : GroupRef → GroupQueueInfo} {queue : List GroupRef} {desiredCount limit : Nat}

/-- **The invariant of a side**: the pool holds groups of the queue that come before the iterator, at
most as many players as there is room for. -/
structure Selected (groups : GroupRef → GroupQueueInfo) (queue : List GroupRef) (limit : Nat)
    (pool : SelectionPool) (rest : List GroupRef) : Prop where
  sound : pool.Sound groups
  sublist : (pool.selectedGroups ++ rest).Sublist queue
  le_limit : pool.playerCount ≤ limit

theorem Selected.init (groups : GroupRef → GroupQueueInfo) (queue : List GroupRef) (limit : Nat) :
    Selected groups queue limit .init queue :=
  ⟨.init, List.Sublist.refl queue, Nat.zero_le limit⟩

variable {pool : SelectionPool} {rest : List GroupRef} {g : GroupRef}

theorem Selected.add (h : Selected groups queue limit pool (g :: rest))
    (hg : (groups g).invited = false) (hle : pool.playerCount + (groups g).size ≤ limit) :
    Selected groups queue limit
      ⟨pool.selectedGroups ++ [g], pool.playerCount + (groups g).size⟩ rest where
  sound := h.sound.add hg
  sublist := by
    rw [List.append_assoc]
    exact h.sublist
  le_limit := hle

theorem Selected.skip (h : Selected groups queue limit pool (g :: rest)) :
    Selected groups queue limit pool rest where
  sound := h.sound
  sublist := ((List.sublist_cons_self g rest).append_left pool.selectedGroups).trans h.sublist
  le_limit := h.le_limit

theorem Selected.kick {i : Nat} (h : Selected groups queue limit pool rest)
    (hg : pool.selectedGroups[i]? = some g) :
    Selected groups queue limit
      ⟨pool.selectedGroups.eraseIdx i, pool.playerCount - (groups g).size⟩ rest where
  sound := h.sound.kick hg
  sublist := ((List.eraseIdx_sublist _ i).append_right rest).trans h.sublist
  le_limit := (Nat.sub_le _ _).trans h.le_limit

/-- **Filling keeps the invariant**, and a group that is passed costs two units of what a group in the
pool costs one. -/
theorem Selected.fill (h : Selected groups queue limit pool rest) (hdesired : desiredCount ≤ limit) :
    Selected groups queue limit (fill groups desiredCount pool rest).1 (fill groups desiredCount pool rest).2 ∧
      (Battlegrounds.fill groups desiredCount pool rest).1.selectedGroups.length +
        2 * (Battlegrounds.fill groups desiredCount pool rest).2.length ≤
      pool.selectedGroups.length + 2 * rest.length := by
  induction rest generalizing pool with
  | nil => exact ⟨h, Nat.le_refl _⟩
  | cons g rest ih =>
    rw [Battlegrounds.fill]
    rcases pool.addGroup_cases groups g desiredCount with ⟨hg, hle, hadd⟩ | ⟨_, hadd⟩
    · rw [hadd]
      obtain ⟨hselected, hlength⟩ := ih (h.add hg (hle.trans hdesired))
      grind
    · rw [hadd]
      by_cases hlt : pool.playerCount < desiredCount
      · rw [decide_eq_true hlt]
        obtain ⟨hselected, hlength⟩ := ih h.skip
        refine ⟨hselected, hlength.trans ?_⟩
        rw [List.length_cons]
        omega
      · rw [decide_eq_false hlt]
        exact ⟨h, Nat.le_refl _⟩

theorem fill_zero (pool : SelectionPool) (hrest : ∀ g ∈ rest, 0 < (groups g).size) :
    Battlegrounds.fill groups 0 pool rest = (pool, rest) := by
  cases rest with
  | nil => rfl
  | cons g rest =>
    rw [Battlegrounds.fill]
    rcases pool.addGroup_cases groups g 0 with ⟨_, hle, _⟩ | ⟨_, hadd⟩
    · have hg := hrest g List.mem_cons_self
      omega
    · rw [hadd, decide_eq_false (Nat.not_lt_zero _)]

end

/-! ## One turn -/

section

variable {q : BattlegroundQueue} {free : Team → Int} {s : Filling} {t : Team} {pool : SelectionPool}
  {rest : List GroupRef}

@[simp] theorem Filling.pools_set : (s.set t pool rest).pools t = pool := Function.update_self ..

@[simp] theorem Filling.rest_set : (s.set t pool rest).rest t = rest := Function.update_self ..

theorem Filling.pools_set_of_ne {t' : Team} (h : t' ≠ t) : (s.set t pool rest).pools t' = s.pools t' :=
  Function.update_of_ne h ..

theorem Filling.rest_set_of_ne {t' : Team} (h : t' ≠ t) : (s.set t pool rest).rest t' = s.rest t' :=
  Function.update_of_ne h ..

/-- What is left to be kicked or added at a side. -/
def Filling.weight (s : Filling) (t : Team) : Nat :=
  (s.pools t).selectedGroups.length + 2 * (s.rest t).length

theorem Filling.diff_set_of_ne {t' : Team} (h : t' ≠ t) :
    (s.set t pool rest).diff free t' = s.diff free t' := by
  rw [Filling.diff, Filling.pools_set_of_ne h, Filling.diff]

theorem Filling.weight_set_of_ne {t' : Team} (h : t' ≠ t) :
    (s.set t pool rest).weight t' = s.weight t' := by
  rw [Filling.weight, Filling.pools_set_of_ne h, Filling.rest_set_of_ne h, Filling.weight]

theorem Filling.weight_set :
    (s.set t pool rest).weight t = pool.selectedGroups.length + 2 * rest.length := by
  rw [Filling.weight, Filling.pools_set, Filling.rest_set]

/-- What holds in every turn. -/
def Filling.Inv (q : BattlegroundQueue) (free : Team → Int) (s : Filling) : Prop :=
  ∀ t, Selected q.groups (q.queuedGroups (.normal t)) (free t).toNat (s.pools t) (s.rest t)

theorem Filling.Inv.set (h : s.Inv q free)
    (ht : Selected q.groups (q.queuedGroups (.normal t)) (free t).toNat pool rest) :
    (s.set t pool rest).Inv q free := by
  intro t'
  rcases t.eq_or_eq_other t' with rfl | rfl
  · rw [Filling.pools_set, Filling.rest_set]
    exact ht
  · rw [Filling.pools_set_of_ne t.other_ne, Filling.rest_set_of_ne t.other_ne]
    exact h t.other

theorem Filling.Inv.kick (h : s.Inv q free) (t : Team) (size : Nat) :
    (s.set t ((s.pools t).kickGroup q.groups size).2 (s.rest t)).Inv q free ∧
      (s.set t ((s.pools t).kickGroup q.groups size).2 (s.rest t)).weight t ≤ s.weight t := by
  rw [Filling.weight_set]
  rcases (h t).sound.kickGroup_cases size with ⟨_, hkick⟩ | ⟨i, g, hg, _, hkick⟩
  · rw [hkick]
    exact ⟨h.set (h t), Nat.le_refl _⟩
  · rw [hkick]
    exact ⟨h.set ((h t).kick hg), Nat.add_le_add_right (List.eraseIdx_sublist _ i).length_le _⟩

theorem Filling.Inv.diff_nonneg (h : s.Inv q free) (hfree : ∀ t, 0 ≤ free t) (t : Team) :
    0 ≤ s.diff free t := by
  have hle := (h t).le_limit
  have hnonneg := hfree t
  rw [Filling.diff]
  omega

/-- **The side with fewer free slots loses a group**, or it has none. -/
theorem Filling.Inv.kickAndFill (h : s.Inv q free) (hq : q.WellFormed) (hfree : ∀ t, 0 ≤ free t)
    (hlt : s.diff free t < s.diff free t.other) :
    (s.pools t).playerCount = 0 ∧ kickAndFill q.groups free s t = (s.pools t, s.rest t) ∨
    Selected q.groups (q.queuedGroups (.normal t)) (free t).toNat (kickAndFill q.groups free s t).1
        (Battlegrounds.kickAndFill q.groups free s t).2 ∧
      (Battlegrounds.kickAndFill q.groups free s t).1.selectedGroups.length +
        2 * (Battlegrounds.kickAndFill q.groups free s t).2.length < s.weight t := by
  have hselected := h t
  have hother := h.diff_nonneg hfree t.other
  unfold Battlegrounds.kickAndFill
  rcases hselected.sound.kickGroup_cases (s.diff free t.other - s.diff free t).toNat with
    ⟨hzero, hkick⟩ | ⟨i, g, hg, hpos, hkick⟩
  · refine .inl ⟨hzero, ?_⟩
    -- the free slots of the side are not enough for the difference to the other one
    have hfew : ¬s.diff free t.other ≤ free t := by
      rw [Filling.diff, hzero] at hlt
      omega
    rw [hkick, if_neg hfew]
    refine fill_zero _ ?_
    intro a ha
    exact hq.players_list (hselected.sublist.subset (List.mem_append_right _ ha))
  · right
    have hkicked := hselected.kick hg
    have hlength : ((s.pools t).selectedGroups.eraseIdx i).length < (s.pools t).selectedGroups.length := by
      have hi := (List.getElem?_eq_some_iff.mp hg).1
      rw [List.length_eraseIdx_of_lt hi]
      omega
    rw [hkick, Filling.weight]
    cases !decide ((q.groups g).size ≤ (s.diff free t.other - s.diff free t).toNat + 1) with
    | false => exact ⟨hkicked, Nat.add_lt_add_right hlength _⟩
    | true =>
      have hdesired : (if s.diff free t.other ≤ free t then (free t - s.diff free t.other).toNat else 0) ≤
          (free t).toNat := by
        split <;> omega
      obtain ⟨hfilled, hweight⟩ := hkicked.fill hdesired
      exact ⟨hfilled, hweight.trans_lt (Nat.add_lt_add_right hlength _)⟩

/-- What holds where the loop is left. -/
def Filling.Balanced (free : Team → Int) (s : Filling) : Prop :=
  |s.diff free .ALLIANCE - s.diff free .HORDE| ≤ 1 ∨
    ∀ t, s.diff free t < s.diff free t.other → (s.pools t).selectedGroups = []

theorem abs_diff (free : Team → Int) (s : Filling) (t : Team) :
    |s.diff free .ALLIANCE - s.diff free .HORDE| = |s.diff free t - s.diff free t.other| := by
  cases t with
  | ALLIANCE => rfl
  | HORDE => exact abs_sub_comm _ _

theorem Filling.Inv.selectedGroups_eq_nil (h : s.Inv q free) (hq : q.WellFormed)
    (hzero : (s.pools t).playerCount = 0) : (s.pools t).selectedGroups = [] := by
  refine eq_nil_of_countPlayers q.groups ?_ ((h t).sound.playerCount.symm.trans hzero)
  intro g hg
  exact hq.players_list ((h t).sublist.subset (List.mem_append_left _ hg))

theorem Filling.Inv.evenOut (h : s.Inv q free) (hq : q.WellFormed) (hfree : ∀ t, 0 ≤ free t)
    (hlt : s.diff free t < s.diff free t.other) :
    (∃ s', evenOut q.groups free s t = .again s' ∧ s'.Inv q free ∧
      s'.weight t + s'.weight t.other < s.weight t + s.weight t.other) ∨
    ∃ s', Battlegrounds.evenOut q.groups free s t = .leave s' ∧ s'.Inv q free ∧ s'.Balanced free := by
  unfold Battlegrounds.evenOut
  rcases h.kickAndFill hq hfree hlt with ⟨hzero, hsame⟩ | ⟨hselected, hweight⟩
  · -- nothing changes: the pool of the side is empty
    have hdiff : s.diff free t = free t := by
      rw [Filling.diff, hzero]
      exact Int.sub_zero _
    have hset : s.set t (s.pools t) (s.rest t) = s := by
      rw [Filling.set, Function.update_eq_self, Function.update_eq_self]
    right
    simp only [hsame, hset]
    rw [if_pos hzero, if_pos (by omega)]
    refine ⟨s, rfl, h, .inr ?_⟩
    intro t' ht'
    rcases t.eq_or_eq_other t' with rfl | rfl
    · exact h.selectedGroups_eq_nil hq hzero
    · rw [Team.other_other] at ht'
      omega
  · generalize Battlegrounds.kickAndFill q.groups free s t = r at hselected hweight ⊢
    have hkicked := h.set hselected
    have hdiff : (s.set t r.1 r.2).diff free t.other = s.diff free t.other :=
      Filling.diff_set_of_ne t.other_ne
    have hsame : (s.set t r.1 r.2).weight t.other = s.weight t.other := Filling.weight_set_of_ne t.other_ne
    rw [← Filling.weight_set (s := s) (t := t)] at hweight
    dsimp only
    generalize s.set t r.1 r.2 = kicked at hkicked hdiff hsame hweight ⊢
    split
    · rename_i hzero
      have hfree_t : kicked.diff free t = free t := by
        rw [Filling.diff, hzero]
        exact Int.sub_zero _
      split
      · rename_i hle
        refine .inr ⟨kicked, rfl, hkicked, ?_⟩
        by_cases hfew : kicked.diff free t < kicked.diff free t.other
        · right
          intro t' ht'
          rcases t.eq_or_eq_other t' with rfl | rfl
          · exact hkicked.selectedGroups_eq_nil hq hzero
          · rw [Team.other_other] at ht'
            omega
        · left
          rw [abs_diff free kicked t, abs_le]
          omega
      · obtain ⟨hinv, hle⟩ := hkicked.kick t.other (s.diff free t.other - s.diff free t).toNat
        refine .inl ⟨_, rfl, hinv, ?_⟩
        rw [Filling.weight_set_of_ne t.other_ne.symm]
        omega
    · exact .inl ⟨kicked, rfl, hkicked, by omega⟩

theorem sum_weight (s : Filling) (t : Team) :
    s.weight t + s.weight t.other = s.weight .ALLIANCE + s.weight .HORDE := by
  cases t with
  | ALLIANCE => rfl
  | HORDE => exact Nat.add_comm _ _

theorem Filling.Inv.balanceTurn (h : s.Inv q free) (hq : q.WellFormed) (hfree : ∀ t, 0 ≤ free t) :
    (∃ s', balanceTurn q.groups free s = .again s' ∧ s'.Inv q free ∧
      s'.weight .ALLIANCE + s'.weight .HORDE < s.weight .ALLIANCE + s.weight .HORDE) ∨
    ∃ s', Battlegrounds.balanceTurn q.groups free s = .leave s' ∧ s'.Inv q free ∧ s'.Balanced free := by
  unfold Battlegrounds.balanceTurn
  split
  · rename_i hcond
    split
    · rename_i hlt
      exact h.evenOut hq hfree hlt
    · rename_i hle
      have hlt : s.diff free .HORDE < s.diff free Team.HORDE.other := by
        have habs := hcond.1
        rw [lt_abs] at habs
        show s.diff free .HORDE < s.diff free .ALLIANCE
        omega
      have hturn := h.evenOut hq hfree hlt
      simp only [sum_weight] at hturn
      exact hturn
  · rename_i hcond
    refine .inr ⟨s, rfl, h, ?_⟩
    by_cases habs : 1 < |s.diff free .ALLIANCE - s.diff free .HORDE|
    · right
      intro t _
      have hzero : (s.pools t).playerCount = 0 := by
        cases t <;> omega
      exact h.selectedGroups_eq_nil hq hzero
    · exact .inl (not_lt.mp habs)

end

/-! ## The whole function -/

section

variable {q : BattlegroundQueue} {free : Team → Int} {invitationType : InvitationType}

/-- **What is promised of the pools**: they hold groups of their side's queue, in its order, that are
not invited, with no more players than there are free slots. With a balanced invitation type, the free
slots that are left differ by one at most, or the side with fewer of them has an empty pool. -/
structure FillsFairly (q : BattlegroundQueue) (invitationType : InvitationType) (free : Team → Int)
    (pools : Team → SelectionPool) : Prop where
  sublist : ∀ t, (pools t).selectedGroups.Sublist (q.queuedGroups (.normal t))
  distinct : ∀ t, (pools t).selectedGroups.Nodup
  uninvited : ∀ t, ∀ g ∈ (pools t).selectedGroups, (q.groups g).invited = false
  playerCount : ∀ t, (pools t).playerCount = countPlayers q.groups (pools t).selectedGroups
  le_free : ∀ t, ((pools t).playerCount : Int) ≤ free t
  balanced : invitationType ≠ .NO_BALANCE →
    |(free .ALLIANCE - (pools .ALLIANCE).playerCount) - (free .HORDE - (pools .HORDE).playerCount)| ≤ 1 ∨
      ∀ t, free t - (pools t).playerCount < free t.other - (pools t.other).playerCount →
        (pools t).selectedGroups = []

theorem firstFill_inv (q : BattlegroundQueue) (free : Team → Int) :
    (firstFill q.initPools free).Inv q free ∧
      ∀ t, (firstFill q.initPools free).weight t ≤ 2 * (q.queuedGroups (.normal t)).length := by
  have hfill := fun t : Team =>
    (Selected.init q.groups (q.queuedGroups (.normal t)) (free t).toNat).fill (Nat.le_refl _)
  refine ⟨fun t => (hfill t).1, ?_⟩
  intro t
  have hweight := (hfill t).2
  rw [SelectionPool.init, List.length_nil, Nat.zero_add] at hweight
  exact hweight

theorem evenFree_cases (q : BattlegroundQueue) (invitationType : InvitationType) (free : Team → Int) :
    evenFree q invitationType free = free ∨
      (∀ t, free t = 1) ∧ ∀ t, 0 ≤ evenFree q invitationType free t ∧ evenFree q invitationType free t ≤ 1 := by
  by_cases h : invitationType = .EVEN ∧ free .HORDE = 1 ∧ free .ALLIANCE = 1 ∧
      ((q.queuedGroups (.normal .ALLIANCE)).length : Int) ≠ (q.queuedGroups (.normal .HORDE)).length
  · have hone : ∀ t, free t = 1 := by
      intro t
      cases t with
      | ALLIANCE => exact h.2.2.1
      | HORDE => exact h.2.1
    refine .inr ⟨hone, ?_⟩
    intro t
    rw [evenFree, if_pos h, hone t]
    omega
  · left
    funext t
    rw [evenFree, if_neg h]

theorem Filling.Inv.fillsFairly {s : Filling} (h : s.Inv q (evenFree q invitationType free))
    (hq : q.WellFormed) (hfree : ∀ t, 0 ≤ free t)
    (hbalanced : invitationType ≠ .NO_BALANCE → s.Balanced (evenFree q invitationType free)) :
    FillsFairly q invitationType free s.pools := by
  have hsublist : ∀ t, (s.pools t).selectedGroups.Sublist (q.queuedGroups (.normal t)) := fun t =>
    (List.sublist_append_left _ _).trans (h t).sublist
  have hlimit : ∀ t, (s.pools t).playerCount ≤ (evenFree q invitationType free t).toNat := fun t =>
    (h t).le_limit
  refine ⟨hsublist, fun t => (hq.nodup_list _).sublist (hsublist t), fun t => (h t).sound.uninvited,
    fun t => (h t).sound.playerCount, ?_, ?_⟩
  · intro t
    have ht := hlimit t
    have hnonneg := hfree t
    rcases evenFree_cases q invitationType free with heq | ⟨hone, hle⟩
    · rw [heq] at ht
      omega
    · have hle := hle t
      rw [hone t]
      omega
  · intro htype
    rcases evenFree_cases q invitationType free with heq | ⟨hone, hle⟩
    · have hs := hbalanced htype
      rw [heq] at hs
      exact hs
    · -- there was one slot on each side, and one of them is given up
      left
      have ha := hlimit .ALLIANCE
      have hh := hlimit .HORDE
      have hla := hle .ALLIANCE
      have hlh := hle .HORDE
      rw [hone, hone, abs_le]
      omega

theorem evenFree_nonneg (hfree : ∀ t, 0 ≤ free t) (t : Team) : 0 ≤ evenFree q invitationType free t := by
  rcases evenFree_cases q invitationType free with heq | ⟨_, hle⟩
  · rw [heq]
    exact hfree t
  · exact (hle t).1

/-- **`FillPlayersToBG` ends**, after as many turns as two for each group in queue, and the pools are
filled fairly. -/
theorem fillPlayersToBG_fillsFairly (hq : q.WellFormed) (hfree : ∀ t, 0 ≤ free t)
    (invitationType : InvitationType) {turns : Nat}
    (hturns : 2 * (q.queuedGroups (.normal .ALLIANCE)).length +
      2 * (q.queuedGroups (.normal .HORDE)).length < turns) :
    ∃ pools, fillPlayersToBG q.initPools invitationType free turns =
        some { q with selectionPools := pools } ∧ FillsFairly q invitationType free pools := by
  obtain ⟨hfirst, hweight⟩ := firstFill_inv q (evenFree q invitationType free)
  unfold fillPlayersToBG
  split
  · rename_i htype
    exact ⟨_, rfl, hfirst.fillsFairly hq hfree fun h => (h htype).elim⟩
  · obtain ⟨s, hrun, hs, hbalanced⟩ : ∃ s, Loop.run (balanceTurn q.groups (evenFree q invitationType free))
        turns (firstFill q.initPools (evenFree q invitationType free)) = some s ∧
        s.Inv q (evenFree q invitationType free) ∧ s.Balanced (evenFree q invitationType free) :=
      Loop.exists_run (fun s : Filling => s.weight .ALLIANCE + s.weight .HORDE)
        (fun s hs => Filling.Inv.balanceTurn hs hq (evenFree_nonneg hfree)) hfirst
        ((Nat.add_le_add (hweight .ALLIANCE) (hweight .HORDE)).trans_lt hturns)
    refine ⟨s.pools, ?_, hs.fillsFairly hq hfree fun _ => hbalanced⟩
    show (Loop.run (balanceTurn q.groups (evenFree q invitationType free)) turns
      (firstFill q.initPools (evenFree q invitationType free))).map _ = _
    rw [hrun]
    rfl

end

/-- Three alliance players in two groups, and four horde players in one. -/
def threeAgainstFour : BattlegroundQueue where
  groups
    | 0 => ⟨[1, 2], .ALLIANCE, false, 0, 0, 0, 0, 0, 0, 0, 0, 0⟩
    | 1 => ⟨[3], .ALLIANCE, false, 0, 0, 0, 0, 0, 0, 0, 0, 0⟩
    | _ => ⟨[4, 5, 6, 7], .HORDE, false, 0, 0, 0, 0, 0, 0, 0, 0, 0⟩
  queuedGroups
    | .normal .ALLIANCE => [0, 1]
    | .normal .HORDE => [2]
    | .premade _ => []
  selectionPools _ := .init

theorem wellFormed_threeAgainstFour : threeAgainstFour.WellFormed :=
  ⟨by decide, by decide⟩

theorem fillPlayersToBG_threeAgainstFour :
    ∃ pools, fillPlayersToBG threeAgainstFour.initPools .BALANCED (fun _ => 3) 7 =
        some { threeAgainstFour with selectionPools := pools } ∧
      FillsFairly threeAgainstFour .BALANCED (fun _ => 3) pools :=
  fillPlayersToBG_fillsFairly wellFormed_threeAgainstFour (fun _ => by decide) .BALANCED (by decide)

end EGServer.Battlegrounds
