import EGServer.Battlegrounds.NormalMatch
import Mathlib.Data.List.Perm.Basic

/-!
# `CheckPremadeMatch`

A premade group of each side is selected, with groups of the normal queues up to the size of the
smaller pool. Where there is no such match, a premade group is moved to the normal queue if it has
waited long enough or has become too small.
-/

namespace EGServer.Battlegrounds

/-! ## The model -/

/-- The first premade group of the side that is not invited. -/
def BattlegroundQueue.premadeGroup (q : BattlegroundQueue) (t : Team) : Option GroupRef :=
  (q.queuedGroups (.premade t)).find? fun g => !(q.groups g).invited

/-- "we must insert group to normal queue and erase pointer from premade queue" -/
def moveExpired (timeBefore : UInt32) (minPlayersPerTeam : Nat) (q : BattlegroundQueue) (t : Team) :
    BattlegroundQueue :=
  match q.queuedGroups (.premade t) with
  | [] => q
  | g :: rest =>
    if (q.groups g).invited = false ∧
        ((q.groups g).joinTime < timeBefore ∨ (q.groups g).size < minPlayersPerTeam) then
      { q with
        queuedGroups := Function.update
          (Function.update q.queuedGroups (.normal t) (g :: q.queuedGroups (.normal t)))
          (.premade t) rest }
    else q

def checkPremadeMatch (q : BattlegroundQueue) (gameTimeMS waitForMatch : UInt32)
    (minPlayersPerTeam maxPlayersPerTeam : Nat) : Bool × BattlegroundQueue :=
  match q.premadeGroup .ALLIANCE, q.premadeGroup .HORDE with
  | some aliGroup, some hordeGroup =>
    let group : Team → GroupRef
      | .ALLIANCE => aliGroup
      | .HORDE => hordeGroup
    let pools (t : Team) := ((q.selectionPools t).addGroup q.groups (group t) maxPlayersPerTeam).2
    -- "to size of bigger group"
    let maxPlayers := min (pools .ALLIANCE).playerCount (pools .HORDE).playerCount
    (true, { q with
      selectionPools := fun t =>
        fillUninvited q.groups maxPlayers (pools t) (q.queuedGroups (.normal t)) })
  | _, _ =>
    let timeBefore := gameTimeMS - waitForMatch
    (false, moveExpired timeBefore minPlayersPerTeam
      (moveExpired timeBefore minPlayersPerTeam q .ALLIANCE) .HORDE)

/-! ## What is promised -/

/-- The pool of a side with its premade group alone. -/
def premadePool (q : BattlegroundQueue) (maxPlayersPerTeam : Nat) (t : Team) : SelectionPool :=
  match q.premadeGroup t with
  | none => .init
  | some g => (SelectionPool.init.addGroup q.groups g maxPlayersPerTeam).2

/-- **The smaller side is filled up to the size of the bigger group**: groups of its normal queue are
added, and none of those that are left would still fit. -/
def FilledToBigger (q : BattlegroundQueue) (maxPlayersPerTeam : Nat) (pools : Team → SelectionPool) : Prop :=
  ∀ t, (premadePool q maxPlayersPerTeam t).playerCount < (premadePool q maxPlayersPerTeam t.other).playerCount →
    (∃ added, (pools t).selectedGroups = (premadePool q maxPlayersPerTeam t).selectedGroups ++ added ∧
      added.Sublist (q.queuedGroups (.normal t))) ∧
    (pools t).playerCount ≤ (premadePool q maxPlayersPerTeam t.other).playerCount ∧
    ∀ g ∈ q.queuedGroups (.normal t), (q.groups g).invited = false → g ∉ (pools t).selectedGroups →
      (premadePool q maxPlayersPerTeam t.other).playerCount < (pools t).playerCount + (q.groups g).size

/-- **A premade group is moved for a reason**, once and to its own side. -/
def MovedForReason (q q' : BattlegroundQueue) (gameTimeMS waitForMatch : UInt32) (minPlayersPerTeam : Nat) :
    Prop :=
  q'.WellFormed ∧ ∀ t, ∀ g ∈ q.queuedGroups (.premade t), g ∉ q'.queuedGroups (.premade t) →
    g ∈ q'.queuedGroups (.normal t) ∧
      ((q.groups g).joinTime.toNat + waitForMatch.toNat ≤ gameTimeMS.toNat ∨
        (q.groups g).size < minPlayersPerTeam)

structure PremadePromises (q : BattlegroundQueue) (gameTimeMS waitForMatch : UInt32)
    (minPlayersPerTeam maxPlayersPerTeam : Nat) : Prop where
  filled : ∀ q', checkPremadeMatch q.initPools gameTimeMS waitForMatch minPlayersPerTeam maxPlayersPerTeam =
    (true, q') → FilledToBigger q maxPlayersPerTeam q'.selectionPools
  moved : ∀ r q', checkPremadeMatch q.initPools gameTimeMS waitForMatch minPlayersPerTeam maxPlayersPerTeam =
    (r, q') → MovedForReason q q' gameTimeMS waitForMatch minPlayersPerTeam

/-! ## Filling -/

section

variable {groups : GroupRef → GroupQueueInfo} {pool : SelectionPool} {queue : List GroupRef}
  {desiredCount : Nat}

theorem fillUninvited_of_full (hqueue : ∀ g ∈ queue, 0 < (groups g).size)
    (hfull : desiredCount ≤ pool.playerCount) : fillUninvited groups desiredCount pool queue = pool := by
  induction queue with
  | nil => rfl
  | cons g queue ih =>
    have hg := hqueue g List.mem_cons_self
    rw [fillUninvited]
    split
    · exact ih fun a ha => hqueue a (List.mem_cons_of_mem g ha)
    · rcases pool.addGroup_cases groups g desiredCount with ⟨_, hle, _⟩ | ⟨_, hadd⟩
      · omega
      · rw [hadd, decide_eq_false (not_lt.mpr hfull)]

end

/-! ## Moving -/

section

variable {q : BattlegroundQueue} {timeBefore gameTimeMS waitForMatch : UInt32}
  {minPlayersPerTeam maxPlayersPerTeam : Nat}

/-- The first premade group of the side is moved. -/
def Expires (q : BattlegroundQueue) (timeBefore : UInt32) (minPlayersPerTeam : Nat) (t : Team)
    (g : GroupRef) (rest : List GroupRef) : Prop :=
  q.queuedGroups (.premade t) = g :: rest ∧ (q.groups g).invited = false ∧
    ((q.groups g).joinTime < timeBefore ∨ (q.groups g).size < minPlayersPerTeam)

theorem moveExpired_cases (q : BattlegroundQueue) (timeBefore : UInt32) (minPlayersPerTeam : Nat) (t : Team) :
    (∃ g rest, Expires q timeBefore minPlayersPerTeam t g rest ∧
      moveExpired timeBefore minPlayersPerTeam q t = { q with
        queuedGroups := Function.update
          (Function.update q.queuedGroups (.normal t) (g :: q.queuedGroups (.normal t)))
          (.premade t) rest }) ∨
    (∀ g rest, ¬Expires q timeBefore minPlayersPerTeam t g rest) ∧
      moveExpired timeBefore minPlayersPerTeam q t = q := by
  unfold moveExpired
  cases hqueue : q.queuedGroups (.premade t) with
  | nil =>
    refine .inr ⟨?_, rfl⟩
    rintro g rest ⟨hq, _⟩
    rw [hqueue] at hq
    cases hq
  | cons g rest =>
    by_cases h : (q.groups g).invited = false ∧
        ((q.groups g).joinTime < timeBefore ∨ (q.groups g).size < minPlayersPerTeam)
    · exact .inl ⟨g, rest, ⟨hqueue, h⟩, if_pos h⟩
    · refine .inr ⟨?_, if_neg h⟩
      rintro g' rest' ⟨hq, hexpires⟩
      rw [hqueue] at hq
      cases hq
      exact h hexpires

theorem Expires.queuedGroups {t : Team} {g : GroupRef} {rest : List GroupRef}
    (h : Expires q timeBefore minPlayersPerTeam t g rest) :
    (moveExpired timeBefore minPlayersPerTeam q t).queuedGroups (.premade t) = rest ∧
      (moveExpired timeBefore minPlayersPerTeam q t).queuedGroups (.normal t) =
        g :: q.queuedGroups (.normal t) := by
  have hmoves : moveExpired timeBefore minPlayersPerTeam q t = { q with
      queuedGroups := Function.update
        (Function.update q.queuedGroups (.normal t) (g :: q.queuedGroups (.normal t))) (.premade t) rest } := by
    rw [moveExpired, h.1]
    exact if_pos h.2
  rw [hmoves]
  simp

/-- **A move keeps the lists well formed.** -/
theorem wellFormed_moveExpired (hq : q.WellFormed) (timeBefore : UInt32) (minPlayersPerTeam : Nat) (t : Team) :
    (moveExpired timeBefore minPlayersPerTeam q t).WellFormed := by
  rcases moveExpired_cases q timeBefore minPlayersPerTeam t with ⟨g, rest, ⟨hqueue, _⟩, heq⟩ | ⟨_, heq⟩
  · have hperm : (GroupType.all.flatMap (moveExpired timeBefore minPlayersPerTeam q t).queuedGroups).Perm
        (GroupType.all.flatMap q.queuedGroups) := by
      rw [heq, List.perm_iff_count]
      intro a
      cases t <;> simp [GroupType.all, Function.update, hqueue, List.count_cons] <;> omega
    constructor
    · exact hperm.nodup_iff.mpr hq.nodup
    · intro a ha
      rw [heq]
      exact hq.players a (hperm.subset ha)
  · rw [heq]
    exact hq

theorem groups_moveExpired (q : BattlegroundQueue) (timeBefore : UInt32) (minPlayersPerTeam : Nat) (t : Team) :
    (moveExpired timeBefore minPlayersPerTeam q t).groups = q.groups := by
  grind [moveExpired_cases]

theorem queuedGroups_moveExpired (q : BattlegroundQueue) (timeBefore : UInt32) (minPlayersPerTeam : Nat)
    {t t' : Team} (hne : t' ≠ t) :
    (moveExpired timeBefore minPlayersPerTeam q t).queuedGroups (.premade t') = q.queuedGroups (.premade t') ∧
      (moveExpired timeBefore minPlayersPerTeam q t).queuedGroups (.normal t') = q.queuedGroups (.normal t') := by
  rcases moveExpired_cases q timeBefore minPlayersPerTeam t with ⟨g, rest, _, heq⟩ | ⟨_, heq⟩
  · rw [heq]
    simp [hne]
  · rw [heq]
    exact ⟨rfl, rfl⟩

/-- The queue after both sides. -/
def bothMoves (timeBefore : UInt32) (minPlayersPerTeam : Nat) (q : BattlegroundQueue) : BattlegroundQueue :=
  moveExpired timeBefore minPlayersPerTeam (moveExpired timeBefore minPlayersPerTeam q .ALLIANCE) .HORDE

theorem queuedGroups_bothMoves (q : BattlegroundQueue) (timeBefore : UInt32) (minPlayersPerTeam : Nat)
    (t : Team) :
    (bothMoves timeBefore minPlayersPerTeam q).queuedGroups (.premade t) =
        (moveExpired timeBefore minPlayersPerTeam q t).queuedGroups (.premade t) ∧
      (bothMoves timeBefore minPlayersPerTeam q).queuedGroups (.normal t) =
        (moveExpired timeBefore minPlayersPerTeam q t).queuedGroups (.normal t) := by
  cases t with
  | ALLIANCE => exact queuedGroups_moveExpired _ _ _ (by decide)
  | HORDE =>
    obtain ⟨hpremade, hnormal⟩ := queuedGroups_moveExpired q timeBefore minPlayersPerTeam
      (show Team.HORDE ≠ .ALLIANCE by decide)
    have hgroups := groups_moveExpired q timeBefore minPlayersPerTeam .ALLIANCE
    unfold bothMoves
    generalize moveExpired timeBefore minPlayersPerTeam q .ALLIANCE = q' at hpremade hnormal hgroups ⊢
    unfold moveExpired
    rw [hpremade, hgroups]
    cases hqueue : q.queuedGroups (.premade .HORDE) with
    | nil =>
      rw [hqueue] at hpremade
      exact ⟨hpremade.trans hqueue.symm, hnormal⟩
    | cons g rest =>
      dsimp only
      split
      · simp [hnormal]
      · exact ⟨hpremade, hnormal⟩

theorem wellFormed_bothMoves (hq : q.WellFormed) (timeBefore : UInt32) (minPlayersPerTeam : Nat) :
    (bothMoves timeBefore minPlayersPerTeam q).WellFormed :=
  wellFormed_moveExpired (wellFormed_moveExpired hq timeBefore minPlayersPerTeam .ALLIANCE) timeBefore
    minPlayersPerTeam .HORDE

/-- **All moves have a reason if and only if** the first group of each side has one, if it is moved. -/
theorem movedForReason_iff (hq : q.WellFormed) (timeBefore : UInt32) :
    MovedForReason q (bothMoves timeBefore minPlayersPerTeam q) gameTimeMS waitForMatch minPlayersPerTeam ↔
      ∀ t g rest, Expires q timeBefore minPlayersPerTeam t g rest →
        (q.groups g).joinTime.toNat + waitForMatch.toNat ≤ gameTimeMS.toNat ∨
          (q.groups g).size < minPlayersPerTeam := by
  have hlists := queuedGroups_bothMoves q timeBefore minPlayersPerTeam
  constructor
  · rintro ⟨_, hreason⟩ t g rest hexpires
    have hnodup := hq.nodup_list (.premade t)
    rw [hexpires.1] at hnodup
    refine (hreason t g ?_ ?_).2
    · rw [hexpires.1]
      exact List.mem_cons_self
    · rw [(hlists t).1, hexpires.queuedGroups.1]
      exact (List.nodup_cons.mp hnodup).1
  · intro h
    refine ⟨wellFormed_bothMoves hq timeBefore minPlayersPerTeam, ?_⟩
    intro t a ha hmoved
    rw [(hlists t).1] at hmoved
    rw [(hlists t).2]
    rcases moveExpired_cases q timeBefore minPlayersPerTeam t with ⟨g, rest, hexpires, _⟩ | ⟨_, heq⟩
    · rw [hexpires.queuedGroups.1] at hmoved
      rw [hexpires.1] at ha
      rcases List.mem_cons.mp ha with rfl | hrest
      · refine ⟨?_, h t a rest hexpires⟩
        rw [hexpires.queuedGroups.2]
        exact List.mem_cons_self
      · exact (hmoved hrest).elim
    · rw [heq] at hmoved
      exact (hmoved ha).elim

/-- **Every move has a reason if and only if** the clock has passed the waiting time once, or no group
that is large enough could be moved. -/
theorem expires_reason_iff (hclock : ∀ t, ∀ g ∈ q.queuedGroups (.premade t),
      (q.groups g).joinTime.toNat ≤ gameTimeMS.toNat) :
    (∀ t g rest, Expires q (gameTimeMS - waitForMatch) minPlayersPerTeam t g rest →
        (q.groups g).joinTime.toNat + waitForMatch.toNat ≤ gameTimeMS.toNat ∨
          (q.groups g).size < minPlayersPerTeam) ↔
      waitForMatch ≤ gameTimeMS ∨ ∀ t g, (q.queuedGroups (.premade t)).head? = some g →
        (q.groups g).invited = true ∨ (q.groups g).size < minPlayersPerTeam := by
  by_cases hwait : waitForMatch ≤ gameTimeMS
  · refine iff_of_true ?_ (.inl hwait)
    rintro t g rest ⟨_, _, hlt | hfew⟩
    · left
      rw [UInt32.lt_iff_toNat_lt, UInt32.toNat_sub_of_le _ _ hwait] at hlt
      omega
    · exact .inr hfew
  · rw [or_iff_right hwait]
    rw [UInt32.le_iff_toNat_le, not_le] at hwait
    -- the subtraction wraps around: everything has joined before
    have hwrap : gameTimeMS.toNat < (gameTimeMS - waitForMatch).toNat := by
      have hlt := waitForMatch.toNat_lt
      rw [UInt32.toNat_sub]
      omega
    constructor
    · intro h t g hhead
      by_cases hinvited : (q.groups g).invited = true
      · exact .inl hinvited
      · obtain ⟨rest, hqueue⟩ := List.head?_eq_some_iff.mp hhead
        have hjoin := hclock t g (by rw [hqueue]; exact List.mem_cons_self)
        have hreason := h t g rest ⟨hqueue, Bool.eq_false_iff.mpr hinvited,
          .inl (UInt32.lt_iff_toNat_lt.mpr (hjoin.trans_lt hwrap))⟩
        omega
    · rintro h t g rest ⟨hqueue, hinvited, _⟩
      grind

end

/-! ## Both parts -/

section

variable {q : BattlegroundQueue} {gameTimeMS waitForMatch : UInt32}
  {minPlayersPerTeam maxPlayersPerTeam : Nat}

/-- There is a premade group of each side to play. -/
def BattlegroundQueue.HasPremades (q : BattlegroundQueue) : Prop := ∀ t, q.premadeGroup t ≠ none

theorem mem_premadePool {t : Team} {g : GroupRef}
    (hg : g ∈ (premadePool q maxPlayersPerTeam t).selectedGroups) : g ∈ q.queuedGroups (.premade t) := by
  unfold premadePool at hg
  cases hgroup : q.premadeGroup t with
  | none =>
    rw [hgroup] at hg
    exact (List.not_mem_nil hg).elim
  | some a =>
    rw [hgroup] at hg
    have ha : a ∈ q.queuedGroups (.premade t) := List.mem_of_find?_eq_some hgroup
    rcases SelectionPool.init.addGroup_cases q.groups a maxPlayersPerTeam with ⟨_, _, hadd⟩ | ⟨_, hadd⟩
    · dsimp only at hg
      rw [hadd] at hg
      rw [List.mem_singleton.mp hg]
      exact ha
    · dsimp only at hg
      rw [hadd] at hg
      exact (List.not_mem_nil hg).elim

/-- **With a match, no group of the normal queues is added**: the pool with fewer players is full by the
bound, and so is the other one. -/
theorem checkPremadeMatch_of_premades (hq : q.WellFormed) (h : q.HasPremades) :
    checkPremadeMatch q.initPools gameTimeMS waitForMatch minPlayersPerTeam maxPlayersPerTeam =
      (true, { q with selectionPools := premadePool q maxPlayersPerTeam }) := by
  obtain ⟨ali, hali⟩ := Option.ne_none_iff_exists'.mp (h .ALLIANCE)
  obtain ⟨horde, hhorde⟩ := Option.ne_none_iff_exists'.mp (h .HORDE)
  have hpool_ali : premadePool q maxPlayersPerTeam .ALLIANCE =
      (SelectionPool.init.addGroup q.groups ali maxPlayersPerTeam).2 := by
    rw [premadePool, hali]
  have hpool_horde : premadePool q maxPlayersPerTeam .HORDE =
      (SelectionPool.init.addGroup q.groups horde maxPlayersPerTeam).2 := by
    rw [premadePool, hhorde]
  have hplayers : ∀ t, ∀ g ∈ q.queuedGroups (.normal t), 0 < (q.groups g).size := fun t g hg =>
    hq.players_list hg
  unfold checkPremadeMatch
  rw [show q.initPools.premadeGroup .ALLIANCE = some ali from hali,
    show q.initPools.premadeGroup .HORDE = some horde from hhorde]
  refine congrArg (Prod.mk true) ?_
  refine congrArg (BattlegroundQueue.mk q.groups q.queuedGroups) (funext fun t => ?_)
  cases t with
  | ALLIANCE =>
    rw [hpool_ali]
    exact fillUninvited_of_full (hplayers .ALLIANCE) (min_le_left _ _)
  | HORDE =>
    rw [hpool_horde]
    exact fillUninvited_of_full (hplayers .HORDE) (min_le_right _ _)

theorem checkPremadeMatch_of_not_premades (h : ¬q.HasPremades) :
    checkPremadeMatch q.initPools gameTimeMS waitForMatch minPlayersPerTeam maxPlayersPerTeam =
      (false, bothMoves (gameTimeMS - waitForMatch) minPlayersPerTeam q.initPools) := by
  unfold checkPremadeMatch
  split
  · rename_i ali horde hali hhorde
    refine (h ?_).elim
    intro t
    cases t with
    | ALLIANCE => exact fun hnone => Option.some_ne_none ali (hali.symm.trans hnone)
    | HORDE => exact fun hnone => Option.some_ne_none horde (hhorde.symm.trans hnone)
  · rfl

theorem filledToBigger_iff (hq : q.WellFormed) :
    FilledToBigger q maxPlayersPerTeam (premadePool q maxPlayersPerTeam) ↔
      ∀ t, (premadePool q maxPlayersPerTeam t).playerCount <
          (premadePool q maxPlayersPerTeam t.other).playerCount →
        ∀ g ∈ q.queuedGroups (.normal t), (q.groups g).invited = false →
          (premadePool q maxPlayersPerTeam t.other).playerCount <
            (premadePool q maxPlayersPerTeam t).playerCount + (q.groups g).size := by
  constructor
  · intro h t hlt g hg hinvited
    refine (h t hlt).2.2 g hg hinvited ?_
    intro hpool
    exact hq.disjoint (show GroupType.premade t ≠ .normal t by simp) (mem_premadePool hpool) hg
  · intro h t hlt
    exact ⟨⟨[], (List.append_nil _).symm, List.nil_sublist _⟩, hlt.le,
      fun g hg hinvited _ => h t hlt g hg hinvited⟩

/-- **The promises of `CheckPremadeMatch` hold if and only if**, with a match, no group of the normal
queue fits into the smaller side, and without one, the clock has passed the waiting time once or no
group that is large enough could be moved. -/
theorem premadePromises_iff (hq : q.WellFormed)
    (hclock : ∀ t, ∀ g ∈ q.queuedGroups (.premade t), (q.groups g).joinTime.toNat ≤ gameTimeMS.toNat) :
    PremadePromises q gameTimeMS waitForMatch minPlayersPerTeam maxPlayersPerTeam ↔
      (q.HasPremades → ∀ t, (premadePool q maxPlayersPerTeam t).playerCount <
          (premadePool q maxPlayersPerTeam t.other).playerCount →
        ∀ g ∈ q.queuedGroups (.normal t), (q.groups g).invited = false →
          (premadePool q maxPlayersPerTeam t.other).playerCount <
            (premadePool q maxPlayersPerTeam t).playerCount + (q.groups g).size) ∧
      (¬q.HasPremades → waitForMatch ≤ gameTimeMS ∨
        ∀ t g, (q.queuedGroups (.premade t)).head? = some g →
          (q.groups g).invited = true ∨ (q.groups g).size < minPlayersPerTeam) := by
  by_cases h : q.HasPremades
  · rw [and_iff_left (fun hno => (hno h).elim), imp_iff_right h, ← filledToBigger_iff hq]
    constructor
    · intro hpromises
      exact hpromises.filled _ (checkPremadeMatch_of_premades hq h)
    · intro hfilled
      constructor
      · grind [checkPremadeMatch_of_premades]
      · intro r q' hq'
        rw [checkPremadeMatch_of_premades hq h, Prod.mk.injEq] at hq'
        rw [← hq'.2]
        exact ⟨⟨hq.nodup, hq.players⟩, fun t g hg hmoved => (hmoved hg).elim⟩
  · rw [and_iff_right (fun hyes => (h hyes).elim), imp_iff_right h, ← expires_reason_iff hclock]
    have hinit : q.initPools.WellFormed := ⟨hq.nodup, hq.players⟩
    constructor
    · intro hpromises
      exact (movedForReason_iff hinit _).mp (hpromises.moved _ _ (checkPremadeMatch_of_not_premades h))
    · intro hreason
      constructor
      · intro q' hq'
        rw [checkPremadeMatch_of_not_premades h] at hq'
        cases hq'
      · intro r q' hq'
        rw [checkPremadeMatch_of_not_premades h, Prod.mk.injEq] at hq'
        rw [← hq'.2]
        exact (movedForReason_iff hinit _).mpr hreason

end

/-! ## A group that would have fitted -/

/-- Three alliance players in a premade group, two horde players in another one, and a horde player in
the normal queue. -/
def threeAgainstTwo : BattlegroundQueue where
  groups
    | 0 => ⟨[1, 2, 3], .ALLIANCE, false, 0, 0, 0, 0, 0, 0, 0, 0, 0⟩
    | 1 => ⟨[4, 5], .HORDE, false, 0, 0, 0, 0, 0, 0, 0, 0, 0⟩
    | _ => ⟨[6], .HORDE, false, 0, 0, 0, 0, 0, 0, 0, 0, 0⟩
  queuedGroups
    | .premade .ALLIANCE => [0]
    | .premade .HORDE => [1]
    | .normal .ALLIANCE => []
    | .normal .HORDE => [2]
  selectionPools _ := .init

theorem wellFormed_threeAgainstTwo : threeAgainstTwo.WellFormed :=
  ⟨by decide, by decide⟩

/-- The horde player stays in queue, and it is three against two. -/
theorem not_premadePromises :
    ¬∀ (q : BattlegroundQueue) (gameTimeMS waitForMatch : UInt32) (minPlayersPerTeam maxPlayersPerTeam : Nat),
      q.WellFormed →
      (∀ t, ∀ g ∈ q.queuedGroups (.premade t), (q.groups g).joinTime.toNat ≤ gameTimeMS.toNat) →
      PremadePromises q gameTimeMS waitForMatch minPlayersPerTeam maxPlayersPerTeam := by
  intro h
  have hpromises := h threeAgainstTwo 10 5 2 5 wellFormed_threeAgainstTwo
    (fun t => by cases t <;> decide)
  have hfilled := hpromises.filled _ rfl .HORDE (by decide)
  have hfits := hfilled.2.2 2 (by decide) (by decide) (by decide)
  revert hfits
  decide

theorem premadePromises_iff_threeAgainstTwo :
    PremadePromises threeAgainstTwo 10 5 2 5 ↔
      (threeAgainstTwo.HasPremades → ∀ t, (premadePool threeAgainstTwo 5 t).playerCount <
          (premadePool threeAgainstTwo 5 t.other).playerCount →
        ∀ g ∈ threeAgainstTwo.queuedGroups (.normal t), (threeAgainstTwo.groups g).invited = false →
          (premadePool threeAgainstTwo 5 t.other).playerCount <
            (premadePool threeAgainstTwo 5 t).playerCount + (threeAgainstTwo.groups g).size) ∧
      (¬threeAgainstTwo.HasPremades → (5 : UInt32) ≤ 10 ∨
        ∀ t g, (threeAgainstTwo.queuedGroups (.premade t)).head? = some g →
          (threeAgainstTwo.groups g).invited = true ∨ (threeAgainstTwo.groups g).size < 2) :=
  premadePromises_iff wellFormed_threeAgainstTwo (fun t => by cases t <;> decide)

end EGServer.Battlegrounds
