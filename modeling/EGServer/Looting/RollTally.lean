import EGServer.Looting.Rolls

/-!
# The tallies of a roll

What the four counters of a roll should say, and what a vote, a departure and the opening of a roll
do to it. A member who passes on all loot gets a pass in its entry that no counter sees, so a roll
is opened right when no such member could roll for the item.
-/

namespace EGServer.Looting

/-! ## Counters -/

theorem toNat_succ {x : UInt8} (h : x.toNat < 255) : (x + 1).toNat = x.toNat + 1 := by
  rw [UInt8.toNat_add]
  exact Nat.mod_eq_of_lt (Nat.succ_lt_succ h)

theorem toNat_pred {x : UInt8} (h : 0 < x.toNat) : (x - 1).toNat + 1 = x.toNat := by
  have hx := x.toNat_lt
  have hone : (1 : UInt8).toNat = 1 := rfl
  rw [UInt8.toNat_sub, hone]
  omega

namespace Roll

variable {templates : Templates} {r : Roll} {guid : ObjectGuid} {vote : RollVote}

/-- How many entries have a vote of some kind. -/
def votes (r : Roll) (p : RollVote → Bool) : Nat := r.playerVote.rows.countP fun e => p e.vote

def isPass (vote : RollVote) : Bool := decide (vote = .pass)

def isOpen (vote : RollVote) : Bool := decide (vote = .notEmitedYet)

def isInvalid (vote : RollVote) : Bool := decide (vote = .notValid)

/-- **The counters say what is in the entries.** -/
structure Tallied (r : Roll) : Prop where
  pass : r.totalPass.toNat = r.votes isPass
  need : r.totalNeed.toNat = r.votes isNeed
  greed : r.totalGreed.toNat = r.votes isGreed
  total : r.totalPlayersRolling.toNat = r.playerVote.rows.length
  valid : r.votes isInvalid = 0
  small : r.playerVote.rows.length ≤ MAXRAIDSIZE

/-- Somebody has not voted yet. -/
def Undecided (r : Roll) : Prop := 0 < r.votes isOpen

theorem votes_sum (r : Roll) :
    r.votes isPass + r.votes isNeed + r.votes isGreed + r.votes isOpen + r.votes isInvalid =
      r.playerVote.rows.length := by
  unfold votes
  induction r.playerVote.rows with
  | nil => rfl
  | cons e rows ih =>
    simp only [List.countP_cons, List.length_cons]
    have hone : (if isPass e.vote then 1 else 0) + (if isNeed e.vote then 1 else 0) +
        (if isGreed e.vote then 1 else 0) + (if isOpen e.vote then 1 else 0) +
        (if isInvalid e.vote then 1 else 0) = 1 := by
      cases e.vote <;> rfl
    omega

theorem votes_le (r : Roll) (p : RollVote → Bool) : r.votes p ≤ r.playerVote.rows.length :=
  List.countP_le_length

theorem Tallied.isDecided_iff (h : r.Tallied) : r.isDecided = true ↔ ¬r.Undecided := by
  have hsum := r.votes_sum
  rw [isDecided, decide_eq_true_eq, h.pass, h.need, h.greed, h.total, Undecided]
  have hvalid := h.valid
  omega

/-! ## Entries -/

theorem voteOf_eq_some : r.voteOf guid = some vote ↔
    ∃ e, r.playerVote.get? guid = some e ∧ e.vote = vote := by
  rw [voteOf, Option.map_eq_some_iff]

theorem setVote_of_some {playerVote : PlayerVote} {e : RollEntry}
    (h : playerVote.get? guid = some e) :
    setVote playerVote guid vote = playerVote.modify guid (fun e => { e with vote }) fun _ => rfl := by
  have hnone : playerVote.tryEmplace byGuid { guid, vote } = none := by
    refine dif_neg ?_
    rw [h]
    rintro ⟨⟩
  rw [setVote, hnone]

theorem setVote_of_none {playerVote : PlayerVote} (vote : RollVote)
    (h : playerVote.get? guid = none) :
    playerVote.tryEmplace byGuid { guid, vote } = some (setVote playerVote guid vote) := by
  have hsome : (playerVote.tryEmplace byGuid { guid, vote }).isSome = true := by
    rw [Table.tryEmplace, dif_pos h]
    rfl
  obtain ⟨t, ht⟩ := Option.isSome_iff_exists.mp hsome
  rw [setVote, ht]

theorem countP_setVote {playerVote : PlayerVote} {e : RollEntry}
    (h : playerVote.get? guid = some e) (vote : RollVote) (p : RollVote → Bool) :
    (setVote playerVote guid vote).rows.countP (fun e => p e.vote) + (p e.vote).toNat =
      playerVote.rows.countP (fun e => p e.vote) + (p vote).toNat := by
  rw [setVote_of_some h]
  exact Table.countP_modify _ h

theorem length_setVote {playerVote : PlayerVote} {e : RollEntry}
    (h : playerVote.get? guid = some e) :
    (setVote playerVote guid vote).rows.length = playerVote.rows.length := by
  rw [setVote_of_some h, Table.length_modify]

/-! ## A vote -/

theorem Tallied.votes_lt (h : r.Tallied) (p : RollVote → Bool) : r.votes p < 255 := by
  have hle := r.votes_le p
  have hsmall := h.small
  rw [MAXRAIDSIZE] at hsmall
  omega

theorem Tallied.setVote (h : r.Tallied) (hopen : r.voteOf guid = some .notEmitedYet)
    {pass need greed : UInt8} (hpass : pass.toNat = r.totalPass.toNat + (isPass vote).toNat)
    (hneed : need.toNat = r.totalNeed.toNat + (isNeed vote).toNat)
    (hgreed : greed.toNat = r.totalGreed.toNat + (isGreed vote).toNat)
    (hvalid : isInvalid vote = false) :
    Tallied { r with totalPass := pass, totalNeed := need, totalGreed := greed,
                     playerVote := Roll.setVote r.playerVote guid vote } := by
  obtain ⟨e, he, hvote⟩ := voteOf_eq_some.mp hopen
  have hcount : ∀ p : RollVote → Bool, p .notEmitedYet = false →
      (Roll.setVote r.playerVote guid vote).rows.countP (fun e => p e.vote) =
        r.votes p + (p vote).toNat := by
    intro p hp
    have hone := countP_setVote he vote p
    rw [hvote, hp, Bool.toNat_false, Nat.add_zero] at hone
    exact hone
  have hlength : (Roll.setVote r.playerVote guid vote).rows.length = r.playerVote.rows.length :=
    length_setVote he
  constructor
  · rw [votes, hcount isPass rfl, hpass, h.pass]
  · rw [votes, hcount isNeed rfl, hneed, h.need]
  · rw [votes, hcount isGreed rfl, hgreed, h.greed]
  · exact h.total.trans hlength.symm
  · rw [votes, hcount isInvalid rfl, h.valid, hvalid]
    rfl
  · exact hlength.le.trans h.small

/-- **Voting** moves one entry from the open ones to the votes of its kind. -/
theorem Tallied.cast (h : r.Tallied) (hopen : r.voteOf guid = some .notEmitedYet) (choice : UInt8) :
    (r.cast guid choice).Tallied := by
  have hpass : r.totalPass.toNat < 255 := h.pass ▸ h.votes_lt isPass
  have hneed : r.totalNeed.toNat < 255 := h.need ▸ h.votes_lt isNeed
  have hgreed : r.totalGreed.toNat < 255 := h.greed ▸ h.votes_lt isGreed
  unfold Roll.cast
  repeat' split
  · exact h.setVote hopen (toNat_succ hpass) rfl rfl rfl
  · exact h.setVote hopen rfl (toNat_succ hneed) rfl rfl
  · exact h.setVote hopen rfl rfl (toNat_succ hgreed) rfl
  · exact h.setVote hopen rfl rfl (toNat_succ hgreed) rfl
  · exact h

/-! ## A departure -/

/-- **Leaving** takes the entry and its vote away. -/
theorem Tallied.leave (h : r.Tallied) (hvote : r.voteOf guid = some vote) :
    (r.leave guid vote).Tallied := by
  obtain ⟨e, he, rfl⟩ := voteOf_eq_some.mp hvote
  have hcount : ∀ p : RollVote → Bool,
      (r.playerVote.erase guid).rows.countP (fun e => p e.vote) + (p e.vote).toNat = r.votes p :=
    fun p => Table.countP_erase he
  have hlength : (r.playerVote.erase guid).rows.length + 1 = r.playerVote.rows.length :=
    Table.length_erase he
  have hinvalid : isInvalid e.vote = false := by
    have hone := hcount isInvalid
    rw [h.valid] at hone
    exact Bool.toNat_eq_zero.mp (by omega)
  have hlower : ∀ (x : UInt8) (p : RollVote → Bool), x.toNat = r.votes p →
      (if p e.vote = true then x - 1 else x).toNat =
        (r.playerVote.erase guid).rows.countP fun e => p e.vote := by
    intro x p hx
    have hone := hcount p
    split
    · next hp =>
      rw [hp, Bool.toNat_true] at hone
      have hpred := toNat_pred (x := x) (by omega)
      omega
    · next hp =>
      rw [eq_false_of_ne_true hp, Bool.toNat_false] at hone
      omega
  have hnotValid : e.vote ≠ .notValid := of_decide_eq_false hinvalid
  refine ⟨?_, ?_, ?_, ?_, ?_, ?_⟩
  · have hpass := hlower r.totalPass isPass h.pass
    simp only [isPass, decide_eq_true_eq] at hpass
    exact hpass
  · have hneed := hlower r.totalNeed isNeed h.need
    simp only [isNeed, decide_eq_true_eq] at hneed
    exact hneed
  · have hgreed := hlower r.totalGreed isGreed h.greed
    simp only [isGreed, Bool.or_eq_true, decide_eq_true_eq] at hgreed
    simp only [Roll.leave, Bool.or_eq_true, decide_eq_true_eq]
    exact hgreed
  · rw [Roll.leave]
    dsimp only
    rw [if_neg hnotValid]
    have htotal := h.total
    have hpred := toNat_pred (x := r.totalPlayersRolling) (by omega)
    show (r.totalPlayersRolling - 1).toNat = (r.playerVote.erase guid).rows.length
    omega
  · have hone := hcount isInvalid
    have hvalid := h.valid
    show (r.playerVote.erase guid).rows.countP _ = 0
    omega
  · have hsmall := h.small
    show (r.playerVote.erase guid).rows.length ≤ MAXRAIDSIZE
    omega

/-! ## A new roll -/

/-- The members near a loot that are to vote on an item: each that can roll for it, when none of
these passes on everything. -/
structure Votable (templates : Templates) (group : RollGroup) (item : LootItem) (asksPass : Bool) :
    Prop where
  noAutoPass : ∀ m ∈ group.members, m.isAtGroupRewardDistance = true →
    canRollOnItem templates item m.player = true → asksPass = true → m.passOnGroupLoot = false
  someone : (∃ m ∈ group.members, m.isAtGroupRewardDistance = true) →
    ∃ m ∈ group.members, m.isAtGroupRewardDistance = true ∧
      canRollOnItem templates item m.player = true

variable {item : LootItem} {asksPass : Bool} {m : RollMember} {members : List RollMember}

theorem addRollers_same (templates : Templates) (item : LootItem) (asksPass : Bool)
    (members : List RollMember) (r : Roll) :
    (addRollers templates item asksPass members r).itemGUID = r.itemGUID ∧
      (addRollers templates item asksPass members r).loot = r.loot ∧
      (addRollers templates item asksPass members r).itemSlot = r.itemSlot := by
  induction members generalizing r with
  | nil => exact ⟨rfl, rfl, rfl⟩
  | cons m members ih =>
    rw [addRollers]
    obtain ⟨h₁, h₂, h₃⟩ := ih (if m.isAtGroupRewardDistance then
      r.addRoller templates item asksPass m else r)
    rw [h₁, h₂, h₃]
    split <;> exact ⟨rfl, rfl, rfl⟩

/-- The vote a member starts with. -/
def firstVote (templates : Templates) (item : LootItem) (asksPass : Bool) (m : RollMember) :
    RollVote :=
  if !canRollOnItem templates item m.player then .pass
  else if asksPass && m.passOnGroupLoot then .pass
  else .notEmitedYet

theorem addRoller_votes (templates : Templates) (item : LootItem) (asksPass : Bool)
    (hnew : r.playerVote.get? m.player.guid = none) (p : RollVote → Bool) :
    (r.addRoller templates item asksPass m).votes p =
        r.votes p + (p (firstVote templates item asksPass m)).toNat ∧
      (r.addRoller templates item asksPass m).playerVote.rows.length =
        r.playerVote.rows.length + 1 := by
  have hset := setVote_of_none (firstVote templates item asksPass m) hnew
  exact ⟨Table.countP_tryEmplace hset, Table.length_tryEmplace hset⟩

/-- **A new entry** is counted, when the member does not pass on what it can roll for. -/
theorem Tallied.addRoller (h : r.Tallied) (hnew : r.playerVote.get? m.player.guid = none)
    (hsmall : r.playerVote.rows.length < MAXRAIDSIZE)
    (hpass : canRollOnItem templates item m.player = true → asksPass = true →
      m.passOnGroupLoot = false) : (r.addRoller templates item asksPass m).Tallied := by
  have hvotes := fun p => (addRoller_votes templates item asksPass hnew p).1
  have hlength := (addRoller_votes templates item asksPass hnew isPass).2
  have hfirst : firstVote templates item asksPass m =
      if canRollOnItem templates item m.player then .notEmitedYet else .pass := by
    rw [firstVote]
    cases hcan : canRollOnItem templates item m.player with
    | false => rfl
    | true =>
      cases hasks : asksPass with
      | false => rfl
      | true =>
        rw [hpass hcan hasks]
        rfl
  constructor
  · rw [hvotes, hfirst, ← h.pass]
    have hlt := h.pass ▸ h.votes_lt isPass
    cases hcan : canRollOnItem templates item m.player with
    | false =>
      have hraise : (r.addRoller templates item asksPass m).totalPass = r.totalPass + 1 := by
        rw [Roll.addRoller]
        dsimp only
        rw [hcan]
        rfl
      rw [hraise]
      exact toNat_succ hlt
    | true =>
      have hsame : (r.addRoller templates item asksPass m).totalPass = r.totalPass := by
        rw [Roll.addRoller]
        dsimp only
        rw [hcan]
        rfl
      rw [hsame]
      rfl
  · rw [hvotes, hfirst, ← h.need]
    cases canRollOnItem templates item m.player <;> rfl
  · rw [hvotes, hfirst, ← h.greed]
    cases canRollOnItem templates item m.player <;> rfl
  · rw [hlength, ← h.total]
    refine toNat_succ ?_
    rw [h.total]
    rw [MAXRAIDSIZE] at hsmall
    omega
  · rw [hvotes, hfirst, h.valid]
    cases canRollOnItem templates item m.player <;> rfl
  · rw [hlength]
    exact hsmall

theorem addRoller_get_ne (hnew : r.playerVote.get? m.player.guid = none) (hne : guid ≠ m.player.guid)
    (hguid : r.playerVote.get? guid = none) :
    (r.addRoller templates item asksPass m).playerVote.get? guid = none := by
  have hset := setVote_of_none (firstVote templates item asksPass m) hnew
  exact (Table.get?_tryEmplace_ne hset hne).trans hguid

/-- **A new roll**: its counters are right, there is an open vote for each member that can roll, and
it has entries when a member is near. -/
theorem addRollers_tallied (templates : Templates) (item : LootItem) (asksPass : Bool)
    (hnodup : (members.map (·.player.guid)).Nodup)
    (hsmall : r.playerVote.rows.length + members.length ≤ MAXRAIDSIZE)
    (hnew : ∀ m ∈ members, r.playerVote.get? m.player.guid = none)
    (hpass : ∀ m ∈ members, m.isAtGroupRewardDistance = true →
      canRollOnItem templates item m.player = true → asksPass = true → m.passOnGroupLoot = false)
    (h : r.Tallied) :
    (addRollers templates item asksPass members r).Tallied ∧
      ((r.Undecided ∨ ∃ m ∈ members, m.isAtGroupRewardDistance = true ∧
        canRollOnItem templates item m.player = true) →
        (addRollers templates item asksPass members r).Undecided) := by
  induction members generalizing r with
  | nil =>
    refine ⟨h, ?_⟩
    rintro (hopen | ⟨m, hm, -⟩)
    · exact hopen
    · cases hm
  | cons m members ih =>
    rw [List.map_cons, List.nodup_cons] at hnodup
    rw [List.length_cons] at hsmall
    have hm := hnew m List.mem_cons_self
    rw [addRollers]
    by_cases hnear : m.isAtGroupRewardDistance = true
    · rw [if_pos hnear]
      have hpassm := hpass m List.mem_cons_self hnear
      have hopen := (addRoller_votes templates item asksPass hm isOpen).1
      have hlength := (addRoller_votes templates item asksPass hm isOpen).2
      obtain ⟨htallied, hundecided⟩ := ih (r := r.addRoller templates item asksPass m) hnodup.2
        (by omega) (by
          intro m' hm'
          refine addRoller_get_ne hm ?_ (hnew m' (List.mem_cons_of_mem m hm'))
          intro heq
          exact hnodup.1 (List.mem_map.mpr ⟨m', hm', heq⟩))
        (fun m' hm' => hpass m' (List.mem_cons_of_mem m hm'))
        (h.addRoller hm (by omega) hpassm)
      refine ⟨htallied, ?_⟩
      intro hsome
      apply hundecided
      rcases hsome with hundec | ⟨m', hm', hnear', hcan'⟩
      · left
        rw [Undecided] at hundec ⊢
        omega
      · rcases List.mem_cons.mp hm' with rfl | hm'
        · left
          have hfirst : firstVote templates item asksPass m' = .notEmitedYet := by
            rw [firstVote, hcan']
            cases hasks : asksPass with
            | false => rfl
            | true =>
              rw [hpassm hcan' hasks]
              rfl
          rw [hfirst] at hopen
          rw [Undecided, hopen]
          exact Nat.succ_pos _
        · exact Or.inr ⟨m', hm', hnear', hcan'⟩
    · rw [if_neg hnear]
      obtain ⟨htallied, hundecided⟩ := ih hnodup.2 (by omega)
        (fun m' hm' => hnew m' (List.mem_cons_of_mem m hm'))
        (fun m' hm' => hpass m' (List.mem_cons_of_mem m hm')) h
      refine ⟨htallied, ?_⟩
      intro hsome
      apply hundecided
      rcases hsome with hundec | ⟨m', hm', hnear', hcan'⟩
      · exact Or.inl hundec
      · rcases List.mem_cons.mp hm' with rfl | hm'
        · exact absurd hnear' hnear
        · exact Or.inr ⟨m', hm', hnear', hcan'⟩

theorem addRollers_nobody (hnear : ¬∃ m ∈ members, m.isAtGroupRewardDistance = true) :
    addRollers templates item asksPass members r = r := by
  induction members with
  | nil => rfl
  | cons m members ih =>
    rw [addRollers, if_neg fun h => hnear ⟨m, List.mem_cons_self, h⟩]
    exact ih fun ⟨m', hm', h⟩ => hnear ⟨m', List.mem_cons_of_mem m hm', h⟩

/-! ## Counting a roll -/

/-- **Counting the votes of a kind** lowers the total by who is gone, and never below zero. -/
theorem rollOff_total (answers : Answers) (p : RollVote → Bool) (rows : List RollEntry)
    (total : UInt8) (maxresul : Nat) (best : Option RollEntry)
    (h : rows.countP (fun e => p e.vote) ≤ total.toNat) :
    (rollOff answers p rows (total, maxresul, best)).1.toNat +
      rows.countP (fun e => p e.vote && !answers.isThere e.guid) = total.toNat := by
  induction rows generalizing total maxresul best with
  | nil => rfl
  | cons e rows ih =>
    rw [rollOff, List.countP_cons]
    rw [List.countP_cons] at h
    cases hp : p e.vote with
    | false =>
      rw [hp] at h
      simp only [Bool.not_false, if_true, Bool.false_and, Bool.false_eq_true, if_false,
        Nat.add_zero]
      exact ih _ _ _ h
    | true =>
      rw [hp, if_pos rfl] at h
      simp only [Bool.not_true, Bool.false_eq_true, if_false, Bool.true_and]
      cases hthere : answers.isThere e.guid with
      | false =>
        simp only [Bool.not_false, if_true]
        have hpred := toNat_pred (x := total) (by omega)
        have hrest := ih (total - 1) maxresul best (by omega)
        omega
      | true =>
        simp only [Bool.not_true, Bool.false_eq_true, if_false, Nat.add_zero]
        split
        · exact ih _ _ _ (by omega)
        · exact ih _ _ _ (by omega)

end Roll

end EGServer.Looting
