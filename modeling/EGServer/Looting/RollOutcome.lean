import EGServer.Looting.RollRun
import EGServer.Lib.FirstBest

/-!
# How a roll comes out

`CountTheRoll` with all that it hands out. Its three parts are chained through the counters: need
is counted first, greed when no need is left, and the item is opened to all when nothing is left.
Each part takes the voters who are gone off its counter, so that exactly one of the three decides
the roll.
-/

namespace EGServer.Looting

/-- What the end of a roll does for a player, or for all. -/
inductive RollOutcome where
  /-- `StoreNewItem`, of so many pieces -/
  | stored (winner : ObjectGuid) (itemid : ItemId) (count : UInt8)
  /-- `AutoStoreLoot` of the disenchant loot of the item, or the same loot by mail -/
  | disenchanted (winner : ObjectGuid) (itemid : ItemId) (byMail : Bool)
  /-- `SendEquipError`: only the winner may take the item now -/
  | noRoom (winner : ObjectGuid)
  /-- `SendLootAllPassed` -/
  | allPassed
  deriving DecidableEq

namespace Roll

variable {r : Roll} {L : Loot} {answers : Answers} {e : RollEntry} {p : RollVote → Bool}
  {rows : List RollEntry} {item : LootItem} {total : UInt8}

/-- What the winner gets of the item. -/
def prize (answers : Answers) (r : Roll) (item : LootItem) (winner : RollEntry) : RollOutcome :=
  if winner.vote = .disenchant then
    .disenchanted winner.guid r.itemid (!answers.canStore winner.guid)
  else if answers.canStore winner.guid then .stored winner.guid r.itemid item.count
  else .noRoom winner.guid

/-- One of the two kinds of votes that can win, and what it hands out. -/
def finishVotes (answers : Answers) (takesPart : RollVote → Bool) (r : Roll) (total : UInt8)
    (L : Loot) : UInt8 × List RollOutcome × Loot :=
  match bestVote answers takesPart r total with
  | (total, none) => (total, [], L)
  | (total, some winner) =>
    (total, ((L.itemAt r.itemSlot).map fun item => prize answers r item winner).toList,
      won answers (L.refAt r.itemSlot) winner L)

/-- `CountTheRoll`, on the loot of a valid roll, with what it does for the players. -/
def finish (answers : Answers) (r : Roll) (L : Loot) : List RollOutcome × Loot :=
  let (totalNeed, byNeed, L) := finishVotes answers isNeed r r.totalNeed L
  let (totalGreed, byGreed, L) :=
    if totalNeed = 0 then finishVotes answers isGreed r r.totalGreed L else (r.totalGreed, [], L)
  if totalNeed = 0 && totalGreed = 0 then
    (byNeed ++ byGreed ++ [.allPassed],
      L.modify (fun item => { item with is_blocked := false }) (L.refAt r.itemSlot))
  else (byNeed ++ byGreed, L)

/-! ## The loot is that of `countTheRoll` -/

theorem countVotes_eq (answers : Answers) (p : RollVote → Bool) (r : Roll) (total : UInt8) (L : Loot) :
    countVotes answers p r total L =
      ((finishVotes answers p r total L).1, (finishVotes answers p r total L).2.2) := by
  unfold countVotes finishVotes bestVote
  split
  · rfl
  · split
    · rfl
    · rfl

theorem finish_loot (answers : Answers) (r : Roll) (L : Loot) :
    (r.finish answers L).2 = r.countTheRoll answers L := by
  unfold finish Roll.countTheRoll
  rw [countVotes_eq]
  generalize finishVotes answers isNeed r r.totalNeed L = first
  obtain ⟨totalNeed, byNeed, L₁⟩ := first
  dsimp only
  by_cases hneed : totalNeed = 0
  · rw [if_pos hneed, if_pos hneed, countVotes_eq]
    grind
  · rw [if_neg hneed, if_neg hneed]
    dsimp only
    split <;> rfl

/-! ## The best vote -/

/-- A voter of the kind who takes part in the count. -/
def isAvailable (answers : Answers) (p : RollVote → Bool) (e : RollEntry) : Bool :=
  p e.vote && answers.isThere e.guid

/-- `urand(1, 100)` -/
def number (answers : Answers) (e : RollEntry) : Nat := (answers.randomN e.guid).val + 1

/-- The available voter of the kind with the highest number, the first of these in the map. -/
def IsBest (answers : Answers) (p : RollVote → Bool) (r : Roll) (e : RollEntry) : Prop :=
  FirstBest.IsFirstBest (number answers) (r.playerVote.rows.filter (isAvailable answers p)) e

/-- No voter of the kind is available. -/
def Nobody (answers : Answers) (p : RollVote → Bool) (r : Roll) : Prop :=
  ∀ e ∈ r.playerVote.rows, isAvailable answers p e = false

theorem rollOff_best (answers : Answers) (p : RollVote → Bool) (rows : List RollEntry)
    (total : UInt8) (e : RollEntry) :
    (rollOff answers p rows (total, number answers e, some e)).2.2 =
      some (FirstBest.scan (number answers) e (rows.filter (isAvailable answers p))) := by
  induction rows generalizing total e with
  | nil => rfl
  | cons a rows ih =>
    grind [isAvailable, number, FirstBest.scan, rollOff]

theorem rollOff_none (answers : Answers) (p : RollVote → Bool) (rows : List RollEntry)
    (total : UInt8) :
    (rollOff answers p rows (total, 0, none)).2.2 =
      match rows.filter (isAvailable answers p) with
      | [] => none
      | e :: rest => some (FirstBest.scan (number answers) e rest) := by
  induction rows generalizing total with
  | nil => rfl
  | cons a rows ih =>
    rw [rollOff, List.filter_cons, isAvailable]
    cases hp : p a.vote with
    | false => exact ih total
    | true =>
      cases hthere : answers.isThere a.guid with
      | false => exact ih (total - 1)
      | true => exact rollOff_best answers p rows total a

theorem votes_split (answers : Answers) (p : RollVote → Bool) (rows : List RollEntry) :
    rows.countP (fun e => p e.vote) = (rows.filter (isAvailable answers p)).length +
      rows.countP fun e => p e.vote && !answers.isThere e.guid := by
  induction rows with
  | nil => rfl
  | cons e rows ih =>
    rw [List.countP_cons, List.countP_cons, List.filter_cons, isAvailable]
    grind

/-- **Counting a kind of votes** with an exact counter: the best voter wins and the counter stays
above zero, or nobody is there and it is zero. -/
theorem bestVote_cases (answers : Answers) (h : total.toNat = r.votes p) :
    (∃ e, IsBest answers p r e ∧ ∃ total', total' ≠ 0 ∧
      bestVote answers p r total = (total', some e)) ∨
      Nobody answers p r ∧ bestVote answers p r total = (0, none) := by
  have hsplit := votes_split answers p r.playerVote.rows
  have htotal := rollOff_total answers p r.playerVote.rows total 0 none (Nat.le_of_eq h.symm)
  have hbest := rollOff_none answers p r.playerVote.rows total
  have hnobody : r.playerVote.rows.filter (isAvailable answers p) = [] → Nobody answers p r := by
    intro hnil e he
    exact Bool.eq_false_iff.mpr (List.filter_eq_nil_iff.mp hnil e he)
  unfold bestVote
  by_cases hnone : (total = 0 || r.playerVote.rows.isEmpty) = true
  · have hzero : r.votes p = 0 := by
      rw [Bool.or_eq_true, decide_eq_true_eq, List.isEmpty_iff] at hnone
      rcases hnone with hzero | hempty
      · rw [← h, hzero]
        rfl
      · rw [votes, hempty]
        rfl
    have hnil : (r.playerVote.rows.filter (isAvailable answers p)).length = 0 := by
      rw [← votes, hzero] at hsplit
      omega
    rw [if_pos hnone]
    refine Or.inr ⟨hnobody (List.length_eq_zero_iff.mp hnil), ?_⟩
    have htotal0 : total = 0 := UInt8.toNat_inj.mp (h.trans hzero)
    rw [htotal0]
  · rw [if_neg hnone]
    generalize rollOff answers p r.playerVote.rows (total, 0, none) = s at *
    obtain ⟨total', maxresul, best⟩ := s
    dsimp only at hbest htotal
    rw [hbest]
    cases hfilter : r.playerVote.rows.filter (isAvailable answers p) with
    | nil => exact Or.inr ⟨hnobody hfilter, rfl⟩
    | cons e rest =>
      refine Or.inl ⟨FirstBest.scan (number answers) e rest, ?_, total', ?_, rfl⟩
      · rw [IsBest, hfilter]
        exact FirstBest.scan_isFirstBest (number answers) e rest
      · rintro rfl
        rw [hfilter, List.length_cons, ← votes, ← h, ← htotal] at hsplit
        have hzero : (0 : UInt8).toNat = 0 := rfl
        omega

/-! ## The outcome -/

/-- The roll goes to a voter: it gets the item, or what the item disenchants into, or, with no room
for the item, nobody else may take it. -/
def GoesTo (answers : Answers) (r : Roll) (L : Loot) (item : LootItem) (e : RollEntry)
    (outcome : List RollOutcome × Loot) : Prop :=
  (e.vote ≠ .disenchant ∧ answers.canStore e.guid = true ∧
      outcome = ([.stored e.guid r.itemid item.count],
        { L.modify (fun item => { item with is_looted := true }) (L.refAt r.itemSlot) with
          unlootedCount := L.unlootedCount - 1
          handedOut := (e.guid, L.refAt r.itemSlot) :: L.handedOut })) ∨
  (e.vote = .disenchant ∧
      outcome = ([.disenchanted e.guid r.itemid (!answers.canStore e.guid)],
        { L.modify (fun item => { item with is_looted := true }) (L.refAt r.itemSlot) with
          unlootedCount := L.unlootedCount - 1
          handedOut := (e.guid, L.refAt r.itemSlot) :: L.handedOut })) ∨
  (e.vote ≠ .disenchant ∧ answers.canStore e.guid = false ∧
      outcome = ([.noRoom e.guid],
        L.modify (fun item => { item with is_blocked := false, rollWinnerGUID := e.guid })
          (L.refAt r.itemSlot)))

theorem goesTo_won (answers : Answers) (r : Roll) (L : Loot) (item : LootItem) (e : RollEntry) :
    GoesTo answers r L item e
      ([prize answers r item e], won answers (L.refAt r.itemSlot) e L) := by
  grind [won, prize, GoesTo]

/-- **The end of a roll.** -/
theorem finish_cases (answers : Answers) (hneed : r.totalNeed.toNat = r.votes isNeed)
    (hgreed : r.totalGreed.toNat = r.votes isGreed) (hitem : L.itemAt r.itemSlot = some item) :
    (∃ e, IsBest answers isNeed r e ∧ GoesTo answers r L item e (r.finish answers L)) ∨
      (Nobody answers isNeed r ∧ ∃ e, IsBest answers isGreed r e ∧
        GoesTo answers r L item e (r.finish answers L)) ∨
      (Nobody answers isNeed r ∧ Nobody answers isGreed r ∧
        r.finish answers L = ([.allPassed],
          L.modify (fun item => { item with is_blocked := false }) (L.refAt r.itemSlot))) := by
  unfold finish finishVotes
  rcases bestVote_cases answers hneed with ⟨e, hbest, total, hne, heq⟩ | ⟨hnobody, heq⟩
  · left
    refine ⟨e, hbest, ?_⟩
    rw [heq]
    simp only [hne, if_false, hitem, Option.map_some, Option.toList_some, decide_false,
      Bool.false_and, Bool.false_eq_true, List.append_nil]
    exact goesTo_won answers r L item e
  · right
    rw [heq]
    rcases bestVote_cases answers hgreed with ⟨e, hbest, total, hne, heq'⟩ | ⟨hnobody', heq'⟩
    · left
      refine ⟨hnobody, e, hbest, ?_⟩
      rw [heq']
      simp only [hne, if_true, if_false, hitem, Option.map_some, Option.toList_some, decide_true,
        decide_false, Bool.and_false, Bool.false_eq_true, List.nil_append]
      exact goesTo_won answers r L item e
    · right
      refine ⟨hnobody, hnobody', ?_⟩
      rw [heq']
      rfl

end Roll

namespace Rolls

/-- **CountTheRoll decides every roll correctly**: need goes before greed, the highest number wins,
what nobody wants is open to all, and the roll is removed. -/
theorem countTheRoll_decides (W : Rolls) {r : Roll} {L : Loot} {item : LootItem}
    (hL : W.loots r.loot = some L) (hitem : L.itemAt r.itemSlot = some item)
    (hneed : r.totalNeed.toNat = r.votes Roll.isNeed)
    (hgreed : r.totalGreed.toNat = r.votes Roll.isGreed) (answers : Roll.Answers) :
    ((∃ e, Roll.IsBest answers Roll.isNeed r e ∧ r.GoesTo answers L item e (r.finish answers L)) ∨
      (Roll.Nobody answers Roll.isNeed r ∧ ∃ e, Roll.IsBest answers Roll.isGreed r e ∧
        r.GoesTo answers L item e (r.finish answers L)) ∨
      (Roll.Nobody answers Roll.isNeed r ∧ Roll.Nobody answers Roll.isGreed r ∧
        r.finish answers L = ([.allPassed],
          L.modify (fun item => { item with is_blocked := false }) (L.refAt r.itemSlot)))) ∧
    (∀ p e, Roll.IsBest answers p r e → e ∈ r.playerVote ∧ p e.vote = true ∧
      answers.isThere e.guid = true ∧ ¬Roll.Nobody answers p r) ∧
    (W.countTheRoll answers r).RollId = W.RollId.erase r.itemGUID ∧
    (W.countTheRoll answers r).loots =
      Function.update W.loots r.loot (some (r.finish answers L).2) := by
  refine ⟨Roll.finish_cases answers hneed hgreed hitem, ?_, ?_, ?_⟩
  · intro p e hbest
    obtain ⟨hmem, havailable⟩ := List.mem_filter.mp hbest.mem
    obtain ⟨hp, hthere⟩ := Bool.and_eq_true_iff.mp havailable
    refine ⟨hmem, hp, hthere, fun hnobody => ?_⟩
    rw [hnobody e hmem] at havailable
    cases havailable
  · rw [countTheRoll_eq hL]
  · rw [countTheRoll_eq hL, Roll.finish_loot]

/-- 7 wants the item, but is gone; 8 and 9 are greedy, and draw the same number. -/
def threeVotes : Roll where
  itemGUID := 0
  itemid := 1
  loot := 1
  itemSlot := 0
  playerVote := ⟨[⟨7, .need⟩, ⟨8, .disenchant⟩, ⟨9, .greed⟩], by
    show ([7, 8, 9] : List ObjectGuid).Nodup
    decide⟩
  totalPlayersRolling := 3
  totalNeed := 1
  totalGreed := 2

def sevenGone : Roll.Answers := { anyAnswers with isThere := (· != 7) }

/-- 8 comes first, and gets what the item disenchants into. -/
theorem threeVotes_decided :
    (threeVotes.finish sevenGone { items := [{ itemid := 1, count := 5 }] }).1 =
        [.disenchanted 8 1 false] ∧
      (countTheRoll { loots := fun _ => some { items := [{ itemid := 1, count := 5 }] } } sevenGone
        threeVotes).RollId = Table.erase ∅ 0 :=
  ⟨by decide, (@countTheRoll_decides { loots := fun _ => some { items := [{ itemid := 1, count := 5 }] } }
    threeVotes _ { itemid := 1, count := 5 } rfl rfl (by decide) (by decide) sevenGone).2.2.1⟩

end Rolls

end EGServer.Looting
