import EGServer.Looting.Loot
import Mathlib

/-!
# Rolls

A group that rolls for the items of a loot: `GroupLoot` and `NeedBeforeGreed` open a roll for each
item that is rolled for, members vote, and a roll ends when all have voted or its time is up. The
votes of a roll are in its entries, one for each member that was near the loot, and counted in
four `uint8` beside them.

A loot is known by a number. Its entries are at most `MAX_NR_LOOT_ITEMS` items and
`MAX_NR_QUEST_ITEMS` quest items, so that a slot does not wrap. An item without a template, which
`NeedBeforeGreed` asserts not to meet, is passed over.
-/

namespace EGServer.Looting

abbrev LootId := Nat

/-- The most members a group has. -/
def MAXRAIDSIZE : Nat := 40

inductive RollVote where
  | pass
  | need
  | greed
  | disenchant
  | notEmitedYet
  | notValid
  deriving DecidableEq

def MAX_ROLL_TYPE : UInt8 := 4

def ROLL_FLAG_TYPE_PASS : UInt8 := 0x01
def ROLL_FLAG_TYPE_NEED : UInt8 := 0x02
def ROLL_FLAG_TYPE_GREED : UInt8 := 0x04
def ROLL_FLAG_TYPE_DISENCHANT : UInt8 := 0x08
def ROLL_ALL_TYPE_NO_DISENCHANT : UInt8 := 0x07

structure RollEntry where
  guid : ObjectGuid
  vote : RollVote

/-- A `std::map` of votes, in the order of the guids. -/
abbrev PlayerVote := Table RollEntry.guid

def byGuid : Arrangement RollEntry where
  arrange l := l.insertionSort fun a b => a.guid ≤ b.guid
  perm l := l.perm_insertionSort _

structure Roll where
  itemGUID : Nat
  itemid : ItemId
  loot : LootId
  itemSlot : Nat
  /-- What the members are told they can vote for. -/
  rollVoteMask : UInt8 := ROLL_ALL_TYPE_NO_DISENCHANT
  playerVote : PlayerVote := ∅
  totalPlayersRolling : UInt8 := 0
  totalNeed : UInt8 := 0
  totalGreed : UInt8 := 0
  totalPass : UInt8 := 0

/-- A member of the group, as a loot finds it. -/
structure RollMember where
  player : Player
  isAtGroupRewardDistance : Bool := true
  /-- `GetPassOnGroupLoot` -/
  passOnGroupLoot : Bool := false

structure RollGroup where
  members : List RollMember
  nodup : (members.map (·.player.guid)).Nodup
  small : members.length ≤ MAXRAIDSIZE
  lootThreshold : Nat
  maxEnchantingLevel : Nat := 0

def canRollOnItem (templates : Templates) (item : LootItem) (player : Player) : Bool :=
  match templates item.itemid with
  | none => false
  | some proto =>
    !(decide (0 < proto.maxCount) && decide (proto.maxCount ≤ player.itemCount item.itemid)) &&
      item.allowedForPlayer templates player false 0

namespace Roll

variable (templates : Templates)

/-- `playerVote[guid] = vote`. -/
def setVote (playerVote : PlayerVote) (guid : ObjectGuid) (vote : RollVote) : PlayerVote :=
  match playerVote.tryEmplace byGuid { guid, vote } with
  | some playerVote => playerVote
  | none => playerVote.modify guid (fun e => { e with vote }) fun _ => rfl

/-- A member near the loot gets an entry. Whether it passes on all loot is asked for items, not
for quest items. -/
def addRoller (item : LootItem) (asksPass : Bool) (m : RollMember) (r : Roll) : Roll :=
  let canRoll := canRollOnItem templates item m.player
  let vote :=
    if !canRoll then .pass
    else if asksPass && m.passOnGroupLoot then .pass
    else .notEmitedYet
  { r with
    totalPlayersRolling := r.totalPlayersRolling + 1
    totalPass := if !canRoll then r.totalPass + 1 else r.totalPass
    playerVote := setVote r.playerVote m.player.guid vote }

/-- "a vector is filled with only near party members". -/
def addRollers (item : LootItem) (asksPass : Bool) : List RollMember → Roll → Roll
  | [], r => r
  | m :: members, r =>
    addRollers item asksPass members
      (if m.isAtGroupRewardDistance then r.addRoller templates item asksPass m else r)

/-! ## The end of a roll -/

/-- What counting the roll asks of the world. -/
structure Answers where
  /-- The player is in the world, and on the allowed map. -/
  isThere : ObjectGuid → Bool
  /-- `urand(1, 100)` gives one more. -/
  randomN : ObjectGuid → Fin 100
  canStore : ObjectGuid → Bool

/-- The loop over the votes of one kind: who does not take part any more is taken off the total,
and the highest number wins. -/
def rollOff (answers : Answers) (takesPart : RollVote → Bool) :
    List RollEntry → UInt8 × Nat × Option RollEntry → UInt8 × Nat × Option RollEntry
  | [], s => s
  | e :: votes, (total, maxresul, best) =>
    if !takesPart e.vote then rollOff answers takesPart votes (total, maxresul, best)
    else if !answers.isThere e.guid then
      rollOff answers takesPart votes (total - 1, maxresul, best)
    else if maxresul < (answers.randomN e.guid).val + 1 then
      rollOff answers takesPart votes (total, (answers.randomN e.guid).val + 1, some e)
    else rollOff answers takesPart votes (total, maxresul, best)

/-- The winner gets the item, or what it disenchants into; when the bags are full only the winner
may take the item. -/
def won (answers : Answers) (ref : ItemRef) (winner : RollEntry) (L : Loot) : Loot :=
  if winner.vote = .disenchant || answers.canStore winner.guid then
    { L.modify (fun item => { item with is_looted := true }) ref with
      unlootedCount := L.unlootedCount - 1
      handedOut := (winner.guid, ref) :: L.handedOut }
  else
    L.modify (fun item => { item with is_blocked := false, rollWinnerGUID := winner.guid }) ref

/-- One of the two kinds of votes that can win, with the total afterwards. -/
def countVotes (answers : Answers) (takesPart : RollVote → Bool) (r : Roll) (total : UInt8)
    (L : Loot) : UInt8 × Loot :=
  if total = 0 || r.playerVote.rows.isEmpty then (total, L)
  else
    match rollOff answers takesPart r.playerVote.rows (total, 0, none) with
    | (_, _, none) => (0, L)
    | (total, _, some winner) => (total, won answers (L.refAt r.itemSlot) winner L)

def isNeed (vote : RollVote) : Bool := decide (vote = .need)

def isGreed (vote : RollVote) : Bool := decide (vote = .greed) || decide (vote = .disenchant)

/-- The vote that wins a kind of votes, with the total afterwards. -/
def bestVote (answers : Answers) (takesPart : RollVote → Bool) (r : Roll) (total : UInt8) :
    UInt8 × Option RollEntry :=
  if total = 0 || r.playerVote.rows.isEmpty then (total, none)
  else
    match rollOff answers takesPart r.playerVote.rows (total, 0, none) with
    | (_, _, none) => (0, none)
    | (total, _, some winner) => (total, some winner)

/-- The vote that wins the roll. -/
def winner (answers : Answers) (r : Roll) : Option RollEntry :=
  match bestVote answers isNeed r r.totalNeed with
  | (_, some winner) => some winner
  | (totalNeed, none) =>
    if totalNeed = 0 then (bestVote answers isGreed r r.totalGreed).2 else none

/-- `CountTheRoll`, on the loot of a valid roll. -/
def countTheRoll (answers : Answers) (r : Roll) (L : Loot) : Loot :=
  let (totalNeed, L) := countVotes answers isNeed r r.totalNeed L
  let (totalGreed, L) :=
    if totalNeed = 0 then countVotes answers isGreed r r.totalGreed L else (r.totalGreed, L)
  -- remove is_blocked so that the item is lootable by all players
  if totalNeed = 0 && totalGreed = 0 then
    L.modify (fun item => { item with is_blocked := false }) (L.refAt r.itemSlot)
  else L

/-! ## Votes -/

/-- The switch of `CountRollVote`. -/
def cast (guid : ObjectGuid) (choice : UInt8) (r : Roll) : Roll :=
  if choice = 0 then
    { r with totalPass := r.totalPass + 1, playerVote := setVote r.playerVote guid .pass }
  else if choice = 1 then
    { r with totalNeed := r.totalNeed + 1, playerVote := setVote r.playerVote guid .need }
  else if choice = 2 then
    { r with totalGreed := r.totalGreed + 1, playerVote := setVote r.playerVote guid .greed }
  else if choice = 3 then
    { r with totalGreed := r.totalGreed + 1, playerVote := setVote r.playerVote guid .disenchant }
  else r

def voteOf (r : Roll) (guid : ObjectGuid) : Option RollVote := (r.playerVote.get? guid).map (·.vote)

/-- All have voted; the sum is an `int`. -/
def isDecided (r : Roll) : Bool :=
  decide (r.totalPlayersRolling.toNat ≤
    r.totalPass.toNat + r.totalNeed.toNat + r.totalGreed.toNat)

/-- What `RemoveMember` does to a roll with an entry of the member. -/
def leave (guid : ObjectGuid) (vote : RollVote) (r : Roll) : Roll :=
  { r with
    totalGreed :=
      if vote = .greed || vote = .disenchant then r.totalGreed - 1 else r.totalGreed
    totalNeed := if vote = .need then r.totalNeed - 1 else r.totalNeed
    totalPass := if vote = .pass then r.totalPass - 1 else r.totalPass
    totalPlayersRolling :=
      if vote = .notValid then r.totalPlayersRolling else r.totalPlayersRolling - 1
    playerVote := r.playerVote.erase guid }

end Roll

/-! ## The rolls of a group -/

/-- A group's rolls, and the loots they are about. -/
structure Rolls where
  loots : LootId → Option Loot := fun _ => none
  RollId : Table Roll.itemGUID := ∅
  /-- The generator of item guids. -/
  nextItemGUID : Nat := 0
  /-- Not in the source: the slots that `GroupLoot` and `NeedBeforeGreed` have blocked. -/
  blocked : List (LootId × Nat) := []
  /-- Not in the source: the rolls that have been counted, each with the vote that won it. -/
  counted : List (Roll × RollEntry) := []

namespace Rolls

variable (templates : Templates)

/-- At the end of the vector. -/
def atEnd : Arrangement Roll where
  arrange l := l.rotate 1
  perm l := List.rotate_perm l 1

def setLoot (W : Rolls) (id : LootId) (L : Loot) : Rolls :=
  { W with loots := Function.update W.loots id (some L) }

/-- The item in a slot is blocked. -/
def block (W : Rolls) (id : LootId) (slot : Nat) : Rolls :=
  match W.loots id with
  | none => W
  | some L =>
    { W.setLoot id (L.modify (fun item => { item with is_blocked := true }) (L.refAt slot)) with
      blocked := (id, slot) :: W.blocked }

def push (W : Rolls) (r : Roll) : Rolls :=
  { W with RollId := (W.RollId.tryEmplace atEnd r).getD W.RollId }

/-- What can be voted for: `GroupLoot` offers to disenchant items, and `NeedBeforeGreed` offers no
need for some of them besides. -/
def voteMask (group : RollGroup) (item : LootItem) (asksPass forgetsAllPassed : Bool) : UInt8 :=
  match templates item.itemid with
  | none => ROLL_ALL_TYPE_NO_DISENCHANT
  | some proto =>
    let mask :=
      if asksPass && proto.disenchantID != 0 &&
          decide (proto.requiredDisenchantSkill ≤ group.maxEnchantingLevel) then
        ROLL_ALL_TYPE_NO_DISENCHANT ||| ROLL_FLAG_TYPE_DISENCHANT
      else ROLL_ALL_TYPE_NO_DISENCHANT
    if asksPass && !forgetsAllPassed && proto.canOnlyRollGreed then mask &&& ~~~ROLL_FLAG_TYPE_NEED
    else mask

/-- `new Roll`, before any votes. -/
def newRoll (W : Rolls) (group : RollGroup) (id : LootId) (slot : Nat) (item : LootItem)
    (asksPass forgetsAllPassed : Bool) : Roll where
  itemGUID := W.nextItemGUID
  itemid := item.itemid
  loot := id
  itemSlot := slot
  rollVoteMask := voteMask templates group item asksPass forgetsAllPassed

/-- A roll for one item. `GroupLoot` forgets a roll for an item of `items` that all pass on. -/
def offer (W : Rolls) (group : RollGroup) (id : LootId) (slot : Nat) (item : LootItem)
    (asksPass forgetsAllPassed : Bool) : Rolls :=
  let r := Roll.addRollers templates item asksPass group.members
    (W.newRoll templates group id slot item asksPass forgetsAllPassed)
  let W := { W with nextItemGUID := W.nextItemGUID + 1 }
  if r.totalPlayersRolling = 0 then W
  else if forgetsAllPassed && decide (r.totalPass = r.totalPlayersRolling) then W.block id slot
  else (W.block id slot).push r

def markUnderThreshold (W : Rolls) (id : LootId) (slot : Nat) : Rolls :=
  match W.loots id with
  | none => W
  | some L =>
    W.setLoot id (L.modify (fun item => { item with is_underthreshold := true }) (.item slot))

/-- The item in a slot is rolled for. -/
def isRolledFor (group : RollGroup) (item : LootItem) : Bool :=
  !item.freeforall && (templates item.itemid).any fun proto =>
    decide (group.lootThreshold ≤ proto.quality)

/-- The loop over `items`. -/
def offerItems (group : RollGroup) (id : LootId) (forgetsAllPassed : Bool) :
    List Nat → Rolls → Rolls
  | [], W => W
  | i :: todo, W =>
    match (W.loots id).bind (·.items[i]?) with
    | none => offerItems group id forgetsAllPassed todo W
    | some item =>
      if item.freeforall || (templates item.itemid).isNone then
        offerItems group id forgetsAllPassed todo W
      else if isRolledFor templates group item then
        offerItems group id forgetsAllPassed todo
          (W.offer templates group id i item true forgetsAllPassed)
      else offerItems group id forgetsAllPassed todo (W.markUnderThreshold id i)

/-- The loop over `quest_items`, whose slots come after those of `items`. -/
def offerQuestItems (group : RollGroup) (id : LootId) (first : Nat) (skipsUnknown : Bool) :
    List Nat → Rolls → Rolls
  | [], W => W
  | i :: todo, W =>
    match (W.loots id).bind (·.quest_items[i]?) with
    | none => offerQuestItems group id first skipsUnknown todo W
    | some item =>
      if !item.follow_loot_rules || (skipsUnknown && (templates item.itemid).isNone) then
        offerQuestItems group id first skipsUnknown todo W
      else
        offerQuestItems group id first skipsUnknown todo
          (W.offer templates group id (first + i) item false false)

/-- Both kinds of loot, for a loot that the group has not rolled for yet. -/
def handOver (W : Rolls) (group : RollGroup) (id : LootId) (L : Loot)
    (forgetsAllPassed skipsUnknown : Bool) : Rolls :=
  offerQuestItems templates group id L.items.length skipsUnknown (List.range L.quest_items.length)
    (offerItems templates group id forgetsAllPassed (List.range L.items.length) (W.setLoot id L))

def groupLoot (W : Rolls) (group : RollGroup) (id : LootId) (L : Loot) : Rolls :=
  W.handOver templates group id L true true

def needBeforeGreed (W : Rolls) (group : RollGroup) (id : LootId) (L : Loot) : Rolls :=
  W.handOver templates group id L false false

/-- `CountTheRoll`: the roll is erased, and its loot, when it still is there, is dealt with. -/
def countTheRoll (W : Rolls) (answers : Roll.Answers) (r : Roll) : Rolls :=
  let W' := { W with RollId := W.RollId.erase r.itemGUID }
  match W.loots r.loot with
  | none => W'
  | some L =>
    { W'.setLoot r.loot (r.countTheRoll answers L) with
      counted := (r.winner answers).toList.map (r, ·) ++ W.counted }

/-- `GetRoll`: a roll is valid as long as its loot is there. -/
def getRoll (W : Rolls) (guid : Nat) : Option Roll :=
  (W.RollId.get? guid).filter fun r => (W.loots r.loot).isSome

/-- Write a roll back. -/
def setRoll (W : Rolls) (r : Roll) : Rolls :=
  { W with
    RollId := W.RollId.modify r.itemGUID (fun old => if old.itemGUID = r.itemGUID then r else old)
      fun old => by
        split
        · next h => exact h.symm
        · rfl }

/-- `CountRollVote`, with what it returns. -/
def countRollVote (W : Rolls) (playerGUID : ObjectGuid) (guid : Nat) (choice : UInt8)
    (answers : Roll.Answers) : Rolls × Bool :=
  match W.getRoll guid with
  | none => (W, false)
  | some r =>
    -- this condition means that player joins to the party after roll begins
    if r.voteOf playerGUID ≠ some .notEmitedYet then (W, false)
    else if (W.loots r.loot).any (·.items.isEmpty) then (W, false)
    else
      let r := r.cast playerGUID choice
      let W := W.setRoll r
      (if r.isDecided then W.countTheRoll answers r else W, true)

/-- The loop of `RemoveMember` over the rolls. -/
def leaveRolls (playerGUID : ObjectGuid) (answers : Roll.Answers) : List Nat → Rolls → Rolls
  | [], W => W
  | guid :: todo, W =>
    match W.RollId.get? guid with
    | none => leaveRolls playerGUID answers todo W
    | some r =>
      match r.voteOf playerGUID with
      | none => leaveRolls playerGUID answers todo W
      | some vote =>
        leaveRolls playerGUID answers todo
          ((W.setRoll (r.leave playerGUID vote)).countRollVote playerGUID guid MAX_ROLL_TYPE
            answers).1

/-- "Remove player from loot rolls", for a group that stays. -/
def removeMember (W : Rolls) (playerGUID : ObjectGuid) (answers : Roll.Answers) : Rolls :=
  leaveRolls playerGUID answers (W.RollId.rows.map (·.itemGUID)) W

/-- The loop of `EndRoll`: the rolls of one loot are counted. -/
def endRolls (answers : Nat → Roll.Answers) : List Roll → Rolls → Rolls
  | [], W => W
  | r :: todo, W => endRolls answers todo (W.countTheRoll (answers r.itemGUID) r)

def endRoll (W : Rolls) (id : LootId) (answers : Nat → Roll.Answers) : Rolls :=
  endRolls answers
    (W.RollId.rows.filter fun r => decide (r.loot = id) && (W.loots r.loot).isSome) W

end Rolls

end EGServer.Looting
