import EGServer.Looting.RollRun

/-!
# Votes for what was not offered

The members are told what they can vote for when a roll starts, `rollVoteMask`, and whatever byte
comes back is counted: `CountRollVote` does not look at the mask. What is recorded and what wins is
something that was offered as long as the bytes say so. Need is left out of the mask by
`NeedBeforeGreed` alone, and for items alone.
-/

namespace EGServer.Looting

namespace Roll

variable {templates : Templates} {r : Roll} {answers : Answers} {e : RollEntry} {guid : ObjectGuid}
  {vote : RollVote} {choice : UInt8}

/-! ## What a roll offers -/

/-- Does the mask offer the vote? Only need, greed and disenchanting have to be offered. -/
def offers (r : Roll) : RollVote → Bool
  | .need => r.rollVoteMask &&& ROLL_FLAG_TYPE_NEED != 0
  | .greed => r.rollVoteMask &&& ROLL_FLAG_TYPE_GREED != 0
  | .disenchant => r.rollVoteMask &&& ROLL_FLAG_TYPE_DISENCHANT != 0
  | _ => true

/-- The vote that the `rollType` of a packet is. -/
def voteOfChoice (choice : UInt8) : Option RollVote :=
  if choice = 0 then some .pass
  else if choice = 1 then some .need
  else if choice = 2 then some .greed
  else if choice = 3 then some .disenchant
  else none

/-- `ITEM_FLAG2_CAN_ONLY_ROLL_GREED` -/
def greedOnly (templates : Templates) (itemid : ItemId) : Bool :=
  (templates itemid).any (·.canOnlyRollGreed)

/-- A roll with votes for what it offers, and no need where greed is all there is. -/
structure Fair (templates : Templates) (r : Roll) : Prop where
  votes : ∀ e ∈ r.playerVote, r.offers e.vote = true
  greed : greedOnly templates r.itemid = true → r.offers .need = false

/-! ## Who wins has voted -/

theorem rollOff_mem {p : RollVote → Bool} {rows : List RollEntry} {s : UInt8 × Nat × Option RollEntry}
    (h : (rollOff answers p rows s).2.2 = some e) : e ∈ rows ∨ s.2.2 = some e := by
  induction rows generalizing s with
  | nil => exact Or.inr h
  | cons a rows ih =>
    grind [rollOff]

theorem bestVote_mem {p : RollVote → Bool} {total : UInt8}
    (h : (bestVote answers p r total).2 = some e) : e ∈ r.playerVote := by
  unfold bestVote at h
  split at h
  · cases h
  · split at h
    · cases h
    · next hroll =>
      cases h
      have hsome : (rollOff answers p r.playerVote.rows (total, 0, none)).2.2 = some e := by
        rw [hroll]
      exact (rollOff_mem hsome).resolve_right fun hnone => by cases hnone

theorem winner_mem (h : r.winner answers = some e) : e ∈ r.playerVote := by
  unfold winner at h
  split at h
  · grind [bestVote_mem]
  · split at h
    · exact bestVote_mem h
    · cases h

/-! ## What is done to a roll -/

theorem mem_setVote {playerVote : PlayerVote} (h : e ∈ setVote playerVote guid vote) :
    e ∈ playerVote ∨ e.vote = vote := by
  unfold setVote at h
  split at h
  · next hset =>
    rcases (Table.mem_tryEmplace hset).mp h with rfl | hold
    · exact Or.inr rfl
    · exact Or.inl hold
  · obtain ⟨a, ha, rfl⟩ := Table.mem_modify.mp h
    split
    · exact Or.inr rfl
    · exact Or.inl ha

theorem Fair.setVote (h : r.Fair templates) (hoffers : r.offers vote = true) (pass need greed : UInt8) :
    Fair templates { r with totalPass := pass, totalNeed := need, totalGreed := greed,
                            playerVote := Roll.setVote r.playerVote guid vote } := by
  refine ⟨?_, h.greed⟩
  intro e he
  rcases mem_setVote he with hold | hvote
  · exact h.votes e hold
  · rw [hvote]
    exact hoffers

theorem Fair.cast (h : r.Fair templates)
    (hoffers : ∀ vote, voteOfChoice choice = some vote → r.offers vote = true) :
    (r.cast guid choice).Fair templates := by
  unfold Roll.cast
  split
  · exact h.setVote rfl _ _ _
  · next hpass =>
    split
    · next hone =>
      subst hone
      exact h.setVote (hoffers _ rfl) _ _ _
    · next hneed =>
      split
      · next htwo =>
        subst htwo
        exact h.setVote (hoffers _ rfl) _ _ _
      · split
        · next hthree =>
          subst hthree
          exact h.setVote (hoffers _ rfl) _ _ _
        · exact h

theorem Fair.leave (h : r.Fair templates) (guid : ObjectGuid) (vote : RollVote) :
    (r.leave guid vote).Fair templates :=
  ⟨fun e he => h.votes e (Table.mem_erase.mp he).1, h.greed⟩

theorem Fair.addRollers (item : LootItem) (asksPass : Bool) (members : List RollMember)
    (h : r.Fair templates) : (addRollers templates item asksPass members r).Fair templates := by
  induction members generalizing r with
  | nil => exact h
  | cons m members ih =>
    rw [Roll.addRollers]
    apply ih
    split
    · refine ⟨?_, h.greed⟩
      intro e he
      rcases mem_setVote he with hold | hvote
      · exact h.votes e hold
      · rw [hvote]
        -- a member starts with a pass, or without a vote
        repeat' split
        all_goals rfl
    · exact h

end Roll

namespace Rolls

variable {templates : Templates} {W : Rolls} {r r' : Roll} {id : LootId} {slot : Nat} {L : Loot}
  {group : RollGroup} {item : LootItem} {answers : Roll.Answers} {asksPass forgetsAllPassed : Bool}

/-- **All rolls are fair**, those that have been counted too, and these were won by a vote in
them. -/
structure AllFair (templates : Templates) (W : Rolls) : Prop where
  rolls : ∀ r ∈ W.RollId, r.Fair templates
  counted : ∀ c ∈ W.counted, c.1.Fair templates ∧ c.2 ∈ c.1.playerVote

theorem AllFair.init : AllFair templates {} where
  rolls := by
    rintro r ⟨⟩
  counted := by
    rintro c ⟨⟩

theorem AllFair.same {W' : Rolls} (h : W.AllFair templates) (hrolls : W'.RollId = W.RollId)
    (hcounted : W'.counted = W.counted) : W'.AllFair templates :=
  ⟨hrolls ▸ h.rolls, hcounted ▸ h.counted⟩

/-! ## Votes -/

theorem AllFair.setRoll (h : W.AllFair templates) (hfair : r.Fair templates) :
    (W.setRoll r).AllFair templates := by
  refine ⟨?_, h.counted⟩
  intro a ha
  have hmem : ∃ b ∈ W.RollId, (if b.itemGUID = r.itemGUID then
      if b.itemGUID = r.itemGUID then r else b else b) = a := List.mem_map.mp ha
  obtain ⟨b, hb, rfl⟩ := hmem
  split
  · exact hfair
  · exact h.rolls b hb

theorem AllFair.countTheRoll (h : W.AllFair templates) (hfair : r.Fair templates)
    (answers : Roll.Answers) : (W.countTheRoll answers r).AllFair templates := by
  have herase : ∀ a ∈ W.RollId.erase r.itemGUID, a.Fair templates :=
    fun a ha => h.rolls a (Table.mem_erase.mp ha).1
  unfold Rolls.countTheRoll
  split
  · exact ⟨herase, h.counted⟩
  · refine ⟨herase, ?_⟩
    intro c hc
    rcases List.mem_append.mp hc with hnew | hold
    · obtain ⟨e, he, rfl⟩ := List.mem_map.mp hnew
      exact ⟨hfair, Roll.winner_mem (Option.mem_toList.mp he)⟩
    · exact h.counted c hold

/-- The choice is offered by the roll it is for. -/
def ChoiceOffered (W : Rolls) (guid : Nat) (choice : UInt8) : Prop :=
  ∀ r, W.getRoll guid = some r → ∀ vote, Roll.voteOfChoice choice = some vote → r.offers vote = true

theorem AllFair.countRollVote (h : W.AllFair templates) {guid : Nat} {choice : UInt8}
    (hoffered : W.ChoiceOffered guid choice) (playerGUID : ObjectGuid) (answers : Roll.Answers) :
    (W.countRollVote playerGUID guid choice answers).1.AllFair templates := by
  unfold Rolls.countRollVote
  cases hget : W.getRoll guid with
  | none => exact h
  | some r =>
    dsimp only
    split
    · exact h
    · split
      · exact h
      · have hfair : (r.cast playerGUID choice).Fair templates :=
          (h.rolls r (getRoll_eq_some hget).1).cast (hoffered r hget)
        have hset := h.setRoll hfair
        dsimp only
        split
        · exact hset.countTheRoll hfair answers
        · exact hset

theorem choiceOffered_max (W : Rolls) (guid : Nat) : W.ChoiceOffered guid MAX_ROLL_TYPE := by
  intro r _ vote hvote
  cases hvote

theorem AllFair.leaveRolls (playerGUID : ObjectGuid) (answers : Roll.Answers) (todo : List Nat)
    (h : W.AllFair templates) : (leaveRolls playerGUID answers todo W).AllFair templates := by
  induction todo generalizing W with
  | nil => exact h
  | cons guid todo ih =>
    unfold Rolls.leaveRolls
    cases hget : W.RollId.get? guid with
    | none => exact ih h
    | some r =>
      dsimp only
      cases hvote : r.voteOf playerGUID with
      | none => exact ih h
      | some vote =>
        have hfair := (h.rolls r (Table.get?_eq_some.mp hget).1).leave playerGUID vote
        exact ih ((h.setRoll hfair).countRollVote (choiceOffered_max _ guid) playerGUID answers)

theorem AllFair.endRolls (answers : Nat → Roll.Answers) (todo : List Roll)
    (htodo : ∀ r ∈ todo, r.Fair templates) (h : W.AllFair templates) :
    (endRolls answers todo W).AllFair templates := by
  induction todo generalizing W with
  | nil => exact h
  | cons r todo ih =>
    rw [Rolls.endRolls]
    exact ih (fun a ha => htodo a (List.mem_cons_of_mem r ha))
      (h.countTheRoll (htodo r List.mem_cons_self) _)

/-! ## New rolls -/

theorem AllFair.block (h : W.AllFair templates) (id : LootId) (slot : Nat) :
    (W.block id slot).AllFair templates := by
  unfold Rolls.block
  split
  · exact h
  · exact h.same rfl rfl

theorem AllFair.push (h : W.AllFair templates) (hfair : r.Fair templates) :
    (W.push r).AllFair templates := by
  refine ⟨?_, h.counted⟩
  intro a ha
  have ha : a ∈ (W.RollId.tryEmplace atEnd r).getD W.RollId := ha
  cases hset : W.RollId.tryEmplace atEnd r with
  | none =>
    rw [hset] at ha
    exact h.rolls a ha
  | some t =>
    rw [hset] at ha
    rcases (Table.mem_tryEmplace hset).mp ha with rfl | hold
    · exact hfair
    · exact h.rolls a hold

/-- The roll is for an item that need may be voted for, or need is left out. -/
def LeavesOutNeed (templates : Templates) (item : LootItem) (asksPass forgetsAllPassed : Bool) :
    Prop :=
  Roll.greedOnly templates item.itemid = true → asksPass = true ∧ forgetsAllPassed = false

theorem newRoll_fair (W : Rolls) (group : RollGroup) (id : LootId) (slot : Nat)
    (h : LeavesOutNeed templates item asksPass forgetsAllPassed) :
    (W.newRoll templates group id slot item asksPass forgetsAllPassed).Fair templates := by
  refine ⟨fun e he => absurd he (Table.not_mem_empty e), ?_⟩
  intro hgreed
  obtain ⟨rfl, rfl⟩ := h hgreed
  obtain ⟨proto, hproto, hflag⟩ := (Option.any_eq_true _ _).mp hgreed
  show (voteMask templates group item true false &&& ROLL_FLAG_TYPE_NEED != 0) = false
  have hproto : templates item.itemid = some proto := hproto
  rw [voteMask, hproto]
  dsimp only
  rw [hflag, if_pos (by rfl)]
  split <;> rfl

theorem AllFair.offer (h : W.AllFair templates)
    (hneed : LeavesOutNeed templates item asksPass forgetsAllPassed) (group : RollGroup) (id : LootId)
    (slot : Nat) :
    (W.offer templates group id slot item asksPass forgetsAllPassed).AllFair templates := by
  have hfair := (newRoll_fair W group id slot hneed).addRollers item asksPass group.members
  have hnext : AllFair templates { W with nextItemGUID := W.nextItemGUID + 1 } := h.same rfl rfl
  unfold Rolls.offer
  dsimp only
  split
  · exact hnext
  · split
    · exact hnext.block id slot
    · exact (hnext.block id slot).push hfair

/-! ## Handing a loot over -/

/-- What of an item decides whether it is rolled for, and what for. -/
def identity (item : LootItem) : ItemId × Bool × Bool :=
  (item.itemid, item.freeforall, item.follow_loot_rules)

/-- The loot has the items of `L₀`, whatever is blocked. -/
def SameItems (W : Rolls) (id : LootId) (L₀ : Loot) : Prop :=
  ∃ L, W.loots id = some L ∧ L.items.map identity = L₀.items.map identity ∧
    L.quest_items.map identity = L₀.quest_items.map identity

theorem map_modify_identity (l : List LootItem) (i : Nat) {f : LootItem → LootItem}
    (hf : ∀ item, identity (f item) = identity item) :
    (l.modify i f).map identity = l.map identity := by
  apply List.ext_getElem?
  grind

theorem SameItems.setLoot {L₀ : Loot} {f : LootItem → LootItem} (h : W.SameItems id L₀)
    (hL : W.loots id = some L) (hf : ∀ item, identity (f item) = identity item) (ref : ItemRef) :
    (W.setLoot id (L.modify f ref)).SameItems id L₀ := by
  obtain ⟨M, hM, hitems, hquest⟩ := h
  rw [hL] at hM
  cases hM
  refine ⟨_, Function.update_self .., ?_⟩
  cases ref with
  | item i => exact ⟨(map_modify_identity _ i hf).trans hitems, hquest⟩
  | quest i => exact ⟨hitems, (map_modify_identity _ i hf).trans hquest⟩

theorem SameItems.block {L₀ : Loot} (h : W.SameItems id L₀) (slot : Nat) :
    (W.block id slot).SameItems id L₀ := by
  have hloot := h
  obtain ⟨L, hL, -⟩ := hloot
  unfold Rolls.block
  rw [hL]
  exact h.setLoot (f := fun item => { item with is_blocked := true }) hL (fun _ => rfl) _

theorem SameItems.offer {L₀ : Loot} (h : W.SameItems id L₀) (group : RollGroup) (slot : Nat)
    (item : LootItem) (asksPass forgetsAllPassed : Bool) :
    (W.offer templates group id slot item asksPass forgetsAllPassed).SameItems id L₀ := by
  have hnext : SameItems { W with nextItemGUID := W.nextItemGUID + 1 } id L₀ := h
  unfold Rolls.offer
  dsimp only
  split
  · exact hnext
  · split
    · exact hnext.block slot
    · exact hnext.block slot

theorem SameItems.markUnderThreshold {L₀ : Loot} (h : W.SameItems id L₀) (slot : Nat) :
    (W.markUnderThreshold id slot).SameItems id L₀ := by
  have hloot := h
  obtain ⟨L, hL, -⟩ := hloot
  unfold Rolls.markUnderThreshold
  rw [hL]
  exact h.setLoot (f := fun item => { item with is_underthreshold := true }) hL (fun _ => rfl) _

theorem AllFair.markUnderThreshold (h : W.AllFair templates) (id : LootId) (slot : Nat) :
    (W.markUnderThreshold id slot).AllFair templates := by
  unfold Rolls.markUnderThreshold
  split
  · exact h
  · exact h.same rfl rfl

theorem identity_of_getElem? {l l₀ : List LootItem} (h : l.map identity = l₀.map identity) {i : Nat}
    (hitem : l[i]? = some item) : ∃ item₀ ∈ l₀, identity item₀ = identity item := by
  grind [List.mem_map_of_mem]

theorem isRolledFor_congr {item₀ : LootItem} (h : identity item₀ = identity item) :
    isRolledFor templates group item₀ = isRolledFor templates group item := by
  obtain ⟨hid, hrest⟩ := Prod.mk.inj h
  rw [isRolledFor, isRolledFor, hid, (Prod.mk.inj hrest).1]

/-- Need is left out wherever greed is all there is, of the items that are rolled for. -/
def ItemsLeaveOutNeed (templates : Templates) (group : RollGroup) (L : Loot)
    (forgetsAllPassed : Bool) : Prop :=
  ∀ item ∈ L.items, isRolledFor templates group item = true →
    LeavesOutNeed templates item true forgetsAllPassed

def QuestItemsLeaveOutNeed (templates : Templates) (L : Loot) : Prop :=
  ∀ item ∈ L.quest_items, item.follow_loot_rules = true →
    Roll.greedOnly templates item.itemid = false

theorem AllFair.offerItems {L₀ : Loot} (hneed : ItemsLeaveOutNeed templates group L₀ forgetsAllPassed)
    (todo : List Nat) (h : W.AllFair templates) (hsame : W.SameItems id L₀) :
    (offerItems templates group id forgetsAllPassed todo W).AllFair templates ∧
      (offerItems templates group id forgetsAllPassed todo W).SameItems id L₀ := by
  induction todo generalizing W with
  | nil => exact ⟨h, hsame⟩
  | cons i todo ih =>
    unfold Rolls.offerItems
    split
    · exact ih h hsame
    · next item hitem =>
      split
      · exact ih h hsame
      · split
        · next hrolled =>
          have hloot := hsame
          obtain ⟨L, hL, hitems, -⟩ := hloot
          rw [hL, Option.bind_some] at hitem
          obtain ⟨item₀, hmem, heq⟩ := identity_of_getElem? hitems hitem
          have hleaves := hneed item₀ hmem ((isRolledFor_congr heq).trans hrolled)
          rw [LeavesOutNeed, (Prod.mk.inj heq).1] at hleaves
          exact ih (h.offer hleaves group id i) (hsame.offer group i item true forgetsAllPassed)
        · exact ih (h.markUnderThreshold id i) (hsame.markUnderThreshold i)

theorem AllFair.offerQuestItems {L₀ : Loot} {skipsUnknown : Bool}
    (hneed : QuestItemsLeaveOutNeed templates L₀) (first : Nat) (todo : List Nat)
    (h : W.AllFair templates) (hsame : W.SameItems id L₀) :
    (offerQuestItems templates group id first skipsUnknown todo W).AllFair templates := by
  induction todo generalizing W with
  | nil => exact h
  | cons i todo ih =>
    unfold Rolls.offerQuestItems
    split
    · exact ih h hsame
    · next item hitem =>
      split
      · exact ih h hsame
      · next hrolled =>
        have hloot := hsame
        obtain ⟨L, hL, -, hquest⟩ := hloot
        rw [hL, Option.bind_some] at hitem
        obtain ⟨item₀, hmem, heq⟩ := identity_of_getElem? hquest hitem
        obtain ⟨hid, hrest⟩ := Prod.mk.inj heq
        rw [Bool.not_eq_true, Bool.or_eq_false_iff, Bool.not_eq_false'] at hrolled
        have hgreed := hneed item₀ hmem ((Prod.mk.inj hrest).2.trans hrolled.1)
        rw [hid] at hgreed
        refine ih (h.offer ?_ group id (first + i)) (hsame.offer group _ item false false)
        intro hg
        rw [hgreed] at hg
        cases hg

theorem AllFair.handOver (h : W.AllFair templates) {skipsUnknown : Bool}
    (hitems : ItemsLeaveOutNeed templates group L forgetsAllPassed)
    (hquest : QuestItemsLeaveOutNeed templates L) (id : LootId) :
    (W.handOver templates group id L forgetsAllPassed skipsUnknown).AllFair templates := by
  have hstart : (W.setLoot id L).AllFair templates := h.same rfl rfl
  have hsame : (W.setLoot id L).SameItems id L := ⟨L, Function.update_self .., rfl, rfl⟩
  obtain ⟨hfair, hsame⟩ := hstart.offerItems hitems (List.range L.items.length) hsame
  exact hfair.offerQuestItems hquest L.items.length _ hsame

/-! ## Runs -/

/-- The bytes that come back say what was offered, and no item for greed alone is rolled for but
among the items of `NeedBeforeGreed`. -/
def VotesAsOffered (templates : Templates) (W : Rolls) : Operation → Prop
  | .groupLoot group _ L =>
    ItemsLeaveOutNeed templates group L true ∧ QuestItemsLeaveOutNeed templates L
  | .needBeforeGreed _ _ L => QuestItemsLeaveOutNeed templates L
  | .countRollVote _ guid choice _ => W.ChoiceOffered guid choice
  | .removeMember .. => True
  | .endRoll .. => True

theorem exec_fair (h : W.AllFair templates) {o : Operation} (hok : W.VotesAsOffered templates o) :
    (W.exec templates o).AllFair templates := by
  cases o with
  | groupLoot group id L => exact h.handOver hok.1 hok.2 id
  | needBeforeGreed group id L =>
    have hitems : ItemsLeaveOutNeed templates group L false := fun _ _ _ _ => ⟨rfl, rfl⟩
    exact h.handOver hitems hok id
  | countRollVote playerGUID guid choice answers => exact h.countRollVote hok playerGUID answers
  | removeMember playerGUID answers => exact h.leaveRolls playerGUID answers _
  | endRoll id answers => exact h.endRolls answers _ fun r hr => h.rolls r (List.mem_filter.mp hr).1

/-- **Only offered choices count**, as long as they are all that is voted for: a recorded vote was
offered, no vote for need wins an item for greed alone, and none is disenchanted that was not to
be. -/
theorem run_offered (templates : Templates)
    (h : Reaches (Step templates) (VotesAsOffered templates) {} W) :
    (∀ r ∈ W.RollId, ∀ e ∈ r.playerVote, r.offers e.vote = true) ∧
      ∀ c ∈ W.counted,
        (Roll.greedOnly templates c.1.itemid = true → c.2.vote ≠ .need) ∧
          (c.2.vote = .disenchant → c.1.offers .disenchant = true) := by
  have hfair : W.AllFair templates := by
    refine h.invariant (I := AllFair templates) .init ?_
    rintro W W' o hfair hok rfl
    exact exec_fair hfair hok
  refine ⟨fun r hr => (hfair.rolls r hr).votes, ?_⟩
  intro c hc
  obtain ⟨hroll, hmem⟩ := hfair.counted c hc
  have hoffers := hroll.votes c.2 hmem
  constructor
  · intro hgreed hneed
    rw [hneed, hroll.greed hgreed] at hoffers
    cases hoffers
  · intro hvote
    rwa [hvote] at hoffers

/-! ## Votes that count all the same -/

/-- Item 1 is for greed alone, item 2 can be disenchanted by nobody. -/
def greedItems (itemid : ItemId) : Option ItemTemplate :=
  if itemid = 1 then some { quality := 2, canOnlyRollGreed := true }
  else if itemid = 2 then some { quality := 2 }
  else none

/-- 7 votes what it likes, and the others pass. -/
def votesOf (start : Operation) (choice : UInt8) : List Operation :=
  [start, .countRollVote 7 0 choice anyAnswers, .countRollVote 8 0 0 anyAnswers,
    .countRollVote 9 0 0 anyAnswers]

def trio : RollGroup := threeOf true fun _ => false

/-- The votes that have won, each with the item. -/
def wins (W : Rolls) : List (ItemId × RollVote) := W.counted.map fun c => (c.1.itemid, c.2.vote)

theorem reaches_vote {W₀ : Rolls} (h : Reaches (Step templates) (VotesAsOffered templates) W₀ W)
    (playerGUID : ObjectGuid) (guid : Nat) (choice : UInt8) (answers : Roll.Answers)
    (hoffered : ((W.getRoll guid).all fun r => (Roll.voteOfChoice choice).all r.offers) = true) :
    Reaches (Step templates) (VotesAsOffered templates) W₀
      (W.exec templates (.countRollVote playerGUID guid choice answers)) := by
  refine h.next (a := .countRollVote playerGUID guid choice answers) ?_ rfl
  intro r hr vote hvote
  rw [hr, Option.all_some, hvote, Option.all_some] at hoffered
  exact hoffered

/-- 7 votes greed for the item that is for greed alone, and wins it. -/
theorem greed_offered :
    (run greedItems {} (votesOf (.needBeforeGreed trio 1 { items := [{ itemid := 1 }] }) 2)).wins =
        [(1, .greed)] ∧
      ∀ c ∈ (run greedItems {} (votesOf (.needBeforeGreed trio 1 { items := [{ itemid := 1 }] })
          2)).counted, Roll.greedOnly greedItems c.1.itemid = true → c.2.vote ≠ .need := by
  refine ⟨by decide, fun c hc => ((run_offered greedItems ?_).2 c hc).1⟩
  have hstart : Reaches (Step greedItems) (VotesAsOffered greedItems) {} (run greedItems {}
      [.needBeforeGreed trio 1 { items := [{ itemid := 1 }] }]) := by
    refine Reaches.next (a := .needBeforeGreed trio 1 { items := [{ itemid := 1 }] }) (.refl _) ?_ rfl
    intro item hitem
    cases hitem
  have hseven := reaches_vote hstart 7 0 2 anyAnswers (by decide)
  have height := reaches_vote hseven 8 0 0 anyAnswers (by decide)
  exact reaches_vote height 9 0 0 anyAnswers (by decide)

/-- The item for greed alone is won by need, in a roll that does not offer it and in one that does,
and the other is disenchanted. -/
theorem offers_ignored :
    (∃ W, Reaches (Step greedItems) FirstOpened {} W ∧
      ∃ r ∈ W.RollId, ∃ e ∈ r.playerVote, r.offers e.vote = false) ∧
    (∀ start ∈ ([.needBeforeGreed trio 1 { items := [{ itemid := 1 }] },
        .groupLoot trio 1 { items := [{ itemid := 1 }] }] : List Operation),
      ∃ W, Reaches (Step greedItems) FirstOpened {} W ∧ W.wins = [(1, .need)]) ∧
    ∃ W, Reaches (Step greedItems) FirstOpened {} W ∧ W.wins = [(2, .disenchant)] := by
  have hreach : ∀ ops : List Operation, opensNew greedItems ops {} = true →
      Reaches (Step greedItems) FirstOpened {} (run greedItems {} ops) :=
    fun ops hnew => run_reaches ops {} (.refl _) hnew
  refine ⟨?_, ?_, ?_⟩
  · refine ⟨_, hreach ((votesOf (.needBeforeGreed trio 1 { items := [{ itemid := 1 }] }) 1).take 2)
      (by decide), ?_⟩
    have hvote : ((run greedItems {} ((votesOf (.needBeforeGreed trio 1
        { items := [{ itemid := 1 }] }) 1).take 2)).RollId.rows.any fun r =>
          r.playerVote.rows.any fun e => !r.offers e.vote) = true := by decide
    obtain ⟨r, hr, h⟩ := List.any_eq_true.mp hvote
    obtain ⟨e, he, h⟩ := List.any_eq_true.mp h
    exact ⟨r, hr, e, he, by simpa using h⟩
  · intro start hstart
    refine ⟨run greedItems {} (votesOf start 1), hreach _ ?_, ?_⟩
    · simp only [List.mem_cons, List.not_mem_nil, or_false] at hstart
      rcases hstart with rfl | rfl <;> decide
    · simp only [List.mem_cons, List.not_mem_nil, or_false] at hstart
      rcases hstart with rfl | rfl <;> decide
  · exact ⟨_, hreach (votesOf (.groupLoot trio 1 { items := [{ itemid := 2 }] }) 3) (by decide),
      by decide⟩

end Rolls

end EGServer.Looting
