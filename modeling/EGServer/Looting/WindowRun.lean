import EGServer.Looting.LootWindow
import EGServer.Looting.RollRun
import EGServer.Looting.LootRun

/-!
# The loot window over whole runs

However a loot is filled, handed to a group, rolled for, given away by a master looter and taken
from, its lists point at items of their kind and its slots fit a byte. So whatever a viewer is
shown, under any permission, has a slot number of its own, and the number leads back to the item.
-/

namespace EGServer.Looting

namespace Loot

variable {templates : Templates} {L L' : Loot} {guid : ObjectGuid} {player : Player} {i : Nat}
  {k : Bool × Bool} {li : LootStoreItem} {proto : ItemTemplate} {owner : Option Player}
  {group : Option LootGroup}

/-! ## Taking -/

theorem Placed.take (hp : L.Placed) (guid : ObjectGuid) (found : Found) (item : LootItem) :
    (L.takeItem guid found item).Placed := by
  obtain ⟨hq, hf, hc⟩ := takeItem_maps L guid found item
  have hitems : (L.takeItem guid found item).items.map kind = L.items.map kind := by
    rcases takeItem_items L guid found item with h | ⟨i, -, -, h⟩
    · rw [h]
    · rw [h]
      exact (SameKinds.modify L (f := fun item => { item with is_looted := true }) (fun _ => rfl)
        (.item i)).items
  have hquest : (L.takeItem guid found item).quest_items.length = L.quest_items.length := by
    rcases takeItem_quest_items L guid found item with h | ⟨i, -, -, h⟩
    · rw [h]
    · rw [h, List.length_modify]
  exact
    { room := (length_of_kinds hitems).trans_le hp.room
      questRoom := hquest.trans_le hp.questRoom
      quest := (hp.quest.marked hq).mono fun i hi => hquest ▸ hi
      ffa := (hp.ffa.marked hf).mono fun i hi =>
        hi.imp fun c hc => (hasKind_congr hitems _ i).mpr hc
      conditional := (hp.conditional.marked hc).mono fun i hi => (hasKind_congr hitems _ i).mpr hi }

theorem Placed.storeLootItem (hp : L.Placed) (player : Player) (lootSlot : Nat) (canStore : Bool) :
    (L.storeLootItem templates player lootSlot canStore).Placed := by
  rcases storeLootItem_cases templates L player lootSlot canStore with h | ⟨found, item, -, -, -, h⟩
  · rw [h]
    exact hp
  · rw [h]
    exact hp.take player.guid found item

/-! ## Filling -/

theorem HasKind.append (h : L.HasKind k i) (item : LootItem) :
    HasKind { L with items := L.items ++ [item] } k i := by
  show Option.map kind (L.items ++ [item])[i]? = some k
  rw [List.getElem?_append_left h.lt]
  exact h

theorem Placed.pushItem (hp : L.Placed) {needs_quest : Bool} (hroom : L.hasRoom needs_quest = true)
    (item : LootItem) : (L.pushItem needs_quest item).Placed := by
  cases needs_quest with
  | true =>
    refine ⟨hp.room, ?_, hp.quest.mono ?_, hp.ffa, hp.conditional⟩
    · show (L.quest_items ++ [item]).length ≤ _
      rw [List.length_append]
      exact of_decide_eq_true hroom
    · intro i hi
      show i < (L.quest_items ++ [item]).length
      rw [List.length_append]
      exact Nat.lt_add_right 1 hi
  | false =>
    refine ⟨?_, hp.questRoom, hp.quest, hp.ffa.mono ?_, hp.conditional.mono ?_⟩
    · show (L.items ++ [item]).length ≤ _
      rw [List.length_append]
      exact of_decide_eq_true hroom
    · rintro i ⟨c, hc⟩
      exact ⟨c, hc.append item⟩
    · intro i hi
      exact hi.append item

theorem SameKinds.raiseCount (L : Loot) (n : Nat) : L.SameKinds (L.raiseCount n) :=
  ⟨rfl, rfl, rfl, rfl, rfl⟩

theorem Placed.addStack (hp : L.Placed) (hroom : L.hasRoom li.needs_quest = true) (count : Nat) :
    (L.addStack templates owner group li proto count).Placed := by
  unfold Loot.addStack
  dsimp only
  split
  · exact (SameKinds.raiseCount _ 1).placed (hp.pushItem hroom _)
  · exact hp.pushItem hroom _

theorem Placed.addStacks (n : Nat) (hp : L.Placed) (count : Nat) :
    (addStacks templates owner group li proto n count L).Placed := by
  induction n generalizing L count with
  | zero => exact hp
  | succ n ih =>
    rw [Loot.addStacks]
    split
    · next hroom => exact ih (hp.addStack hroom count) _
    · exact hp

theorem Placed.process (drops : List (LootStoreItem × Nat)) (hp : L.Placed) :
    (process templates owner group drops L).Placed := by
  induction drops generalizing L with
  | nil => exact hp
  | cons drop drops ih =>
    rw [Loot.process]
    apply ih
    unfold addItem
    split
    · exact hp
    · exact hp.addStacks _ _

/-- The entries of a list that is made are new positions of the loop, in the order of the loop. -/
structure Adds (ok : Nat → Prop) (todo : List Nat) (ql ql' : List NotNormalLootItem) : Prop where
  exists_more : ∃ more : List Nat, more.Sublist todo ∧ (∀ i ∈ more, ok i) ∧
    ql' = ql ++ more.map ({ index := · })

theorem Adds.nil {ok : Nat → Prop} {todo : List Nat} {ql : List NotNormalLootItem} :
    Adds ok todo ql ql :=
  ⟨[], List.nil_sublist _, by simp, by simp⟩

theorem Adds.skip {ok : Nat → Prop} {todo : List Nat} {ql ql' : List NotNormalLootItem}
    (h : Adds ok todo ql ql') : Adds ok (i :: todo) ql ql' := by
  obtain ⟨more, hsub, hok, heq⟩ := h
  exact ⟨more, hsub.cons i, hok, heq⟩

theorem Adds.turn {ok : Nat → Prop} {todo : List Nat} {ql ql' : List NotNormalLootItem} (hi : ok i)
    (h : Adds ok todo (ql ++ [{ index := i }]) ql') : Adds ok (i :: todo) ql ql' := by
  obtain ⟨more, hsub, hok, heq⟩ := h
  refine ⟨i :: more, hsub.cons_cons i, ?_, ?_⟩
  · intro j hj
    rcases List.mem_cons.mp hj with rfl | hj
    · exact hi
    · exact hok j hj
  · rw [heq, List.append_assoc]
    rfl

theorem Adds.mono {ok ok' : Nat → Prop} {todo : List Nat} {ql ql' : List NotNormalLootItem}
    (h : Adds ok todo ql ql') (hok : ∀ i, ok i → ok' i) : Adds ok' todo ql ql' := by
  obtain ⟨more, hsub, hall, heq⟩ := h
  exact ⟨more, hsub, fun i hi => hok i (hall i hi), heq⟩

theorem Adds.lists {ok : Nat → Prop} {map : NotNormalLootItemMap} {n : Nat}
    {ql : List NotNormalLootItem} (h : Adds ok (List.range n) [] ql) (hmap : Lists map ok)
    (hnew : map.get? guid = none) : Lists (setList map guid ql) ok := by
  obtain ⟨more, hsub, hok, rfl⟩ := h
  refine hmap.setList hnew ?_ ?_
  · rw [List.nil_append, List.map_map]
    show (more.map fun i => i).Nodup
    rw [List.map_id']
    exact hsub.nodup List.nodup_range
  · intro e he
    obtain ⟨i, hi, rfl⟩ := List.mem_map.mp he
    exact hok i hi

theorem SameKinds.countQuestItem (L : Loot) (player : Player) (i : Nat) (item : LootItem) :
    L.SameKinds (L.countQuestItem player i item) := by
  unfold Loot.countQuestItem
  dsimp only
  have hraise : L.SameKinds (if item.freeforall || !item.is_blocked then L.raiseCount 1
      else L) := by
    split
    · exact .raiseCount L 1
    · exact .refl L
  split
  · exact hraise.trans (.modify _ (by intro _; rfl) _)
  · exact hraise

theorem fillQuestFrom_adds (templates : Templates) (player : Player) (todo : List Nat) (L : Loot)
    (ql : List NotNormalLootItem) :
    L.SameKinds (fillQuestFrom templates player todo (L, ql)).1 ∧
      Adds (· < L.quest_items.length) todo ql (fillQuestFrom templates player todo (L, ql)).2 := by
  induction todo generalizing L ql with
  | nil => exact ⟨.refl L, .nil⟩
  | cons i todo ih =>
    rw [fillQuestFrom]
    split
    · exact ⟨(ih L ql).1, (ih L ql).2.skip⟩
    · next item hitem =>
      split
      · have hi : i < L.quest_items.length := (List.getElem?_eq_some_iff.mp hitem).1
        have hsame := SameKinds.countQuestItem L player i item
        dsimp only
        split
        · exact ⟨hsame, Adds.turn hi .nil⟩
        · obtain ⟨hkinds, hadds⟩ := ih (L.countQuestItem player i item) (ql ++ [{ index := i }])
          rw [hsame.quest_items] at hadds
          exact ⟨hsame.trans hkinds, hadds.turn hi⟩
      · exact ⟨(ih L ql).1, (ih L ql).2.skip⟩

theorem Placed.fillQuestLoot (hp : L.Placed) (hnew : L.PlayerQuestItems.get? player.guid = none) :
    (L.fillQuestLoot templates player).Placed := by
  unfold Loot.fillQuestLoot
  split
  · exact hp
  · obtain ⟨hkinds, hadds⟩ :=
      fillQuestFrom_adds templates player (List.range L.quest_items.length) L []
    have hp' := hkinds.placed hp
    refine ⟨hp'.room, hp'.questRoom, ?_, hp'.ffa, hp'.conditional⟩
    exact (hadds.mono fun i hi => hi.trans_eq hkinds.quest_items.symm).lists hp'.quest (hkinds.quest ▸ hnew)

theorem Placed.fillFFALoot (hp : L.Placed) (hnew : L.PlayerFFAItems.get? player.guid = none) :
    (L.fillFFALoot templates player).Placed := by
  refine ⟨hp.room, hp.questRoom, hp.quest, ?_, hp.conditional⟩
  refine Adds.lists (n := L.items.length) ⟨L.ffaPositions templates player, List.filter_sublist, ?_,
    rfl⟩ hp.ffa hnew
  intro i hi
  rw [ffaPositions, List.mem_filter, Option.any_eq_true] at hi
  obtain ⟨-, item, hitem, hlists⟩ := hi
  rw [listsFFA, Bool.and_eq_true, Bool.and_eq_true] at hlists
  refine ⟨item.conditions.isEmpty, ?_⟩
  show Option.map kind L.items[i]? = _
  rw [hitem, Option.map_some, kind, hlists.1.2]

theorem SameKinds.addAllowedLooter (L : Loot) (player : Player) (presentAtLooting : Bool) (i : Nat) :
    L.SameKinds (L.addAllowedLooter player presentAtLooting i) := by
  unfold Loot.addAllowedLooter
  split
  · exact .modify L (by intro _; rfl) _
  · exact .refl L

theorem SameKinds.countConditional (L : Loot) (i : Nat) (item : LootItem) :
    L.SameKinds (L.countConditional i item) := by
  unfold Loot.countConditional
  split
  · exact .refl L
  · exact (SameKinds.raiseCount L 1).trans (.modify _ (by intro _; rfl) _)

theorem fillConditionalFrom_adds (templates : Templates) (player : Player) (presentAtLooting : Bool)
    (todo : List Nat) (L : Loot) (ql : List NotNormalLootItem) :
    L.SameKinds (fillConditionalFrom templates player presentAtLooting todo (L, ql)).1 ∧
      Adds (L.HasKind (false, false)) todo ql
        (fillConditionalFrom templates player presentAtLooting todo (L, ql)).2 := by
  induction todo generalizing L ql with
  | nil => exact ⟨.refl L, .nil⟩
  | cons i todo ih =>
    rw [fillConditionalFrom]
    split
    · exact ⟨(ih L ql).1, (ih L ql).2.skip⟩
    · next item hitem =>
      split
      · next hlists =>
        have hlooter := SameKinds.addAllowedLooter L player presentAtLooting i
        dsimp only
        split
        · obtain ⟨hkinds, hadds⟩ := ih (L.addAllowedLooter player presentAtLooting i) ql
          exact ⟨hlooter.trans hkinds,
            (hadds.mono fun j => (hasKind_congr hlooter.items _ j).mp).skip⟩
        · next hcond =>
          have hsame := hlooter.trans
            (SameKinds.countConditional (L.addAllowedLooter player presentAtLooting i) i item)
          obtain ⟨hkinds, hadds⟩ := ih _ (ql ++ [{ index := i }])
          refine ⟨hsame.trans hkinds,
            (hadds.mono fun j => (hasKind_congr hsame.items _ j).mp).turn ?_⟩
          rw [listsConditional, Bool.and_eq_true, Bool.and_eq_true, Bool.not_eq_true',
            Bool.not_eq_true'] at hlists
          rw [HasKind, hitem, Option.map_some, kind, hlists.1.2, eq_false_of_ne_true hcond]
      · exact ⟨(ih L ql).1, (ih L ql).2.skip⟩

theorem Placed.fillNonQuestNonFFAConditionalLoot (hp : L.Placed)
    (hnew : L.PlayerNonQuestNonFFAConditionalItems.get? player.guid = none)
    (presentAtLooting : Bool) :
    (L.fillNonQuestNonFFAConditionalLoot templates player presentAtLooting).Placed := by
  obtain ⟨hkinds, hadds⟩ := fillConditionalFrom_adds templates player presentAtLooting
    (List.range L.items.length) L []
  have hp' := hkinds.placed hp
  refine ⟨hp'.room, hp'.questRoom, hp'.quest, hp'.ffa, ?_⟩
  exact (hadds.mono fun j => (hasKind_congr hkinds.items _ j).mpr).lists hp'.conditional
    (hkinds.conditional ▸ hnew)

theorem Placed.fillNotNormalLootFor (hp : L.Placed) (player : Player) (presentAtLooting : Bool)
    (canStore : Nat → Bool) :
    (L.fillNotNormalLootFor templates player presentAtLooting canStore).Placed := by
  have hquest : ∀ {L : Loot}, L.Placed → (if (L.PlayerQuestItems.get? player.guid).isNone then
      L.fillQuestLoot templates player else L).Placed := by
    intro L hp
    split
    · next h => exact hp.fillQuestLoot (Option.isNone_iff_eq_none.mp h)
    · exact hp
  have hffa : ∀ {L : Loot}, L.Placed → (if (L.PlayerFFAItems.get? player.guid).isNone then
      L.fillFFALoot templates player else L).Placed := by
    intro L hp
    split
    · next h => exact hp.fillFFALoot (Option.isNone_iff_eq_none.mp h)
    · exact hp
  have hcond : ∀ {L : Loot}, L.Placed →
      (if (L.PlayerNonQuestNonFFAConditionalItems.get? player.guid).isNone then
        L.fillNonQuestNonFFAConditionalLoot templates player presentAtLooting else L).Placed := by
    intro L hp
    split
    · next h => exact hp.fillNonQuestNonFFAConditionalLoot (Option.isNone_iff_eq_none.mp h) _
    · exact hp
  have hlists := hcond (hffa (hquest hp))
  unfold Loot.fillNotNormalLootFor
  dsimp only
  split
  · exact hlists
  · exact storeCurrencies_induction templates player canStore _ _ Placed hlists
      fun L found item h => h.take player.guid found item

theorem Placed.fillMembers (canStore : ObjectGuid → Nat → Bool) (members : List Member)
    (hp : L.Placed) : (fillMembers templates canStore members L).Placed := by
  induction members generalizing L with
  | nil => exact hp
  | cons m members ih =>
    rw [Loot.fillMembers]
    apply ih
    split
    · exact hp.fillNotNormalLootFor m.player _ _
    · exact hp

theorem SameKinds.markUnderThreshold (templates : Templates) (L : Loot) (lootThreshold : Nat) :
    L.SameKinds (L.markUnderThreshold templates lootThreshold) := by
  refine ⟨?_, rfl, rfl, rfl, rfl⟩
  rw [Loot.markUnderThreshold, List.map_map]
  apply List.map_congr_left
  intro item _
  rw [Function.comp_apply]
  split <;> rfl

/-- `FillLoot` on a loot that may hold something already: fishing asks one table after another. -/
def fillMore (templates : Templates) (lootOwner : Player) (inWorld : Bool)
    (group : Option LootGroup) (personal : Bool) (drops : List (LootStoreItem × Nat))
    (canStore : ObjectGuid → Nat → Bool) (L : Loot) : Loot :=
  let L := process templates (if inWorld then some lootOwner else none) group drops
    { L with lootOwnerGUID := lootOwner.guid }
  match personal, group with
  | false, some group =>
    (fillMembers templates canStore group.members
      { L with roundRobinPlayer := lootOwner.guid }).markUnderThreshold templates group.lootThreshold
  | _, _ => L.fillNotNormalLootFor templates lootOwner true (canStore lootOwner.guid)

theorem fillMore_empty (templates : Templates) (lootOwner : Player) (inWorld : Bool)
    (group : Option LootGroup) (personal : Bool) (drops : List (LootStoreItem × Nat))
    (canStore : ObjectGuid → Nat → Bool) (gold : Nat) :
    fillMore templates lootOwner inWorld group personal drops canStore { gold } =
      fillLoot templates lootOwner inWorld group personal drops canStore gold := rfl

theorem Placed.setOwner (hp : L.Placed) (guid : ObjectGuid) : Placed { L with lootOwnerGUID := guid } :=
  ⟨hp.room, hp.questRoom, hp.quest, hp.ffa, hp.conditional⟩

theorem Placed.setRoundRobin (hp : L.Placed) (guid : ObjectGuid) :
    Placed { L with roundRobinPlayer := guid } :=
  ⟨hp.room, hp.questRoom, hp.quest, hp.ffa, hp.conditional⟩

theorem Placed.setGold (hp : L.Placed) (gold : Nat) : Placed { L with gold } :=
  ⟨hp.room, hp.questRoom, hp.quest, hp.ffa, hp.conditional⟩

theorem Placed.fillMore (hp : L.Placed) (lootOwner : Player) (inWorld : Bool)
    (group : Option LootGroup) (personal : Bool) (drops : List (LootStoreItem × Nat))
    (canStore : ObjectGuid → Nat → Bool) :
    (L.fillMore templates lootOwner inWorld group personal drops canStore).Placed := by
  have hdrops : (Loot.process templates (if inWorld then some lootOwner else none) group drops
    { L with lootOwnerGUID := lootOwner.guid }).Placed := (hp.setOwner lootOwner.guid).process drops
  unfold Loot.fillMore
  dsimp only
  split
  · next g =>
    refine (SameKinds.markUnderThreshold templates _ g.lootThreshold).placed ?_
    exact (hdrops.setRoundRobin lootOwner.guid).fillMembers canStore g.members
  · exact hdrops.fillNotNormalLootFor lootOwner true _

/-! ## A master looter -/

/-- `MasterLoot`: what is not under the threshold is given out by the master looter. -/
def masterLoot (L : Loot) : Loot :=
  { L with
    items := L.items.map fun item =>
      if item.freeforall then item else { item with is_blocked := !item.is_underthreshold }
    quest_items := L.quest_items.map fun item =>
      if item.follow_loot_rules then { item with is_blocked := !item.is_underthreshold } else item }

/-- `HandleLootMasterGiveOpcode`, once the target may be given something. -/
def masterGive (templates : Templates) (slotid : Nat) (target : Player) (canStore : Bool) (L : Loot) :
    Loot :=
  match L.get? (L.refAt slotid) with
  | none => L
  | some item =>
    if !item.allowedForPlayer templates target true 0 || !canStore then L
    else
      { L.modify (fun item => { item with count := 0, is_looted := true }) (L.refAt slotid) with
        unlootedCount := L.unlootedCount - 1
        handedOut := (target.guid, L.refAt slotid) :: L.handedOut }

theorem SameKinds.masterLoot (L : Loot) : L.SameKinds L.masterLoot := by
  refine ⟨?_, List.length_map .., rfl, rfl, rfl⟩
  rw [Loot.masterLoot, List.map_map]
  apply List.map_congr_left
  intro item _
  rw [Function.comp_apply]
  split <;> rfl

theorem SameKinds.masterGive (L : Loot) (slotid : Nat) (target : Player) (canStore : Bool) :
    L.SameKinds (L.masterGive templates slotid target canStore) := by
  unfold Loot.masterGive
  split
  · exact .refl L
  · split
    · exact .refl L
    · have h := SameKinds.modify L (f := fun item => { item with count := 0, is_looted := true })
        (by intro _; rfl) (L.refAt slotid)
      exact ⟨h.items, h.quest_items, h.quest, h.ffa, h.conditional⟩

/-! ## Rolling -/

theorem SameKinds.won (answers : Roll.Answers) (ref : ItemRef) (winner : RollEntry) (L : Loot) :
    L.SameKinds (Roll.won answers ref winner L) := by
  unfold Roll.won
  split
  · have h := SameKinds.modify L (f := fun item => { item with is_looted := true })
      (by intro _; rfl) ref
    exact ⟨h.items, h.quest_items, h.quest, h.ffa, h.conditional⟩
  · exact .modify L (by intro _; rfl) ref

theorem SameKinds.countVotes (answers : Roll.Answers) (takesPart : RollVote → Bool) (r : Roll)
    (total : UInt8) (L : Loot) : L.SameKinds (r.countVotes answers takesPart total L).2 := by
  unfold Roll.countVotes
  split
  · exact .refl L
  · split
    · exact .refl L
    · exact .won answers _ _ L

theorem SameKinds.countTheRoll (answers : Roll.Answers) (r : Roll) (L : Loot) :
    L.SameKinds (r.countTheRoll answers L) := by
  unfold Roll.countTheRoll
  have hneed := SameKinds.countVotes answers Roll.isNeed r r.totalNeed L
  have hgreed : L.SameKinds
      (if (r.countVotes answers Roll.isNeed r.totalNeed L).1 = 0 then
        r.countVotes answers Roll.isGreed r.totalGreed (r.countVotes answers Roll.isNeed r.totalNeed L).2
      else (r.totalGreed, (r.countVotes answers Roll.isNeed r.totalNeed L).2)).2 := by
    split
    · exact hneed.trans (.countVotes answers Roll.isGreed r r.totalGreed _)
    · exact hneed
  have hend : ∀ (totalNeed : UInt8) (s : UInt8 × Loot), L.SameKinds s.2 →
      L.SameKinds (if totalNeed = 0 && s.1 = 0 then
        s.2.modify (fun item => { item with is_blocked := false }) (s.2.refAt r.itemSlot)
      else s.2) := by
    intro totalNeed s hs
    split
    · exact hs.trans (.modify _ (by intro _; rfl) _)
    · exact hs
  exact hend _ _ hgreed

end Loot

namespace Rolls

open Loot

variable {templates : Templates} {W W' W'' : Rolls} {id : LootId} {L : Loot} {r : Roll}
  {group : RollGroup} {item : LootItem}

/-- The loots that are there were there, with items of the same kinds in the same places. -/
def SameLoots (W W' : Rolls) : Prop :=
  ∀ id L', W'.loots id = some L' → ∃ L, W.loots id = some L ∧ L.SameKinds L'

theorem SameLoots.refl (W : Rolls) : W.SameLoots W := fun _ L' h => ⟨L', h, .refl L'⟩

theorem SameLoots.trans (h : W.SameLoots W') (h' : W'.SameLoots W'') : W.SameLoots W'' := by
  intro id L'' hL''
  obtain ⟨L', hL', hsame'⟩ := h' id L'' hL''
  obtain ⟨L, hL, hsame⟩ := h id L' hL'
  exact ⟨L, hL, hsame.trans hsame'⟩

theorem update_eq_some {loots : LootId → Option Loot} {o : Option Loot} {id id' : LootId}
    (h : Function.update loots id o id' = some L) : (id' = id ∧ o = some L) ∨ loots id' = some L := by
  by_cases hid : id' = id
  · subst hid
    rw [Function.update_self] at h
    exact Or.inl ⟨rfl, h⟩
  · rw [Function.update_of_ne hid] at h
    exact Or.inr h

theorem SameLoots.setLoot {L' : Loot} (hL : W.loots id = some L) (hsame : L.SameKinds L')
    (hloots : W'.loots = Function.update W.loots id (some L')) : W.SameLoots W' := by
  intro id' M hM
  rw [hloots] at hM
  rcases update_eq_some hM with ⟨hid, hM⟩ | hM
  · cases hM
    exact ⟨L, hid ▸ hL, hsame⟩
  · exact ⟨M, hM, .refl M⟩

theorem SameLoots.same (hloots : W'.loots = W.loots) : W.SameLoots W' := by
  intro id L' hL'
  exact ⟨L', hloots ▸ hL', .refl L'⟩

theorem SameLoots.block (W : Rolls) (id : LootId) (slot : Nat) : W.SameLoots (W.block id slot) := by
  unfold Rolls.block
  split
  · exact .refl W
  · next L hL => exact .setLoot hL (.modify L (by intro _; rfl) _) rfl

theorem SameLoots.markUnderThreshold (W : Rolls) (id : LootId) (slot : Nat) :
    W.SameLoots (W.markUnderThreshold id slot) := by
  unfold Rolls.markUnderThreshold
  split
  · exact .refl W
  · next L hL => exact .setLoot hL (.modify L (by intro _; rfl) _) rfl

theorem SameLoots.offer (W : Rolls) (group : RollGroup) (id : LootId) (slot : Nat) (item : LootItem)
    (asksPass forgetsAllPassed : Bool) :
    W.SameLoots (W.offer templates group id slot item asksPass forgetsAllPassed) := by
  have hnext : W.SameLoots { W with nextItemGUID := W.nextItemGUID + 1 } := .same rfl
  unfold Rolls.offer
  dsimp only
  split
  · exact hnext
  · split
    · exact hnext.trans (.block _ id slot)
    · exact (hnext.trans (.block _ id slot)).trans (.same rfl)

theorem SameLoots.offerItems (group : RollGroup) (id : LootId) (forgetsAllPassed : Bool)
    (todo : List Nat) (W : Rolls) :
    W.SameLoots (offerItems templates group id forgetsAllPassed todo W) := by
  induction todo generalizing W with
  | nil => exact .refl W
  | cons i todo ih =>
    unfold Rolls.offerItems
    split
    · exact ih W
    · split
      · exact ih W
      · split
        · exact (SameLoots.offer W group id i _ true forgetsAllPassed).trans (ih _)
        · exact (SameLoots.markUnderThreshold W id i).trans (ih _)

theorem SameLoots.offerQuestItems (group : RollGroup) (id : LootId) (first : Nat)
    (skipsUnknown : Bool) (todo : List Nat) (W : Rolls) :
    W.SameLoots (offerQuestItems templates group id first skipsUnknown todo W) := by
  induction todo generalizing W with
  | nil => exact .refl W
  | cons i todo ih =>
    unfold Rolls.offerQuestItems
    split
    · exact ih W
    · split
      · exact ih W
      · exact (SameLoots.offer W group id _ _ false false).trans (ih _)

theorem SameLoots.handOver (hL : W.loots id = some L) (group : RollGroup)
    (forgetsAllPassed skipsUnknown : Bool) :
    W.SameLoots (W.handOver templates group id L forgetsAllPassed skipsUnknown) := by
  have hset : W.SameLoots (W.setLoot id L) := .setLoot hL (.refl L) rfl
  exact (hset.trans (.offerItems group id forgetsAllPassed _ _)).trans
    (.offerQuestItems group id _ skipsUnknown _ _)

theorem SameLoots.countTheRoll (W : Rolls) (answers : Roll.Answers) (r : Roll) :
    W.SameLoots (W.countTheRoll answers r) := by
  unfold Rolls.countTheRoll
  dsimp only
  split
  · exact .same rfl
  · next L hL => exact .setLoot hL (.countTheRoll answers r L) rfl

theorem SameLoots.countRollVote (W : Rolls) (playerGUID : ObjectGuid) (guid : Nat) (choice : UInt8)
    (answers : Roll.Answers) : W.SameLoots (W.countRollVote playerGUID guid choice answers).1 := by
  unfold Rolls.countRollVote
  split
  · exact .refl W
  · next r _ =>
    split
    · exact .refl W
    · split
      · exact .refl W
      · have hset : W.SameLoots (W.setRoll (r.cast playerGUID choice)) := .same rfl
        dsimp only
        split
        · exact hset.trans (.countTheRoll _ answers _)
        · exact hset

theorem SameLoots.leaveRolls (playerGUID : ObjectGuid) (answers : Roll.Answers) (todo : List Nat)
    (W : Rolls) : W.SameLoots (leaveRolls playerGUID answers todo W) := by
  induction todo generalizing W with
  | nil => exact .refl W
  | cons guid todo ih =>
    unfold Rolls.leaveRolls
    split
    · exact ih W
    · next r _ =>
      split
      · exact ih W
      · next vote _ =>
        have hset : W.SameLoots (W.setRoll (r.leave playerGUID vote)) := .same rfl
        exact (hset.trans (.countRollVote _ playerGUID guid MAX_ROLL_TYPE answers)).trans (ih _)

theorem SameLoots.endRolls (answers : Nat → Roll.Answers) (todo : List Roll) (W : Rolls) :
    W.SameLoots (endRolls answers todo W) := by
  induction todo generalizing W with
  | nil => exact .refl W
  | cons r todo ih => exact (SameLoots.countTheRoll W _ r).trans (ih _)

/-- A loot that is handed over is the one that is there. -/
def Operation.IsAbout (W : Rolls) : Operation → Prop
  | .groupLoot _ id L => W.loots id = some L
  | .needBeforeGreed _ id L => W.loots id = some L
  | _ => True

theorem SameLoots.exec {o : Operation} (h : o.IsAbout W) : W.SameLoots (W.exec templates o) := by
  cases o with
  | groupLoot group id L => exact .handOver h group true true
  | needBeforeGreed group id L => exact .handOver h group false false
  | countRollVote playerGUID guid choice answers => exact .countRollVote W playerGUID guid choice answers
  | removeMember playerGUID answers => exact .leaveRolls playerGUID answers _ W
  | endRoll id answers => exact .endRolls answers _ W

/-! ## Runs -/

/-- What happens to the loots of a world. -/
inductive LootOperation where
  | fillLoot (id : LootId) (lootOwner : Player) (inWorld : Bool) (group : Option LootGroup)
      (personal : Bool) (drops : List (LootStoreItem × Nat)) (canStore : ObjectGuid → Nat → Bool)
  | generateMoneyLoot (id : LootId) (gold : Nat)
  | storeLootItem (id : LootId) (player : Player) (lootSlot : Nat) (canStore : Bool)
  | takeGold (id : LootId)
  | masterLoot (id : LootId)
  | masterGive (id : LootId) (slotid : Nat) (target : Player) (canStore : Bool)
  | roll (o : Operation)
  /-- The round robin player releases the loot. -/
  | release (id : LootId)
  | clear (id : LootId)
  /-- The object with the loot is gone. -/
  | remove (id : LootId)

/-- Change a loot that is there. -/
def onLoot (W : Rolls) (id : LootId) (f : Loot → Loot) : Rolls :=
  { W with loots := Function.update W.loots id ((W.loots id).map f) }

def execLoot (templates : Templates) (W : Rolls) : LootOperation → Rolls
  | .fillLoot id lootOwner inWorld group personal drops canStore =>
    W.setLoot id
      (((W.loots id).getD {}).fillMore templates lootOwner inWorld group personal drops canStore)
  | .generateMoneyLoot id gold => W.setLoot id { (W.loots id).getD {} with gold }
  | .storeLootItem id player lootSlot canStore =>
    W.onLoot id fun L => L.storeLootItem templates player lootSlot canStore
  | .takeGold id => W.onLoot id fun L => { L with gold := 0 }
  | .masterLoot id => W.onLoot id Loot.masterLoot
  | .masterGive id slotid target canStore =>
    W.onLoot id (Loot.masterGive templates slotid target canStore)
  | .roll o => W.exec templates o
  | .release id => W.onLoot id fun L => { L with roundRobinPlayer := 0 }
  | .clear id => W.onLoot id fun L => { lootOwnerGUID := L.lootOwnerGUID }
  | .remove id => { W with loots := Function.update W.loots id none }

def LootStep (templates : Templates) (W : Rolls) (o : LootOperation) (W' : Rolls) : Prop :=
  (∀ roll, o = .roll roll → roll.IsAbout W) ∧ W.execLoot templates o = W'

/-- All loots can be shown. -/
def AllPlaced (W : Rolls) : Prop := ∀ id L, W.loots id = some L → L.Placed

theorem AllPlaced.sameLoots (hp : W.AllPlaced) (h : W.SameLoots W') : W'.AllPlaced := by
  intro id L' hL'
  obtain ⟨L, hL, hsame⟩ := h id L' hL'
  exact hsame.placed (hp id L hL)

theorem AllPlaced.setLoot (hp : W.AllPlaced) (hL : L.Placed) (id : LootId) :
    (W.setLoot id L).AllPlaced := by
  intro id' M hM
  rcases update_eq_some hM with ⟨-, hM⟩ | hM
  · cases hM
    exact hL
  · exact hp id' M hM

theorem AllPlaced.onLoot (hp : W.AllPlaced) {f : Loot → Loot} (hf : ∀ L : Loot, L.Placed → (f L).Placed)
    (id : LootId) : (W.onLoot id f).AllPlaced := by
  intro id' M hM
  rcases update_eq_some hM with ⟨-, hM⟩ | hM
  · obtain ⟨L, hL, rfl⟩ := Option.map_eq_some_iff.mp hM
    exact hf L (hp id L hL)
  · exact hp id' M hM

theorem AllPlaced.getD (hp : W.AllPlaced) (id : LootId) : ((W.loots id).getD {}).Placed := by
  cases hL : W.loots id with
  | none => exact Placed.empty 0 0
  | some L => exact hp id L hL

theorem AllPlaced.step (hp : W.AllPlaced) {o : LootOperation} (h : LootStep templates W o W') :
    W'.AllPlaced := by
  obtain ⟨habout, rfl⟩ := h
  cases o with
  | fillLoot id lootOwner inWorld group personal drops canStore =>
    exact hp.setLoot ((hp.getD id).fillMore lootOwner inWorld group personal drops canStore) id
  | generateMoneyLoot id gold => exact hp.setLoot ((hp.getD id).setGold gold) id
  | storeLootItem id player lootSlot canStore =>
    exact hp.onLoot (fun L hL => hL.storeLootItem player lootSlot canStore) id
  | takeGold id => exact hp.onLoot (fun L hL => hL.setGold 0) id
  | masterLoot id => exact hp.onLoot (fun L hL => (SameKinds.masterLoot L).placed hL) id
  | masterGive id slotid target canStore =>
    exact hp.onLoot (fun L hL => (SameKinds.masterGive L slotid target canStore).placed hL) id
  | roll o => exact hp.sameLoots (.exec (habout o rfl))
  | release id => exact hp.onLoot (fun L hL => hL.setRoundRobin 0) id
  | clear id => exact hp.onLoot (fun L _ => Placed.empty L.lootOwnerGUID 0) id
  | remove id =>
    intro id' M hM
    rcases update_eq_some hM with ⟨-, hM⟩ | hM
    · cases hM
    · exact hp id' M hM

/-- **What the window shows can be taken from its slot**: in every run, for every viewer and
permission, no two entries of a response share a slot number, and each number leads
`LootItemInSlot` to the very item of its entry. -/
theorem run_window (templates : Templates)
    (h : Reaches (LootStep templates) (fun _ _ => True) {} W) (hL : W.loots id = some L)
    (viewer : Player) (permission : PermissionTypes) :
    ((L.buildLootResponse templates viewer permission).Items.map (·.LootListID)).Nodup ∧
      ∀ d ∈ (L.buildLootResponse templates viewer permission).Items, L.Resolves viewer.guid d := by
  have hplaced : W.AllPlaced := by
    refine h.invariant (I := AllPlaced) ?_ ?_
    · intro id L hL
      cases hL
    · intro W W' o hp _ hstep
      exact hp.step hstep
  have hp := hplaced id L hL
  exact ⟨nodup_response hp, fun d hd => response_resolves hp hd⟩

def pairFill : LootOperation :=
  .fillLoot 1 (memberOf .groupLoot 7) true (some (pairOf .groupLoot)) false
    [({ itemid := 1 }, 1), ({ itemid := 3 }, 1), ({ itemid := 2, needs_quest := true }, 1)]
    fun _ _ => true

/-- The pair's loot, after 7 has taken its copy of the item that both may take. -/
def pairWorld : Rolls :=
  execLoot sample (execLoot sample {} pairFill) (.storeLootItem 1 (memberOf .groupLoot 7) 1 true)

/-- 7 is still shown the plain item and the quest item, and can take both. -/
theorem pairWindow_resolves :
    ((pairWorld.loots 1).map fun L =>
      (L.buildLootResponse sample (memberOf .groupLoot 7) .group).Items.map
        fun d => (d.LootListID, d.UIType, d.ItemID)) =
        some [(0, .allowLoot, 1), (2, .allowLoot, 2)] ∧
      ∃ L, pairWorld.loots 1 = some L ∧
        ∀ d ∈ (L.buildLootResponse sample (memberOf .groupLoot 7) .group).Items, L.Resolves 7 d := by
  have hrun : Reaches (LootStep sample) (fun _ _ => True) {} pairWorld := by
    refine ((Reaches.refl _).next (a := pairFill) trivial ⟨?_, rfl⟩).next trivial ⟨?_, rfl⟩
    · intro _ h
      cases h
    · intro _ h
      cases h
  have hL : pairWorld.loots 1 =
      some ((pairLoot .groupLoot).storeLootItem sample (memberOf .groupLoot 7) 1 true) := rfl
  refine ⟨by decide, _, hL, ?_⟩
  exact (run_window sample hrun hL (memberOf .groupLoot 7) .group).2

end Rolls

/-! ## Handing out once -/

namespace Loot

variable {templates : Templates} {L L' L₀ : Loot} {guid : ObjectGuid} {found : Found}
  {item item' : LootItem} {ref : ItemRef}

/-- What a player takes is looted afterwards, unless everyone may take it; nothing else changes. -/
theorem get?_takeItem (h : L.get? ref = some item') :
    (L.takeItem guid found item).get? ref =
      some (if item.freeforall = false ∧ ref = found.ref then { item' with is_looted := true }
        else item') := by
  have hmark : ∀ ref, (L.markTaken guid found).get? ref = L.get? ref := by
    intro ref
    unfold markTaken
    split <;> (cases ref <;> rfl)
  have htake : (L.takeItem guid found item).get? ref =
      (if item.freeforall then L.markTaken guid found
        else (L.markTaken guid found).modify (fun item => { item with is_looted := true })
          found.ref).get? ref := by
    cases ref <;> rfl
  rw [htake]
  cases hffa : item.freeforall with
  | true => simpa [hmark] using h
  | false =>
    by_cases href : ref = found.ref
    · subst href
      simp [get?_modify_self, hmark, h]
    · simp [get?_modify_ne href, hmark, h, href]

/-- What was handed out since `L₀`, apart from what is for everyone, has been looted since, once. -/
def HandedOnce (L₀ L : Loot) : Prop :=
  ∃ taken, L.handedOut = taken ++ L₀.handedOut ∧
    ∀ ref item, L₀.get? ref = some item → item.freeforall = false →
      ∃ item', L.get? ref = some item' ∧ item'.freeforall = false ∧
        (taken.map Prod.snd).count ref + item.is_looted.toNat = item'.is_looted.toNat

theorem HandedOnce.store {call : StoreCall} (ih : L₀.HandedOnce L) (h : Store templates L call L') :
    L₀.HandedOnce L' := by
  rcases storeLootItem_cases templates L call.player call.lootSlot call.canStore with
    hnone | ⟨found, item₁, -, hfind, hmay, htake⟩
  · rw [h, hnone]
    exact ih
  · obtain ⟨taken, hout, hcount⟩ := ih
    rw [h, htake]
    refine ⟨(call.player.guid, found.ref) :: taken, ?_, ?_⟩
    · rw [takeItem_handedOut, hout, List.cons_append]
    · intro ref item hitem hffa
      obtain ⟨item', hnow, hffa', hsum⟩ := hcount ref item hitem hffa
      refine ⟨_, get?_takeItem hnow, ?_⟩
      by_cases href : ref = found.ref
      · -- the item that is taken: it was not looted before
        subst href
        obtain rfl : item₁ = item' := Option.some.inj (hfind.get?.symm.trans hnow)
        have hopen := mayTake_not_looted hmay
        rw [hopen, Bool.toNat_false] at hsum
        simp [hffa']
        omega
      · simpa [href, hffa', List.count_cons, Ne.symm href] using hsum

/-- **Nothing is handed out twice**: in every run of `StoreLootItem`, by any players, an item that
is not for everyone is handed out at most once, and exactly when it gets looted. -/
theorem run_handedOnce (h : Reaches (Store templates) (fun _ _ => True) L₀ L) :
    L₀.HandedOnce L := by
  refine h.invariant (I := L₀.HandedOnce) ?_ ?_
  · exact ⟨[], rfl, fun ref item hitem hffa => ⟨item, hitem, hffa, by simp⟩⟩
  · intro s t call ih _ hstep
    exact ih.store hstep

/-- Under group loot 7 and 8 take what they can of the pair's loot. -/
theorem pairLoot_handedOnce :
    (pairLoot .groupLoot).HandedOnce
      (storeAll sample (pairLoot .groupLoot) (takenByPair .groupLoot)) :=
  run_handedOnce (storeAll_reaches _ _)

end Loot

end EGServer.Looting
