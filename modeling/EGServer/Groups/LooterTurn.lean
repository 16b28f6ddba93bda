import EGServer.Groups.Group
import EGServer.Looting.Loot
import EGServer.Lib.TurnOrder

/-!
# Round robin looting

`UpdateLooterGuid` passes the turn to loot on to the next member of a group. It looks for the
member whose turn it was, searches the slots behind that one and then the slots up to it: both
searches share one iterator, which is one past the slot, or at the end when there is none.

Who is online and near the loot is an argument. The update that is sent to the members is not
modelled.
-/

namespace EGServer.Groups

open Looting (LootMethod)

/-- A group, with what it knows about turns. No player is in it twice. -/
structure LooterGroup extends Group where
  m_lootMethod : LootMethod
  m_looterGuid : ObjectGuid
  distinct : (m_memberSlots.map (·.guid)).Nodup

namespace LooterGroup

/-- `_getMemberCSlot` as an iterator; the number of slots is `end()`. -/
def memberItr (G : LooterGroup) (guid : ObjectGuid) : Nat :=
  G.m_memberSlots.findIdx fun m => decide (m.guid = guid)

def setLooterGuid (G : LooterGroup) (guid : ObjectGuid) : LooterGroup :=
  { G with m_looterGuid := guid }

/-- "search next after current", and then "search from start". -/
def newLooter (G : LooterGroup) (isThere : ObjectGuid → Bool) (guid_itr : Nat) :
    Option MemberSlot :=
  match (G.m_memberSlots.drop guid_itr).find? fun m => isThere m.guid with
  | some looter => some looter
  | none => (G.m_memberSlots.take guid_itr).find? fun m => isThere m.guid

/-- `isThere` says who `FindPlayer` finds near the looted object. -/
def updateLooterGuid (G : LooterGroup) (isThere : ObjectGuid → Bool) (ifneed : Bool) :
    LooterGroup :=
  -- round robin style looting applies in each loot method except free for all
  if G.m_lootMethod = .freeForAll then G
  else
    let oldLooterGUID := G.m_looterGuid
    let guid_itr := G.memberItr oldLooterGUID
    -- not update if only update if need and ok
    if ifneed && G.m_memberSlots[guid_itr]?.any fun m => isThere m.guid then G
    else
      match G.newLooter isThere
        (if guid_itr < G.m_memberSlots.length then guid_itr + 1 else guid_itr) with
      | some looter => if oldLooterGUID = looter.guid then G else G.setLooterGuid looter.guid
      | none => G.setLooterGuid 0

/-- Who is selected by so many calls one after another. -/
def looters (isThere : ObjectGuid → Bool) : Nat → LooterGroup → List ObjectGuid
  | 0, _ => []
  | n + 1, G =>
    let G := G.updateLooterGuid isThere false
    G.m_looterGuid :: looters isThere n G

/-- The first of some members that is there, or `ObjectGuid::Empty`. -/
def firstThere (isThere : ObjectGuid → Bool) (slots : List MemberSlot) : ObjectGuid :=
  ((slots.map (·.guid)).find? isThere).getD 0

/-! ## A call passes on the turn -/

variable {G : LooterGroup} {isThere : ObjectGuid → Bool} {front back slots : List MemberSlot}
  {slot : MemberSlot}

def guids (G : LooterGroup) : List ObjectGuid := G.m_memberSlots.map (·.guid)

theorem memberItr_eq (G : LooterGroup) (guid : ObjectGuid) :
    G.memberItr guid = G.guids.idxOf guid := by
  rw [guids, List.idxOf, List.findIdx_map]
  rfl

theorem length_guids (G : LooterGroup) : G.guids.length = G.m_memberSlots.length :=
  List.length_map _

theorem newLooter_guid (G : LooterGroup) (isThere : ObjectGuid → Bool) (i : Nat) :
    (G.newLooter isThere i).map (·.guid) = (G.guids.drop i ++ G.guids.take i).find? isThere := by
  rw [newLooter, guids, ← List.map_drop, ← List.map_take, List.find?_append, List.find?_map,
    List.find?_map]
  cases h : (G.m_memberSlots.drop i).find? fun m => isThere m.guid with
  | some looter =>
    have hcomp : (G.m_memberSlots.drop i).find? (isThere ∘ fun m => m.guid) = some looter := h
    rw [hcomp]
    rfl
  | none =>
    have hcomp : (G.m_memberSlots.drop i).find? (isThere ∘ fun m => m.guid) = none := h
    rw [hcomp]
    rfl

/-- **One call.** -/
theorem updateLooterGuid_eq (hmethod : G.m_lootMethod ≠ .freeForAll)
    (isThere : ObjectGuid → Bool) :
    G.updateLooterGuid isThere false =
      G.setLooterGuid ((TurnOrder.next isThere G.guids G.m_looterGuid).getD 0) := by
  have hitr : (if G.memberItr G.m_looterGuid < G.m_memberSlots.length then
      G.memberItr G.m_looterGuid + 1 else G.memberItr G.m_looterGuid) =
        min (G.guids.idxOf G.m_looterGuid + 1) G.guids.length := by
    grind [length_guids, memberItr_eq]
  have hnext : (G.newLooter isThere (if G.memberItr G.m_looterGuid < G.m_memberSlots.length then
      G.memberItr G.m_looterGuid + 1 else G.memberItr G.m_looterGuid)).map (·.guid) =
        TurnOrder.next isThere G.guids G.m_looterGuid := by
    rw [newLooter_guid, hitr, TurnOrder.next, TurnOrder.behind]
    rcases Nat.le_total (G.guids.idxOf G.m_looterGuid + 1) G.guids.length with hle | hle
    · rw [Nat.min_eq_left hle]
    · rw [Nat.min_eq_right hle, List.drop_of_length_le hle, List.take_of_length_le hle,
        List.drop_length, List.take_length]
  rw [updateLooterGuid, if_neg hmethod, ← hnext]
  simp only [Bool.false_and, Bool.false_eq_true, if_false]
  split
  · next looter hlooter =>
    rw [hlooter, Option.map_some, Option.getD_some]
    split
    · next hsame => rw [← hsame, setLooterGuid]
    · rfl
  · next hnone => rw [hnone, Option.map_none, Option.getD_none]

/-- **Calls one after another** give the turns of those who are there. -/
theorem looters_eq (hmethod : G.m_lootMethod ≠ .freeForAll)
    (hsome : ∃ guid ∈ G.guids, isThere guid = true) (n : Nat) :
    looters isThere n G = TurnOrder.turns isThere G.guids n G.m_looterGuid := by
  induction n generalizing G with
  | zero => rfl
  | succ n ih =>
    obtain ⟨guid, hguid, hthere⟩ := hsome
    obtain ⟨looter, hlooter⟩ := Option.ne_none_iff_exists'.mp fun hnone :
        TurnOrder.next isThere G.guids G.m_looterGuid = none => by
      rw [TurnOrder.next_eq_none.mp hnone guid hguid] at hthere
      cases hthere
    rw [looters, TurnOrder.turns, updateLooterGuid_eq hmethod, hlooter]
    refine congrArg (looter :: ·) ?_
    exact ih (G := G.setLooterGuid looter) hmethod ⟨guid, hguid, hthere⟩

/-! ## Fairness -/

theorem next_getD_eq_zero {l : List ObjectGuid} {guid : ObjectGuid}
    (h : ∀ g ∈ l, isThere g = false) : (TurnOrder.next isThere l guid).getD 0 = 0 := by
  rw [TurnOrder.next_eq_none.mpr h]
  rfl

theorem next_behind (hslots : G.m_memberSlots = front ++ slot :: back)
    (hguid : slot.guid = G.m_looterGuid) :
    (TurnOrder.next isThere G.guids G.m_looterGuid).getD 0 =
      firstThere isThere (back ++ front ++ [slot]) := by
  have hguids : G.guids = front.map (·.guid) ++ G.m_looterGuid :: back.map (·.guid) := by
    rw [guids, hslots, List.map_append, List.map_cons, hguid]
  have hdistinct : (front.map (·.guid) ++ G.m_looterGuid :: back.map (·.guid)).Nodup :=
    hguids ▸ G.distinct
  grind [firstThere, TurnOrder.next_append]

theorem eq_of_next_self (hslots : G.m_memberSlots = front ++ slot :: back)
    (h : (TurnOrder.next isThere G.guids slot.guid).getD 0 = slot.guid) :
    ∀ m ∈ G.m_memberSlots, isThere m.guid = true → m = slot := by
  intro m hm hthere
  have hmem : m.guid ∈ G.guids := List.mem_map_of_mem hm
  have hslot : slot ∈ G.m_memberSlots := by
    rw [hslots]
    exact List.mem_append_right front List.mem_cons_self
  cases hnext : TurnOrder.next isThere G.guids slot.guid with
  | none =>
    rw [TurnOrder.next_eq_none.mp hnext m.guid hmem] at hthere
    cases hthere
  | some looter =>
    rw [hnext, Option.getD_some] at h
    rw [h] at hnext
    exact List.inj_on_of_nodup_map G.distinct hm hslot
      (TurnOrder.next_self G.distinct hnext m.guid hmem hthere)

/-- **Round robin looting is fair**: the turn passes to the first member behind the looter who is
there, so many calls as members are there select each of them once, and a looter who is there keeps
the turn where it is passed on only if need be. -/
theorem updateLooterGuid_fair (G : LooterGroup) (isThere : ObjectGuid → Bool)
    (hmethod : G.m_lootMethod ≠ .freeForAll) :
    (∀ front slot back, G.m_memberSlots = front ++ slot :: back → slot.guid = G.m_looterGuid →
      (G.updateLooterGuid isThere false).m_looterGuid =
        firstThere isThere (back ++ front ++ [slot]) ∧
      ((G.updateLooterGuid isThere false).m_looterGuid = slot.guid →
        ∀ m ∈ G.m_memberSlots, isThere m.guid = true → m = slot)) ∧
    ((∀ m ∈ G.m_memberSlots, m.guid ≠ G.m_looterGuid) →
      (G.updateLooterGuid isThere false).m_looterGuid = firstThere isThere G.m_memberSlots) ∧
    ((∀ m ∈ G.m_memberSlots, isThere m.guid = false) →
      (G.updateLooterGuid isThere false).m_looterGuid = 0) ∧
    (looters isThere (G.m_memberSlots.countP fun m => isThere m.guid) G).Perm
      (G.guids.filter isThere) ∧
    (∀ m ∈ G.m_memberSlots, m.guid = G.m_looterGuid → isThere m.guid = true →
      G.updateLooterGuid isThere true = G) := by
  rw [updateLooterGuid_eq hmethod]
  refine ⟨?_, ?_, ?_, ?_, ?_⟩
  · intro front slot back hslots hguid
    refine ⟨next_behind hslots hguid, ?_⟩
    rw [← hguid]
    exact eq_of_next_self hslots
  · intro hformer
    have hnotMem : G.m_looterGuid ∉ G.guids := by
      rw [guids, List.mem_map]
      rintro ⟨m, hm, hguid⟩
      exact hformer m hm hguid
    show (TurnOrder.next isThere G.guids G.m_looterGuid).getD 0 = _
    rw [TurnOrder.next, TurnOrder.behind_of_notMem hnotMem, firstThere, guids]
  · intro hnobody
    refine next_getD_eq_zero fun guid hguid => ?_
    obtain ⟨m, hm, rfl⟩ := List.mem_map.mp hguid
    exact hnobody m hm
  · have hcount : (G.m_memberSlots.countP fun m => isThere m.guid) =
        (G.guids.filter isThere).length := by
      rw [← List.countP_eq_length_filter, guids, List.countP_map]
      rfl
    rw [hcount]
    by_cases hsome : ∃ guid ∈ G.guids, isThere guid = true
    · rw [looters_eq hmethod hsome]
      exact (TurnOrder.turns_isRotated G.distinct isThere G.m_looterGuid).perm
    · have hnone : G.guids.filter isThere = [] :=
        List.filter_eq_nil_iff.mpr fun guid hguid hthere => hsome ⟨guid, hguid, hthere⟩
      rw [hnone]
      exact List.Perm.refl []
  · intro m hm hguid hthere
    have hfound : G.m_memberSlots[G.memberItr G.m_looterGuid]? = some m := by
      have hlt : G.memberItr G.m_looterGuid < G.m_memberSlots.length :=
        List.findIdx_lt_length_of_exists ⟨m, hm, decide_eq_true hguid⟩
      have hsame := List.findIdx_getElem (w := hlt)
      rw [List.getElem?_eq_getElem hlt]
      refine congrArg some (List.inj_on_of_nodup_map G.distinct (List.getElem_mem hlt) hm ?_)
      exact (of_decide_eq_true hsame).trans hguid.symm
    rw [updateLooterGuid, if_neg hmethod]
    simp only [hfound, Option.any_some, hthere, Bool.and_self, if_true]

/-- 7, 8 and 9, of whom 8 had the last turn and 9 is not there. -/
def trio : LooterGroup where
  m_memberSlots := [⟨7, 0, 0⟩, ⟨8, 0, 0⟩, ⟨9, 0, 0⟩]
  m_lootMethod := .roundRobin
  m_looterGuid := 8
  distinct := by
    show ([7, 8, 9] : List ObjectGuid).Nodup
    decide

/-- The turn goes past 9 to 7. -/
theorem trio_fair : (trio.updateLooterGuid (· != 9) false).m_looterGuid = 7 := by
  have h := (updateLooterGuid_fair trio (· != 9) (by decide)).1 [⟨7, 0, 0⟩] ⟨8, 0, 0⟩ [⟨9, 0, 0⟩]
    rfl rfl
  rw [h.1]
  rfl

end LooterGroup

end EGServer.Groups
