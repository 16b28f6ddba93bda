import EGServer.Groups.References

/-!
# The roster over whole runs

Each operation keeps the invariant, when `AddMember` is called the way the server calls it:
for a player that is not a member yet, with room in a party, and not from one raid of a
battleground or battlefield into another. `AddMember` itself checks none of this but the room
in a raid, and each of the three conditions is needed.
-/

namespace EGServer.Groups

namespace World

variable {w w' : World} {g g' : GroupId} {G G' : Group} {guid player leader : ObjectGuid}
  {subGroup : UInt8} {r : PlayerRefs}

/-! ## Joining -/

/-- The player's current group is the raid of a battleground or battlefield. -/
def InRaid (w : World) (player : ObjectGuid) : Prop :=
  ∃ p ∈ w.players, p.guid = player ∧
    ∃ g G, p.refs.m_group.target = some g ∧ w.groups g = some G ∧ G.isBGOrBF = true

theorem setRaid_holds (h : (r.setBattlegroundOrBattlefieldRaid g subGroup).Holds g') :
    g' = g ∨ r.m_group.target = some g' := by
  rcases h with h | h
  · exact Or.inl (Option.some_inj.mp h).symm
  · unfold PlayerRefs.setBattlegroundOrBattlefieldRaid at h
    cases hr : r.m_group.target with
    | none =>
      rw [hr] at h
      cases h
    | some g₀ =>
      rw [hr] at h
      exact Or.inr h

theorem setRaid_original
    (h : (r.setBattlegroundOrBattlefieldRaid g subGroup).m_originalGroup.target = some g') :
    r.m_group.target = some g' := by
  unfold PlayerRefs.setBattlegroundOrBattlefieldRaid at h
  cases hr : r.m_group.target with
  | none =>
    rw [hr] at h
    cases h
  | some g₀ =>
    rw [hr] at h
    exact h

theorem WF.setRaid (hw : w.WF) (hslot : w.HasSlot g player) (hraid : ¬w.InRaid player) {p : Player}
    (hp : p ∈ w.players) (hguid : p.guid = player) :
    (∀ g', (p.refs.setBattlegroundOrBattlefieldRaid g subGroup).Holds g' → w.HasSlot g' player) ∧
      ∀ g', (p.refs.setBattlegroundOrBattlefieldRaid g subGroup).m_originalGroup.target = some g' →
        w.IsOwn g' := by
  have hheld : ∀ g', p.refs.m_group.target = some g' → w.HasSlot g' player :=
    fun g' h => hguid ▸ hw.held p hp g' (Or.inl h)
  constructor
  · intro g' h
    rcases setRaid_holds h with rfl | h
    · exact hslot
    · exact hheld g' h
  · intro g' h
    have ht := setRaid_original h
    obtain ⟨G', hg', -⟩ := hheld g' ht
    refine ⟨G', hg', ?_⟩
    by_contra hne
    exact hraid ⟨p, hp, hguid, g', G', ht, hg', eq_true_of_ne_false hne⟩

theorem WF.joined (hw : w.WF) (hg : w.groups g = some G') (hmem : G'.isMember player = true)
    (hkind : G'.isBGOrBF = G.isBGOrBF) (hraid : G.isBGOrBF = true → ¬w.InRaid player) :
    (w.relink player (joined g G subGroup)).WF := by
  have hslot : w.HasSlot g player := ⟨G', hg, hmem⟩
  apply hw.relink
  intro p hp hguid
  have hheld : ∀ g', p.refs.Holds g' → w.HasSlot g' player := fun g' h => hguid ▸ hw.held p hp g' h
  unfold World.joined
  split
  · split
    · next hbg => exact hw.setRaid hslot (hraid hbg) hp hguid
    · next hbg =>
      constructor
      · rintro g' (h | h)
        · exact hheld g' (Or.inl h)
        · cases h
          exact hslot
      · rintro g' h
        cases h
        exact ⟨G', hg, hkind.trans (eq_false_of_ne_true hbg)⟩
  · constructor
    · rintro g' (h | h)
      · cases h
        exact hslot
      · exact hheld g' (Or.inr h)
    · exact fun g' h => hw.original p hp g' h

theorem isMember_addSlot {p : ObjectGuid} :
    (G.addSlot guid subGroup).isMember p = true ↔ G.isMember p = true ∨ p = guid := by
  rw [Group.isMember_iff, Group.isMember_iff]
  show (∃ m ∈ G.m_memberSlots ++ [{ guid, group := subGroup }], m.guid = p) ↔ _
  constructor
  · grind
  · rintro (⟨m, hm, rfl⟩ | rfl)
    · exact ⟨m, List.mem_append_left _ hm, rfl⟩
    · exact ⟨_, List.mem_append_right _ (List.mem_singleton_self _), rfl⟩

/-- **`AddMember`** of a player that is not a member yet, where there is room. -/
theorem addMember_wf (hw : w.WF) (hwf : G.SlotsWF) (hnew : ¬G.isMember player = true)
    (hroom : G.isRaidGroup = true ∨ ¬G.isFull = true)
    (hleader : G.m_leaderGuid = player ∨ G.isMember G.m_leaderGuid = true)
    (hold : ∀ G₀, w.groups g = some G₀ → G₀ = G)
    (hraid : G.isBGOrBF = true → ¬w.InRaid player) : (w.addMember g G player).1.WF := by
  unfold addMember
  split
  · exact hw
  · next subGroup hfree =>
    have hw₁ : (w.setGroupObject g (some (G.addSlot player subGroup))).WF := by
      apply hw.setGroupObject (hwf.addSlot hnew hfree hroom)
      · intro G₀ hg₀
        cases hold G₀ hg₀
        exact ⟨fun p hp => isMember_addSlot.mpr (Or.inl hp), rfl⟩
      · exact isMember_addSlot.mpr (hleader.symm.imp_right fun h => h)
    have hg₁ : (w.setGroupObject g (some (G.addSlot player subGroup))).groups g =
        some (G.addSlot player subGroup) := Function.update_self ..
    have hmem : (G.addSlot player subGroup).isMember player = true :=
      isMember_addSlot.mpr (Or.inr rfl)
    have hraid₁ : G.isBGOrBF = true →
        ¬(w.setGroupObject g (some (G.addSlot player subGroup))).InRaid player := by
      rintro hbg ⟨p, hp, hguid, g', G', ht, hg', hbg'⟩
      -- the raid it is in is none of the raid it joins, which it has no slot in
      have hne : g' ≠ g := by
        rintro rfl
        obtain ⟨G₀, hg₀, hm⟩ := hw.held p hp g' (Or.inl ht)
        cases hold G₀ hg₀
        exact hnew (hguid ▸ hm)
      exact hraid hbg ⟨p, hp, hguid, g', G', ht, (Function.update_of_ne hne _ _).symm.trans hg',
        hbg'⟩
    have hw₂ : (World.relink (w.setGroupObject g (some (G.addSlot player subGroup))) player
        (joined g G subGroup)).WF := hw₁.joined hg₁ hmem rfl hraid₁
    dsimp only
    split
    · exact hw₂
    · next hbg =>
      refine ⟨⟨hw₂.slots, hw₂.held, hw₂.original, ?_⟩, hw₂.led⟩
      intro p g' h
      by_cases hp : p = player
      · subst hp
        have h : Function.update w.group_member p ((w.group_member p).or (some g)) p = some g' := h
        rw [Function.update_self] at h
        cases hrow : w.group_member p with
        | some g₀ =>
          rw [hrow] at h
          cases h
          exact hw₂.rows p g' hrow
        | none =>
          rw [hrow] at h
          cases h
          exact ⟨⟨_, hg₁, hmem⟩, ⟨_, hg₁, eq_false_of_ne_true hbg⟩⟩
      · have h : Function.update w.group_member player ((w.group_member player).or (some g)) p =
            some g' := h
        rw [Function.update_of_ne hp] at h
        exact hw₂.rows p g' h

/-! ## A new group -/

theorem not_raid_normal : ¬(GROUPTYPE_NORMAL &&& GROUPTYPE_RAID != 0) = true := by decide

theorem not_raid_lfg :
    ¬((GROUPTYPE_LFG ||| GROUPTYPE_LFG_RESTRICTED) &&& GROUPTYPE_RAID != 0) = true := by decide

theorem raid_bgraid : (GROUPTYPE_BGRAID &&& GROUPTYPE_RAID != 0) = true := by decide

theorem created_eq (kind : GroupKind) (leader : ObjectGuid) :
    kind.created leader =
      match kind with
      | .normal => { m_leaderGuid := leader }
      | .lfg => { m_leaderGuid := leader, m_groupType := GROUPTYPE_LFG ||| GROUPTYPE_LFG_RESTRICTED }
      | .battleground => {
        m_leaderGuid := leader, m_groupType := GROUPTYPE_BGRAID, m_bgGroup := true
        m_subGroupsCounts := some fun _ => 0 }
      | .battlefield => {
        m_leaderGuid := leader, m_groupType := GROUPTYPE_BGRAID, m_bfGroup := true
        m_subGroupsCounts := some fun _ => 0 } := by
  cases kind with
  | normal => exact if_neg not_raid_normal
  | lfg => exact if_neg not_raid_lfg
  | battleground => exact if_pos raid_bgraid
  | battlefield => exact if_pos raid_bgraid

theorem created_slots (kind : GroupKind) (leader : ObjectGuid) :
    (kind.created leader).m_memberSlots = [] ∧ (kind.created leader).m_leaderGuid = leader ∧
      (kind.created leader).isRaidGroup = (kind.created leader).m_subGroupsCounts.isSome ∧
      ∀ counts, (kind.created leader).m_subGroupsCounts = some counts → ∀ s, counts s = 0 := by
  have hnone : ∀ counts : UInt8 → UInt8, none = some counts → ∀ s, counts s = 0 := by
    intro counts h
    cases h
  have hzero : ∀ counts : UInt8 → UInt8, some (fun _ => 0) = some counts → ∀ s, counts s = 0 := by
    intro counts h s
    cases h
    rfl
  rw [created_eq]
  cases kind with
  | normal => exact ⟨rfl, rfl, eq_false_of_ne_true not_raid_normal, hnone⟩
  | lfg => exact ⟨rfl, rfl, eq_false_of_ne_true not_raid_lfg, hnone⟩
  | battleground => exact ⟨rfl, rfl, raid_bgraid, hzero⟩
  | battlefield => exact ⟨rfl, rfl, raid_bgraid, hzero⟩

theorem created_slotsWF (kind : GroupKind) (leader : ObjectGuid) :
    (kind.created leader).SlotsWF := by
  obtain ⟨hslots, -, hraid, hcounts⟩ := created_slots kind leader
  constructor
  case distinct =>
    rw [hslots]
    exact List.nodup_nil
  case raid => exact hraid
  case counted =>
    intro counts hc s _
    rw [hcounts counts hc s, Group.slotsIn, hslots]
    exact ⟨rfl, Nat.zero_le _⟩
  case inside =>
    intro m hm
    rw [hslots] at hm
    cases hm
  case party =>
    intro _
    rw [hslots]
    refine ⟨?_, Nat.zero_le _⟩
    intro m hm
    cases hm

/-- **`Create`** of a new group. -/
theorem create_wf (hw : w.WF) (hg : w.groups g = none) (kind : GroupKind)
    (hraid : kind.newGroup.isBGOrBF = true → ¬w.InRaid leader) : (w.create g kind leader).1.WF := by
  obtain ⟨hslots, hleader, -, -⟩ := created_slots kind leader
  apply addMember_wf hw (created_slotsWF kind leader)
  case hnew =>
    rw [Group.isMember_iff, hslots]
    rintro ⟨m, hm, -⟩
    cases hm
  case hroom =>
    right
    rw [Group.isFull, Group.getMembersCount, hslots]
    split
    · decide
    · decide
  case hleader => exact Or.inl hleader
  case hold =>
    intro G₀ hg₀
    rw [hg] at hg₀
    cases hg₀
  case hraid =>
    have hkind : (kind.created leader).isBGOrBF = kind.newGroup.isBGOrBF := by
      rw [created_eq]
      cases kind with
      | normal => rfl
      | lfg => rfl
      | battleground => rfl
      | battlefield => rfl
    rwa [hkind]

/-! ## The leader -/

theorem changeLeader_spec (w : World) (G : Group) (guid : ObjectGuid) :
    Group.SameButFlags G (w.changeLeader G guid) ∧
      (w.changeLeader G guid = G ∨
        (G.isMember guid = true ∧ (w.changeLeader G guid).m_leaderGuid = guid)) := by
  unfold changeLeader
  split
  · exact ⟨.refl G, Or.inl rfl⟩
  · next slot hslot =>
    obtain ⟨hmem, hguid⟩ := Group.mem_of_getMemberSlot hslot
    split
    · exact ⟨.refl G, Or.inl rfl⟩
    · have hsame : Group.SameButFlags G { G with m_leaderGuid := slot.guid } :=
        ⟨rfl, rfl, rfl, rfl, rfl⟩
      refine ⟨hsame.trans (.toggleGroupMemberFlag _ _ _ _), Or.inr ⟨?_, hguid⟩⟩
      exact Group.isMember_iff.mpr ⟨slot, hmem, hguid⟩

theorem WF.sameButFlags (hw : w.WF) (hg : w.groups g = some G) (h : Group.SameButFlags G G')
    (hled : G.isMember G'.m_leaderGuid = true) : (w.setGroupObject g (some G')).WF := by
  apply hw.setGroupObject (h.slotsWF (hw.slots g G hg))
  · intro G₀ hg₀
    cases hg.symm.trans hg₀
    exact ⟨fun p hp => (h.isMember p).trans hp, h.isBGOrBF⟩
  · rw [h.isMember]
    exact hled

theorem changeLeader_wf (hw : w.WF) (hg : w.groups g = some G) (guid : ObjectGuid) :
    (w.setGroupObject g (some (w.changeLeader G guid))).WF := by
  obtain ⟨hsame, heq | ⟨hmem, hled⟩⟩ := changeLeader_spec w G guid
  · exact hw.sameButFlags hg hsame (heq.symm ▸ hw.led g G hg)
  · exact hw.sameButFlags hg hsame (hled.symm ▸ hmem)

/-! ## Leaving -/

theorem withoutMember_spec (w : World) (hwf : G.SlotsWF) (guid : ObjectGuid) :
    (w.withoutMember G guid).SlotsWF ∧ (w.withoutMember G guid).isBGOrBF = G.isBGOrBF ∧
      ∀ p, (w.withoutMember G guid).isMember p = true ↔ G.isMember p = true ∧ p ≠ guid := by
  have herase : (G.eraseSlot guid).SlotsWF ∧ (G.eraseSlot guid).isBGOrBF = G.isBGOrBF ∧
      ∀ p, (G.eraseSlot guid).isMember p = true ↔ G.isMember p = true ∧ p ≠ guid := by
    refine ⟨hwf.eraseSlot guid, ?_, fun p => Group.isMember_eraseSlot hwf⟩
    unfold Group.eraseSlot
    split
    · rfl
    · rfl
  unfold withoutMember
  dsimp only
  split
  · split
    · next m hm =>
      obtain ⟨hsame, -⟩ := changeLeader_spec w (G.eraseSlot guid) m.guid
      refine ⟨hsame.slotsWF herase.1, hsame.isBGOrBF.trans herase.2.1, fun p => ?_⟩
      rw [hsame.isMember]
      exact herase.2.2 p
    · exact herase
  · exact herase

/-- **No group is left without a leader** while one of its members is online. -/
theorem withoutMember_led (hwf : G.SlotsWF) (hled : G.isMember G.m_leaderGuid = true) {p : Player}
    (hp : p ∈ w.players) (hmem : (w.withoutMember G guid).isMember p.guid = true) :
    (w.withoutMember G guid).isMember (w.withoutMember G guid).m_leaderGuid = true := by
  have hleader : (G.eraseSlot guid).m_leaderGuid = G.m_leaderGuid := by
    unfold Group.eraseSlot
    split
    · rfl
    · rfl
  have honline := (w.withoutMember_spec hwf guid).2.2
  revert hmem honline
  unfold withoutMember
  dsimp only
  intro hmem honline
  by_cases hl : (G.eraseSlot guid).m_leaderGuid = guid
  · rw [if_pos hl] at hmem honline ⊢
    cases hf : (G.eraseSlot guid).m_memberSlots.find? fun m =>
        (w.findConnectedPlayer m.guid).isSome with
    | none =>
      -- the player itself would have been found
      exfalso
      rw [hf] at hmem
      obtain ⟨m, hm, hguid⟩ := Group.isMember_iff.mp hmem
      refine List.find?_eq_none.mp hf m hm ?_
      exact isSome_findConnectedPlayer.mpr ⟨p, hp, hguid.symm⟩
    | some m =>
      have hm := List.mem_of_find?_eq_some hf
      have hconn : (w.findConnectedPlayer m.guid).isSome = true := by
        simpa using List.find?_some hf
      have hmember : (G.eraseSlot guid).isMember m.guid = true :=
        Group.isMember_iff.mpr ⟨m, hm, rfl⟩
      show ((w.changeLeader (G.eraseSlot guid) m.guid).isMember
        (w.changeLeader (G.eraseSlot guid) m.guid).m_leaderGuid) = true
      obtain ⟨slot, hslot⟩ := Group.getMemberSlot_of_isMember hmember
      obtain ⟨-, hguid⟩ := Group.mem_of_getMemberSlot hslot
      have hnew : (w.changeLeader (G.eraseSlot guid) m.guid).m_leaderGuid = m.guid := by
        rw [changeLeader, hslot]
        dsimp only
        rw [hguid, Option.isNone_eq_false_iff.mpr hconn, if_neg Bool.false_ne_true]
        rfl
      rw [(changeLeader_spec w _ _).1.isMember, hnew]
      exact hmember
  · rw [if_neg hl] at hmem honline ⊢
    exact (Group.isMember_eraseSlot hwf).mpr ⟨hleader ▸ hled, hl⟩

theorem unlinkMember_spec (hw : w.Linked) (hg : w.groups g = some G) (guid : ObjectGuid) :
    (w.unlinkMember g G guid).Linked ∧ (w.unlinkMember g G guid).groups = w.groups ∧
      (∀ p ∈ (w.unlinkMember g G guid).players, p.guid = guid → ¬p.refs.Holds g) ∧
      (w.unlinkMember g G guid).group_member guid ≠ some g := by
  have hleft : PlayersWithin (w.relink guid (left g G)).players w.players :=
    relink_within (PlayerRefs.left_within g G)
  unfold unlinkMember
  dsimp only
  cases hbg : G.isBGOrBF with
  | true =>
    rw [if_pos rfl]
    refine ⟨hw.within rfl hleft fun _ _ h => h, rfl, ?_, ?_⟩
    · intro p' hp' hguid
      obtain ⟨p, hp, -, hrefs⟩ := mem_relink hp'
      rw [hrefs, if_pos hguid]
      apply PlayerRefs.not_holds_left_raid hbg
      intro ho
      obtain ⟨G', hg', hown⟩ := hw.original p hp g ho
      cases hg.symm.trans hg'
      rw [hbg] at hown
      cases hown
    · intro hrow
      obtain ⟨G', hg', hown⟩ := (hw.rows guid g hrow).2
      cases hg.symm.trans hg'
      rw [hbg] at hown
      cases hown
  | false =>
    rw [if_neg Bool.false_ne_true]
    have hself : Function.update w.group_member guid none guid = none := Function.update_self ..
    refine ⟨?_, rfl, ?_, ?_⟩
    · refine hw.within rfl ((relink_within fun r => r.delink_within g).trans hleft) ?_
      intro player g' h
      have h : Function.update w.group_member guid none player = some g' := h
      grind
    · intro p' hp' hguid
      obtain ⟨q, hq, hqguid, hrefs⟩ := mem_relink hp'
      have hq : q ∈ (w.relink guid (left g G)).players := hq
      obtain ⟨p, -, -, hqrefs⟩ := mem_relink hq
      rw [hrefs, if_pos hguid, hqrefs, if_pos (hqguid.trans hguid)]
      exact PlayerRefs.not_holds_delink_left hbg
    · intro h
      have h : Function.update w.group_member guid none guid = some g := h
      rw [hself] at h
      cases h

theorem Linked.withoutSlot (hw : w.Linked) (hg : w.groups g = some G) (hwf : G'.SlotsWF)
    (hkind : G'.isBGOrBF = G.isBGOrBF)
    (hmem : ∀ p, G.isMember p = true → p ≠ guid → G'.isMember p = true)
    (hheld : ∀ p ∈ w.players, p.guid = guid → ¬p.refs.Holds g)
    (hrow : w.group_member guid ≠ some g) : (w.setGroupObject g (some G')).Linked := by
  have hstays : ∀ {g' p}, w.HasSlot g' p → (g' = g → p ≠ guid) →
      (w.setGroupObject g (some G')).HasSlot g' p := by
    intro g' p h hne
    apply h.setGroupObject
    rintro rfl
    obtain ⟨G₀, hg₀, hm⟩ := h
    cases hg.symm.trans hg₀
    exact hmem p hm (hne rfl)
  have hown : ∀ {g'}, w.IsOwn g' → (w.setGroupObject g (some G')).IsOwn g' := by
    intro g' h
    apply h.setGroupObject
    intro G₀ hg₀
    cases hg.symm.trans hg₀
    exact hkind
  constructor
  case slots => exact slots_setGroupObject hw.slots hwf
  case held =>
    intro p hp g' h
    apply hstays (hw.held p hp g' h)
    rintro rfl hguid
    exact hheld p hp hguid h
  case original => exact fun p hp g' h => hown (hw.original p hp g' h)
  case rows =>
    intro p g' h
    refine ⟨hstays (hw.rows p g' h).1 ?_, hown (hw.rows p g' h).2⟩
    rintro rfl rfl
    exact hrow h

/-- **`RemoveMember`**, by whatever method and whoever it is called for. -/
theorem removeMember_wf (hw : w.WF) (hg : w.groups g = some G) (guid : ObjectGuid)
    (method : RemoveMethod) (dungeon : DungeonCheck) :
    (w.removeMember g G guid method dungeon).1.WF := by
  have hothers : ∀ g' G', g' ≠ g → w.groups g' = some G' → G'.isMember G'.m_leaderGuid = true :=
    fun g' G' _ h => hw.led g' G' h
  unfold removeMember
  dsimp only
  split
  · exact hw
  split
  · obtain ⟨hw₁, hgroups, hheld, hrow⟩ := unlinkMember_spec hw.toLinked hg guid
    generalize w.unlinkMember g G guid = w₁ at *
    have hwf := hw.slots g G hg
    have hg₁ : w₁.groups g = some G := (congrFun hgroups g).trans hg
    obtain ⟨hwf', hkind, hmem⟩ := w₁.withoutMember_spec hwf guid
    have hw₂ : (w₁.setGroupObject g (some (w₁.withoutMember G guid))).Linked :=
      hw₁.withoutSlot hg₁ hwf' hkind (fun p hp hne => (hmem p).mpr ⟨hp, hne⟩) hheld hrow
    have hg₂ : (w₁.setGroupObject g (some (w₁.withoutMember G guid))).groups g =
        some (w₁.withoutMember G guid) := Function.update_self ..
    have hled₂ : ∀ g' G', g' ≠ g →
        (w₁.setGroupObject g (some (w₁.withoutMember G guid))).groups g' = some G' →
          G'.isMember G'.m_leaderGuid = true := by
      intro g' G' hne h
      have h : w₁.groups g' = some G' := (Function.update_of_ne hne _ _).symm.trans h
      exact hothers g' G' hne ((congrFun hgroups g').symm.trans h)
    split
    · exact disband_wf hw₂ hled₂ hg₂
    split
    · exact disband_wf hw₂ hled₂ hg₂
    · next hsize =>
      -- a reference is left, so a member is online
      have hne : (w₁.setGroupObject g (some (w₁.withoutMember G guid))).memberMgrSize g ≠ 0 := by
        intro hzero
        apply hsize
        rw [hzero, Group.referencesNeeded]
        split
        · exact Nat.one_pos
        · exact Nat.two_pos
      obtain ⟨p, hp, hholds⟩ := exists_holds hne
      obtain ⟨G₀, hg₀, hslot⟩ := hw₂.held p hp g hholds
      cases hg₂.symm.trans hg₀
      have hlead := withoutMember_led hwf (hw.led g G hg) hp hslot
      refine ⟨hw₂, ?_⟩
      intro g' G' h
      by_cases hgg : g' = g
      · subst hgg
        cases hg₂.symm.trans h
        exact hlead
      · exact hled₂ g' G' hgg h
  · exact disband_wf hw.toLinked hothers hg

/-! ## The other operations -/

theorem convertToRaid_wf (hw : w.WF) (hg : w.groups g = some G) :
    (w.setGroupObject g (some G.convertToRaid)).WF := by
  apply hw.setGroupObject (hw.slots g G hg).convertToRaid
  · intro G₀ hg₀
    cases hg.symm.trans hg₀
    exact ⟨fun p hp => hp, rfl⟩
  · exact hw.led g G hg

theorem changeMembersGroup_wf (hw : w.WF) (hg : w.groups g = some G) {s : UInt8}
    (hs : s < MAX_RAID_SUBGROUPS) (hfree : G.hasFreeSlotSubGroup s = true) :
    (w.changeMembersGroup g G guid s).WF := by
  unfold changeMembersGroup
  split
  · exact hw
  · next hraid =>
    split
    · exact hw
    · next hmem =>
      split
      · exact hw
      · next hne =>
        rw [Bool.not_eq_true', Bool.not_eq_false] at hraid hmem
        obtain ⟨slot, hslot⟩ := Group.getMemberSlot_of_isMember hmem
        have hgroup : slot.group ≠ s := by
          rwa [Group.getMemberGroup, hslot] at hne
        have hw₁ : (w.setGroupObject g (some (G.moveSlot guid s))).WF := by
          apply hw.setGroupObject ((hw.slots g G hg).moveSlot hraid hslot hgroup hs hfree)
          · intro G₀ hg₀
            cases hg.symm.trans hg₀
            exact ⟨fun p hp => (Group.isMember_moveSlot hslot).trans hp, rfl⟩
          · rw [Group.isMember_moveSlot hslot]
            exact hw.led g G hg
        refine hw₁.within rfl (relink_within ?_) rfl
        intro r
        split
        · exact ⟨fun _ h => h, fun _ h => h⟩
        · exact ⟨fun _ h => h, fun _ h => h⟩

theorem handleGroupChangeSubGroup_wf (hw : w.WF) (sender : ObjectGuid)
    (named : Option ObjectGuid) (groupNr : UInt8) :
    (w.handleGroupChangeSubGroup sender named groupNr).WF := by
  unfold handleGroupChangeSubGroup
  split
  · exact hw
  split
  · exact hw
  · next G hg =>
    split
    · exact hw
    · next hs =>
      split
      · exact hw
      split
      · exact hw
      · next hfree =>
        rw [Bool.not_eq_true', Bool.not_eq_false] at hfree
        grind [changeMembersGroup_wf]

theorem loadGroup_spec (w : World) (guid : ObjectGuid) :
    (w.loadGroup guid).m_originalGroup.target = none ∧
      ∀ g, (w.loadGroup guid).m_group.target = some g → w.group_member guid = some g := by
  unfold loadGroup
  split
  · exact ⟨rfl, by rintro _ ⟨⟩⟩
  · next g₀ hrow =>
    split
    · exact ⟨rfl, by rintro _ ⟨⟩⟩
    · refine ⟨rfl, ?_⟩
      rintro g ⟨⟩
      exact hrow

theorem logIn_wf (hw : w.WF) (guid : ObjectGuid) : (w.logIn guid).WF := by
  unfold logIn
  split
  · next players hnew =>
    obtain ⟨ho, hm⟩ := loadGroup_spec w guid
    refine ⟨⟨hw.slots, ?_, ?_, hw.rows⟩, hw.led⟩
    · intro p hp g h
      rcases (Table.mem_tryEmplace hnew).mp hp with rfl | hp
      · rcases h with h | h
        · exact (hw.rows _ g (hm g h)).1
        · cases ho.symm.trans h
      · exact hw.held p hp g h
    · intro p hp g h
      rcases (Table.mem_tryEmplace hnew).mp hp with rfl | hp
      · cases ho.symm.trans h
      · exact hw.original p hp g h
  · exact hw

theorem rejoinRaid_wf (hw : w.WF) (hg : w.groups g = some G) (hraid : ¬w.InRaid player) :
    (w.rejoinRaid g G player).WF := by
  unfold rejoinRaid
  split
  · next h =>
    rw [Bool.and_eq_true] at h
    exact hw.relink fun p hp hguid => hw.setRaid ⟨G, hg, h.2⟩ hraid hp hguid
  · exact hw

theorem logOut_wf (hw : w.WF) (guid : ObjectGuid) : (w.logOut guid).WF :=
  hw.within rfl (fun p hp => ⟨p, (Table.mem_erase.mp hp).1, rfl, .refl _⟩) rfl

/-! ## Runs -/

/-- The operation is called as the server calls it: a player is added to a group it is not in
(`AddInvite` wants a player without a group, the raids ask `IsMember`), to a party that is not
full, and to the raid of a battleground or battlefield only when it has left any other. -/
def Called (w : World) : Operation → Prop
  | .create _ kind leader => kind.newGroup.isBGOrBF = true → ¬w.InRaid leader
  | .addMember g player => ∀ G, w.groups g = some G →
    ¬G.isMember player = true ∧ (G.isRaidGroup = true ∨ ¬G.isFull = true) ∧
      (G.isBGOrBF = true → ¬w.InRaid player)
  | .rejoinRaid _ player => ¬w.InRaid player
  | _ => True

theorem onGroup_wf {f : Group → World} (hw : w.WF)
    (hf : ∀ G, w.groups g = some G → (f G).WF) : (w.onGroup g f).WF := by
  unfold onGroup
  split
  · next G hg => exact hf G hg
  · exact hw

/-- **The step lemma.** -/
theorem exec_wf (hw : w.WF) {o : Operation} (hcalled : w.Called o) : (w.exec o).WF := by
  cases o with
  | create g kind leader =>
    rw [exec]
    split
    · next h => exact create_wf hw (Option.isNone_iff_eq_none.mp h.1) kind hcalled
    · exact hw
  | addMember g player =>
    rw [exec]
    split
    · refine onGroup_wf hw fun G hg => ?_
      obtain ⟨hnew, hroom, hraid⟩ := hcalled G hg
      refine addMember_wf hw (hw.slots g G hg) hnew hroom (Or.inr (hw.led g G hg)) ?_ hraid
      intro G₀ hg₀
      exact Option.some_inj.mp (hg₀.symm.trans hg)
    · exact hw
  | removeMember g guid method dungeon =>
    exact onGroup_wf hw fun G hg => removeMember_wf hw hg guid method dungeon
  | changeLeader g guid => exact onGroup_wf hw fun G hg => changeLeader_wf hw hg guid
  | convertToRaid g => exact onGroup_wf hw fun G hg => convertToRaid_wf hw hg
  | changeSubGroup sender named groupNr => exact handleGroupChangeSubGroup_wf hw sender named groupNr
  | setGroupMemberFlag g guid apply flag =>
    exact onGroup_wf hw fun G hg =>
      hw.sameButFlags hg (.setGroupMemberFlag G guid apply flag) (by
        have hled := hw.led g G hg
        have hl : (G.setGroupMemberFlag guid apply flag).m_leaderGuid = G.m_leaderGuid := by
          unfold Group.setGroupMemberFlag
          repeat' split
          all_goals rfl
        rwa [hl])
  | logIn player => exact logIn_wf hw player
  | rejoinRaid g player => exact onGroup_wf hw fun G hg => rejoinRaid_wf hw hg hcalled
  | logOut player => exact logOut_wf hw player

/-- A step of the world. -/
def Step (w : World) (o : Operation) (w' : World) : Prop := w.exec o = w'

theorem reaches_wf (h : Reaches Step Called {} w) : w.WF := by
  refine h.invariant WF.init ?_
  rintro w w' o hw hcalled rfl
  exact exec_wf hw hcalled

end World

/-! ## The roster -/

/-- The roster of a group: no player twice, counters that count, a party in one sub-group, a
leader that is a member. -/
structure Group.Roster (G : Group) : Prop where
  distinct : (G.m_memberSlots.map (·.guid)).Nodup
  counted : ∀ counts, G.m_subGroupsCounts = some counts → ∀ s < MAX_RAID_SUBGROUPS,
    (counts s).toNat = G.slotsIn s ∧ (counts s).toNat ≤ MAX_GROUP_SIZE
  party : G.isRaidGroup = false → ∀ m ∈ G.m_memberSlots, m.group = 0
  led : ∃ m ∈ G.m_memberSlots, m.guid = G.m_leaderGuid

/-- **The roster of every group**, in every state of every run. -/
theorem run_roster {w : World} (h : Reaches World.Step World.Called {} w) {g : GroupId} {G : Group}
    (hg : w.groups g = some G) : G.Roster := by
  have hw := World.reaches_wf h
  have hwf := hw.slots g G hg
  constructor
  case distinct => exact hwf.distinct
  case counted =>
    intro counts hc s hs
    obtain ⟨h₁, h₂⟩ := hwf.counted counts hc s hs
    exact ⟨h₁, h₁ ▸ h₂⟩
  case party => exact fun hr => (hwf.party hr).1
  case led => exact Group.isMember_iff.mp (hw.led g G hg)

/-! ## What `AddMember` does not check -/

/-- Operations one after another, whoever calls them. -/
def World.run (w : World) (ops : List Operation) : World := ops.foldl World.exec w

theorem World.run_reaches (w : World) (ops : List Operation) :
    Reaches World.Step (fun _ _ => True) w (w.run ops) := by
  induction ops using List.reverseRecOn with
  | nil => exact .refl w
  | append_singleton ops o ih =>
    have hrun : w.run (ops ++ [o]) = (w.run ops).exec o := List.foldl_append
    rw [hrun]
    exact ih.next trivial rfl

/-- A party of 7 and 8. -/
def party : List Operation := [.logIn 7, .logIn 8, .create 1 .normal 7, .addMember 1 8]

/-- 8 is added a second time. -/
def addedTwice : List Operation := party ++ [.addMember 1 8]

/-- Four more join the party, and it becomes a raid. -/
def sixInAParty : List Operation :=
  party ++ [.logIn 9, .addMember 1 9, .logIn 10, .addMember 1 10, .logIn 11, .addMember 1 11,
    .logIn 12, .addMember 1 12, .convertToRaid 1]

/-- 9 goes from one battleground's raid into another's; later the leader of the first leaves,
when of its members only 8, who is offline, is left. -/
def twoRaids : List Operation :=
  [.logIn 7, .create 1 .battleground 7, .logIn 8, .addMember 1 8, .logIn 9, .addMember 1 9,
    .create 2 .battleground 9, .logOut 8, .removeMember 1 9 .leave ⟨0, true, 0⟩,
    .removeMember 1 7 .leave ⟨0, true, 0⟩]

/-- Called without regard to who is a member, how many there are or what raid a player is in,
`AddMember` breaks each part of the roster. -/
theorem addMember_unchecked :
    (∃ w G, Reaches World.Step (fun _ _ => True) {} w ∧ w.groups 1 = some G ∧
      ¬(G.m_memberSlots.map (·.guid)).Nodup) ∧
    (∃ w G counts, Reaches World.Step (fun _ _ => True) {} w ∧ w.groups 1 = some G ∧
      G.m_subGroupsCounts = some counts ∧ MAX_GROUP_SIZE < (counts 0).toNat) ∧
    ∃ w G, Reaches World.Step (fun _ _ => True) {} w ∧ w.groups 1 = some G ∧
      ¬∃ m ∈ G.m_memberSlots, m.guid = G.m_leaderGuid := by
  refine ⟨?_, ?_, ?_⟩
  · have hslots : ((World.run {} addedTwice).groups 1).map (fun G => G.m_memberSlots.map (·.guid)) =
        some [7, 8, 8] := by decide
    obtain ⟨G, hg, hguids⟩ := Option.map_eq_some_iff.mp hslots
    refine ⟨_, G, World.run_reaches {} addedTwice, hg, ?_⟩
    rw [hguids]
    decide
  · have hcounts : (((World.run {} sixInAParty).groups 1).bind (·.m_subGroupsCounts)).map (· 0) =
        some 6 := by decide
    obtain ⟨counts, hc, hsix⟩ := Option.map_eq_some_iff.mp hcounts
    obtain ⟨G, hg, hc⟩ := Option.bind_eq_some_iff.mp hc
    refine ⟨_, G, counts, World.run_reaches {} sixInAParty, hg, hc, ?_⟩
    rw [hsix]
    decide
  · have hleft : ((World.run {} twoRaids).groups 1).map
        (fun G => (G.m_leaderGuid, G.m_memberSlots.map (·.guid))) = some (7, [8]) := by decide
    obtain ⟨G, hg, he⟩ := Option.map_eq_some_iff.mp hleft
    refine ⟨_, G, World.run_reaches {} twoRaids, hg, ?_⟩
    rintro ⟨m, hm, hguid⟩
    have hmem : m.guid ∈ G.m_memberSlots.map (·.guid) := List.mem_map.mpr ⟨m, hm, rfl⟩
    grind

/-- The party of 7 and 8 is a run as the server makes it. -/
theorem party_roster : ∃ G, (World.run {} party).groups 1 = some G ∧ G.Roster := by
  have hreach : Reaches World.Step World.Called {} (World.run {} party) := by
    refine Reaches.next (a := .addMember 1 8) (Reaches.next (a := .create 1 .normal 7)
      (Reaches.next (a := .logIn 8) (Reaches.next (a := .logIn 7) (.refl _) trivial rfl)
        trivial rfl) (by rintro ⟨⟩) rfl) ?_ rfl
    rintro G hg
    cases hg
    exact ⟨by decide, Or.inr (by decide), by rintro ⟨⟩⟩
  have hsome : ((World.run {} party).groups 1).isSome = true := by decide
  obtain ⟨G, hg⟩ := Option.isSome_iff_exists.mp hsome
  exact ⟨G, hg, run_roster hreach hg⟩

end EGServer.Groups
