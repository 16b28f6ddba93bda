import EGServer.Groups.Group

/-!
# Slots and counters

The slot list of a group and the counters of its sub-groups, kept in step by each of the
functions that change either. `_getMemberWSlot` finds a slot by splitting the list around the
first one with the guid; what an operation does there is stated about the two parts.
-/

namespace EGServer.Groups

/-- One slot, counted in its own sub-group. -/
def MemberSlot.isIn (m : MemberSlot) (s : UInt8) : Nat := if m.group = s then 1 else 0

namespace Group

variable {G G' : Group} {guid : ObjectGuid} {slot m : MemberSlot} {as bs : List MemberSlot}
  {s subGroup : UInt8}

/-! ## Finding a slot -/

theorem mem_of_getMemberSlot (h : G.getMemberSlot guid = some slot) :
    slot ∈ G.m_memberSlots ∧ slot.guid = guid :=
  ⟨List.mem_of_find?_eq_some h, by simpa using List.find?_some h⟩

theorem isMember_iff : G.isMember guid = true ↔ ∃ m ∈ G.m_memberSlots, m.guid = guid := by
  rw [isMember, getMemberSlot, List.find?_isSome]
  simp only [decide_eq_true_eq]

theorem getMemberSlot_of_isMember (h : G.isMember guid = true) :
    ∃ slot, G.getMemberSlot guid = some slot :=
  Option.isSome_iff_exists.mp h

theorem not_isMember (h : ¬G.isMember guid = true) : G.getMemberSlot guid = none := by
  rwa [isMember, Bool.not_eq_true, Option.isSome_eq_false_iff, Option.isNone_iff_eq_none] at h

theorem split_of_getMemberSlot (h : G.getMemberSlot guid = some slot) :
    ∃ as bs, G.m_memberSlots = as ++ slot :: bs ∧ slot.guid = guid ∧ ∀ m ∈ as, m.guid ≠ guid := by
  obtain ⟨hguid, as, bs, heq, has⟩ := List.find?_eq_some_iff_append.mp h
  refine ⟨as, bs, heq, of_decide_eq_true hguid, ?_⟩
  intro m hm
  simpa using has m hm

theorem eraseP_split (heq : G.m_memberSlots = as ++ slot :: bs) (hguid : slot.guid = guid)
    (has : ∀ m ∈ as, m.guid ≠ guid) :
    (G.m_memberSlots.eraseP fun m => decide (m.guid = guid)) = as ++ bs := by
  grind

theorem modify_findIdx_split {f : MemberSlot → MemberSlot} (hguid : slot.guid = guid)
    (has : ∀ m ∈ as, m.guid ≠ guid) :
    (as ++ slot :: bs).modify ((as ++ slot :: bs).findIdx fun m => decide (m.guid = guid)) f =
      as ++ f slot :: bs := by
  induction as with
  | nil =>
    rw [List.nil_append, List.findIdx_cons, decide_eq_true hguid]
    rfl
  | cons a as ih =>
    grind

theorem modifySlot_split {f : MemberSlot → MemberSlot} (heq : G.m_memberSlots = as ++ slot :: bs)
    (hguid : slot.guid = guid) (has : ∀ m ∈ as, m.guid ≠ guid) :
    (G.modifySlot guid f).m_memberSlots = as ++ f slot :: bs := by
  rw [modifySlot, heq]
  exact modify_findIdx_split hguid has

theorem modifySlot_of_not_isMember {f : MemberSlot → MemberSlot} (h : ¬G.isMember guid = true) :
    G.modifySlot guid f = G := by
  have hidx : (G.m_memberSlots.findIdx fun m => decide (m.guid = guid)) = G.m_memberSlots.length := by
    apply List.findIdx_eq_length_of_false
    intro m hm
    exact decide_eq_false fun hg => h (isMember_iff.mpr ⟨m, hm, hg⟩)
  rw [modifySlot, hidx, List.modify_eq_self (Nat.le_refl _)]

/-! ## The slots of a sub-group -/

/-- How many member slots are in a sub-group. -/
def slotsIn (G : Group) (s : UInt8) : Nat := G.m_memberSlots.countP fun m => decide (m.group = s)

theorem countP_cons_group (l : List MemberSlot) :
    ((m :: l).countP fun m => decide (m.group = s)) =
      (l.countP fun m => decide (m.group = s)) + MemberSlot.isIn m s := by
  rw [List.countP_cons, MemberSlot.isIn]
  simp only [decide_eq_true_eq]

theorem slotsIn_split (heq : G.m_memberSlots = as ++ slot :: bs) :
    G.slotsIn s = ((as ++ bs).countP fun m => decide (m.group = s)) + MemberSlot.isIn slot s := by
  rw [slotsIn, heq, List.countP_append, countP_cons_group, List.countP_append, Nat.add_assoc]

theorem slotsIn_le (G : Group) (s : UInt8) : G.slotsIn s ≤ G.m_memberSlots.length :=
  List.countP_le_length

theorem foldl_counts (l : List MemberSlot) (counts : UInt8 → UInt8) (s : UInt8) :
    l.foldl (fun counts m => Function.update counts m.group (counts m.group + 1)) counts s =
      counts s + UInt8.ofNat (l.countP fun m => decide (m.group = s)) := by
  induction l generalizing counts with
  | nil => exact (UInt8.add_zero _).symm
  | cons m l ih =>
    rw [List.foldl_cons, ih, countP_cons_group, MemberSlot.isIn]
    by_cases h : m.group = s
    · subst h
      rw [Function.update_self, if_pos rfl, UInt8.ofNat_add, UInt8.add_comm (UInt8.ofNat _),
        ← UInt8.add_assoc]
      rfl
    · rw [Function.update_of_ne (Ne.symm h), if_neg h, Nat.add_zero]

/-! ## Well-formed slots -/

/-- What the slots, the counters and the type of a group have to do with each other. -/
structure SlotsWF (G : Group) : Prop where
  distinct : (G.m_memberSlots.map (·.guid)).Nodup
  raid : G.isRaidGroup = G.m_subGroupsCounts.isSome
  counted : ∀ counts, G.m_subGroupsCounts = some counts → ∀ s < MAX_RAID_SUBGROUPS,
    (counts s).toNat = G.slotsIn s ∧ G.slotsIn s ≤ MAX_GROUP_SIZE
  inside : ∀ m ∈ G.m_memberSlots, m.group < MAX_RAID_SUBGROUPS
  party : G.isRaidGroup = false →
    (∀ m ∈ G.m_memberSlots, m.group = 0) ∧ G.m_memberSlots.length ≤ MAX_GROUP_SIZE

namespace SlotsWF

theorem toNat_add_one {c : UInt8} {n : Nat} (hc : c.toNat = n) (hn : n < MAX_GROUP_SIZE) :
    (c + 1).toNat = n + 1 := by
  unfold MAX_GROUP_SIZE at hn
  rw [UInt8.toNat_add, hc]
  show (n + 1) % 2 ^ 8 = n + 1
  omega

theorem toNat_sub_one {c : UInt8} {n : Nat} (hc : c.toNat = n + 1) : (c - 1).toNat = n := by
  grind [UInt8.toNat_sub_of_le, UInt8.le_iff_toNat_le]

/-! ### Adding -/

theorem firstFree_lt (hwf : G.SlotsWF) (h : G.firstFreeSubGroup = some subGroup) :
    subGroup < MAX_RAID_SUBGROUPS ∧ (G.isRaidGroup = false → subGroup = 0) ∧
      ∀ counts, G.m_subGroupsCounts = some counts → G.slotsIn subGroup < MAX_GROUP_SIZE := by
  unfold firstFreeSubGroup at h
  split at h
  · next hnone =>
    cases h
    refine ⟨by decide, fun _ => rfl, ?_⟩
    intro counts hc
    rw [hnone] at hc
    cases hc
  · next counts hsome =>
    have hmem := List.mem_of_find?_eq_some h
    have hlt : subGroup < MAX_RAID_SUBGROUPS := by
      have hall : ([0, 1, 2, 3, 4, 5, 6, 7] : List UInt8).all
          (fun s => decide (s < MAX_RAID_SUBGROUPS)) = true := by decide
      exact of_decide_eq_true (List.all_eq_true.mp hall subGroup hmem)
    have hfree : (counts subGroup).toNat < MAX_GROUP_SIZE := by
      simpa using List.find?_some h
    refine ⟨hlt, ?_, ?_⟩
    · intro hr
      rw [hwf.raid, hsome] at hr
      cases hr
    · intro counts' hc
      cases hsome.symm.trans hc
      rw [← (hwf.counted counts hsome subGroup hlt).1]
      exact hfree

theorem addSlot (hwf : G.SlotsWF) (hnew : ¬G.isMember guid = true)
    (hfree : G.firstFreeSubGroup = some subGroup)
    (hroom : G.isRaidGroup = true ∨ ¬G.isFull = true) : (G.addSlot guid subGroup).SlotsWF := by
  obtain ⟨hlt, hzero, hcount⟩ := hwf.firstFree_lt hfree
  have hslots : (G.addSlot guid subGroup).m_memberSlots =
      G.m_memberSlots ++ [{ guid, group := subGroup }] := rfl
  have hin : ∀ s, (G.addSlot guid subGroup).slotsIn s =
      G.slotsIn s + MemberSlot.isIn { guid, group := subGroup } s := by
    intro s
    rw [slotsIn_split hslots, List.append_nil]
    rfl
  constructor
  case distinct =>
    rw [hslots, List.map_append, List.nodup_append]
    refine ⟨hwf.distinct, List.nodup_singleton _, ?_⟩
    intro a ha b hb he
    obtain ⟨m, hm, rfl⟩ := List.mem_map.mp ha
    rw [List.mem_map] at hb
    obtain ⟨m', hm', rfl⟩ := hb
    rw [List.mem_singleton] at hm'
    subst hm'
    exact hnew (isMember_iff.mpr ⟨m, hm, he⟩)
  case raid =>
    show G.isRaidGroup = (Option.map _ _).isSome
    rw [hwf.raid, Option.isSome_map]
  case counted =>
    intro counts hc s hs
    obtain ⟨old, hold, rfl⟩ := Option.map_eq_some_iff.mp hc
    obtain ⟨h₁, h₂⟩ := hwf.counted old hold s hs
    have hroom := hcount old hold
    rw [hin, MemberSlot.isIn]
    by_cases he : subGroup = s
    · subst he
      rw [Function.update_self, if_pos rfl]
      exact ⟨toNat_add_one h₁ hroom, hroom⟩
    · rw [Function.update_of_ne (Ne.symm he), if_neg he]
      exact ⟨h₁, h₂⟩
  case inside =>
    intro m hm
    rw [hslots, List.mem_append, List.mem_singleton] at hm
    rcases hm with hm | rfl
    · exact hwf.inside m hm
    · exact hlt
  case party =>
    intro hr
    have hr : G.isRaidGroup = false := hr
    obtain ⟨hall, hlen⟩ := hwf.party hr
    constructor
    · grind
    · rw [hslots, List.length_append, List.length_singleton]
      rcases hroom with hraid | hfull
      · rw [hr] at hraid
        cases hraid
      · rw [isFull, hr, if_neg Bool.false_ne_true, decide_eq_true_eq, getMembersCount] at hfull
        omega

/-! ### Erasing -/

theorem eraseSlot_eq (h : ¬G.isMember guid = true) : G.eraseSlot guid = G := by
  rw [Group.eraseSlot, not_isMember h]

theorem eraseSlot (hwf : G.SlotsWF) (guid : ObjectGuid) : (G.eraseSlot guid).SlotsWF := by
  by_cases hmem : G.isMember guid = true
  · obtain ⟨slot, hslot⟩ := getMemberSlot_of_isMember hmem
    obtain ⟨as, bs, heq, hguid, has⟩ := split_of_getMemberSlot hslot
    have herase : G.eraseSlot guid =
        { G.subGroupCounterDecrease slot.group with m_memberSlots := as ++ bs } := by
      rw [Group.eraseSlot, hslot, ← eraseP_split heq hguid has]
    have hsub : (as ++ bs).Sublist G.m_memberSlots := by
      rw [heq]
      exact List.Sublist.append_left (List.sublist_cons_self _ _) _
    rw [herase]
    constructor
    case distinct => exact hwf.distinct.sublist (hsub.map _)
    case raid =>
      show G.isRaidGroup = (Option.map _ _).isSome
      rw [hwf.raid, Option.isSome_map]
    case counted =>
      intro counts hc s hs
      obtain ⟨old, hold, rfl⟩ := Option.map_eq_some_iff.mp hc
      obtain ⟨h₁, h₂⟩ := hwf.counted old hold s hs
      rw [slotsIn_split heq, MemberSlot.isIn] at h₁ h₂
      show _ = (as ++ bs).countP _ ∧ (as ++ bs).countP _ ≤ _
      by_cases he : slot.group = s
      · subst he
        rw [if_pos rfl] at h₁ h₂
        rw [Function.update_self]
        exact ⟨toNat_sub_one h₁, by omega⟩
      · rw [if_neg he] at h₁ h₂
        rw [Function.update_of_ne (Ne.symm he)]
        exact ⟨h₁, h₂⟩
    case inside => exact fun m hm => hwf.inside m (hsub.subset hm)
    case party =>
      intro hr
      obtain ⟨hall, hlen⟩ := hwf.party hr
      exact ⟨fun m hm => hall m (hsub.subset hm), hsub.length_le.trans hlen⟩
  · rw [eraseSlot_eq hmem]
    exact hwf

end SlotsWF

theorem isMember_eraseSlot (hwf : G.SlotsWF) {p : ObjectGuid} :
    (G.eraseSlot guid).isMember p = true ↔ G.isMember p = true ∧ p ≠ guid := by
  by_cases hmem : G.isMember guid = true
  · obtain ⟨slot, hslot⟩ := getMemberSlot_of_isMember hmem
    obtain ⟨as, bs, heq, hguid, has⟩ := split_of_getMemberSlot hslot
    have herase : (G.eraseSlot guid).m_memberSlots = as ++ bs := by
      rw [Group.eraseSlot, hslot]
      exact eraseP_split heq hguid has
    have hbs : ∀ m ∈ bs, m.guid ≠ guid := by
      have hd := hwf.distinct
      grind
    rw [isMember_iff, isMember_iff, herase, heq]
    grind
  · rw [SlotsWF.eraseSlot_eq hmem]
    grind

/-! ### Counting afresh -/

theorem initRaid_counts (G : Group) :
    G.initRaidSubGroupsCounter.m_subGroupsCounts = some fun s => UInt8.ofNat (G.slotsIn s) := by
  rw [initRaidSubGroupsCounter]
  apply congrArg some
  funext s
  rw [foldl_counts, UInt8.zero_add]
  rfl

theorem SlotsWF.convertToRaid (hwf : G.SlotsWF) : G.convertToRaid.SlotsWF := by
  have hraid : G.convertToRaid.isRaidGroup = true := by
    show (G.m_groupType ||| GROUPTYPE_RAID) &&& GROUPTYPE_RAID != 0
    have h : (G.m_groupType ||| GROUPTYPE_RAID) &&& GROUPTYPE_RAID = GROUPTYPE_RAID := by
      rw [UInt8.and_comm, UInt8.or_comm]
      apply UInt8.eq_of_toBitVec_eq
      ext i hi
      simp
      tauto
    rw [h]
    decide
  constructor
  case distinct => exact hwf.distinct
  case raid =>
    rw [hraid]
    rfl
  case counted =>
    intro counts hc s hs
    have hle : G.slotsIn s ≤ MAX_GROUP_SIZE := by
      cases hold : G.m_subGroupsCounts with
      | some old => exact (hwf.counted old hold s hs).2
      | none =>
        have hparty : G.isRaidGroup = false := by rw [hwf.raid, hold, Option.isSome_none]
        exact (slotsIn_le G s).trans (hwf.party hparty).2
    have heq : counts = fun s => UInt8.ofNat (G.slotsIn s) :=
      Option.some_inj.mp (hc.symm.trans (initRaid_counts _))
    rw [heq]
    refine ⟨?_, hle⟩
    show (UInt8.ofNat (G.slotsIn s)).toNat = G.slotsIn s
    rw [UInt8.toNat_ofNat', Nat.mod_eq_of_lt]
    unfold MAX_GROUP_SIZE at hle
    omega
  case inside => exact hwf.inside
  case party =>
    intro hr
    rw [hraid] at hr
    cases hr

/-! ### Moving -/

theorem moveSlot_split (hslot : G.getMemberSlot guid = some slot) :
    ∃ as bs, G.m_memberSlots = as ++ slot :: bs ∧
      (G.moveSlot guid s).m_memberSlots = as ++ { slot with group := s } :: bs := by
  obtain ⟨as, bs, heq, hguid, has⟩ := split_of_getMemberSlot hslot
  exact ⟨as, bs, heq, modifySlot_split heq hguid has⟩

theorem SlotsWF.moveSlot (hwf : G.SlotsWF) (hr : G.isRaidGroup = true)
    (hslot : G.getMemberSlot guid = some slot) (hne : slot.group ≠ s)
    (hs : s < MAX_RAID_SUBGROUPS) (hfree : G.hasFreeSlotSubGroup s = true) :
    (G.moveSlot guid s).SlotsWF := by
  obtain ⟨as, bs, heq, heq'⟩ := moveSlot_split (s := s) hslot
  have hgroup : G.getMemberGroup guid = slot.group := by rw [getMemberGroup, hslot]
  constructor
  case distinct =>
    have hmap : (G.moveSlot guid s).m_memberSlots.map (·.guid) =
        G.m_memberSlots.map (·.guid) := by
      rw [heq, heq', List.map_append, List.map_append]
      rfl
    rw [hmap]
    exact hwf.distinct
  case raid =>
    show G.isRaidGroup = (Option.map _ (Option.map _ _)).isSome
    rw [hwf.raid, Option.isSome_map, Option.isSome_map]
    rfl
  case counted =>
    intro counts hc t ht
    obtain ⟨mid, hmid, rfl⟩ := Option.map_eq_some_iff.mp hc
    obtain ⟨old, hold, rfl⟩ := Option.map_eq_some_iff.mp hmid
    have hold : G.m_subGroupsCounts = some old := hold
    have hfree : (old s).toNat < MAX_GROUP_SIZE := by
      rw [hasFreeSlotSubGroup, hold] at hfree
      exact of_decide_eq_true hfree
    obtain ⟨h₁, h₂⟩ := hwf.counted old hold t ht
    rw [(hwf.counted old hold s hs).1] at hfree
    rw [slotsIn_split heq, MemberSlot.isIn] at h₁ h₂ hfree
    rw [slotsIn_split heq', MemberSlot.isIn, hgroup]
    rw [if_neg hne] at hfree
    by_cases hts : s = t
    · -- the sub-group it moves to
      subst hts
      rw [if_neg hne] at h₁
      rw [Function.update_of_ne (Ne.symm hne), Function.update_self, if_pos rfl]
      exact ⟨toNat_add_one h₁ hfree, hfree⟩
    · rw [if_neg hts]
      by_cases htg : slot.group = t
      · -- the sub-group it leaves
        subst htg
        rw [if_pos rfl] at h₁ h₂
        rw [Function.update_self, Function.update_of_ne hne]
        exact ⟨toNat_sub_one h₁, by omega⟩
      · grind
  case inside =>
    intro m hm
    rw [heq'] at hm
    rcases List.mem_append.mp hm with hm | hm
    · exact hwf.inside m (heq ▸ List.mem_append_left _ hm)
    · rcases List.mem_cons.mp hm with rfl | hm
      · exact hs
      · exact hwf.inside m (heq ▸ List.mem_append_right _ (List.mem_cons_of_mem _ hm))
  case party =>
    intro hr'
    have hr' : G.isRaidGroup = false := hr'
    rw [hr] at hr'
    cases hr'

theorem isMember_moveSlot (hslot : G.getMemberSlot guid = some slot) {p : ObjectGuid} :
    (G.moveSlot guid s).isMember p = G.isMember p := by
  obtain ⟨as, bs, heq, heq'⟩ := moveSlot_split (s := s) hslot
  apply Bool.eq_iff_iff.mpr
  rw [isMember_iff, isMember_iff, heq, heq']
  simp only [List.mem_append, List.mem_cons, or_and_right, exists_or, exists_eq_left]

/-! ## Flags -/

/-- Nothing but flags of slots differs. -/
structure SameButFlags (G G' : Group) : Prop where
  slots : G'.m_memberSlots.map (fun m => (m.guid, m.group)) =
    G.m_memberSlots.map fun m => (m.guid, m.group)
  counts : G'.m_subGroupsCounts = G.m_subGroupsCounts
  type : G'.m_groupType = G.m_groupType
  bg : G'.m_bgGroup = G.m_bgGroup
  bf : G'.m_bfGroup = G.m_bfGroup

namespace SameButFlags

theorem refl (G : Group) : SameButFlags G G := ⟨rfl, rfl, rfl, rfl, rfl⟩

theorem trans {G'' : Group} (h : SameButFlags G G') (h' : SameButFlags G' G'') :
    SameButFlags G G'' where
  slots := h'.slots.trans h.slots
  counts := h'.counts.trans h.counts
  type := h'.type.trans h.type
  bg := h'.bg.trans h.bg
  bf := h'.bf.trans h.bf

theorem mem (h : SameButFlags G G') {m : MemberSlot} (hm : m ∈ G'.m_memberSlots) :
    ∃ m' ∈ G.m_memberSlots, m'.guid = m.guid ∧ m'.group = m.group := by
  have hmem : (m.guid, m.group) ∈ G.m_memberSlots.map fun m => (m.guid, m.group) :=
    h.slots ▸ List.mem_map.mpr ⟨m, hm, rfl⟩
  grind

theorem symm (h : SameButFlags G G') : SameButFlags G' G :=
  ⟨h.slots.symm, h.counts.symm, h.type.symm, h.bg.symm, h.bf.symm⟩

theorem isRaidGroup (h : SameButFlags G G') : G'.isRaidGroup = G.isRaidGroup := by
  rw [Group.isRaidGroup, Group.isRaidGroup, h.type]

theorem isBGOrBF (h : SameButFlags G G') : G'.isBGOrBF = G.isBGOrBF := by
  rw [Group.isBGOrBF, Group.isBGOrBF, isBGGroup, isBGGroup, isBFGroup, isBFGroup, h.bg, h.bf]

theorem isMember (h : SameButFlags G G') (p : ObjectGuid) : G'.isMember p = G.isMember p := by
  apply Bool.eq_iff_iff.mpr
  rw [isMember_iff, isMember_iff]
  constructor
  · rintro ⟨m, hm, rfl⟩
    obtain ⟨m', hm', hg, -⟩ := h.mem hm
    exact ⟨m', hm', hg⟩
  · rintro ⟨m, hm, rfl⟩
    obtain ⟨m', hm', hg, -⟩ := h.symm.mem hm
    exact ⟨m', hm', hg⟩

theorem slotsIn (h : SameButFlags G G') (s : UInt8) : G'.slotsIn s = G.slotsIn s := by
  have hcount : ∀ G : Group, G.slotsIn s =
      (G.m_memberSlots.map fun m => (m.guid, m.group)).countP fun x => decide (x.2 = s) := by
    intro G
    rw [List.countP_map]
    rfl
  rw [hcount, hcount, h.slots]

theorem slotsWF (h : SameButFlags G G') (hwf : G.SlotsWF) : G'.SlotsWF := by
  have hguids : ∀ G : Group, G.m_memberSlots.map (·.guid) =
      (G.m_memberSlots.map fun m => (m.guid, m.group)).map Prod.fst := by
    intro G
    rw [List.map_map]
    rfl
  constructor
  case distinct =>
    rw [hguids, h.slots, ← hguids]
    exact hwf.distinct
  case raid => rw [h.isRaidGroup, h.counts, hwf.raid]
  case counted =>
    intro counts hc s hs
    rw [h.counts] at hc
    rw [h.slotsIn]
    exact hwf.counted counts hc s hs
  case inside =>
    intro m hm
    obtain ⟨m', hm', -, hg⟩ := h.mem hm
    exact hg ▸ hwf.inside m' hm'
  case party =>
    intro hr
    rw [h.isRaidGroup] at hr
    obtain ⟨hall, hlen⟩ := hwf.party hr
    constructor
    · intro m hm
      obtain ⟨m', hm', -, hg⟩ := h.mem hm
      exact hg ▸ hall m' hm'
    · have hl := congrArg List.length h.slots
      rw [List.length_map, List.length_map] at hl
      exact hl ▸ hlen

theorem modifySlot {f : MemberSlot → MemberSlot}
    (hf : ∀ m, (f m).guid = m.guid ∧ (f m).group = m.group) :
    SameButFlags G (G.modifySlot guid f) := by
  refine ⟨?_, rfl, rfl, rfl, rfl⟩
  by_cases hmem : G.isMember guid = true
  · grind [modifySlot_split, split_of_getMemberSlot, getMemberSlot_of_isMember]
  · rw [modifySlot_of_not_isMember hmem]

theorem toggleGroupMemberFlag (G : Group) (guid : ObjectGuid) (flag : UInt8) (apply : Bool) :
    SameButFlags G (G.toggleGroupMemberFlag guid flag apply) :=
  modifySlot fun _ => ⟨rfl, rfl⟩

theorem removeUniqueGroupMemberFlag (G : Group) (flag : UInt8) :
    SameButFlags G (G.removeUniqueGroupMemberFlag flag) := by
  refine ⟨?_, rfl, rfl, rfl, rfl⟩
  rw [Group.removeUniqueGroupMemberFlag, List.map_map]
  apply List.map_congr_left
  intro m _
  rw [Function.comp_apply]
  split
  · rfl
  · rfl

theorem setGroupMemberFlag (G : Group) (guid : ObjectGuid) (apply : Bool) (flag : UInt8) :
    SameButFlags G (G.setGroupMemberFlag guid apply flag) := by
  unfold Group.setGroupMemberFlag
  split
  · exact refl G
  split
  · exact refl G
  split
  · exact (removeUniqueGroupMemberFlag G flag).trans (toggleGroupMemberFlag _ guid flag apply)
  split
  · exact toggleGroupMemberFlag G guid flag apply
  · exact refl G

end SameButFlags

end Group

end EGServer.Groups
