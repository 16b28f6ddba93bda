import EGServer.Groups.Slots

/-!
# References and rows

The invariant that ties the world together: a reference of an online player to a group, and a
row of `group_member`, stand for a slot of that group. Leaving and disbanding only take
references away, which is all the proofs need to know of them.
-/

namespace EGServer.Groups

/-! ## Fewer references -/

namespace PlayerRefs

variable {r r' r'' : PlayerRefs} {g g' : GroupId}

/-- One of the two references is to group `g`. -/
def Holds (r : PlayerRefs) (g : GroupId) : Prop :=
  r.m_group.target = some g ∨ r.m_originalGroup.target = some g

/-- `r'` holds no reference that `r` does not hold. -/
structure Within (r' r : PlayerRefs) : Prop where
  holds : ∀ g, r'.Holds g → r.Holds g
  original : ∀ g, r'.m_originalGroup.target = some g → r.m_originalGroup.target = some g

theorem Within.refl (r : PlayerRefs) : r.Within r := ⟨fun _ h => h, fun _ h => h⟩

theorem Within.trans (h : r''.Within r') (h' : r'.Within r) : r''.Within r :=
  ⟨fun g hg => h'.holds g (h.holds g hg), fun g hg => h'.original g (h.original g hg)⟩

theorem setGroup_none_within (r : PlayerRefs) : (r.setGroup none).Within r := by
  constructor
  · rintro g (h | h)
    · cases h
    · exact Or.inr h
  · exact fun _ h => h

theorem setOriginalGroup_none_within (r : PlayerRefs) : (r.setOriginalGroup none).Within r := by
  constructor
  · rintro g (h | h)
    · exact Or.inl h
    · cases h
  · intro g h
    cases h

theorem removeFromRaid_within (r : PlayerRefs) :
    r.removeFromBattlegroundOrBattlefieldRaid.Within r := by
  unfold removeFromBattlegroundOrBattlefieldRaid
  constructor
  · rintro g (h | h)
    · cases ho : r.m_originalGroup.target with
      | none =>
        simp only [ho] at h
        cases h
      | some g' =>
        simp only [ho] at h
        exact Or.inr (ho.trans h)
    · cases h
  · intro g h
    cases h

theorem delink_within (r : PlayerRefs) (g : GroupId) : (r.delink g).Within r := by
  unfold delink
  split
  · exact setGroup_none_within r
  split
  · exact setOriginalGroup_none_within r
  · exact .refl r

theorem left_within (g : GroupId) (G : Group) (r : PlayerRefs) : (World.left g G r).Within r := by
  unfold World.left
  split
  · exact removeFromRaid_within r
  split
  · exact setOriginalGroup_none_within r
  · exact setGroup_none_within r

theorem target_invalidate {ref : GroupReference} :
    (ref.invalidate g).target = some g' ↔ ref.target = some g' ∧ g' ≠ g := by
  unfold GroupReference.invalidate
  split
  · next h =>
    constructor
    · intro hn
      cases hn
    · rintro ⟨h', hne⟩
      exact absurd (Option.some_inj.mp (h'.symm.trans h)) hne
  · grind

theorem invalidate_within (r : PlayerRefs) (g : GroupId) : (r.invalidate g).Within r := by
  constructor
  · rintro g' (h | h)
    · exact Or.inl (target_invalidate.mp h).1
    · exact Or.inr (target_invalidate.mp h).1
  · exact fun g' h => (target_invalidate.mp h).1

theorem not_holds_invalidate (r : PlayerRefs) (g : GroupId) : ¬(r.invalidate g).Holds g := by
  rintro (h | h)
  · exact (target_invalidate.mp h).2 rfl
  · exact (target_invalidate.mp h).2 rfl

theorem not_holds_left_raid {G : Group} (hG : G.isBGOrBF = true)
    (ho : r.m_originalGroup.target ≠ some g) : ¬(World.left g G r).Holds g := by
  rw [World.left, if_pos hG]
  unfold removeFromBattlegroundOrBattlefieldRaid
  rintro (h | h)
  · cases hr : r.m_originalGroup.target with
    | none =>
      simp only [hr] at h
      cases h
    | some g' =>
      simp only [hr] at h
      exact ho (hr.trans h)
  · cases h

/-- Of a player's own group `DelinkMember` takes what leaving has not. -/
theorem not_holds_delink_left {G : Group} (hG : G.isBGOrBF = false) :
    ¬((World.left g G r).delink g).Holds g := by
  rw [World.left, hG, if_neg Bool.false_ne_true]
  by_cases ho : r.m_originalGroup.target = some g
  · rw [if_pos ho]
    unfold delink
    split
    · rintro (h | h)
      · cases h
      · cases h
    · next hn =>
      rw [if_neg (by rintro ⟨⟩)]
      rintro (h | h)
      · exact hn h
      · cases h
  · rw [if_neg ho]
    have ho' : (r.setGroup none).m_originalGroup.target ≠ some g := ho
    unfold delink
    rw [if_neg (by rintro ⟨⟩), if_neg ho']
    rintro (h | h)
    · cases h
    · exact ho h

end PlayerRefs

/-! ## Players of a changed world -/

/-- Each player of `ps'` is one of `ps` that holds no more references. -/
def PlayersWithin (ps' ps : Table Player.guid) : Prop :=
  ∀ p' ∈ ps', ∃ p ∈ ps, p.guid = p'.guid ∧ p'.refs.Within p.refs

theorem PlayersWithin.refl (ps : Table Player.guid) : PlayersWithin ps ps :=
  fun p hp => ⟨p, hp, rfl, .refl _⟩

theorem PlayersWithin.trans {ps ps' ps'' : Table Player.guid} (h : PlayersWithin ps'' ps')
    (h' : PlayersWithin ps' ps) : PlayersWithin ps'' ps := by
  intro p'' hp''
  obtain ⟨p', hp', hg', hw'⟩ := h p'' hp''
  obtain ⟨p, hp, hg, hw⟩ := h' p' hp'
  exact ⟨p, hp, hg.trans hg', hw'.trans hw⟩

namespace World

variable {w w' : World} {g g' : GroupId} {G G' : Group} {guid player : ObjectGuid}
  {f : PlayerRefs → PlayerRefs} {p p' : Player}

theorem mem_relink (h : p' ∈ (w.relink guid f).players) :
    ∃ p ∈ w.players, p.guid = p'.guid ∧
      p'.refs = if p'.guid = guid then f p.refs else p.refs := by
  have hmem : ∃ p ∈ w.players, (if p.guid = guid then { p with refs := f p.refs } else p) = p' :=
    List.mem_map.mp h
  grind

theorem relink_within (hf : ∀ r, (f r).Within r) :
    PlayersWithin (w.relink guid f).players w.players := by
  intro p' hp'
  obtain ⟨p, hp, hg, hr⟩ := mem_relink hp'
  refine ⟨p, hp, hg, ?_⟩
  rw [hr]
  split
  · exact hf p.refs
  · exact .refl _

theorem isSome_findConnectedPlayer :
    (w.findConnectedPlayer guid).isSome = true ↔ ∃ p ∈ w.players, p.guid = guid := by
  rw [Option.isSome_iff_exists]
  constructor
  · rintro ⟨p, hp⟩
    exact ⟨p, (Table.get?_eq_some.mp hp).1, (Table.get?_eq_some.mp hp).2⟩
  · rintro ⟨p, hp, rfl⟩
    exact ⟨p, Table.get?_key hp⟩

theorem exists_holds (h : w.memberMgrSize g ≠ 0) : ∃ p ∈ w.players, p.refs.Holds g := by
  by_contra hn
  apply h
  rw [memberMgrSize, Nat.add_eq_zero_iff, List.countP_eq_zero, List.countP_eq_zero]
  constructor
  · intro p hp he
    exact hn ⟨p, hp, Or.inl (beq_iff_eq.mp he)⟩
  · intro p hp he
    exact hn ⟨p, hp, Or.inr (beq_iff_eq.mp he)⟩

/-! ## The invariant -/

/-- The player has a slot in group `g`. -/
def HasSlot (w : World) (g : GroupId) (player : ObjectGuid) : Prop :=
  ∃ G, w.groups g = some G ∧ G.isMember player = true

/-- Group `g` is a group of the players' own, no raid of a battleground or battlefield. -/
def IsOwn (w : World) (g : GroupId) : Prop := ∃ G, w.groups g = some G ∧ G.isBGOrBF = false

/-- The invariant, but for the leaders. -/
structure Linked (w : World) : Prop where
  slots : ∀ g G, w.groups g = some G → G.SlotsWF
  held : ∀ p ∈ w.players, ∀ g, p.refs.Holds g → w.HasSlot g p.guid
  original : ∀ p ∈ w.players, ∀ g, p.refs.m_originalGroup.target = some g → w.IsOwn g
  rows : ∀ player g, w.group_member player = some g → w.HasSlot g player ∧ w.IsOwn g

/-- Every leader has a slot. -/
def Led (w : World) : Prop :=
  ∀ g G, w.groups g = some G → G.isMember G.m_leaderGuid = true

/-- The slots, the references and the rows agree, and every leader is a member. -/
structure WF (w : World) : Prop extends Linked w where
  led : w.Led

theorem Linked.init : Linked {} where
  slots _ _ h := by cases h
  held p hp := absurd hp (Table.not_mem_empty p)
  original p hp := absurd hp (Table.not_mem_empty p)
  rows _ _ h := by cases h

theorem WF.init : WF {} where
  toLinked := .init
  led _ _ h := by cases h

/-! ### Replacing one group -/

theorem HasSlot.setGroupObject (h : w.HasSlot g' player)
    (hG : g' = g → G'.isMember player = true) : (w.setGroupObject g (some G')).HasSlot g' player := by
  by_cases hg : g' = g
  · subst hg
    exact ⟨G', Function.update_self .., hG rfl⟩
  · obtain ⟨G, hg', hm⟩ := h
    exact ⟨G, (Function.update_of_ne hg _ _).trans hg', hm⟩

theorem IsOwn.setGroupObject (h : w.IsOwn g')
    (hG : ∀ G, w.groups g = some G → G'.isBGOrBF = G.isBGOrBF) :
    (w.setGroupObject g (some G')).IsOwn g' := by
  obtain ⟨G, hg', hown⟩ := h
  by_cases hg : g' = g
  · subst hg
    exact ⟨G', Function.update_self .., (hG G hg').trans hown⟩
  · exact ⟨G, (Function.update_of_ne hg _ _).trans hg', hown⟩

theorem slots_setGroupObject (hw : ∀ g G, w.groups g = some G → G.SlotsWF) (hG : G'.SlotsWF) :
    ∀ h G, (w.setGroupObject g (some G')).groups h = some G → G.SlotsWF := by
  intro h G he
  by_cases hg : h = g
  · subst hg
    cases (Function.update_self ..).symm.trans he
    exact hG
  · exact hw h G ((Function.update_of_ne hg _ _).symm.trans he)

theorem Led.setGroupObject (hw : w.Led) (hG : G'.isMember G'.m_leaderGuid = true) :
    (w.setGroupObject g (some G')).Led := by
  intro h G he
  by_cases hg : h = g
  · subst hg
    cases (Function.update_self ..).symm.trans he
    exact hG
  · exact hw h G ((Function.update_of_ne hg _ _).symm.trans he)

theorem WF.setGroupObject (hw : w.WF) (hG : G'.SlotsWF)
    (hold : ∀ G, w.groups g = some G →
      (∀ p, G.isMember p = true → G'.isMember p = true) ∧ G'.isBGOrBF = G.isBGOrBF)
    (hled : G'.isMember G'.m_leaderGuid = true) : (w.setGroupObject g (some G')).WF := by
  have hslot : ∀ g' player, w.HasSlot g' player →
      (w.setGroupObject g (some G')).HasSlot g' player := by
    intro g' player h
    refine h.setGroupObject ?_
    rintro rfl
    obtain ⟨G₀, hg₀, hm⟩ := h
    exact (hold G₀ hg₀).1 player hm
  have hown : ∀ g', w.IsOwn g' → (w.setGroupObject g (some G')).IsOwn g' :=
    fun g' h => h.setGroupObject fun G₀ hg₀ => (hold G₀ hg₀).2
  exact {
    slots := slots_setGroupObject hw.slots hG
    held := fun p hp g' h => hslot g' _ (hw.held p hp g' h)
    original := fun p hp g' h => hown g' (hw.original p hp g' h)
    rows := fun player g' h => ⟨hslot g' _ (hw.rows player g' h).1, hown g' (hw.rows player g' h).2⟩
    led := hw.led.setGroupObject hled }

/-! ### Taking references away -/

theorem Linked.within (hw : w.Linked) (hgroups : w'.groups = w.groups)
    (hplayers : PlayersWithin w'.players w.players)
    (hrows : ∀ player g, w'.group_member player = some g → w.group_member player = some g) :
    w'.Linked := by
  have hslot : ∀ {g player}, w.HasSlot g player → w'.HasSlot g player := by
    intro g player h
    rwa [HasSlot, hgroups]
  have hown : ∀ {g}, w.IsOwn g → w'.IsOwn g := by
    intro g h
    rwa [IsOwn, hgroups]
  constructor
  case slots =>
    rw [hgroups]
    exact hw.slots
  case held =>
    intro p' hp' g h
    obtain ⟨p, hp, hguid, hwithin⟩ := hplayers p' hp'
    exact hslot (hguid ▸ hw.held p hp g (hwithin.holds g h))
  case original =>
    intro p' hp' g h
    obtain ⟨p, hp, -, hwithin⟩ := hplayers p' hp'
    exact hown (hw.original p hp g (hwithin.original g h))
  grind [rows]

theorem WF.within (hw : w.WF) (hgroups : w'.groups = w.groups)
    (hplayers : PlayersWithin w'.players w.players)
    (hrows : w'.group_member = w.group_member) : w'.WF where
  toLinked := hw.toLinked.within hgroups hplayers fun _ _ h => hrows ▸ h
  led g G h := hw.led g G (hgroups ▸ h)

theorem WF.relink (hw : w.WF) (hf : ∀ p ∈ w.players, p.guid = player →
    (∀ g, (f p.refs).Holds g → w.HasSlot g player) ∧
      ∀ g, (f p.refs).m_originalGroup.target = some g → w.IsOwn g) : (w.relink player f).WF := by
  refine ⟨⟨hw.slots, ?_, ?_, hw.rows⟩, hw.led⟩
  · intro p' hp' g h
    obtain ⟨p, hp, hguid, hrefs⟩ := mem_relink hp'
    rw [hrefs] at h
    split at h
    · next he => exact he ▸ (hf p hp (hguid.trans he)).1 g h
    · exact hguid ▸ hw.held p hp g h
  · intro p' hp' g h
    obtain ⟨p, hp, hguid, hrefs⟩ := mem_relink hp'
    rw [hrefs] at h
    split at h
    · next he => exact (hf p hp (hguid.trans he)).2 g h
    · exact hw.original p hp g h

/-! ### Disbanding -/

theorem foldl_relink (w : World) (hf : ∀ r, (f r).Within r) (l : List MemberSlot) :
    let w' := l.foldl (fun w m => w.relink m.guid f) w
    w'.groups = w.groups ∧ w'.group_member = w.group_member ∧
      PlayersWithin w'.players w.players := by
  induction l generalizing w with
  | nil => exact ⟨rfl, rfl, .refl _⟩
  | cons m l ih =>
    obtain ⟨h₁, h₂, h₃⟩ := ih (w.relink m.guid f)
    exact ⟨h₁, h₂, h₃.trans (relink_within hf)⟩

theorem mem_disband (hp' : p' ∈ (w.disband g G).players) :
    ∃ p ∈ w.players, p.guid = p'.guid ∧ p'.refs.Within p.refs ∧ ¬p'.refs.Holds g := by
  have hmem : ∃ q ∈ (G.m_memberSlots.foldl (fun w m => w.relink m.guid (left g G)) w).players,
      { q with refs := q.refs.invalidate g } = p' := List.mem_map.mp hp'
  obtain ⟨q, hq, rfl⟩ := hmem
  obtain ⟨-, -, hwithin⟩ := foldl_relink w (f := left g G) (PlayerRefs.left_within g G)
    G.m_memberSlots
  obtain ⟨p, hp, hguid, hpq⟩ := hwithin q hq
  exact ⟨p, hp, hguid, (q.refs.invalidate_within g).trans hpq, q.refs.not_holds_invalidate g⟩

theorem group_member_disband (hw : w.Linked) (hg : w.groups g = some G)
    (h : (w.disband g G).group_member player = some g') :
    w.group_member player = some g' ∧ g' ≠ g := by
  obtain ⟨-, hrows, -⟩ := foldl_relink w (f := left g G) (PlayerRefs.left_within g G)
    G.m_memberSlots
  have he : (if !G.isBGOrBF && (G.m_memberSlots.foldl (fun w m => w.relink m.guid (left g G))
      w).group_member player == some g then none else (G.m_memberSlots.foldl
        (fun w m => w.relink m.guid (left g G)) w).group_member player) = some g' := h
  rw [hrows] at he
  split at he
  · cases he
  · next hcond =>
    refine ⟨he, ?_⟩
    rintro rfl
    obtain ⟨G', hg', hown⟩ := (hw.rows player g' he).2
    cases hg.symm.trans hg'
    apply hcond
    rw [hown, he]
    exact beq_self_eq_true _

theorem disband_wf (hw : w.Linked) (hled : ∀ g' G, g' ≠ g → w.groups g' = some G →
    G.isMember G.m_leaderGuid = true) (hg : w.groups g = some G) : (w.disband g G).WF := by
  have hgroups : ∀ g', g' ≠ g → (w.disband g G).groups g' = w.groups g' := by
    intro g' hne
    obtain ⟨he, -, -⟩ := foldl_relink w (f := left g G) (PlayerRefs.left_within g G)
      G.m_memberSlots
    exact (Function.update_of_ne hne _ _).trans (congrFun he g')
  have hnone : (w.disband g G).groups g = none := Function.update_self ..
  have hof : ∀ {g' G'}, (w.disband g G).groups g' = some G' → g' ≠ g ∧ w.groups g' = some G' := by
    grind
  have hslot : ∀ {g' player}, g' ≠ g → w.HasSlot g' player →
      (w.disband g G).HasSlot g' player := by
    rintro g' player hne ⟨G', hg', hm⟩
    exact ⟨G', (hgroups g' hne).trans hg', hm⟩
  have hown : ∀ {g'}, g' ≠ g → w.IsOwn g' → (w.disband g G).IsOwn g' := by
    rintro g' hne ⟨G', hg', hm⟩
    exact ⟨G', (hgroups g' hne).trans hg', hm⟩
  refine ⟨⟨fun g' G' h => hw.slots g' G' (hof h).2, ?_, ?_, ?_⟩,
    fun g' G' h => hled g' G' (hof h).1 (hof h).2⟩
  · intro p' hp' g' h
    obtain ⟨p, hp, hguid, hwithin, hnot⟩ := mem_disband hp'
    have hne : g' ≠ g := by
      rintro rfl
      exact hnot h
    exact hslot hne (hguid ▸ hw.held p hp g' (hwithin.holds g' h))
  · intro p' hp' g' h
    obtain ⟨p, hp, -, hwithin, hnot⟩ := mem_disband hp'
    have hne : g' ≠ g := by
      rintro rfl
      exact hnot (Or.inr h)
    exact hown hne (hw.original p hp g' (hwithin.original g' h))
  · intro player g' h
    obtain ⟨h', hne⟩ := group_member_disband hw hg h
    exact ⟨hslot hne (hw.rows player g' h').1, hown hne (hw.rows player g' h').2⟩

end World

end EGServer.Groups
