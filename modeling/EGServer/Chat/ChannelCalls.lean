import EGServer.Chat.Ownership

/-!
# Calls to a channel

Each operation on a well-owned channel: what it does when it goes through (`Admits`, `Kicks`,
`Appoints`), and that the channel is well-owned after it if and only if the call was `Sound`.
-/

namespace EGServer.Chat.Channel

variable {c d e : Channel} {g : ObjectGuid} {i j : PlayerInfo} {player bad newp : Player}
  {online : Connected} {name pass : String} {ban mod set on : Bool}

/-! ## Calls that go through -/

/-- `JoinChannel` lets the player in. -/
def Admits (c : Channel) (player : Player) (pass : String) : Prop :=
  c.isOn player.guid = false ∧ c.isBanned player.guid = false ∧ c.checkPassword pass = true ∧
    (c.hasFlag CHANNEL_FLAG_LFG && player.restrictedLFG) = false

/-- The player acts as a moderator: he is one, or has the permission. -/
def ActsAsModerator (c : Channel) (player : Player) : Prop :=
  ∃ info, c.find player.guid = some info ∧
    (info.isModerator = true ∨ player.hasPermission RBAC_PERM_CHANGE_CHANNEL_NOT_MODERATOR = true)

/-- `KickOrBan` removes `bad`. -/
def Kicks (c : Channel) (online : Connected) (player : Player) (badname : String) (bad : Player) :
    Prop :=
  c.ActsAsModerator player ∧ online badname = some bad ∧ c.isOn bad.guid = true ∧
    (player.hasPermission RBAC_PERM_CHANGE_CHANNEL_NOT_MODERATOR = true ∨ c.ownerGuid ≠ bad.guid ∨
      player.guid = c.ownerGuid)

/-- `SetOwner` makes `newp` the owner. -/
def Appoints (c : Channel) (online : Connected) (player : Player) (newname : String)
    (newp : Player) : Prop :=
  c.isOn player.guid = true ∧
    (player.hasPermission RBAC_PERM_CHANGE_CHANNEL_NOT_MODERATOR = true ∨
      player.guid = c.ownerGuid) ∧
    online newname = some newp ∧ c.isOn newp.guid = true ∧ mayInteract player newp = true

/-- The calls that keep the channel well-owned. -/
def Sound (c : Channel) : Op → Prop
  | .joinChannel player pass =>
    -- an empty channel must not still name an owner, unless an invisible one
    c.Admits player pass → c.isEmpty = true → c.ownerGuid = 0 ∨ c.isOwnerInvisible = true
  | .leaveChannel player =>
    c.ownerGuid = player.guid → c.isOwnerInvisible = true →
      ∀ g i, g ≠ player.guid → c.find g = some i → i.invisible = true
  | .kickOrBan online player badname _ =>
    ∀ bad, c.Kicks online player badname bad → c.ownerGuid = bad.guid →
      (∃ g, g ≠ bad.guid ∧ c.isOn g = true) → player.guid ≠ bad.guid ∧
        (c.isOwnerInvisible = true → ∀ i, c.find player.guid = some i → i.invisible = true)
  | .setOwner online player newname =>
    ∀ newp, c.Appoints online player newname newp → c.isOwnerInvisible = true →
      ∀ i, c.find newp.guid = some i → i.invisible = true
  | _ => True

/-- `d` comes out of a call well-owned if and only if the call was as `P` says, and then it is
ready for the next call. -/
structure Settles (d : Channel) (P : Prop) : Prop where
  ready : P → Ready d
  iff : WellOwned d ↔ P

theorem Settles.of_ready {P : Prop} (h : Ready d) (hP : OwnerIn d ↔ P) : Settles d P :=
  ⟨fun _ => h, h.wellOwned_iff.trans hP⟩

theorem Settles.of_true {P : Prop} (h : Ready d) (ho : OwnerIn d) (hP : P) : Settles d P :=
  Settles.of_ready h (iff_of_true ho hP)

/-! ## Joining -/

/-- The channel with a new member who has no flags yet. -/
def entered (c : Channel) (player : Player) : Channel :=
  (c.emplace player.guid).write player.guid (·.setInvisible !player.isGMVisible)

theorem entered_rest (h : c.find player.guid = none) :
    SameRest c (c.entered player) ∧ (c.entered player).ownerGuid = c.ownerGuid ∧
      (c.entered player).isOwnerInvisible = c.isOwnerInvisible := by
  have hf := find_emplace_self h
  exact ⟨(SameRest.emplace c player.guid).trans (SameRest.write hf), ownerGuid_write hf,
    isOwnerInvisible_write hf⟩

theorem find_entered_self (h : c.find player.guid = none) :
    (c.entered player).find player.guid = some { invisible := !player.isGMVisible } :=
  find_write_self (find_emplace_self h)

theorem not_isOwner_new (b : Bool) : ¬({ invisible := b } : PlayerInfo).isOwner = true := by
  cases b <;> decide

theorem find_entered_ne (h : c.find player.guid = none) (hne : g ≠ player.guid) :
    (c.entered player).find g = c.find g := by
  rw [entered, find_write_ne (find_emplace_self h) hne, find_emplace_ne hne]

theorem Ready.entered (hr : Ready c) (h : c.find player.guid = none)
    (hban : c.isBanned player.guid = false) : Ready (c.entered player) where
  custom := by
    show ((c.entered player).channelId != 0) = false
    rw [(entered_rest h).1.channelId]
    exact hr.custom
  ownership := (entered_rest h).1.ownershipEnabled.trans hr.ownership
  members := by
    intro g i hi
    by_cases hne : g = player.guid
    · rw [hne]
      exact player.guid_ne
    · rw [find_entered_ne h hne] at hi
      exact hr.members g i hi
  flagged := by
    intro g i hi ho
    by_cases hne : g = player.guid
    · subst hne
      rw [find_entered_self h] at hi
      cases hi
      exact absurd ho (not_isOwner_new _)
    · rw [find_entered_ne h hne] at hi
      rw [(entered_rest h).2.1]
      exact hr.flagged g i hi ho
  banned := by
    intro g hg
    rw [(entered_rest h).1.bannedStore] at hg
    by_cases hne : g = player.guid
    · rw [hne] at hg
      exact absurd hg (of_decide_eq_false hban)
    · rw [isOn, find_entered_ne h hne]
      exact hr.banned g hg
  references := (entered_rest h).1.usedErased.trans hr.references

/-- The player who joins becomes the owner. -/
def TakesOver (c : Channel) (player : Player) : Prop :=
  (c.isEmpty = true ∨ player.isGMVisible = true) ∧ (c.ownerGuid = 0 ∨ c.isOwnerInvisible = true)

theorem joinChannel_of_not_admits (h : ¬c.Admits player pass) : c.joinChannel player pass = c := by
  unfold joinChannel
  split
  · rfl
  split
  · rfl
  split
  · rfl
  split
  · rfl
  next h1 h2 h3 h4 =>
    rw [Bool.not_eq_true] at h1 h2 h4
    rw [Bool.not_eq_true, Bool.not_eq_false'] at h3
    exact absurd ⟨h1, h2, h3, h4⟩ h

theorem joinChannel_of_admits (hr : Ready c) (h : c.Admits player pass) :
    (TakesOver c player ∧ ∃ d,
        Handed ((c.entered player).veiled !player.isGMVisible) d player.guid ∧
        c.joinChannel player pass = d) ∨
      ¬TakesOver c player ∧ c.joinChannel player pass = c.entered player := by
  obtain ⟨hon, hban, hpass, hlfg⟩ := h
  have hnone : c.find player.guid = none := by
    rw [← not_isOn, hon]
    exact Bool.false_ne_true
  have hentered := hr.entered hnone hban
  have hself := find_entered_self hnone
  have hjoin : c.joinChannel player pass =
      if ((c.isEmpty || !!player.isGMVisible) && (c.ownerGuid == 0 || c.isOwnerInvisible)) = true then
        (((c.entered player).veiled !player.isGMVisible).setOwnerGuid player.guid).write player.guid
          (·.setModerator true)
      else c.entered player := by
    unfold joinChannel
    rw [if_neg (by rw [hon]; exact Bool.false_ne_true),
      if_neg (by rw [hban]; exact Bool.false_ne_true),
      if_neg (by rw [hpass]; exact Bool.false_ne_true),
      if_neg (by rw [hlfg]; exact Bool.false_ne_true)]
    show (if (!(c.entered player).isConstant) = true then
      (c.entered player).deref player.guid fun playerInfo =>
        if ((c.entered player).ownershipEnabled && (c.isEmpty || !playerInfo.invisible) &&
            ((c.entered player).ownerGuid == 0 || (c.entered player).isOwnerInvisible)) = true then
          (((c.entered player).veiled playerInfo.invisible).setOwnerGuid player.guid).write
            player.guid (·.setModerator true)
        else c.entered player
      else c.entered player) = _
    rw [hentered.custom, if_pos Bool.not_false, deref_of_find hself, hentered.ownership,
      (entered_rest hnone).2.1, (entered_rest hnone).2.2, Bool.true_and]
  by_cases ht : ((c.isEmpty || !!player.isGMVisible) &&
      (c.ownerGuid == 0 || c.isOwnerInvisible)) = true
  · left
    rw [if_pos ht] at hjoin
    have hself' : ((c.entered player).veiled !player.isGMVisible).find player.guid =
      some { invisible := !player.isGMVisible } := hself
    refine ⟨by simpa [TakesOver] using ht, _, ?_, hjoin⟩
    exact (setOwnerGuid_handed (hentered.veiled _).members hself').write_after
  · right
    rw [if_neg ht] at hjoin
    exact ⟨fun htake => ht (by simpa [TakesOver] using htake), hjoin⟩

theorem joinChannel_settles (hr : Ready c) (ho : OwnerIn c) :
    Settles (c.joinChannel player pass) (c.Sound (.joinChannel player pass)) := by
  by_cases hadm : c.Admits player pass
  case neg =>
    rw [joinChannel_of_not_admits hadm]
    exact Settles.of_true hr ho fun h => absurd h hadm
  have hnone : c.find player.guid = none := by
    rw [← not_isOn, hadm.1]
    exact Bool.false_ne_true
  have hentered := hr.entered hnone hadm.2.1
  have hself := find_entered_self hnone
  rcases joinChannel_of_admits hr hadm with ⟨htake, d, hh, heq⟩ | ⟨htake, heq⟩
  · rw [heq]
    apply Settles.of_true ((hentered.veiled _).handed hh)
    · rw [hh.ownerIn_iff hself, hh.invisible]
      exact id
    · exact fun _ _ => htake.2
  · rw [heq]
    apply Settles.of_ready hentered
    by_cases hempty : c.isEmpty = true
    · -- nobody owns it: the only member has no flags
      constructor
      · intro hown
        obtain ⟨o, hfind, hflag, -⟩ := hown ⟨player.guid, isOn_iff.mpr ⟨_, hself⟩⟩
        by_cases hne : (c.entered player).ownerGuid = player.guid
        · rw [hne, hself] at hfind
          cases hfind
          exact absurd hflag (not_isOwner_new _)
        · rw [find_entered_ne hnone hne, isEmpty_iff.mp hempty] at hfind
          cases hfind
      · intro hsound
        exact absurd ⟨Or.inl hempty, hsound hadm hempty⟩ htake
    · refine ⟨fun _ _ h => absurd h hempty, fun _ _ => ?_⟩
      obtain ⟨g, i, hi⟩ := not_isEmpty.mp hempty
      obtain ⟨o, hfind, hflag, hinv⟩ := ho ⟨g, isOn_iff.mpr ⟨i, hi⟩⟩
      grind [find_entered_ne, entered_rest]

/-! ## Leaving -/

theorem nextOwner_spec (h : ¬c.isEmpty = true) : ∃ e, c.nextOwner = some e ∧ c.find e.1 = some e.2 ∧
    (e.2.invisible = true → ∀ g i, c.find g = some i → i.invisible = true) := by
  unfold nextOwner
  cases hf : c.playersStore.rows.find? fun e => !e.2.invisible with
  | some e =>
    have hvis : e.2.invisible = false := by simpa using List.find?_some hf
    refine ⟨e, rfl, find_eq_some.mpr (List.mem_of_find?_eq_some hf), ?_⟩
    intro hinv
    rw [hvis] at hinv
    cases hinv
  | none =>
    obtain ⟨g, i, hi⟩ := not_isEmpty.mp h
    cases hrows : c.playersStore.rows with
    | nil =>
      rw [find_eq_some, hrows] at hi
      cases hi
    | cons e l =>
      refine ⟨e, rfl, find_eq_some.mpr (by rw [hrows]; exact List.mem_cons_self), ?_⟩
      intro _ g i hi
      simpa using List.find?_eq_none.mp hf (g, i) (find_eq_some.mp hi)

theorem leaveChannel_of_none (h : c.find player.guid = none) : c.leaveChannel player = c := by
  rw [leaveChannel, h]

theorem leaveChannel_plain (hr : Ready c) (h : c.find player.guid = some i)
    (hplain : i.isOwner = false ∨ (c.without player.guid).isEmpty = true) :
    c.leaveChannel player = c.without player.guid := by
  have hr' := hr.without player.guid
  rw [leaveChannel, h]
  show (if (!(c.without player.guid).isConstant) = true then
    if (i.isOwner && (c.without player.guid).ownershipEnabled &&
      !(c.without player.guid).isEmpty) = true then _ else c.without player.guid
    else c.without player.guid) = _
  grind

theorem leaveChannel_owner (hr : Ready c) (h : c.find player.guid = some i) (hown : i.isOwner = true)
    (hne : ¬(c.without player.guid).isEmpty = true) :
    ∃ g j d, (c.without player.guid).find g = some j ∧ Handed (c.without player.guid) d g ∧
      (j.invisible = true → ∀ g' i', (c.without player.guid).find g' = some i' →
        i'.invisible = true) ∧
      c.leaveChannel player =
        if j.invisible = true then d.veiled true else d := by
  have hr' := hr.without player.guid
  obtain ⟨e, hnext, hfind, hinv⟩ := nextOwner_spec hne
  have hh := Handed.write_before hr'.members hfind
  refine ⟨e.1, e.2, _, hfind, hh, hinv, ?_⟩
  obtain ⟨i', j, hi', hj, -, -, hv⟩ := hh.entry
  rw [hfind] at hi'
  cases hi'
  have hnext' : ({ c with playersStore := c.playersStore.erase player.guid } : Channel).nextOwner =
    some e := hnext
  rw [leaveChannel, h]
  show (if (!(c.without player.guid).isConstant) = true then
    if (i.isOwner && (c.without player.guid).ownershipEnabled &&
      !(c.without player.guid).isEmpty) = true then _
    else c.without player.guid
    else c.without player.guid) = _
  rw [Bool.not_eq_true] at hne
  have hgo : (true && true && !false) = true := rfl
  rw [hr'.custom, if_pos Bool.not_false, hown, hr'.ownership, hne, if_pos hgo, hnext']
  refine (deref_of_find hj).trans ?_
  rw [hv]
  rfl

theorem leaveChannel_settles (hr : Ready c) (ho : OwnerIn c) :
    Settles (c.leaveChannel player) (c.Sound (.leaveChannel player)) := by
  cases hfind : c.find player.guid with
  | none =>
    rw [leaveChannel_of_none hfind]
    apply Settles.of_true hr ho
    intro heq _ g i _ hi
    -- the owner is a member while there is one
    obtain ⟨o, hf, -⟩ := ho ⟨g, isOn_iff.mpr ⟨i, hi⟩⟩
    rw [heq, hfind] at hf
    cases hf
  | some info =>
    by_cases hown : info.isOwner = true
    · have hguid : player.guid = c.ownerGuid := hr.flagged _ _ hfind hown
      by_cases hempty : (c.without player.guid).isEmpty = true
      · rw [leaveChannel_plain hr hfind (Or.inr hempty)]
        apply Settles.of_true (hr.without _)
        · rintro ⟨g, hg⟩
          obtain ⟨i, hi⟩ := isOn_iff.mp hg
          rw [isEmpty_iff.mp hempty] at hi
          cases hi
        · intro _ _ g i hne hi
          have hnone := isEmpty_iff.mp hempty g
          rw [find_without_ne c hne, hi] at hnone
          cases hnone
      · obtain ⟨g, j, d, hj, hh, hall, heq⟩ := leaveChannel_owner hr hfind hown hempty
        obtain ⟨hne, hj'⟩ := find_of_find_without hj
        have hready := (hr.without player.guid).handed hh
        rw [heq]
        by_cases hinv : j.invisible = true
        · rw [if_pos hinv]
          apply Settles.of_true (hready.veiled true)
          · have hin := (hh.ownerIn_iff hj).mpr fun _ => hinv
            intro hex
            obtain ⟨o, hf, hflag, -⟩ := hin hex
            refine ⟨o, hf, hflag, fun _ => ?_⟩
            obtain ⟨i', j', hi', hj'', -, -, hv⟩ := hh.entry
            rw [hj] at hi'
            cases hi'
            change d.find d.ownerGuid = some o at hf
            rw [hh.owner, hj''] at hf
            cases hf
            exact hv.trans hinv
          · intro _ _ g' i' hne' hi'
            exact hall hinv g' i' ((find_without_ne c hne').trans hi')
        · rw [if_neg hinv]
          apply Settles.of_ready hready
          rw [hh.ownerIn_iff hj, hh.invisible]
          constructor
          · intro h _ hflag
            exact absurd (h hflag) hinv
          · intro h hflag
            exact h hguid.symm hflag g j hne hj'
    · rw [leaveChannel_plain hr hfind (Or.inl (Bool.eq_false_of_not_eq_true hown))]
      have hne : c.ownerGuid ≠ player.guid := by
        intro heq
        obtain ⟨o, hf, hflag, -⟩ := ho ⟨player.guid, isOn_iff.mpr ⟨info, hfind⟩⟩
        rw [heq, hfind] at hf
        cases hf
        exact hown hflag
      exact Settles.of_true (hr.without _) (ho.without hne) fun heq => absurd heq hne

/-! ## Kicking and banning -/

/-- The channel after `bad` was banned, if asked for, and removed. -/
def removed (c : Channel) (bad : Player) (ban : Bool) : Channel :=
  (if ban && !c.isBanned bad.guid then { c with bannedStore := insert bad.guid c.bannedStore }
    else c).without bad.guid

theorem removed_eq (c : Channel) (bad : Player) (ban : Bool) :
    (c.removed bad ban).ownerGuid = c.ownerGuid ∧
      (c.removed bad ban).isOwnerInvisible = c.isOwnerInvisible ∧
      ∀ g, (c.removed bad ban).find g = (c.without bad.guid).find g := by
  unfold removed
  split
  · exact ⟨rfl, rfl, fun _ => rfl⟩
  · exact ⟨rfl, rfl, fun _ => rfl⟩

theorem Ready.removed (h : Ready c) (bad : Player) (ban : Bool) : Ready (c.removed bad ban) := by
  have hw := h.without bad.guid
  unfold Channel.removed
  split
  · refine ⟨hw.custom, hw.ownership, hw.members, hw.flagged, ?_, hw.references⟩
    intro g hg
    rcases Finset.mem_insert.mp hg with rfl | hg
    · show (((c.without bad.guid).find bad.guid).isSome) = false
      rw [find_without_self]
      rfl
    · exact hw.banned g hg
  · exact hw

/-- What becomes of the channel once `bad` is removed. -/
def afterRemoval (c : Channel) (player bad : Player) (ban : Bool) : Channel :=
  if c.ownerGuid == bad.guid && (c.removed bad ban).ownershipEnabled &&
      !(c.removed bad ban).isEmpty then
    ((c.removed bad ban).write player.guid (·.setModerator true)).setOwnerGuid player.guid
  else c.removed bad ban

theorem kickOrBan_cases (c : Channel) (online : Connected) (player : Player) (name : String)
    (ban : Bool) :
    (c.kickOrBan online player name ban = c ∧ ∀ bad, ¬c.Kicks online player name bad) ∨
      ∃ bad, c.Kicks online player name bad ∧
        c.kickOrBan online player name ban = c.afterRemoval player bad ban := by
  unfold kickOrBan
  by_cases hon : c.isOn player.guid = true
  case neg =>
    left
    refine ⟨by rw [if_pos (by simpa using hon)], ?_⟩
    rintro bad ⟨⟨info, hinfo, -⟩, -⟩
    exact hon (isOn_iff.mpr ⟨info, hinfo⟩)
  obtain ⟨info, hinfo⟩ := isOn_iff.mp hon
  rw [if_neg (by simpa using hon), deref_of_find hinfo]
  by_cases hmod : info.isModerator = true ∨
      player.hasPermission RBAC_PERM_CHANGE_CHANNEL_NOT_MODERATOR = true
  case neg =>
    left
    refine ⟨by rw [if_pos (by simpa using hmod)], ?_⟩
    rintro bad ⟨⟨info', hinfo', hmod'⟩, -⟩
    rw [hinfo] at hinfo'
    cases hinfo'
    exact hmod hmod'
  rw [if_neg (by simpa [or_iff_not_imp_left] using hmod)]
  cases hbad : online name with
  | none =>
    left
    refine ⟨rfl, ?_⟩
    rintro bad ⟨-, hbad', -⟩
    rw [hbad] at hbad'
    cases hbad'
  | some bad =>
    have hzero : (bad.guid == 0) = false := beq_eq_false_iff_ne.mpr bad.guid_ne
    simp only [hzero, Bool.false_or]
    by_cases hthere : c.isOn bad.guid = true
    case neg =>
      left
      refine ⟨by rw [if_pos (by simpa using hthere)], ?_⟩
      rintro bad' ⟨-, hbad', hthere', -⟩
      rw [hbad] at hbad'
      cases hbad'
      exact hthere hthere'
    rw [if_neg (by simpa using hthere)]
    by_cases hown : player.hasPermission RBAC_PERM_CHANGE_CHANNEL_NOT_MODERATOR = true ∨
        c.ownerGuid ≠ bad.guid ∨ player.guid = c.ownerGuid
    · right
      refine ⟨bad, ⟨⟨info, hinfo, hmod⟩, hbad, hthere, hown⟩, ?_⟩
      rw [if_neg]
      · rfl
      · grind
    · left
      simp only [not_or, not_not, Bool.not_eq_true] at hown
      constructor
      · grind
      · rintro bad' ⟨-, hbad', -, hown'⟩
        grind

theorem usedErased_deref {k : PlayerInfo → Channel} (h : ∀ i, (k i).usedErased = true) :
    (c.deref g k).usedErased = true := by
  unfold deref
  split
  · next i _ => exact h i
  · rfl

theorem usedErased_setOwnerGuid (h : c.usedErased = true) : (c.setOwnerGuid g).usedErased = true := by
  have hclear : c.cleared.usedErased = true := (cleared_rest c).1.usedErased.trans h
  show (if (g != 0) = true then
      if (c.cleared.named g).isOn g = true then (c.cleared.named g).write g _ else c.cleared.named g
    else c.cleared.named g).usedErased = true
  split
  · split
    · exact usedErased_deref fun _ => hclear
    · exact hclear
  · exact hclear

theorem kickOrBan_settles (hr : Ready c) (ho : OwnerIn c) :
    Settles (c.kickOrBan online player name ban) (c.Sound (.kickOrBan online player name ban)) := by
  rcases kickOrBan_cases c online player name ban with ⟨heq, hno⟩ | ⟨bad, hkicks, heq⟩
  · rw [heq]
    exact Settles.of_true hr ho fun bad hk => absurd hk (hno bad)
  rw [heq]
  obtain ⟨⟨info, hinfo, -⟩, hbad, -, -⟩ := id hkicks
  have hsound : c.Sound (.kickOrBan online player name ban) ↔
      (c.ownerGuid = bad.guid → (∃ g, g ≠ bad.guid ∧ c.isOn g = true) → player.guid ≠ bad.guid ∧
        (c.isOwnerInvisible = true → info.invisible = true)) := by
    constructor
    · intro h howner hex
      obtain ⟨hne, hinv⟩ := h bad hkicks howner hex
      exact ⟨hne, fun hi => hinv hi info hinfo⟩
    · intro h bad' hkicks' howner hex
      have hsame : bad' = bad := by
        rw [hkicks'.2.1] at hbad
        exact Option.some.inj hbad
      grind
  rw [hsound]
  have hready := hr.removed bad ban
  obtain ⟨hguid, hinvisible, hfind⟩ := removed_eq c bad ban
  have hstay : (¬(c.removed bad ban).isEmpty = true) ↔ ∃ g, g ≠ bad.guid ∧ c.isOn g = true := by
    rw [not_isEmpty]
    constructor
    · rintro ⟨g, i, hi⟩
      rw [hfind] at hi
      obtain ⟨hne, hi'⟩ := find_of_find_without hi
      exact ⟨g, hne, isOn_iff.mpr ⟨i, hi'⟩⟩
    · rintro ⟨g, hne, hg⟩
      obtain ⟨i, hi⟩ := isOn_iff.mp hg
      exact ⟨g, i, by rw [hfind, find_without_ne c hne, hi]⟩
  have hcond : ((c.ownerGuid == bad.guid && (c.removed bad ban).ownershipEnabled &&
      !(c.removed bad ban).isEmpty) = true) ↔
      c.ownerGuid = bad.guid ∧ ∃ g, g ≠ bad.guid ∧ c.isOn g = true := by
    rw [hready.ownership, Bool.and_true, Bool.and_eq_true, beq_iff_eq, Bool.not_eq_true',
      ← Bool.not_eq_true, hstay]
  unfold afterRemoval
  by_cases hchange : c.ownerGuid = bad.guid ∧ ∃ g, g ≠ bad.guid ∧ c.isOn g = true
  · rw [if_pos (hcond.mpr hchange)]
    by_cases hself : player.guid = bad.guid
    · -- the reference to the actor's own entry is written after the entry is gone
      have hunsound : ¬(c.ownerGuid = bad.guid → (∃ g, g ≠ bad.guid ∧ c.isOn g = true) →
          player.guid ≠ bad.guid ∧ (c.isOwnerInvisible = true → info.invisible = true)) :=
        fun h => absurd hself (h hchange.1 hchange.2).1
      refine ⟨fun h => absurd h hunsound, ?_⟩
      constructor
      · intro h
        have hused : ((c.removed bad ban).write player.guid (·.setModerator true)).usedErased =
            true := by
          grind [deref, write, find_without_self]
        exact absurd (h.references.symm.trans (usedErased_setOwnerGuid hused)) Bool.false_ne_true
      · exact fun h => absurd h hunsound
    · have hgood : (c.removed bad ban).find player.guid = some info := by
        rw [hfind, find_without_ne c hself, hinfo]
      have hh := Handed.write_before hready.members hgood
      apply Settles.of_ready (hready.handed hh)
      rw [hh.ownerIn_iff hgood, hh.invisible, hinvisible]
      exact ⟨fun h _ _ => ⟨hself, h⟩, fun h => (h hchange.1 hchange.2).2⟩
  · rw [if_neg fun h => hchange (hcond.mp h)]
    refine Settles.of_true hready ?_ fun howner hex => absurd ⟨howner, hex⟩ hchange
    by_cases howner : c.ownerGuid = bad.guid
    · rintro ⟨g, hg⟩
      obtain ⟨i, hi⟩ := isOn_iff.mp hg
      exact absurd ⟨howner, hstay.mp (not_isEmpty.mpr ⟨g, i, hi⟩)⟩ hchange
    · rintro ⟨g, hg⟩
      obtain ⟨i, hi⟩ := isOn_iff.mp hg
      rw [hfind] at hi
      obtain ⟨o, hf, hflag, hinv⟩ := ho.without howner ⟨g, isOn_iff.mpr ⟨i, hi⟩⟩
      refine ⟨o, ?_, hflag, ?_⟩
      · rw [hguid, hfind]
        exact hf
      · rw [hinvisible]
        exact hinv

/-! ## Appointing an owner -/

theorem setOwner_cases (c : Channel) (online : Connected) (player : Player) (name : String) :
    (c.setOwner online player name = c ∧ ∀ newp, ¬c.Appoints online player name newp) ∨
      ∃ newp, c.Appoints online player name newp ∧
        c.setOwner online player name =
          (c.write newp.guid (·.setModerator true)).setOwnerGuid newp.guid := by
  unfold setOwner
  by_cases hon : c.isOn player.guid = true
  case neg =>
    left
    exact ⟨by rw [if_pos (by simpa using hon)], fun newp h => hon h.1⟩
  rw [if_neg (by simpa using hon)]
  by_cases hmay : player.hasPermission RBAC_PERM_CHANGE_CHANNEL_NOT_MODERATOR = true ∨
      player.guid = c.ownerGuid
  case neg =>
    left
    exact ⟨by rw [if_pos (by simpa using hmay)], fun newp h => hmay h.2.1⟩
  rw [if_neg (by simpa [or_iff_not_imp_left] using hmay)]
  cases hnew : online name with
  | none =>
    left
    refine ⟨rfl, ?_⟩
    rintro newp ⟨-, -, hnew', -⟩
    rw [hnew] at hnew'
    cases hnew'
  | some newp =>
    have hzero : (newp.guid == 0) = false := beq_eq_false_iff_ne.mpr newp.guid_ne
    simp only [hzero, Bool.false_or]
    by_cases hthere : c.isOn newp.guid = true ∧ mayInteract player newp = true
    · right
      refine ⟨newp, ⟨hon, hmay, hnew, hthere⟩, ?_⟩
      rw [hthere.1, hthere.2]
      rfl
    · left
      constructor
      · rw [if_pos]
        simpa [or_iff_not_imp_left] using hthere
      · rintro newp' ⟨-, -, hnew', hthere'⟩
        rw [hnew] at hnew'
        cases hnew'
        exact hthere hthere'

theorem setOwner_settles (hr : Ready c) (ho : OwnerIn c) :
    Settles (c.setOwner online player name) (c.Sound (.setOwner online player name)) := by
  rcases setOwner_cases c online player name with ⟨heq, hno⟩ | ⟨newp, happ, heq⟩
  · rw [heq]
    exact Settles.of_true hr ho fun newp h => absurd h (hno newp)
  obtain ⟨info, hinfo⟩ := isOn_iff.mp happ.2.2.2.1
  have hh := Handed.write_before hr.members hinfo
  rw [heq]
  apply Settles.of_ready (hr.handed hh)
  rw [hh.ownerIn_iff hinfo, hh.invisible]
  constructor
  · intro h newp' happ' hinv i hi
    have hsame : newp' = newp := by
      have hnew := happ.2.2.1
      rw [happ'.2.2.1] at hnew
      exact Option.some.inj hnew
    subst hsame
    rw [hinfo] at hi
    cases hi
    exact h hinv
  · intro h hinv
    exact h newp happ hinv info hinfo

/-! ## The other operations -/

theorem Kept.asked {k : PlayerInfo → Channel}
    (h : ∀ info, c.find g = some info → Kept c (k info)) :
    Kept c (if (!c.isOn g) = true then c else c.deref g k) := by
  split
  · exact Kept.refl c
  next hon =>
  obtain ⟨info, hinfo⟩ := isOn_iff.mp (by simpa using hon)
  rw [deref_of_find hinfo]
  exact h info hinfo

theorem unBan_kept (c : Channel) (online : Connected) (player : Player) (name : String) :
    Kept c (c.unBan online player name) := by
  apply Kept.asked
  intro info _
  split
  · exact Kept.refl c
  split
  · exact Kept.refl c
  next bad _ =>
  dsimp only
  split
  · exact Kept.refl c
  · exact { Kept.refl c with banned := Finset.erase_subset _ _ }

theorem password_kept (c : Channel) (player : Player) (pass : String) :
    Kept c (c.password player pass) := by
  apply Kept.asked
  intro info _
  split
  · exact Kept.refl c
  · exact { Kept.refl c with }

theorem setModeratorGuid_kept (c : Channel) (g : ObjectGuid) (set : Bool) :
    Kept c (c.setModeratorGuid g set) := by
  apply Kept.asked
  intro info hinfo
  split
  · exact Kept.write hinfo (fun i => i.isOwner_setModerator set) fun i =>
      i.invisible_setModerator set
  · exact Kept.refl c

theorem setMuteGuid_kept (c : Channel) (g : ObjectGuid) (set : Bool) :
    Kept c (c.setMuteGuid g set) := by
  apply Kept.asked
  intro info hinfo
  split
  · exact Kept.write hinfo (fun i => i.isOwner_setMuted set) fun i => i.invisible_setMuted set
  · exact Kept.refl c

theorem setMode_kept (c : Channel) (online : Connected) (player : Player) (name : String)
    (mod set : Bool) : Kept c (c.setMode online player name mod set) := by
  apply Kept.asked
  grind [setMuteGuid_kept, setModeratorGuid_kept, Kept.refl]

theorem setInvisible_wellOwned (hr : Ready c) (ho : OwnerIn c) :
    Ready (c.setInvisible player on) ∧ OwnerIn (c.setInvisible player on) := by
  unfold setInvisible
  split
  · exact ⟨hr, ho⟩
  next hon =>
  obtain ⟨info, hinfo⟩ := isOn_iff.mp (by simpa using hon)
  have hself := find_write_self (f := (·.setInvisible on)) hinfo
  obtain ⟨o, hfind, hflag, hinv⟩ := ho ⟨player.guid, isOn_iff.mpr ⟨info, hinfo⟩⟩
  have hready : Ready (c.write player.guid (·.setInvisible on)) := by
    have hrest := SameRest.write (f := (·.setInvisible on)) hinfo
    constructor
    case custom =>
      show ((c.write player.guid (·.setInvisible on)).channelId != 0) = false
      rw [hrest.channelId]
      exact hr.custom
    case ownership => exact hrest.ownershipEnabled.trans hr.ownership
    case members =>
      intro g i hi
      by_cases hne : g = player.guid
      · rw [hne]
        exact player.guid_ne
      · rw [find_write_ne hinfo hne] at hi
        exact hr.members g i hi
    case flagged =>
      intro g i hi hown
      rw [ownerGuid_write hinfo]
      by_cases hne : g = player.guid
      · subst hne
        rw [hself] at hi
        cases hi
        exact hr.flagged _ info hinfo hown
      · rw [find_write_ne hinfo hne] at hi
        exact hr.flagged g i hi hown
    case banned =>
      intro g hg
      rw [hrest.bannedStore] at hg
      have hoff := hr.banned g hg
      by_cases hne : g = player.guid
      · subst hne
        exact absurd (isOn_iff.mpr ⟨info, hinfo⟩) (by rw [hoff]; exact Bool.false_ne_true)
      · rw [isOn, find_write_ne hinfo hne]
        exact hoff
    case references => exact hrest.usedErased.trans hr.references
  dsimp only
  split
  · next heq =>
    rw [beq_iff_eq, ownerGuid_write hinfo] at heq
    refine ⟨hready.veiled on, fun _ => ?_⟩
    rw [heq, hinfo] at hfind
    cases hfind
    refine ⟨info.setInvisible on, ?_, hflag, id⟩
    show (c.write player.guid (·.setInvisible on)).find
      (c.write player.guid (·.setInvisible on)).ownerGuid = _
    rw [ownerGuid_write hinfo, heq, hself]
  · next hne =>
    rw [beq_iff_eq, ownerGuid_write hinfo] at hne
    refine ⟨hready, fun _ => ?_⟩
    rw [ownerGuid_write hinfo, isOwnerInvisible_write hinfo, find_write_ne hinfo hne]
    exact ⟨o, hfind, hflag, hinv⟩

/-! ## Runs -/

theorem run_settles (hr : Ready c) (ho : OwnerIn c) (op : Op) : Settles (c.run op) (c.Sound op) := by
  cases op with
  | joinChannel player pass => exact joinChannel_settles hr ho
  | leaveChannel player => exact leaveChannel_settles hr ho
  | kickOrBan online player badname ban => exact kickOrBan_settles hr ho
  | unBan online player badname =>
    have hk := unBan_kept c online player badname
    exact Settles.of_true (hr.kept hk) (ho.kept hk) trivial
  | password player pass =>
    have hk := password_kept c player pass
    exact Settles.of_true (hr.kept hk) (ho.kept hk) trivial
  | setMode online player p2n mod set =>
    have hk := setMode_kept c online player p2n mod set
    exact Settles.of_true (hr.kept hk) (ho.kept hk) trivial
  | setInvisible player on =>
    obtain ⟨hr', ho'⟩ := @setInvisible_wellOwned c player on hr ho
    exact Settles.of_true hr' ho' trivial
  | setOwner online player newname => exact setOwner_settles hr ho

end EGServer.Chat.Channel
