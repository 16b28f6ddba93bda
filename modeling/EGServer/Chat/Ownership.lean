import EGServer.Chat.Channel

/-!
# Who owns a channel

A channel with members is owned by one of them. `WellOwned` is that invariant, `Sound` the
condition on a call under which it is kept: no player may come into an empty channel that
still names the owner it had, no owner may remove himself while others stay, and where the
channel has an invisible owner it may not be handed over to a visible member, except to one
who joins, since only `JoinChannel` clears `_isOwnerInvisible`. From a state with the
invariant a call keeps it if and only if it is `Sound`.

Each operation is stated first as what it does to the entries: `Handed` for the ones that
give the channel a new owner, `Kept` for the ones that leave the ownership alone.
-/

namespace EGServer.Chat.Channel

variable {c d e : Channel} {g g' : ObjectGuid} {i j : PlayerInfo} {f : PlayerInfo → PlayerInfo}
  {player : Player}

/-! ## Entries -/

theorem isOn_iff : c.isOn g = true ↔ ∃ i, c.find g = some i := Option.isSome_iff_exists

theorem not_isOn : ¬c.isOn g = true ↔ c.find g = none := by
  rw [isOn, Bool.not_eq_true, Option.isSome_eq_false_iff, Option.isNone_iff_eq_none]

theorem find_eq_some : c.find g = some i ↔ (g, i) ∈ c.playersStore.rows := by
  rw [find, Option.map_eq_some_iff]
  constructor
  · rintro ⟨e, he, rfl⟩
    obtain ⟨hmem, rfl⟩ := Table.get?_eq_some.mp he
    exact hmem
  · intro h
    exact ⟨(g, i), Table.get?_eq_some.mpr ⟨h, rfl⟩, rfl⟩

theorem isEmpty_iff : c.isEmpty = true ↔ ∀ g, c.find g = none := by
  rw [isEmpty, List.isEmpty_iff, List.eq_nil_iff_forall_not_mem]
  constructor
  · intro h g
    rw [Option.eq_none_iff_forall_ne_some]
    intro i hi
    exact h (g, i) (find_eq_some.mp hi)
  · intro h e he
    have hf : c.find e.1 = some e.2 := find_eq_some.mpr he
    rw [h] at hf
    cases hf

theorem not_isEmpty : ¬c.isEmpty = true ↔ ∃ g i, c.find g = some i := by
  rw [isEmpty_iff]
  simp only [not_forall, Option.ne_none_iff_exists']

theorem deref_of_find {k : PlayerInfo → Channel} (h : c.find g = some i) : c.deref g k = k i := by
  rw [deref, h]

/-- Erasing an entry, as three of the operations do. -/
def without (c : Channel) (g : ObjectGuid) : Channel :=
  { c with playersStore := c.playersStore.erase g }

@[simp] theorem find_without_self (c : Channel) (g : ObjectGuid) : (c.without g).find g = none := by
  rw [find, without, Table.get?_erase_self]
  rfl

theorem find_without_ne (c : Channel) (h : g' ≠ g) : (c.without g).find g' = c.find g' := by
  rw [find, without, Table.get?_erase_ne _ h]
  rfl

theorem find_of_find_without (h : (c.without g).find g' = some i) :
    g' ≠ g ∧ c.find g' = some i := by
  grind [find_without_ne, find_without_self]

theorem find_emplace_self (h : c.find g = none) : (c.emplace g).find g = some {} := by
  have hget : c.playersStore.get? g = none := by
    rwa [find, Option.map_eq_none_iff] at h
  cases ht : c.playersStore.tryEmplace byGuid (g, {}) with
  | none => simp [Table.tryEmplace, hget] at ht
  | some t =>
    have hself := Table.get?_tryEmplace_self ht
    simp only [find, emplace, ht, Option.getD_some]
    rw [hself]
    rfl

theorem find_emplace_ne (h : g' ≠ g) : (c.emplace g).find g' = c.find g' := by
  cases ht : c.playersStore.tryEmplace byGuid (g, {}) with
  | none => simp only [find, emplace, ht, Option.getD_none]
  | some t =>
    simp only [find, emplace, ht, Option.getD_some]
    rw [Table.get?_tryEmplace_ne ht h]

/-! ## Writing through a reference -/

theorem write_of_find (h : c.find g = some i) :
    c.write g f =
      { c with playersStore := c.playersStore.modify g (fun e => (e.1, f e.2)) fun _ => rfl } :=
  deref_of_find h

theorem find_write_self (h : c.find g = some i) : (c.write g f).find g = some (f i) := by
  rw [write_of_find h, find, Table.get?_modify_self]
  rw [find, Option.map_eq_some_iff] at h
  obtain ⟨e, he, rfl⟩ := h
  rw [he]
  rfl

theorem find_write_ne (h : c.find g = some i) (hne : g' ≠ g) :
    (c.write g f).find g' = c.find g' := by
  rw [write_of_find h, find, Table.get?_modify_ne _ _ hne]
  rfl

/-- What an operation on the entries leaves alone. -/
structure SameRest (c d : Channel) : Prop where
  channelId : d.channelId = c.channelId
  ownershipEnabled : d.ownershipEnabled = c.ownershipEnabled
  bannedStore : d.bannedStore = c.bannedStore
  usedErased : d.usedErased = c.usedErased

theorem SameRest.refl (c : Channel) : SameRest c c := ⟨rfl, rfl, rfl, rfl⟩

theorem SameRest.trans (h : SameRest c d) (h' : SameRest d e) : SameRest c e where
  channelId := h'.channelId.trans h.channelId
  ownershipEnabled := h'.ownershipEnabled.trans h.ownershipEnabled
  bannedStore := h'.bannedStore.trans h.bannedStore
  usedErased := h'.usedErased.trans h.usedErased

theorem SameRest.emplace (c : Channel) (g : ObjectGuid) : SameRest c (c.emplace g) :=
  ⟨rfl, rfl, rfl, rfl⟩

theorem SameRest.write (h : c.find g = some i) : SameRest c (c.write g f) := by
  rw [write_of_find h]
  exact ⟨rfl, rfl, rfl, rfl⟩

theorem ownerGuid_write (h : c.find g = some i) : (c.write g f).ownerGuid = c.ownerGuid := by
  rw [write_of_find h]

theorem isOwnerInvisible_write (h : c.find g = some i) :
    (c.write g f).isOwnerInvisible = c.isOwnerInvisible := by
  rw [write_of_find h]

/-! ## Giving the channel to a member -/

/-- `d` is `c` with the channel given to its member `g`: only `g` keeps or gets the flag. -/
structure Handed (c d : Channel) (g : ObjectGuid) : Prop where
  rest : SameRest c d
  invisible : d.isOwnerInvisible = c.isOwnerInvisible
  owner : d.ownerGuid = g
  entry : ∃ i j, c.find g = some i ∧ d.find g = some j ∧ j.isOwner = true ∧
    j.isModerator = true ∧ j.invisible = i.invisible
  others : ∀ g' j, g' ≠ g → d.find g' = some j → ∃ i, c.find g' = some i ∧
    (j.isOwner = true → i.isOwner = true ∧ g' ≠ c.ownerGuid)

/-- Taking the flag from the old owner, if he is there. -/
def cleared (c : Channel) : Channel :=
  if c.ownerGuid != 0 && c.isOn c.ownerGuid then c.write c.ownerGuid (·.setOwner false) else c

theorem cleared_rest (c : Channel) :
    SameRest c c.cleared ∧ c.cleared.isOwnerInvisible = c.isOwnerInvisible := by
  unfold cleared
  split
  · next h =>
    rw [Bool.and_eq_true] at h
    obtain ⟨i, hi⟩ := isOn_iff.mp h.2
    exact ⟨SameRest.write hi, isOwnerInvisible_write hi⟩
  · exact ⟨SameRest.refl c, rfl⟩

/-- No entry of `cleared` carries the flag for being the old owner. -/
theorem find_cleared (hzero : ∀ g i, c.find g = some i → g ≠ 0) :
    (∀ g i, c.find g = some i → ∃ j, c.cleared.find g = some j ∧ j.invisible = i.invisible) ∧
      ∀ g j, c.cleared.find g = some j → ∃ i, c.find g = some i ∧
        (j.isOwner = true → i.isOwner = true ∧ g ≠ c.ownerGuid) := by
  unfold cleared
  split
  · next h =>
    rw [Bool.and_eq_true] at h
    obtain ⟨i, hi⟩ := isOn_iff.mp h.2
    constructor
    · intro g i' hi'
      by_cases hg : g = c.ownerGuid
      · subst hg
        rw [hi] at hi'
        cases hi'
        exact ⟨i.setOwner false, find_write_self hi, by simp⟩
      · exact ⟨i', (find_write_ne hi hg).trans hi', rfl⟩
    · intro g j hj
      by_cases hg : g = c.ownerGuid
      · subst hg
        rw [find_write_self hi] at hj
        cases hj
        exact ⟨i, hi, by simp⟩
      · rw [find_write_ne hi hg] at hj
        exact ⟨j, hj, fun ho => ⟨ho, hg⟩⟩
  · next h =>
    refine ⟨fun g i hi => ⟨i, hi, rfl⟩, ?_⟩
    intro g j hj
    refine ⟨j, hj, fun ho => ⟨ho, ?_⟩⟩
    -- the guard fails, so the owner is not a member
    rintro rfl
    apply h
    rw [Bool.and_eq_true, bne_iff_ne]
    exact ⟨hzero _ j hj, isOn_iff.mpr ⟨j, hj⟩⟩

/-- Naming a new owner in `_ownerGuid` alone. -/
def named (c : Channel) (g : ObjectGuid) : Channel := { c with ownerGuid := g }

theorem setOwnerGuid_eq (hne : g ≠ 0) (h : c.cleared.find g = some i) :
    c.setOwnerGuid g =
      (c.cleared.named g).write g fun info => (info.setModerator true).setOwner true := by
  have hon : (c.cleared.named g).isOn g = true := isOn_iff.mpr ⟨i, h⟩
  show (if (g != 0) = true then
      if (c.cleared.named g).isOn g = true then _ else _ else _) = _
  rw [if_pos (bne_iff_ne.mpr hne), if_pos hon]
  rfl

theorem setOwnerGuid_handed (hzero : ∀ g i, c.find g = some i → g ≠ 0) (h : c.find g = some i) :
    Handed c (c.setOwnerGuid g) g := by
  obtain ⟨hforth, hback⟩ := find_cleared hzero
  obtain ⟨hrest, hinv⟩ := cleared_rest c
  obtain ⟨j, hj, hji⟩ := hforth g i h
  have hnamed : (c.cleared.named g).find g = some j := hj
  rw [setOwnerGuid_eq (hzero g i h) hj]
  constructor
  case rest =>
    have hrest' : SameRest c (c.cleared.named g) := hrest.trans ⟨rfl, rfl, rfl, rfl⟩
    exact hrest'.trans (SameRest.write hnamed)
  case invisible => exact (isOwnerInvisible_write hnamed).trans hinv
  case owner => exact ownerGuid_write hnamed
  case entry => exact ⟨i, _, h, find_write_self hnamed, by simp, by simp, by simpa using hji⟩
  case others =>
    intro g' j' hne hj'
    rw [find_write_ne hnamed hne] at hj'
    exact hback g' j' hj'

theorem Handed.write_before (hzero : ∀ g i, c.find g = some i → g ≠ 0) (h : c.find g = some i) :
    Handed c ((c.write g (·.setModerator true)).setOwnerGuid g) g := by
  have hzero' : ∀ g' i', (c.write g (·.setModerator true)).find g' = some i' → g' ≠ 0 := by
    grind [find_write_ne]
  have hh := setOwnerGuid_handed hzero' (find_write_self h)
  constructor
  case rest => exact (SameRest.write h).trans hh.rest
  case invisible => exact hh.invisible.trans (isOwnerInvisible_write h)
  case owner => exact hh.owner
  case entry =>
    obtain ⟨i', j, hi', hj, ho, hm, hinv⟩ := hh.entry
    rw [find_write_self h] at hi'
    cases hi'
    exact ⟨i, j, h, hj, ho, hm, by simpa using hinv⟩
  grind [ownerGuid_write, find_write_ne, others]

theorem Handed.write_after (h : Handed c d g) : Handed c (d.write g (·.setModerator true)) g := by
  obtain ⟨i, j, hi, hj, ho, hm, hinv⟩ := h.entry
  constructor
  case rest => exact h.rest.trans (SameRest.write hj)
  case invisible => exact (isOwnerInvisible_write hj).trans h.invisible
  case owner => exact (ownerGuid_write hj).trans h.owner
  case entry => exact ⟨i, _, hi, find_write_self hj, by simpa using ho, by simp, by simpa using hinv⟩
  case others =>
    intro g' j' hne hj'
    rw [find_write_ne hj hne] at hj'
    exact h.others g' j' hne hj'

/-! ## The invariant -/

/-- What holds of a custom channel also in the middle of an operation: nobody but the one
named in `_ownerGuid` carries the flag, and no member is banned. -/
structure Ready (c : Channel) : Prop where
  custom : c.isConstant = false
  ownership : c.ownershipEnabled = true
  members : ∀ g i, c.find g = some i → g ≠ 0
  flagged : ∀ g i, c.find g = some i → i.isOwner = true → g = c.ownerGuid
  banned : ∀ g ∈ c.bannedStore, c.isOn g = false
  references : c.usedErased = false

/-- The channel is owned by one who is in it, and by an invisible one if it says so. -/
def OwnerIn (c : Channel) : Prop :=
  (∃ g, c.isOn g = true) → ∃ o, c.find c.ownerGuid = some o ∧ o.isOwner = true ∧
    (c.isOwnerInvisible = true → o.invisible = true)

/-- A populated channel has exactly one owner who is in it. -/
structure WellOwned (c : Channel) : Prop where
  owner : OwnerIn c
  others : ∀ g i, c.find g = some i → i.isOwner = true → g = c.ownerGuid
  banned : ∀ g ∈ c.bannedStore, c.isOn g = false
  references : c.usedErased = false

theorem Ready.wellOwned (h : Ready c) (ho : OwnerIn c) : WellOwned c :=
  ⟨ho, h.flagged, h.banned, h.references⟩

theorem Ready.wellOwned_iff (h : Ready c) : WellOwned c ↔ OwnerIn c :=
  ⟨WellOwned.owner, h.wellOwned⟩

theorem Ready.without (h : Ready c) (g : ObjectGuid) : Ready (c.without g) where
  custom := h.custom
  ownership := h.ownership
  members := by
    intro g' i hi
    exact h.members g' i (find_of_find_without hi).2
  flagged := by
    intro g' i hi
    exact h.flagged g' i (find_of_find_without hi).2
  banned := by
    intro g' hg'
    rw [← Bool.not_eq_true, not_isOn]
    by_cases hne : g' = g
    · rw [hne, find_without_self]
    · rw [find_without_ne c hne, ← not_isOn, h.banned g' hg']
      exact Bool.false_ne_true
  references := h.references

theorem Ready.handed (h : Ready c) (hh : Handed c d g) : Ready d where
  custom := by
    show (d.channelId != 0) = false
    rw [hh.rest.channelId]
    exact h.custom
  ownership := hh.rest.ownershipEnabled.trans h.ownership
  members := by
    intro g' j hj
    by_cases hne : g' = g
    · obtain ⟨i, -, hi, -⟩ := hh.entry
      rw [hne]
      exact h.members g i hi
    · obtain ⟨i, hi, -⟩ := hh.others g' j hne hj
      exact h.members g' i hi
  flagged := by
    intro g' j hj ho
    by_cases hne : g' = g
    · rw [hne, hh.owner]
    · -- an entry that kept the flag would have been the old owner's
      obtain ⟨i, hi, himp⟩ := hh.others g' j hne hj
      obtain ⟨hio, hold⟩ := himp ho
      exact absurd (h.flagged g' i hi hio) hold
  banned := by
    intro g' hg'
    rw [hh.rest.bannedStore] at hg'
    have hoff := h.banned g' hg'
    rw [← Bool.not_eq_true] at hoff ⊢
    intro hon
    obtain ⟨j, hj⟩ := isOn_iff.mp hon
    by_cases hne : g' = g
    · obtain ⟨i, -, hi, -⟩ := hh.entry
      rw [hne] at hoff
      exact hoff (isOn_iff.mpr ⟨i, hi⟩)
    · obtain ⟨i, hi, -⟩ := hh.others g' j hne hj
      exact hoff (isOn_iff.mpr ⟨i, hi⟩)
  references := hh.rest.usedErased.trans h.references

/-- After handing over, only `_isOwnerInvisible` can be wrong. -/
theorem Handed.ownerIn_iff (hh : Handed c d g) (hi : c.find g = some i) :
    OwnerIn d ↔ (d.isOwnerInvisible = true → i.invisible = true) := by
  obtain ⟨i', j, hi', hj, ho, -, hinv⟩ := hh.entry
  rw [hi] at hi'
  cases hi'
  constructor
  · intro h
    obtain ⟨o, hfind, -, himp⟩ := h ⟨g, isOn_iff.mpr ⟨j, hj⟩⟩
    rw [hh.owner, hj] at hfind
    cases hfind
    rwa [hinv] at himp
  · intro h _
    rw [hh.owner]
    exact ⟨j, hj, ho, by rwa [hinv]⟩

theorem OwnerIn.without (h : OwnerIn c) (hne : c.ownerGuid ≠ g) : OwnerIn (c.without g) := by
  rintro ⟨g', hg'⟩
  obtain ⟨i, hi⟩ := isOn_iff.mp hg'
  obtain ⟨o, ho, hflag, hinv⟩ := h ⟨g', isOn_iff.mpr ⟨i, (find_of_find_without hi).2⟩⟩
  exact ⟨o, (find_without_ne c hne).trans ho, hflag, hinv⟩

/-! ## Setting `_isOwnerInvisible` -/

def veiled (c : Channel) (on : Bool) : Channel := { c with isOwnerInvisible := on }

theorem Ready.veiled (h : Ready c) (on : Bool) : Ready (c.veiled on) :=
  ⟨h.custom, h.ownership, h.members, h.flagged, h.banned, h.references⟩

/-! ## Operations that leave the ownership alone -/

structure Kept (c d : Channel) : Prop where
  channelId : d.channelId = c.channelId
  ownershipEnabled : d.ownershipEnabled = c.ownershipEnabled
  isOwnerInvisible : d.isOwnerInvisible = c.isOwnerInvisible
  ownerGuid : d.ownerGuid = c.ownerGuid
  usedErased : d.usedErased = c.usedErased
  banned : d.bannedStore ⊆ c.bannedStore
  forth : ∀ g i, c.find g = some i → ∃ j, d.find g = some j ∧ j.isOwner = i.isOwner ∧
    j.invisible = i.invisible
  back : ∀ g j, d.find g = some j → ∃ i, c.find g = some i ∧ j.isOwner = i.isOwner

theorem Kept.refl (c : Channel) : Kept c c where
  channelId := rfl
  ownershipEnabled := rfl
  isOwnerInvisible := rfl
  ownerGuid := rfl
  usedErased := rfl
  banned := Finset.Subset.refl _
  forth _ i hi := ⟨i, hi, rfl, rfl⟩
  back _ j hj := ⟨j, hj, rfl⟩

theorem Kept.write (h : c.find g = some i) (ho : ∀ i, (f i).isOwner = i.isOwner)
    (hv : ∀ i, (f i).invisible = i.invisible) : Kept c (c.write g f) where
  channelId := (SameRest.write h).channelId
  ownershipEnabled := (SameRest.write h).ownershipEnabled
  isOwnerInvisible := isOwnerInvisible_write h
  ownerGuid := ownerGuid_write h
  usedErased := (SameRest.write h).usedErased
  banned := by rw [(SameRest.write h).bannedStore]
  forth := by
    intro g' i' hi'
    by_cases hne : g' = g
    · subst hne
      rw [h] at hi'
      cases hi'
      exact ⟨f i, find_write_self h, ho i, hv i⟩
    · exact ⟨i', (find_write_ne h hne).trans hi', rfl, rfl⟩
  back := by
    intro g' j hj
    by_cases hne : g' = g
    · subst hne
      rw [find_write_self h] at hj
      cases hj
      exact ⟨i, h, ho i⟩
    · exact ⟨j, (find_write_ne h hne).symm.trans hj, rfl⟩

theorem Kept.isOn (h : Kept c d) (g : ObjectGuid) : d.isOn g = c.isOn g := by
  rw [Bool.eq_iff_iff, isOn_iff, isOn_iff]
  constructor
  · rintro ⟨j, hj⟩
    obtain ⟨i, hi, -⟩ := h.back g j hj
    exact ⟨i, hi⟩
  · rintro ⟨i, hi⟩
    obtain ⟨j, hj, -⟩ := h.forth g i hi
    exact ⟨j, hj⟩

theorem Ready.kept (h : Ready c) (hk : Kept c d) : Ready d where
  custom := by
    show (d.channelId != 0) = false
    rw [hk.channelId]
    exact h.custom
  ownership := hk.ownershipEnabled.trans h.ownership
  members := by
    intro g j hj
    obtain ⟨i, hi, -⟩ := hk.back g j hj
    exact h.members g i hi
  flagged := by
    intro g j hj ho
    obtain ⟨i, hi, he⟩ := hk.back g j hj
    rw [hk.ownerGuid]
    exact h.flagged g i hi (he.symm.trans ho)
  banned := by
    intro g hg
    rw [hk.isOn]
    exact h.banned g (hk.banned hg)
  references := hk.usedErased.trans h.references

theorem OwnerIn.kept (h : OwnerIn c) (hk : Kept c d) : OwnerIn d := by
  rintro ⟨g, hg⟩
  rw [hk.isOn] at hg
  obtain ⟨o, ho, hflag, hinv⟩ := h ⟨g, hg⟩
  obtain ⟨j, hj, he, hv⟩ := hk.forth _ o ho
  rw [hk.ownerGuid, hk.isOwnerInvisible]
  exact ⟨j, hj, he.trans hflag, by rwa [hv]⟩

end EGServer.Chat.Channel
