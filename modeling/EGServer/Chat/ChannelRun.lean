import EGServer.Chat.ChannelCalls

/-!
# Runs of a channel

From the single calls to runs: in a run of sound calls the channel is well-owned in every
state, and whoever becomes the owner is a moderator after that call. A channel that outlives
its last member goes on to name its last owner, so the next player to join does not get it;
an owner who kicks himself leaves a channel that names him.
-/

namespace EGServer.Chat.Channel

variable {c d e : Channel} {g : ObjectGuid} {player : Player} {online : Connected}
  {name pass : String} {ban on : Bool}

/-! ## Moderators -/

/-- Whoever carries the owner's flag in `d` and did not in `c` is a moderator in `d`. -/
def Promoted (c d : Channel) : Prop :=
  ∀ g j, d.find g = some j → j.isOwner = true →
    (∃ i, c.find g = some i ∧ i.isOwner = true) ∨ j.isModerator = true

theorem Promoted.refl (c : Channel) : Promoted c c := fun _ j hj ho => Or.inl ⟨j, hj, ho⟩

theorem Promoted.of_kept (h : Kept c d) : Promoted c d := by
  intro g j hj ho
  obtain ⟨i, hi, he⟩ := h.back g j hj
  exact Or.inl ⟨i, hi, he.symm.trans ho⟩

theorem Promoted.without (c : Channel) (g : ObjectGuid) : Promoted c (c.without g) := by
  intro g' j hj ho
  exact Or.inl ⟨j, (find_of_find_without hj).2, ho⟩

theorem Promoted.handed (h : ∀ g i, e.find g = some i → i.isOwner = true →
    ∃ i, c.find g = some i ∧ i.isOwner = true) (hh : Handed e d g) : Promoted c d := by
  intro g' j hj ho
  by_cases hne : g' = g
  · right
    obtain ⟨i, j', -, hj', -, hmod, -⟩ := hh.entry
    rw [hne, hj'] at hj
    cases hj
    exact hmod
  · left
    obtain ⟨i, hi, himp⟩ := hh.others g' j hne hj
    exact h g' i hi (himp ho).1

theorem joinChannel_promoted (hr : Ready c) : Promoted c (c.joinChannel player pass) := by
  by_cases hadm : c.Admits player pass
  case neg =>
    rw [joinChannel_of_not_admits hadm]
    exact Promoted.refl c
  have hnone : c.find player.guid = none := by
    rw [← not_isOn, hadm.1]
    exact Bool.false_ne_true
  have hflags : ∀ g i, (c.entered player).find g = some i → i.isOwner = true →
      ∃ i, c.find g = some i ∧ i.isOwner = true := by
    grind [find_entered_ne, not_isOwner_new, find_entered_self]
  rcases joinChannel_of_admits hr hadm with ⟨-, d, hh, heq⟩ | ⟨-, heq⟩
  · rw [heq]
    have hflags' : ∀ g i, ((c.entered player).veiled !player.isGMVisible).find g = some i →
        i.isOwner = true → ∃ i, c.find g = some i ∧ i.isOwner = true := hflags
    exact Promoted.handed hflags' hh
  · rw [heq]
    exact fun g j hj ho => Or.inl (hflags g j hj ho)

theorem leaveChannel_promoted (hr : Ready c) : Promoted c (c.leaveChannel player) := by
  cases hfind : c.find player.guid with
  | none =>
    rw [leaveChannel_of_none hfind]
    exact Promoted.refl c
  | some info =>
    by_cases hplain : info.isOwner = false ∨ (c.without player.guid).isEmpty = true
    · rw [leaveChannel_plain hr hfind hplain]
      exact Promoted.without c player.guid
    · rw [not_or, Bool.not_eq_false] at hplain
      obtain ⟨g, j, d, -, hh, -, heq⟩ := leaveChannel_owner hr hfind hplain.1 hplain.2
      have hd : Promoted c d :=
        Promoted.handed (fun g i hi ho => ⟨i, (find_of_find_without hi).2, ho⟩) hh
      rw [heq]
      split
      · exact hd
      · exact hd

theorem kickOrBan_promoted (hr : Ready c)
    (hsound : c.Sound (.kickOrBan online player name ban)) :
    Promoted c (c.kickOrBan online player name ban) := by
  rcases kickOrBan_cases c online player name ban with ⟨heq, -⟩ | ⟨bad, hkicks, heq⟩
  · rw [heq]
    exact Promoted.refl c
  rw [heq]
  have hready := hr.removed bad ban
  obtain ⟨-, -, hfind⟩ := removed_eq c bad ban
  have hflags : ∀ g i, (c.removed bad ban).find g = some i → i.isOwner = true →
      ∃ i, c.find g = some i ∧ i.isOwner = true := by
    intro g i hi ho
    rw [hfind] at hi
    exact ⟨i, (find_of_find_without hi).2, ho⟩
  unfold afterRemoval
  split
  · next hcond =>
    rw [Bool.and_eq_true, Bool.and_eq_true, beq_iff_eq, Bool.not_eq_true', ← Bool.not_eq_true,
      not_isEmpty] at hcond
    obtain ⟨⟨howner, -⟩, g, i, hi⟩ := hcond
    rw [hfind] at hi
    obtain ⟨hne, hi'⟩ := find_of_find_without hi
    obtain ⟨hself, -⟩ := hsound bad hkicks howner ⟨g, hne, isOn_iff.mpr ⟨i, hi'⟩⟩
    obtain ⟨⟨info, hinfo, -⟩, -⟩ := hkicks
    have hgood : (c.removed bad ban).find player.guid = some info := by
      rw [hfind, find_without_ne c hself, hinfo]
    exact Promoted.handed hflags (Handed.write_before hready.members hgood)
  · exact fun g j hj ho => Or.inl (hflags g j hj ho)

theorem setOwner_promoted (hr : Ready c) : Promoted c (c.setOwner online player name) := by
  rcases setOwner_cases c online player name with ⟨heq, -⟩ | ⟨newp, happ, heq⟩
  · rw [heq]
    exact Promoted.refl c
  obtain ⟨info, hinfo⟩ := isOn_iff.mp happ.2.2.2.1
  rw [heq]
  exact Promoted.handed (fun g i hi ho => ⟨i, hi, ho⟩) (Handed.write_before hr.members hinfo)

theorem setInvisible_promoted (c : Channel) (player : Player) (on : Bool) :
    Promoted c (c.setInvisible player on) := by
  unfold setInvisible
  split
  · exact Promoted.refl c
  next hon =>
  obtain ⟨info, hinfo⟩ := isOn_iff.mp (by simpa using hon)
  have hwrite : Promoted c (c.write player.guid (·.setInvisible on)) := by
    intro g j hj ho
    left
    by_cases hne : g = player.guid
    · subst hne
      rw [find_write_self hinfo] at hj
      cases hj
      exact ⟨info, hinfo, ho⟩
    · rw [find_write_ne hinfo hne] at hj
      exact ⟨j, hj, ho⟩
  dsimp only
  split
  · exact hwrite
  · exact hwrite

theorem run_promoted (hr : Ready c) {op : Op} (hsound : c.Sound op) : Promoted c (c.run op) := by
  cases op with
  | joinChannel player pass => exact joinChannel_promoted hr
  | leaveChannel player => exact leaveChannel_promoted hr
  | kickOrBan online player badname ban => exact kickOrBan_promoted hr hsound
  | unBan online player badname => exact Promoted.of_kept (unBan_kept c online player badname)
  | password player pass => exact Promoted.of_kept (password_kept c player pass)
  | setMode online player p2n mod set =>
    exact Promoted.of_kept (setMode_kept c online player p2n mod set)
  | setInvisible player on => exact setInvisible_promoted c player on
  | setOwner online player newname => exact setOwner_promoted hr

/-! ## Runs -/

/-- A custom channel with ownership, without members and without an owner. -/
structure Started (c : Channel) : Prop where
  custom : c.isConstant = false
  ownership : c.ownershipEnabled = true
  noMembers : c.isEmpty = true
  noOwner : c.ownerGuid = 0
  references : c.usedErased = false

theorem custom_started (banList : Finset ObjectGuid) : Started (custom banList) :=
  ⟨rfl, rfl, rfl, rfl, rfl⟩

theorem Started.ready (h : Started c) : Ready c where
  custom := h.custom
  ownership := h.ownership
  members := by
    intro g i hi
    rw [isEmpty_iff.mp h.noMembers] at hi
    cases hi
  flagged := by
    intro g i hi
    rw [isEmpty_iff.mp h.noMembers] at hi
    cases hi
  banned := by
    intro g _
    rw [isOn, isEmpty_iff.mp h.noMembers]
    rfl
  references := h.references

theorem Started.ownerIn (h : Started c) : OwnerIn c := by
  rintro ⟨g, hg⟩
  obtain ⟨i, hi⟩ := isOn_iff.mp hg
  rw [isEmpty_iff.mp h.noMembers] at hi
  cases hi

theorem Started.reached (h : Started c) (hrun : Reaches Step Sound c d) : Ready d ∧ OwnerIn d := by
  apply hrun.invariant ⟨h.ready, h.ownerIn⟩
  intro s t op hinv hsound hstep
  have hs := run_settles hinv.1 hinv.2 op
  have ht : t = s.run op := hstep
  rw [ht]
  exact ⟨hs.ready hsound, (hs.iff.mpr hsound).owner⟩

/-- **A populated channel has an owner who is in it, as long as the calls are sound.** The
first call that is not leaves a channel that is not well-owned. -/
theorem owner_is_member {c d : Channel} (h : Started c) (hrun : Reaches Step Sound c d) :
    WellOwned d ∧ ∀ op, (WellOwned (d.run op) ↔ Sound d op) ∧ (Sound d op → Promoted d (d.run op)) := by
  obtain ⟨hr, ho⟩ := h.reached hrun
  exact ⟨hr.wellOwned ho, fun op => ⟨(run_settles hr ho op).iff, run_promoted hr⟩⟩

/-- A player without any permission. -/
def plainPlayer (guid : ObjectGuid) (hne : guid ≠ 0) (name : String) : Player where
  guid := guid
  guid_ne := hne
  name := name
  team := 0
  hasPermission _ := false
  isGMVisible := true
  restrictedLFG := false

def anna : Player := plainPlayer 1 (by decide) "Anna"

def berta : Player := plainPlayer 2 (by decide) "Berta"

theorem owner_is_member_joined : WellOwned ((custom ∅).run (.joinChannel anna "")) := by
  have hsound : Sound (custom ∅) (.joinChannel anna "") := fun _ _ => Or.inl rfl
  exact (owner_is_member (custom_started ∅) ((Reaches.refl _).next hsound rfl)).1

/-- The owner leaves an empty channel behind, which goes on to name her when others come. -/
def leftBehind : Channel :=
  (((custom ∅).run (.joinChannel anna "")).run (.leaveChannel anna)).run (.joinChannel berta "")

theorem owner_left_behind :
    ¬∀ c d, Started c → Reaches Step (fun _ _ => True) c d → WellOwned d := by
  intro h
  have hrun : Reaches Step (fun _ _ => True) (custom ∅) leftBehind :=
    (((Reaches.refl _).next trivial rfl).next trivial rfl).next trivial rfl
  obtain ⟨o, ho, -⟩ := (h _ _ (custom_started ∅) hrun).owner ⟨berta.guid, by decide⟩
  have hgone : leftBehind.find leftBehind.ownerGuid = none := by decide
  rw [hgone] at ho
  cases ho

end EGServer.Chat.Channel
