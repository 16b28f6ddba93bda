import EGServer.Reputation.Counters

/-!
# Saving and loading again

A row holds a standing and the flags, but only the standing is copied back: the flags are
replayed through the setters, from the default flags of the faction on. Which flags come back is
therefore a matter of the guards of the setters.
-/

namespace EGServer.Reputation

open ReputationFlags

variable {store : FactionStore} {p : Player} {m m' : ReputationMgr} {id : RepListID}

/-! ## Flags, one by one -/

namespace ReputationFlags

/-- A value from its single flags. -/
def assemble (value : ReputationFlags) : ReputationFlags :=
  [Visible, AtWar, Hidden, Header, Peaceful, Inactive, ShowPropagated, HeaderShowsBar].foldl
    (fun sum flag => if value.hasFlag flag then sum ||| flag else sum) 0

set_option maxRecDepth 8192 in
theorem assemble_ofNat : ∀ n < 256, assemble (.ofNat n) = .ofNat n := by decide

theorem assemble_self (value : ReputationFlags) : assemble value = value := by
  have h := assemble_ofNat value.toNat value.toNat_lt
  rwa [UInt8.ofNat_toNat] at h

theorem ext {a b : ReputationFlags} (h : ∀ flag, Single flag → a.hasFlag flag = b.hasFlag flag) :
    a = b := by
  rw [← assemble_self a, ← assemble_self b]
  unfold assemble
  simp only [List.foldl_cons, List.foldl_nil]
  rw [h Visible (by decide), h AtWar (by decide), h Hidden (by decide), h Header (by decide),
    h Peaceful (by decide), h Inactive (by decide), h ShowPropagated (by decide),
    h HeaderShowsBar (by decide)]

end ReputationFlags

namespace FactionState

variable (f : FactionState) (rank : ReputationRank) (on : Bool)

/-- The war flag can be set: the faction isn't our own, or it hates us. -/
def mayFight (rank : ReputationRank) (flags : ReputationFlags) : Bool :=
  !flags.hasFlag Peaceful || decide (rank ≤ REP_HATED)

theorem hasFlag_setAtWar_self : (f.setAtWar rank on).flags.hasFlag AtWar =
    if on && !mayFight rank f.flags then f.flags.hasFlag AtWar else on := by
  have hguard : (on && f.flags.hasFlag Peaceful && decide (rank > REP_HATED)) =
      (on && !mayFight rank f.flags) := by
    rw [mayFight, Bool.not_or, Bool.not_not, Bool.and_assoc, ← decide_not]
    simp only [not_le]
  unfold setAtWar
  rw [hguard]
  split
  · rfl
  · split
    · next hsame => exact hsame
    · exact hasFlag_assign_self (by decide) _ _

theorem hasFlag_setAtWar_other {flag : ReputationFlags} (h : AtWar &&& flag = 0) :
    (f.setAtWar rank on).flags.hasFlag flag = f.flags.hasFlag flag := by
  unfold setAtWar
  split
  · rfl
  · split
    · rfl
    · exact hasFlag_assign_of_disjoint h _ _

/-- The inactive flag can be changed. -/
def mayRest (flags : ReputationFlags) : Bool :=
  !flags.hasFlag (Hidden ||| Header) && flags.hasFlag Visible

theorem hasFlag_setInactive_self : (f.setInactive on).flags.hasFlag Inactive =
    if mayRest f.flags then on else f.flags.hasFlag Inactive := by
  have hguard : (f.flags.hasFlag (Hidden ||| Header) || !f.flags.hasFlag Visible) =
      !mayRest f.flags := by
    rw [mayRest, Bool.not_and, Bool.not_not]
  unfold setInactive
  rw [hguard]
  cases hrest : mayRest f.flags
  · rfl
  · rw [if_neg (by simp), if_pos rfl]
    split
    · next hsame => exact hsame
    · exact hasFlag_assign_self (by decide) _ _

theorem hasFlag_setInactive_other {flag : ReputationFlags} (h : Inactive &&& flag = 0) :
    (f.setInactive on).flags.hasFlag flag = f.flags.hasFlag flag := by
  unfold setInactive
  split
  · rfl
  · split
    · rfl
    · exact hasFlag_assign_of_disjoint h _ _

theorem hasFlag_makeVisible_other {flag : ReputationFlags} (h : Visible &&& flag = 0) :
    f.makeVisible.flags.hasFlag flag = f.flags.hasFlag flag :=
  hasFlag_assign_of_disjoint h _ _

end FactionState

/-! ## Flags that come from the default flags -/

/-- The faction can be made visible, if it is not. -/
def mayShow (flags : ReputationFlags) : Bool :=
  !flags.hasFlag Hidden && !(flags.hasFlag Header && !flags.hasFlag HeaderShowsBar)

/-- What the setters can make of the default flags `D`. -/
structure FromDefault (D F : ReputationFlags) : Prop where
  fixed : ∀ flag, Single flag → flag ≠ Visible → flag ≠ AtWar → flag ≠ Inactive →
    F.hasFlag flag = D.hasFlag flag
  visible : F.hasFlag Visible = true → D.hasFlag Visible = true ∨ mayShow D = true
  shown : D.hasFlag Visible = true → F.hasFlag Visible = true
  inactive : F.hasFlag Inactive = true →
    D.hasFlag Inactive = true ∨ FactionState.mayRest F = true

namespace FromDefault

variable {D : ReputationFlags} {f : FactionState}

theorem refl (D : ReputationFlags) : FromDefault D D :=
  ⟨fun _ _ _ _ _ => rfl, Or.inl, id, Or.inl⟩

theorem hasFlag_hiddenOrHeader (F : ReputationFlags) :
    F.hasFlag (Hidden ||| Header) = (F.hasFlag Hidden || F.hasFlag Header) := by
  simp only [hasFlag, UInt8.and_comm F, and_or_distrib, ne_eq, UInt8.or_eq_zero_iff, not_and_or,
    Bool.decide_or]

theorem mayShow_eq {F : ReputationFlags} (h : FromDefault D F) : mayShow F = mayShow D := by
  unfold mayShow
  rw [h.fixed Hidden (by decide) (by decide) (by decide) (by decide),
    h.fixed Header (by decide) (by decide) (by decide) (by decide),
    h.fixed HeaderShowsBar (by decide) (by decide) (by decide) (by decide)]

theorem mayRest_eq {F : ReputationFlags} (h : FromDefault D F) : FactionState.mayRest F =
    (!D.hasFlag (Hidden ||| Header) && F.hasFlag Visible) := by
  unfold FactionState.mayRest
  rw [hasFlag_hiddenOrHeader, hasFlag_hiddenOrHeader,
    h.fixed Hidden (by decide) (by decide) (by decide) (by decide),
    h.fixed Header (by decide) (by decide) (by decide) (by decide)]

theorem disjoint {a b : ReputationFlags} (ha : Single a) (hb : Single b) (h : a ≠ b) :
    a &&& b = 0 := by
  simp only [Single, List.mem_cons, List.not_mem_nil, or_false] at ha hb
  rcases ha with rfl | rfl | rfl | rfl | rfl | rfl | rfl | rfl <;>
    rcases hb with rfl | rfl | rfl | rfl | rfl | rfl | rfl | rfl <;>
    first
    | exact absurd rfl h
    | rfl

theorem makeVisible (h : FromDefault D f.flags) (hshow : f.canShow = true) :
    FromDefault D f.makeVisible.flags := by
  have hvisible : f.makeVisible.flags.hasFlag Visible = true :=
    hasFlag_assign_self (by decide) _ _
  have hother : ∀ flag, Single flag → flag ≠ Visible →
      f.makeVisible.flags.hasFlag flag = f.flags.hasFlag flag := by
    intro flag hflag hne
    exact f.hasFlag_makeVisible_other (disjoint (by decide) hflag hne.symm)
  refine ⟨?_, ?_, fun _ => hvisible, ?_⟩
  · intro flag hflag hne hwar hrest
    rw [hother flag hflag hne, h.fixed flag hflag hne hwar hrest]
  · intro _
    right
    rw [← h.mayShow_eq]
    simp only [FactionState.canShow, Bool.and_eq_true] at hshow
    exact Bool.and_eq_true_iff.mpr hshow.1
  · intro hinactive
    rw [hother Inactive (by decide) (by decide)] at hinactive
    refine (h.inactive hinactive).imp_right ?_
    intro hrest
    unfold FactionState.mayRest at hrest ⊢
    rw [hvisible, hasFlag_hiddenOrHeader, hother Hidden (by decide) (by decide),
      hother Header (by decide) (by decide), ← hasFlag_hiddenOrHeader]
    exact Bool.and_eq_true_iff.mpr ⟨(Bool.and_eq_true_iff.mp hrest).1, rfl⟩

theorem setAtWar (h : FromDefault D f.flags) (rank : ReputationRank) (on : Bool) :
    FromDefault D (f.setAtWar rank on).flags := by
  have hother : ∀ flag, Single flag → flag ≠ AtWar →
      (f.setAtWar rank on).flags.hasFlag flag = f.flags.hasFlag flag := by
    intro flag hflag hne
    exact f.hasFlag_setAtWar_other rank on (disjoint (by decide) hflag hne.symm)
  refine ⟨?_, ?_, ?_, ?_⟩
  · intro flag hflag hne hwar hrest
    rw [hother flag hflag hwar, h.fixed flag hflag hne hwar hrest]
  · rw [hother Visible (by decide) (by decide)]
    exact h.visible
  · rw [hother Visible (by decide) (by decide)]
    exact h.shown
  · unfold FactionState.mayRest
    rw [hother Inactive (by decide) (by decide), hasFlag_hiddenOrHeader,
      hother Hidden (by decide) (by decide), hother Header (by decide) (by decide),
      hother Visible (by decide) (by decide), ← hasFlag_hiddenOrHeader]
    exact h.inactive

theorem setInactive (h : FromDefault D f.flags) (on : Bool) :
    FromDefault D (f.setInactive on).flags := by
  have hother : ∀ flag, Single flag → flag ≠ Inactive →
      (f.setInactive on).flags.hasFlag flag = f.flags.hasFlag flag := by
    intro flag hflag hne
    exact f.hasFlag_setInactive_other on (disjoint (by decide) hflag hne.symm)
  have hsame : FactionState.mayRest (f.setInactive on).flags = FactionState.mayRest f.flags := by
    unfold FactionState.mayRest
    rw [hasFlag_hiddenOrHeader, hother Hidden (by decide) (by decide),
      hother Header (by decide) (by decide), hother Visible (by decide) (by decide),
      ← hasFlag_hiddenOrHeader]
  refine ⟨?_, ?_, ?_, ?_⟩
  · intro flag hflag hne hwar hrest
    rw [hother flag hflag hrest, h.fixed flag hflag hne hwar hrest]
  · rw [hother Visible (by decide) (by decide)]
    exact h.visible
  · rw [hother Visible (by decide) (by decide)]
    exact h.shown
  · rw [hsame, f.hasFlag_setInactive_self]
    split
    · next hrest => exact fun _ => .inr hrest
    · exact h.inactive

theorem loadedVisible (h : FromDefault D f.flags) (db : ReputationFlags) :
    FromDefault D (f.loadedVisible db).flags := by
  unfold FactionState.loadedVisible
  split
  · split
    · next hshow => exact h.makeVisible hshow
    · exact h
  · exact h

theorem loadedInactive (h : FromDefault D f.flags) (db : ReputationFlags) :
    FromDefault D (f.loadedInactive db).flags := by
  unfold FactionState.loadedInactive
  split
  · exact h.setInactive true
  · exact h

theorem loadedWar (h : FromDefault D f.flags) (db : ReputationFlags) (rank : ReputationRank) :
    FromDefault D (f.loadedWar db rank).flags := by
  have hflag : FromDefault D (if db.hasFlag AtWar then f.setAtWar rank true
      else if f.flags.hasFlag Visible then f.setAtWar rank false else f).flags := by
    split
    · exact h.setAtWar rank true
    · split
      · exact h.setAtWar rank false
      · exact h
  unfold FactionState.loadedWar
  dsimp only
  split
  · exact hflag.setAtWar rank true
  · exact hflag

theorem loaded (h : FromDefault D f.flags) (rank : ReputationRank) (row : SavedRow) :
    FromDefault D (f.loaded rank row).flags := by
  have hreplayed : FromDefault D
      ((f.loadStanding row.standing).replayed row.flags.toUInt8 rank).flags :=
    ((FromDefault.loadedVisible (f := f.loadStanding row.standing) h _).loadedInactive _).loadedWar
      _ rank
  unfold FactionState.loaded
  dsimp only
  split
  · exact hreplayed
  · exact hreplayed

end FromDefault

/-! ## Which flags come back -/

/-- The flags `F` of a faction of this rank come back when the replay starts from `D`. -/
structure Restorable (D F : ReputationFlags) (rank : ReputationRank) : Prop where
  /-- nothing clears the inactive flag -/
  inactive : D.hasFlag Inactive = true → F.hasFlag Inactive = true
  /-- war is declared again -/
  war : F.hasFlag AtWar = true → D.hasFlag AtWar = true ∨ FactionState.mayFight rank F = true
  /-- peace is made only by visible factions, and not with those that are hostile -/
  peace : F.hasFlag AtWar = false → (D.hasFlag AtWar = true → F.hasFlag Visible = true) ∧
    (rank ≤ REP_HOSTILE → FactionState.mayFight rank F = false)

section Replay

variable {D F : ReputationFlags} {rank : ReputationRank} {row : SavedRow} {f : FactionState}

theorem mayFight_congr {F G : ReputationFlags} (h : F.hasFlag Peaceful = G.hasFlag Peaceful) :
    FactionState.mayFight rank F = FactionState.mayFight rank G := by
  rw [FactionState.mayFight, FactionState.mayFight, h]

theorem hasFlag_loadedVisible (hF : FromDefault D F) (hf : f.flags = D) :
    (f.loadedVisible F).flags.hasFlag Visible = F.hasFlag Visible := by
  unfold FactionState.loadedVisible
  by_cases hvisible : F.hasFlag Visible = true
  · rw [if_pos hvisible, hvisible]
    split
    · exact hasFlag_assign_self (by decide) _ _
    · next hshow =>
      -- what cannot be shown is shown already
      rw [hf]
      rcases hF.visible hvisible with hD | hmay
      · exact hD
      · rw [FactionState.canShow, hf, show (!D.hasFlag Hidden &&
          !(D.hasFlag Header && !D.hasFlag HeaderShowsBar)) = true from hmay] at hshow
        simpa using hshow
  · rw [if_neg hvisible, hf, Bool.eq_false_iff.mpr hvisible]
    by_contra hD
    exact hvisible (hF.shown (Bool.eq_true_of_not_eq_false hD))

theorem hasFlag_loadedInactive (hF : FromDefault D F) (hf : FromDefault D f.flags)
    (hvisible : f.flags.hasFlag Visible = F.hasFlag Visible)
    (hsame : f.flags.hasFlag Inactive = D.hasFlag Inactive) :
    (f.loadedInactive F).flags.hasFlag Inactive = F.hasFlag Inactive ↔
      (D.hasFlag Inactive = true → F.hasFlag Inactive = true) := by
  unfold FactionState.loadedInactive
  by_cases hinactive : F.hasFlag Inactive = true
  · rw [if_pos hinactive, hinactive, f.hasFlag_setInactive_self]
    refine iff_of_true ?_ (fun _ => rfl)
    split
    · rfl
    · next hrest =>
      rw [hsame]
      refine (hF.inactive hinactive).resolve_right ?_
      rwa [hF.mayRest_eq, ← hvisible, ← hf.mayRest_eq]
  · rw [if_neg hinactive, hsame, Bool.eq_false_iff.mpr hinactive]
    simp

theorem hasFlag_loadedWar (hvisible : f.flags.hasFlag Visible = F.hasFlag Visible)
    (hsame : f.flags.hasFlag AtWar = D.hasFlag AtWar)
    (hpeaceful : f.flags.hasFlag Peaceful = F.hasFlag Peaceful) :
    (f.loadedWar F rank).flags.hasFlag AtWar = F.hasFlag AtWar ↔
      (F.hasFlag AtWar = true →
        D.hasFlag AtWar = true ∨ FactionState.mayFight rank F = true) ∧
      (F.hasFlag AtWar = false → (D.hasFlag AtWar = true → F.hasFlag Visible = true) ∧
        (rank ≤ REP_HOSTILE → FactionState.mayFight rank F = false)) := by
  -- the guard of the setter sees the same at each of the three places
  have hset : ∀ (g : FactionState) (on : Bool), g.flags.hasFlag Peaceful = F.hasFlag Peaceful →
      (g.setAtWar rank on).flags.hasFlag AtWar =
        if on && !FactionState.mayFight rank F then g.flags.hasFlag AtWar else on := by
    intro g on hg
    rw [g.hasFlag_setAtWar_self, mayFight_congr hg]
  have hkeep : ∀ (g : FactionState) (on : Bool), g.flags.hasFlag Peaceful = F.hasFlag Peaceful →
      (g.setAtWar rank on).flags.hasFlag Peaceful = F.hasFlag Peaceful :=
    fun g on hg => (g.hasFlag_setAtWar_other rank on (by decide)).trans hg
  -- the flag before it is set for whoever is hostile
  have hlast : ∀ g : FactionState, g.flags.hasFlag Peaceful = F.hasFlag Peaceful →
      (if rank ≤ REP_HOSTILE then g.setAtWar rank true else g).flags.hasFlag AtWar =
        (g.flags.hasFlag AtWar ||
          decide (rank ≤ REP_HOSTILE) && FactionState.mayFight rank F) := by
    grind
  unfold FactionState.loadedWar
  grind

theorem hasFlag_loadedVisible_other {flag : ReputationFlags} (h : Visible &&& flag = 0)
    (db : ReputationFlags) : (f.loadedVisible db).flags.hasFlag flag = f.flags.hasFlag flag := by
  unfold FactionState.loadedVisible
  split
  · split
    · exact f.hasFlag_makeVisible_other h
    · rfl
  · rfl

theorem hasFlag_loadedInactive_other {flag : ReputationFlags} (h : Inactive &&& flag = 0)
    (db : ReputationFlags) : (f.loadedInactive db).flags.hasFlag flag = f.flags.hasFlag flag := by
  unfold FactionState.loadedInactive
  split
  · exact f.hasFlag_setInactive_other true h
  · rfl

theorem hasFlag_loadedWar_other {flag : ReputationFlags} (h : AtWar &&& flag = 0)
    (db : ReputationFlags) :
    (f.loadedWar db rank).flags.hasFlag flag = f.flags.hasFlag flag := by
  have hset : ∀ (g : FactionState) (on : Bool),
      (g.setAtWar rank on).flags.hasFlag flag = g.flags.hasFlag flag :=
    fun g on => g.hasFlag_setAtWar_other rank on h
  grind [FactionState.loadedWar]

/-- **The replay** of the flags on the default flags. -/
theorem flags_replayed (hF : FromDefault D F) (hf : f.flags = D) :
    ((f.replayed F rank).flags = F ↔ Restorable D F rank) ∧
      ∀ flag, Single flag → flag ≠ AtWar → flag ≠ Inactive →
        (f.replayed F rank).flags.hasFlag flag = F.hasFlag flag := by
  have hD : FromDefault D f.flags := hf ▸ FromDefault.refl D
  have hD2 := hD.loadedVisible F
  -- what each stage finds of the flags that are set by another
  have hvisible2 := hasFlag_loadedVisible hF hf
  have hinactive2 : (f.loadedVisible F).flags.hasFlag Inactive = D.hasFlag Inactive := by
    rw [hasFlag_loadedVisible_other (by decide), hf]
  have hvisible3 : ((f.loadedVisible F).loadedInactive F).flags.hasFlag Visible =
      F.hasFlag Visible := by
    rw [hasFlag_loadedInactive_other (by decide), hvisible2]
  have hwar3 : ((f.loadedVisible F).loadedInactive F).flags.hasFlag AtWar = D.hasFlag AtWar := by
    rw [hasFlag_loadedInactive_other (by decide), hasFlag_loadedVisible_other (by decide), hf]
  have hpeaceful3 : ((f.loadedVisible F).loadedInactive F).flags.hasFlag Peaceful =
      F.hasFlag Peaceful := by
    rw [hasFlag_loadedInactive_other (by decide), hasFlag_loadedVisible_other (by decide), hf,
      hF.fixed Peaceful (by decide) (by decide) (by decide) (by decide)]
  have hinactive := hasFlag_loadedInactive hF hD2 hvisible2 hinactive2
  have hwar := @hasFlag_loadedWar D F rank _ hvisible3 hwar3 hpeaceful3
  have hlast : (f.replayed F rank).flags.hasFlag Inactive =
      ((f.loadedVisible F).loadedInactive F).flags.hasFlag Inactive :=
    hasFlag_loadedWar_other (by decide) F
  have hrest : ∀ flag, Single flag → flag ≠ AtWar → flag ≠ Inactive →
      (f.replayed F rank).flags.hasFlag flag = F.hasFlag flag := by
    intro flag hflag hne hne'
    by_cases hv : flag = Visible
    · subst hv
      exact (hasFlag_loadedWar_other (by decide) F).trans hvisible3
    · have hfrom : FromDefault D (f.replayed F rank).flags := (hD2.loadedInactive F).loadedWar F rank
      rw [hfrom.fixed flag hflag hv hne hne', hF.fixed flag hflag hv hne hne']
  refine ⟨⟨?_, ?_⟩, hrest⟩
  · intro hsame
    have hI : ((f.loadedVisible F).loadedInactive F).flags.hasFlag Inactive =
        F.hasFlag Inactive := by rw [← hlast, hsame]
    have hW : (f.replayed F rank).flags.hasFlag AtWar = F.hasFlag AtWar := by rw [hsame]
    exact ⟨hinactive.mp hI, (hwar.mp hW).1, (hwar.mp hW).2⟩
  · intro h
    apply ReputationFlags.ext
    intro flag hflag
    by_cases hW : flag = AtWar
    · subst hW
      exact hwar.mpr ⟨h.war, h.peace⟩
    · by_cases hI : flag = Inactive
      · subst hI
        exact hlast.trans (hinactive.mpr h.inactive)
      · exact hrest flag hflag hW hI

end Replay

/-! ## Records and rows -/

/-- The row is read as the standing and the flags of the record. -/
def Holds (row : SavedRow) (f : FactionState) : Prop :=
  row.standing = f.standing ∧ row.flags.toUInt8 = f.flags

/-- What holds of a manager and the rows of its player: the flags come from the default flags,
and a record that needs no saving is held by its row. -/
structure Current (store : FactionStore) (p : Player) (rows : SavedRows) (m : ReputationMgr) :
    Prop where
  recorded : ReputationMgr.Recorded store m
  flags : ∀ f ∈ m.factions, ∀ e, store.lookupEntry f.ID = some e →
    FromDefault (p.getDefaultStateFlags e) f.flags
  saved : ∀ f ∈ m.factions, f.needSave = false →
    ∃ row, rows.get? f.ID.toUInt16 = some row ∧ Holds row f

/-- A record is changed and has to be saved, or what is saved of it is as it was. -/
def Touched (f f' : FactionState) : Prop :=
  f'.needSave = true ∨
    (f'.needSave = f.needSave ∧ f'.standing = f.standing ∧ f'.flags = f.flags)

theorem touched_setAtWar (f : FactionState) (rank : ReputationRank) (on : Bool) :
    Touched f (f.setAtWar rank on) := by
  unfold FactionState.setAtWar
  split
  · exact .inr ⟨rfl, rfl, rfl⟩
  · split
    · exact .inr ⟨rfl, rfl, rfl⟩
    · exact .inl rfl

theorem touched_setInactive (f : FactionState) (on : Bool) : Touched f (f.setInactive on) := by
  unfold FactionState.setInactive
  split
  · exact .inr ⟨rfl, rfl, rfl⟩
  · split
    · exact .inr ⟨rfl, rfl, rfl⟩
    · exact .inl rfl

theorem FactionState.replayed_keeps {P : FactionState → Prop} {f : FactionState}
    {db : ReputationFlags} {rank : ReputationRank} (hshow : ∀ f, P f → P f.makeVisible)
    (hwar : ∀ f on, P f → P (f.setAtWar rank on)) (hrest : ∀ f on, P f → P (f.setInactive on))
    (h : P f) : P (f.replayed db rank) := by
  grind [loadedInactive, loadedWar, replayed, loadedVisible]

theorem FactionState.standing_loaded (f : FactionState) (rank : ReputationRank) (row : SavedRow) :
    (f.loaded rank row).standing = row.standing := by
  have hreplayed : ((f.loadStanding row.standing).replayed row.flags.toUInt8 rank).standing =
      row.standing :=
    FactionState.replayed_keeps (P := fun f => f.standing = row.standing) (fun _ hf => hf)
      (fun f on hf => (f.standing_setAtWar rank on).trans hf)
      (fun f on hf => (f.standing_setInactive on).trans hf) rfl
  unfold FactionState.loaded
  dsimp only
  split
  · exact hreplayed
  · exact hreplayed

theorem FactionState.flags_loaded (f : FactionState) (rank : ReputationRank) (row : SavedRow) :
    (f.loaded rank row).flags =
      ((f.loadStanding row.standing).replayed row.flags.toUInt8 rank).flags := by
  unfold FactionState.loaded
  dsimp only
  split <;> rfl

theorem FactionState.loaded_holds {f : FactionState} {rank : ReputationRank} {row : SavedRow}
    (hneed : f.needSave = true) (h : (f.loaded rank row).needSave = false) :
    Holds row (f.loaded rank row) := by
  have hkeeps : ((f.loadStanding row.standing).replayed row.flags.toUInt8 rank).needSave =
      true := by
    have htouch : ∀ {f f' : FactionState}, Touched f f' → f.needSave = true →
        f'.needSave = true := by
      intro f f' ht hf
      rcases ht with htrue | ⟨hsame, -, -⟩
      · exact htrue
      · exact hsame.trans hf
    exact FactionState.replayed_keeps (P := fun f => f.needSave = true) (fun _ _ => rfl)
      (fun f on => htouch (touched_setAtWar f rank on)) (fun f on => htouch (touched_setInactive f on))
      hneed
  refine ⟨(f.standing_loaded rank row).symm, ?_⟩
  unfold FactionState.loaded at h ⊢
  dsimp only at h ⊢
  by_cases hflags : ((f.loadStanding row.standing).replayed row.flags.toUInt8 rank).flags =
      row.flags.toUInt8
  · rw [if_pos hflags]
    exact hflags.symm
  · rw [if_neg hflags] at h
    exact absurd (hkeeps.symm.trans h) (by decide)

namespace Current

open ReputationMgr

variable {rows : SavedRows}

theorem modify (h : Current store p rows m) {g : FactionState → FactionState}
    (hg : ∀ f, (g f).reputationListID = f.reputationListID) (hID : ∀ f, (g f).ID = f.ID)
    (hm : m'.factions = m.factions.modify id g hg)
    (hflags : ∀ f, m.factions.get? id = some f → ∀ D, FromDefault D f.flags →
      FromDefault D (g f).flags)
    (htouched : ∀ f, Touched f (g f)) : Current store p rows m' := by
  refine ⟨h.recorded.modify hg hm hID, ?_, ?_⟩
  · intro f hf e he
    rw [hm] at hf
    obtain ⟨f₀, hf₀, rfl⟩ := Table.mem_modify.mp hf
    by_cases hkey : f₀.reputationListID = id
    · rw [if_pos hkey] at he ⊢
      exact hflags f₀ (Table.get?_eq_some.mpr ⟨hf₀, hkey⟩) _ (h.flags f₀ hf₀ e (hID f₀ ▸ he))
    · rw [if_neg hkey] at he ⊢
      exact h.flags f₀ hf₀ e he
  · intro f hf hneed
    rw [hm] at hf
    obtain ⟨f₀, hf₀, rfl⟩ := Table.mem_modify.mp hf
    by_cases hkey : f₀.reputationListID = id
    · rw [if_pos hkey] at hneed ⊢
      rcases htouched f₀ with htrue | ⟨hsame, hstanding, hflag⟩
      · exact absurd (htrue.symm.trans hneed) (by decide)
      · obtain ⟨row, hrow, hholds⟩ := h.saved f₀ hf₀ (hsame.symm.trans hneed)
        refine ⟨row, (hID f₀).symm ▸ hrow, hholds.1.trans hstanding.symm, hholds.2.trans hflag.symm⟩
    · rw [if_neg hkey] at hneed ⊢
      exact h.saved f₀ hf₀ hneed

theorem kept : Kept store p (Current store p rows) where
  shown {m} id h := by
    unfold ReputationMgr.setVisibleState
    split
    · exact h
    · next f hf =>
      split
      · next hshow =>
        refine h.modify (g := FactionState.makeVisible) (fun _ => rfl) (fun _ => rfl) rfl ?_
          (fun _ => .inl rfl)
        intro f' hf' D hD
        obtain rfl := Option.some.inj (hf.symm.trans hf')
        exact hD.makeVisible hshow
      · exact h
  atWar id b h := h.modify (fun f => f.reputationListID_setAtWar _ _) (fun f => f.ID_setAtWar _ _)
    rfl (fun _ _ _ hD => hD.setAtWar _ _) (fun f => touched_setAtWar f _ _)
  inactive id b h := h.modify (fun f => f.reputationListID_setInactive _)
    (fun f => f.ID_setInactive _) rfl (fun _ _ _ hD => hD.setInactive _)
    (fun f => touched_setInactive f _)
  recorded standing h _ _ := h.modify
    (g := FactionState.setStanding (clamp standing - p.getBaseReputation _)) (fun _ => rfl)
    (fun _ => rfl) rfl (fun _ _ _ hD => hD) (fun _ => .inl rfl)
  increased h := ⟨⟨h.recorded.ofStore, h.recorded.complete⟩, h.flags, h.saved⟩
  sent {m} h := by
    refine ⟨(Recorded.kept (p := p)).sent h.recorded, ?_, ?_⟩
    · intro f hf e he
      obtain ⟨f₀, hf₀, rfl⟩ := List.mem_map.mp (show f ∈ m.factions.rows.map _ from hf)
      exact h.flags f₀ hf₀ e he
    · intro f hf hneed
      obtain ⟨f₀, hf₀, rfl⟩ := List.mem_map.mp (show f ∈ m.factions.rows.map _ from hf)
      exact h.saved f₀ hf₀ hneed

theorem ofInitialize (hd : store.DistinctIndexes) : Current store p rows (Initialize store p) := by
  refine ⟨Recorded.Initialize hd, ?_, ?_⟩
  · intro f hf e he
    obtain ⟨e', he', -, rfl⟩ := (mem_initialized hd).mp hf
    obtain rfl : e' = e := Option.some.inj ((FactionStore.lookupEntry_self he').symm.trans he)
    exact FromDefault.refl _
  · intro f hf hneed
    obtain ⟨e, -, -, rfl⟩ := (mem_initialized hd).mp hf
    cases hneed

theorem loadFromDB (hd : store.DistinctIndexes) :
    Current store p rows (loadFromDB store p rows) := by
  refine load_invariant hd ?_ (ofInitialize hd)
  intro m row e hm _ hrow he hfresh
  have hmem := (FactionStore.lookupEntry_eq_some.mp he.1).1
  have honly := loadRow_only (p := p) he.1 he.2 hfresh rfl
  refine ⟨hm.recorded.loadRow row, ?_, ?_⟩
  · intro f hf e' he'
    by_cases hkey : f.reputationListID = e.listID
    · have hthis : (m.loadRow store p row).factions.get? e.listID = some f :=
        hkey ▸ Table.get?_key hf
      obtain rfl := Option.some.inj (hthis.symm.trans honly.this)
      obtain ⟨hid, -⟩ := (hm.recorded.loadRow (p := p) row).of_get? hd hmem hthis
      rw [hid] at he'
      obtain rfl := Option.some.inj ((FactionStore.lookupEntry_self hmem).symm.trans he')
      exact FromDefault.loaded (f := initialState p e) (FromDefault.refl _) _ row
    · have hother := honly.other _ hkey
      rw [Table.get?_key hf] at hother
      exact hm.flags f (Table.get?_eq_some.mp hother.symm).1 e' he'
  · intro f hf hneed
    by_cases hkey : f.reputationListID = e.listID
    · have hthis : (m.loadRow store p row).factions.get? e.listID = some f :=
        hkey ▸ Table.get?_key hf
      obtain ⟨hid, -⟩ := (hm.recorded.loadRow (p := p) row).of_get? hd hmem hthis
      have hkeyrow : f.ID.toUInt16 = row.faction := by
        rw [hid, (FactionStore.lookupEntry_eq_some.mp he.1).2, UInt16.toUInt16_toUInt32]
      refine ⟨row, hkeyrow ▸ Table.get?_key hrow, ?_⟩
      obtain rfl := Option.some.inj (hthis.symm.trans honly.this)
      exact FactionState.loaded_holds rfl hneed
    · have hother := honly.other _ hkey
      rw [Table.get?_key hf] at hother
      exact hm.saved f (Table.get?_eq_some.mp hother.symm).1 hneed

end Current

/-! ## Saving -/

namespace ReputationMgr

/-- The ids fit into the 16 bits of the column they are stored in. -/
def ShortIDs (store : FactionStore) : Prop := ∀ e ∈ store.entries, e.ID.toNat < UInt16.size

theorem toUInt16_inj (hs : ShortIDs store) {a b : FactionEntry} (ha : a ∈ store.entries)
    (hb : b ∈ store.entries) (h : a.ID.toUInt16 = b.ID.toUInt16) : a = b := by
  refine FactionStore.id_inj ha hb (UInt32.toNat_inj.mp ?_)
  have hnat := congrArg UInt16.toNat h
  rw [UInt32.toNat_toUInt16, UInt32.toNat_toUInt16, Nat.mod_eq_of_lt (hs a ha),
    Nat.mod_eq_of_lt (hs b hb)] at hnat
  exact hnat

/-- The rows after these records have been saved. -/
def saveAll (rows : SavedRows) (fs : List FactionState) : SavedRows :=
  fs.foldl (fun rows f => if f.needSave then rows.insertOrAssign f.toRow else rows) rows

theorem get?_saveAll_of_not_mem {fs : List FactionState} {k : UInt16}
    (h : ∀ f ∈ fs, f.ID.toUInt16 ≠ k) (rows : SavedRows) :
    (saveAll rows fs).get? k = rows.get? k := by
  induction fs generalizing rows with
  | nil => rfl
  | cons f fs ih =>
    have hne : f.ID.toUInt16 ≠ k := h f List.mem_cons_self
    show (saveAll (if f.needSave then rows.insertOrAssign f.toRow else rows) fs).get? k = _
    rw [ih fun f' hf' => h f' (List.mem_cons_of_mem _ hf')]
    split
    · exact Table.get?_insertOrAssign_ne (a := f.toRow) rows hne.symm
    · rfl

theorem get?_saveAll {fs : List FactionState}
    (hnodup : (fs.map fun f => f.ID.toUInt16).Nodup) {f : FactionState} (hf : f ∈ fs)
    (rows : SavedRows) : (saveAll rows fs).get? f.ID.toUInt16 =
      if f.needSave then some f.toRow else rows.get? f.ID.toUInt16 := by
  induction fs generalizing rows with
  | nil => cases hf
  | cons f' fs ih =>
    rw [List.map_cons, List.nodup_cons] at hnodup
    show (saveAll (if f'.needSave then rows.insertOrAssign f'.toRow else rows) fs).get? _ = _
    rcases List.mem_cons.mp hf with rfl | hf
    · -- written here, and by no later record
      rw [get?_saveAll_of_not_mem]
      · split
        · exact Table.get?_insertOrAssign_self rows f.toRow
        · rfl
      · intro f' hf' heq
        exact hnodup.1 (heq ▸ List.mem_map_of_mem (f := fun f => f.ID.toUInt16) hf')
    · rw [ih hnodup.2 hf]
      have hne : f.ID.toUInt16 ≠ f'.ID.toUInt16 := by
        intro heq
        exact hnodup.1 (heq ▸ List.mem_map_of_mem (f := fun f => f.ID.toUInt16) hf)
      split
      · rfl
      · split
        · exact Table.get?_insertOrAssign_ne (a := f'.toRow) rows hne
        · rfl

variable {rows : SavedRows}

theorem nodup_saved (hs : ShortIDs store) (h : Recorded store m) :
    (m.factions.rows.map fun f => f.ID.toUInt16).Nodup := by
  refine List.Nodup.map_on ?_ (List.Nodup.of_map _ m.factions.nodup)
  intro f hf f' hf' heq
  obtain ⟨e, he, -, hID, hlist⟩ := h.ofStore f hf
  obtain ⟨e', he', -, hID', hlist'⟩ := h.ofStore f' hf'
  rw [← hID, ← hID'] at heq
  obtain rfl := toUInt16_inj hs he he' heq
  exact Table.eq_of_key hf hf' (hlist.symm.trans hlist')

/-- **After saving** every record is held by its row. -/
theorem saveToDB_holds (hs : ShortIDs store) (h : Current store p rows m) {f : FactionState}
    (hf : f ∈ m.factions) :
    ∃ row, (m.saveToDB rows).2.get? f.ID.toUInt16 = some row ∧ Holds row f := by
  have hget : (m.saveToDB rows).2.get? f.ID.toUInt16 =
      if f.needSave then some f.toRow else rows.get? f.ID.toUInt16 :=
    get?_saveAll (nodup_saved hs h.recorded) hf rows
  rw [hget]
  cases hneed : f.needSave with
  | true => exact ⟨f.toRow, rfl, rfl, UInt8.toUInt8_toUInt16 f.flags⟩
  | false => exact h.saved f hf hneed

theorem saveToDB_current (hs : ShortIDs store) (h : Current store p rows m) : Current store p (m.saveToDB rows).2 (m.saveToDB rows).1 := by
  have hmem : ∀ f ∈ (m.saveToDB rows).1.factions, ∃ f₀ ∈ m.factions,
      { f₀ with needSave := false } = f := by
    intro f hf
    exact List.mem_map.mp (show f ∈ m.factions.rows.map _ from hf)
  refine ⟨?_, ?_, ?_⟩
  · refine h.recorded.of_idents ?_
    show (List.map _ _).map _ = _
    rw [List.map_map]
    rfl
  · intro f hf e he
    obtain ⟨f₀, hf₀, rfl⟩ := hmem f hf
    exact h.flags f₀ hf₀ e he
  · intro f hf _
    obtain ⟨f₀, hf₀, rfl⟩ := hmem f hf
    obtain ⟨row, hrow, hholds⟩ := saveToDB_holds hs h hf₀
    exact ⟨row, hrow, hholds⟩

theorem session_current (hs : ShortIDs store)
    {s t : ReputationMgr × SavedRows} (hstart : Current store p s.2 s.1)
    (h : Reaches (Session store p) (fun _ _ => True) s t) : Current store p t.2 t.1 := by
  refine h.invariant (I := fun s => Current store p s.2 s.1) hstart ?_
  intro s t c hcurrent _ hstep
  cases c with
  | some c =>
    obtain rfl : t = (s.1.change store p c, s.2) := hstep
    exact Current.kept.change c hcurrent
  | none =>
    obtain rfl : t = s.1.saveToDB s.2 := hstep
    exact saveToDB_current hs hcurrent

/-! ## Loading what has been saved -/

theorem foldl_loadRow_other (hd : store.DistinctIndexes) {e : FactionEntry}
    (he : e ∈ store.entries) (hrep : e.canHaveReputation = true) {todo : List SavedRow}
    (hne : ∀ row ∈ todo, ¬ RowOf store row e) (hr : Recorded store m) :
    (todo.foldl (loadRow store p) m).factions.get? e.listID = m.factions.get? e.listID ∧
      Recorded store (todo.foldl (loadRow store p) m) := by
  induction todo generalizing m with
  | nil => exact ⟨rfl, hr⟩
  | cons row todo ih =>
    obtain ⟨hget, hrec⟩ := ih (fun row' hrow' => hne row' (List.mem_cons_of_mem _ hrow'))
      (hr.loadRow (p := p) row)
    exact ⟨hget.trans (loadRow_other hd hr he hrep (hne row List.mem_cons_self)), hrec⟩

theorem get?_loadFromDB (hd : store.DistinctIndexes) {e : FactionEntry} {row : SavedRow}
    (hrow : row ∈ rows) (he : RowOf store row e) :
    (loadFromDB store p rows).factions.get? e.listID = some ((initialState p e).loaded
      (reputationToRank (p.getBaseReputation e + row.standing)) row) := by
  have hmem := (FactionStore.lookupEntry_eq_some.mp he.1).1
  obtain ⟨before, after, hsplit, -, hother⟩ := Table.rows_split (Table.get?_key hrow)
  have hne : ∀ row' ∈ before ++ after, ¬ RowOf store row' e := by
    intro row' hrow' he'
    exact hother row' hrow' (he'.faction_inj he)
  obtain ⟨hbefore, hrec⟩ := foldl_loadRow_other (p := p) hd hmem he.2
    (fun row' hrow' => hne row' (List.mem_append_left _ hrow')) (Recorded.Initialize hd)
  rw [get?_initialized hd hmem he.2] at hbefore
  have honly := loadRow_only (p := p) he.1 he.2 hbefore rfl
  obtain ⟨hafter, -⟩ := foldl_loadRow_other (p := p) hd hmem he.2
    (fun row' hrow' => hne row' (List.mem_append_right _ hrow')) (hrec.loadRow (p := p) row)
  unfold loadFromDB
  rw [hsplit, List.foldl_append, List.foldl_cons, hafter]
  exact honly.this

/-- A visible faction that is hostile from the beginning and not at war by default. -/
def neighbour : FactionStore where
  entries := [commonFaction 1 0 (-6000)]
  ordered := by decide
  numbered := by decide

/-- A faction whose number does not fit into the column of the rows. -/
def farFaction : FactionStore where
  entries := [commonFaction 65537 0 0]
  ordered := by decide
  numbered := by decide

end ReputationMgr

end EGServer.Reputation
