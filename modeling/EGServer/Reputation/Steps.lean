import EGServer.Reputation.ReputationMgr

/-!
# What the changes are made of

Whatever happens to a manager is put together from a few steps on single records: one is made
visible, its war or inactive flag is set, a standing is written and counted, or everything is
sent. An invariant that these steps keep is kept by every change; this is proved once, here.
-/

namespace EGServer.Reputation

open ReputationFlags

variable {store : FactionStore} {p : Player} {m m' : ReputationMgr} {id : RepListID}

namespace FactionState

variable (f : FactionState) (rank : ReputationRank) (b : Bool)

/-- What no step changes about a record. -/
def ident : UInt32 × RepListID := (f.ID, f.reputationListID)

@[simp] theorem ID_setAtWar : (f.setAtWar rank b).ID = f.ID := by
  unfold setAtWar
  split
  · rfl
  · split <;> rfl

@[simp] theorem standing_setAtWar : (f.setAtWar rank b).standing = f.standing := by
  unfold setAtWar
  split
  · rfl
  · split <;> rfl

@[simp] theorem reputationListID_setAtWar :
    (f.setAtWar rank b).reputationListID = f.reputationListID := by
  unfold setAtWar
  split
  · rfl
  · split <;> rfl

@[simp] theorem ID_setInactive : (f.setInactive b).ID = f.ID := by
  unfold setInactive
  split
  · rfl
  · split <;> rfl

@[simp] theorem standing_setInactive : (f.setInactive b).standing = f.standing := by
  unfold setInactive
  split
  · rfl
  · split <;> rfl

@[simp] theorem reputationListID_setInactive :
    (f.setInactive b).reputationListID = f.reputationListID := by
  unfold setInactive
  split
  · rfl
  · split <;> rfl

end FactionState

namespace ReputationMgr

/-! ## Steps and counters -/

@[simp] theorem factions_update (g : FactionState → FactionState) (hg) :
    (m.update id g hg).factions = m.factions.modify id g hg := rfl

@[simp] theorem factions_updateRankCounters (old new : ReputationRank) :
    (m.updateRankCounters old new).factions = m.factions := rfl

theorem setVisibleState_updateRankCounters (old new : ReputationRank) :
    (m.setVisibleState id).updateRankCounters old new =
      (m.updateRankCounters old new).setVisibleState id := by
  unfold setVisibleState
  rw [factions_updateRankCounters]
  split
  · rfl
  · split <;> rfl

/-- A standing is written and its rank counted. -/
def record (p : Player) (m : ReputationMgr) (e : FactionEntry) (f : FactionState)
    (standing : Int32) : ReputationMgr :=
  let baseRep := p.getBaseReputation e
  (m.update e.listID (FactionState.setStanding (standing - baseRep))
    (fun _ => rfl)).updateRankCounters (reputationToRank (f.standing + baseRep))
      (reputationToRank standing)

/-! ## What every step keeps -/

/-- The invariants that the steps keep. -/
structure Kept (store : FactionStore) (p : Player) (I : ReputationMgr → Prop) : Prop where
  shown : ∀ {m} id, I m → I (m.setVisibleState id)
  atWar : ∀ {m} id b, I m → I (m.setAtWarState store p id b)
  inactive : ∀ {m} id b, I m → I (m.setInactiveState id b)
  recorded : ∀ {m e f} standing, I m → e ∈ store.entries → m.factions.get? e.listID = some f →
    I (m.record p e f (clamp standing))
  increased : ∀ {m}, I m → I { m with sendFactionIncreased := true }
  sent : ∀ {m}, I m → I m.sendState

namespace Kept

variable {I : ReputationMgr → Prop} (h : Kept store p I)
include h

theorem setOneFactionReputation {gain : Int32 → Int32} {e : FactionEntry} {standing : Int32}
    {incremental : Bool} (he : e ∈ store.entries) (hm : I m) :
    I (m.setOneFactionReputation store p gain e standing incremental).1 := by
  unfold ReputationMgr.setOneFactionReputation
  split
  · exact hm
  · next f hf =>
    dsimp only
    generalize (if incremental then gain standing + (f.standing + p.getBaseReputation e)
      else standing) = total
    have hrecorded := h.recorded total hm he hf
    have hshown := h.shown e.listID hrecorded
    -- the counters are updated last, but no setter in between looks at them
    rw [record, ← setVisibleState_updateRankCounters] at hshown
    split
    · split
      · exact h.increased (h.atWar e.listID true hshown)
      · exact h.increased (h.atWar e.listID false hshown)
    · split
      · exact h.atWar e.listID true hshown
      · exact hshown

theorem spillTemplate {env : Spillover} {incremental : Bool} {lines : List (SpilloverLine × Nat)}
    (hm : I m) : I (m.spillTemplate store p env incremental lines) := by
  induction lines generalizing m with
  | nil => exact hm
  | cons line lines ih =>
    obtain ⟨line, i⟩ := line
    rw [ReputationMgr.spillTemplate]
    apply ih
    split
    · exact hm
    · next e he =>
      split
      · exact h.setOneFactionReputation (FactionStore.lookupEntry_eq_some.mp he).1 hm
      · exact hm

theorem spillSisters {env : Spillover} {e : FactionEntry} {incremental : Bool}
    {sisters : List (UInt32 × Nat)} {r : ReputationMgr × Bool} (hm : I r.1) :
    I (ReputationMgr.spillSisters store p env e incremental sisters r).1 := by
  induction sisters generalizing r with
  | nil => exact hm
  | cons sister sisters ih =>
    obtain ⟨id, i⟩ := sister
    obtain ⟨m, res⟩ := r
    rw [ReputationMgr.spillSisters]
    apply ih
    split
    · exact hm
    · next e' he' =>
      split
      · exact hm
      · split
        · exact h.setOneFactionReputation (FactionStore.lookupEntry_eq_some.mp he').1 hm
        · exact hm

theorem spillOver {env : Spillover} {e : FactionEntry} {incremental : Bool} (hm : I m) :
    I (m.spillOver store p env e incremental).1 := by
  unfold ReputationMgr.spillOver
  split
  · exact h.spillTemplate hm
  · -- to the parent, if it has a bar of its own
    dsimp only
    generalize hparent : (if ((env.getFactionTeamList e.ID).isNone && e.parentFactionID ≠ 0 &&
      e.spillsToParent) = true then _ else (m, env.getFactionTeamList e.ID)) = r
    have hr : I r.1 := by
      subst hparent
      split
      · split
        · exact hm
        · next parent hp =>
          split
          · split
            · exact h.setOneFactionReputation (FactionStore.lookupEntry_eq_some.mp hp).1 hm
            · exact hm
          · exact hm
      · exact hm
    split
    · exact hr
    · exact h.spillSisters hr

theorem setReputation {env : Spillover} {e : FactionEntry} {standing : Int32}
    {incremental spillOverOnly : Bool} (he : e ∈ store.entries) (hm : I m) :
    I (m.setReputation store p env e standing incremental spillOverOnly).1 := by
  unfold ReputationMgr.setReputation
  have hspilled : I (m.spillOver store p env e incremental).1 := h.spillOver hm
  dsimp only
  split
  · exact hspilled
  · split
    · exact h.sent hspilled
    · exact h.sent (h.setOneFactionReputation he hspilled)

theorem setVisible {e : FactionEntry} (hm : I m) : I (m.setVisible e) := by
  unfold ReputationMgr.setVisible
  split
  · exact h.shown e.listID hm
  · exact hm

/-- **Every change** keeps what the steps keep. -/
theorem change (c : Change) (hm : I m) : I (m.change store p c) := by
  cases c with
  | setReputation env faction standing incremental spillOverOnly =>
    rw [ReputationMgr.change]
    split
    · exact hm
    · next e he => exact h.setReputation (FactionStore.lookupEntry_eq_some.mp he).1 hm
  | setOneFactionReputation gain faction standing incremental =>
    rw [ReputationMgr.change]
    split
    · exact hm
    · next e he => exact h.setOneFactionReputation (FactionStore.lookupEntry_eq_some.mp he).1 hm
  | setVisible faction =>
    rw [ReputationMgr.change]
    split
    · exact hm
    · exact h.setVisible hm
  | setVisibleTemplate faction =>
    rw [ReputationMgr.change, ReputationMgr.setVisibleTemplate]
    split
    · exact hm
    · split
      · exact hm
      · split
        · exact hm
        · exact h.setVisible hm
  | setAtWar id on =>
    rw [ReputationMgr.change, ReputationMgr.setAtWar]
    split
    · exact hm
    · split
      · exact hm
      · exact h.atWar id on hm
  | setInactive id on => exact h.inactive id on hm

end Kept

/-! ## What is recorded -/

/-- Recorded are exactly the factions of the store that can have reputation. -/
structure Recorded (store : FactionStore) (m : ReputationMgr) : Prop where
  ofStore : ∀ f ∈ m.factions, ∃ e ∈ store.entries,
    e.canHaveReputation = true ∧ e.ID = f.ID ∧ e.listID = f.reputationListID
  complete : ∀ e ∈ store.entries, e.canHaveReputation = true →
    ∃ f, m.factions.get? e.listID = some f

namespace Recorded

theorem of_idents (h : Recorded store m)
    (hsame : m'.factions.rows.map FactionState.ident = m.factions.rows.map FactionState.ident) :
    Recorded store m' := by
  constructor
  · intro f hf
    have hident : f.ident ∈ m.factions.rows.map FactionState.ident :=
      hsame ▸ List.mem_map_of_mem hf
    obtain ⟨f₀, hf₀, heq⟩ := List.mem_map.mp hident
    obtain ⟨hID, hlist⟩ := Prod.mk.inj heq
    obtain ⟨e, he, hrep, hid, hl⟩ := h.ofStore f₀ hf₀
    exact ⟨e, he, hrep, hid.trans hID, hl.trans hlist⟩
  · intro e he hrep
    obtain ⟨f₀, hf₀⟩ := h.complete e he hrep
    obtain ⟨hmem, hkey⟩ := Table.get?_eq_some.mp hf₀
    have hident : f₀.ident ∈ m'.factions.rows.map FactionState.ident :=
      hsame ▸ List.mem_map_of_mem hmem
    obtain ⟨f, hf, heq⟩ := List.mem_map.mp hident
    exact ⟨f, Table.get?_eq_some.mpr ⟨hf, (Prod.mk.inj heq).2.trans hkey⟩⟩

theorem modify (h : Recorded store m) {g : FactionState → FactionState}
    (hg : ∀ f, (g f).reputationListID = f.reputationListID)
    (hm : m'.factions = m.factions.modify id g hg) (hID : ∀ f, (g f).ID = f.ID) :
    Recorded store m' := by
  refine h.of_idents ?_
  rw [hm]
  refine Table.map_modify _ _ hg ?_
  intro f
  exact Prod.ext (hID f) (hg f)

theorem setVisibleState (h : Recorded store m) : Recorded store (m.setVisibleState id) := by
  unfold ReputationMgr.setVisibleState
  split
  · exact h
  · split
    · exact h.modify (g := FactionState.makeVisible) (fun _ => rfl) rfl (fun _ => rfl)
    · exact h

theorem kept : Kept store p (Recorded store) where
  shown _ h := h.setVisibleState
  atWar _ _ h := h.modify (fun f => f.reputationListID_setAtWar _ _) rfl
    fun f => f.ID_setAtWar _ _
  inactive _ _ h := h.modify (fun f => f.reputationListID_setInactive _) rfl
    fun f => f.ID_setInactive _
  recorded standing h _ _ := h.modify
    (g := FactionState.setStanding (clamp standing - p.getBaseReputation _)) (fun _ => rfl) rfl fun _ => rfl
  increased h := ⟨h.ofStore, h.complete⟩
  sent h := by
    refine h.of_idents ?_
    show (List.map _ _).map _ = _
    rw [List.map_map]
    rfl

theorem of_get? (h : Recorded store m) (hd : store.DistinctIndexes) {e : FactionEntry}
    (he : e ∈ store.entries) {f : FactionState} (hf : m.factions.get? e.listID = some f) :
    f.ID = e.ID ∧ e.canHaveReputation = true := by
  obtain ⟨hmem, hkey⟩ := Table.get?_eq_some.mp hf
  obtain ⟨e', he', hrep, hid, hlist⟩ := h.ofStore f hmem
  obtain rfl := FactionStore.listID_inj hd he' he hrep (hlist.trans hkey)
  exact ⟨hid.symm, hrep⟩

end Recorded

/-- The rank of a record by itself. -/
def rankOf (store : FactionStore) (p : Player) (f : FactionState) : ReputationRank :=
  match store.lookupEntry f.ID with
  | some e => reputationToRank (p.getBaseReputation e + f.standing)
  | none => REP_HATED

theorem rankOf_eq {e : FactionEntry} (he : e ∈ store.entries) {f : FactionState}
    (hid : f.ID = e.ID) : rankOf store p f = reputationToRank (p.getBaseReputation e + f.standing) := by
  rw [rankOf, hid, FactionStore.lookupEntry_self he]

theorem getRank_eq {e : FactionEntry} {f : FactionState} (hrep : e.canHaveReputation = true)
    (hf : m.factions.get? e.listID = some f) :
    m.getRank p e = reputationToRank (p.getBaseReputation e + f.standing) := by
  unfold getRank getReputation getState
  rw [if_pos hrep, hf]

theorem assertedRank_eq (h : Recorded store m) {f : FactionState} (hf : f ∈ m.factions) :
    m.assertedRank p store f = rankOf store p f := by
  obtain ⟨e, he, hrep, hid, hlist⟩ := h.ofStore f hf
  have hget : m.factions.get? e.listID = some f := hlist ▸ Table.get?_key hf
  rw [rankOf_eq he hid.symm, ← getRank_eq hrep hget, assertedRank, ← hid,
    FactionStore.lookupEntry_self he]

end ReputationMgr

end EGServer.Reputation
