import EGServer.Reputation.Steps

/-!
# Loading, faction by faction

`Initialize` records one faction after the other, and `LoadFromDB` then goes through the rows;
each of them is a matter of one record. What a row makes of its record is `loadedState`.
-/

namespace EGServer.Reputation

open ReputationFlags

variable {store : FactionStore} {p : Player} {m m₀ : ReputationMgr} {id : RepListID}

/-! ## Initialize -/

namespace ReputationMgr

theorem rows_initializeFaction {e : FactionEntry} (hrep : e.canHaveReputation = true)
    (hnew : m.factions.get? e.listID = none) :
    (m.initializeFaction p e).factions.rows = m.factions.rows ++ [initialState p e] := by
  have hrows : (m.factions.insertOrAssign (initialState p e)).rows =
      m.factions.rows ++ [initialState p e] :=
    Table.rows_insertOrAssign_of_none (a := initialState p e) hnew
  unfold initializeFaction
  rw [if_pos hrep]
  dsimp only
  split <;> exact hrows

/-- What `Initialize` keeps, when every faction it records is new. -/
theorem initialize_foldl {I : ReputationMgr → Prop} {done todo : List FactionEntry}
    (hd : store.DistinctIndexes) (hall : store.entries = done ++ todo)
    (hstep : ∀ {m e}, I m → e ∈ store.entries → e.canHaveReputation = true →
      m.factions.get? e.listID = none → I (m.initializeFaction p e))
    (hrows : m.factions.rows =
      (done.filter FactionEntry.canHaveReputation).map (initialState p)) (hI : I m) :
    (todo.foldl (initializeFaction p) m).factions.rows =
        (store.entries.filter FactionEntry.canHaveReputation).map (initialState p) ∧
      I (todo.foldl (initializeFaction p) m) := by
  induction todo generalizing done m with
  | nil =>
    rw [List.append_nil] at hall
    rw [hall]
    exact ⟨hrows, hI⟩
  | cons e todo ih =>
    have he : e ∈ store.entries := by
      rw [hall]
      exact List.mem_append_right _ List.mem_cons_self
    have hall' : store.entries = (done ++ [e]) ++ todo := by
      rw [hall, List.append_assoc]
      rfl
    by_cases hrep : e.canHaveReputation = true
    · have hnew : m.factions.get? e.listID = none := by
        apply Table.get?_eq_none.mpr
        intro f hf hkey
        rw [Table.mem_def, hrows] at hf
        obtain ⟨e', he', rfl⟩ := List.mem_map.mp hf
        obtain ⟨hdone, hrep'⟩ := List.mem_filter.mp he'
        have hmem : e' ∈ store.entries := by
          rw [hall]
          exact List.mem_append_left _ hdone
        obtain rfl := FactionStore.listID_inj hd hmem he hrep' hkey
        -- the store does not repeat an entry
        have hordered := store.ordered
        grind
      refine ih hall' ?_ (hstep hI he hrep hnew)
      rw [rows_initializeFaction hrep hnew, hrows, List.filter_append,
        List.filter_cons_of_pos hrep, List.map_append]
      rfl
    · have hskip : m.initializeFaction p e = m := if_neg hrep
      rw [List.foldl_cons, hskip]
      refine ih hall' ?_ hI
      rw [hrows, List.filter_append, List.filter_cons_of_neg hrep, List.filter_nil,
        List.append_nil]

/-- **The rule of Initialize.** -/
theorem initialize_invariant {I : ReputationMgr → Prop} (hd : store.DistinctIndexes) (h0 : I {})
    (hstep : ∀ {m e}, I m → e ∈ store.entries → e.canHaveReputation = true →
      m.factions.get? e.listID = none → I (m.initializeFaction p e)) : I (Initialize store p) :=
  (initialize_foldl hd (show store.entries = [] ++ store.entries from rfl) hstep rfl h0).2

theorem rows_initialized (hd : store.DistinctIndexes) : (Initialize store p).factions.rows =
    (store.entries.filter FactionEntry.canHaveReputation).map (initialState p) :=
  (initialize_foldl (I := fun _ => True) hd (show store.entries = [] ++ store.entries from rfl)
    (fun _ _ _ _ => trivial) rfl trivial).1

theorem mem_initialized (hd : store.DistinctIndexes) {f : FactionState} :
    f ∈ (Initialize store p).factions ↔
      ∃ e ∈ store.entries, e.canHaveReputation = true ∧ initialState p e = f := by
  show f ∈ (Initialize store p).factions.rows ↔ _
  simp only [rows_initialized hd, List.mem_map, List.mem_filter, and_assoc]

theorem get?_initialized (hd : store.DistinctIndexes) {e : FactionEntry} (he : e ∈ store.entries)
    (hrep : e.canHaveReputation = true) :
    (Initialize store p).factions.get? e.listID = some (initialState p e) :=
  Table.get?_eq_some.mpr ⟨(mem_initialized hd).mpr ⟨e, he, hrep, rfl⟩, rfl⟩

theorem Recorded.Initialize (hd : store.DistinctIndexes) :
    Recorded store (Initialize store p) := by
  constructor
  · intro f hf
    obtain ⟨e, he, hrep, rfl⟩ := (mem_initialized hd).mp hf
    exact ⟨e, he, hrep, rfl, rfl⟩
  · intro e he hrep
    exact ⟨initialState p e, get?_initialized hd he hrep⟩

end ReputationMgr

/-! ## One record and the others -/

namespace FactionState

variable (db : ReputationFlags) (f : FactionState)

def loadedVisible : FactionState :=
  if db.hasFlag Visible then if f.canShow then f.makeVisible else f else f

def loadedInactive : FactionState := if db.hasFlag Inactive then f.setInactive true else f

/-- `loadWar` on the record of a faction of this rank. -/
def loadedWar (rank : ReputationRank) : FactionState :=
  let f :=
    if db.hasFlag AtWar then f.setAtWar rank true
    else if f.flags.hasFlag Visible then f.setAtWar rank false
    else f
  if rank ≤ REP_HOSTILE then f.setAtWar rank true else f

/-- The flags of a row are replayed on the record of a faction of this rank. -/
def replayed (rank : ReputationRank) : FactionState :=
  ((f.loadedVisible db).loadedInactive db).loadedWar db rank

/-- What a row makes of the record of its faction. -/
def loaded (rank : ReputationRank) (row : SavedRow) : FactionState :=
  let db : ReputationFlags := row.flags.toUInt8
  let f := (f.loadStanding row.standing).replayed db rank
  if f.flags = db then f.settle else f

end FactionState

/-- The record under `id` is now `f`; all others are as they were in `m₀`. -/
structure Only (m₀ m : ReputationMgr) (id : RepListID) (f : FactionState) : Prop where
  this : m.factions.get? id = some f
  other : ∀ k, k ≠ id → m.factions.get? k = m₀.factions.get? k

namespace Only

open ReputationMgr

variable {f : FactionState} (h : Only m₀ m id f)
include h

theorem update {g : FactionState → FactionState}
    (hg : ∀ f, (g f).reputationListID = f.reputationListID) : Only m₀ (m.update id g hg) id (g f) := by
  constructor
  · rw [factions_update, Table.get?_modify_self, h.this]
    rfl
  · intro k hk
    rw [factions_update, Table.get?_modify_ne _ _ hk, h.other k hk]

theorem shown : Only m₀ (m.setVisibleState id) id (if f.canShow then f.makeVisible else f) := by
  unfold setVisibleState
  rw [h.this]
  dsimp only
  split
  · have hnew := h.update (g := FactionState.makeVisible) (fun _ => rfl)
    exact ⟨hnew.this, hnew.other⟩
  · exact h

theorem flagsAt : m.flagsAt id = f.flags := by
  unfold ReputationMgr.flagsAt
  rw [h.this]

end Only

/-- A stage of loading a row: the record of `e` is now `f`, and has its standing. -/
structure Stage (m₀ : ReputationMgr) (e : FactionEntry) (row : SavedRow) (m : ReputationMgr)
    (f : FactionState) : Prop where
  only : Only m₀ m e.listID f
  ID : f.ID = e.ID
  standing : f.standing = row.standing

namespace Stage

open ReputationMgr

variable {e : FactionEntry} {row : SavedRow} {f : FactionState} (h : Stage m₀ e row m f)
include h

theorem ite {c : Prop} [Decidable c] {m' : ReputationMgr} {f' : FactionState}
    (h' : Stage m₀ e row m' f') :
    Stage m₀ e row (if c then m' else m) (if c then f' else f) := by
  split
  · exact h'
  · exact h

theorem shown : Stage m₀ e row (m.setVisibleState e.listID)
    (if f.canShow then f.makeVisible else f) := by
  refine ⟨h.only.shown, ?_, ?_⟩
  · split <;> exact h.ID
  · split <;> exact h.standing

theorem inactive (b : Bool) : Stage m₀ e row (m.setInactiveState e.listID b) (f.setInactive b) :=
  ⟨h.only.update (fun f => f.reputationListID_setInactive _), (f.ID_setInactive b).trans h.ID,
    (f.standing_setInactive b).trans h.standing⟩

theorem settle (db : ReputationFlags) :
    Stage m₀ e row
      (if m.flagsAt e.listID = db then m.update e.listID FactionState.settle (fun _ => rfl) else m)
      (if f.flags = db then f.settle else f) := by
  rw [h.only.flagsAt]
  exact h.ite ⟨h.only.update (g := FactionState.settle) (fun _ => rfl), h.ID, h.standing⟩

variable (hrep : e.canHaveReputation = true)
include hrep

theorem getRank : m.getRank p e = reputationToRank (p.getBaseReputation e + row.standing) := by
  rw [getRank_eq hrep h.only.this, h.standing]

theorem atWar (he : e ∈ store.entries) (b : Bool) :
    Stage m₀ e row (m.setAtWarState store p e.listID b)
      (f.setAtWar (reputationToRank (p.getBaseReputation e + row.standing)) b) := by
  have hrank : m.assertedRank p store f =
      reputationToRank (p.getBaseReputation e + row.standing) := by
    rw [assertedRank, h.ID, FactionStore.lookupEntry_self he]
    exact h.getRank hrep
  rw [← hrank]
  exact ⟨h.only.update (fun f => f.reputationListID_setAtWar _ _), (f.ID_setAtWar _ b).trans h.ID,
    (f.standing_setAtWar _ b).trans h.standing⟩

theorem war (he : e ∈ store.entries) (db : ReputationFlags) :
    Stage m₀ e row (m.loadWar store p e db)
      (f.loadedWar db (reputationToRank (p.getBaseReputation e + row.standing))) := by
  unfold loadWar FactionState.loadedWar
  rw [h.only.flagsAt]
  have hflag := (h.ite (c := f.flags.hasFlag Visible = true)
    (h.atWar (p := p) hrep he false)).ite (c := db.hasFlag AtWar = true) (h.atWar (p := p) hrep he true)
  have hhostile := hflag.ite (c := reputationToRank (p.getBaseReputation e + row.standing) ≤
    REP_HOSTILE) (hflag.atWar (p := p) hrep he true)
  dsimp only
  rw [hflag.getRank hrep]
  exact hhostile

end Stage

namespace ReputationMgr

/-- **A row is loaded** into the record of its faction and into no other. -/
theorem loadRow_only {row : SavedRow} {e : FactionEntry} {f : FactionState}
    (he : store.lookupEntry row.faction.toUInt32 = some e) (hrep : e.canHaveReputation = true)
    (hf : m.factions.get? e.listID = some f) (hID : f.ID = e.ID) :
    Only m (m.loadRow store p row) e.listID
      (f.loaded (reputationToRank (p.getBaseReputation e + row.standing)) row) := by
  have hmem := (FactionStore.lookupEntry_eq_some.mp he).1
  have h0 : Only m m e.listID f := ⟨hf, fun _ _ => rfl⟩
  have hloaded := h0.update (g := FactionState.loadStanding row.standing) (fun _ => rfl)
  -- counting the rank does not touch the records
  have h1 : Stage m e row ((m.update e.listID (FactionState.loadStanding row.standing)
      (fun _ => rfl)).updateRankCounters (reputationToRank (p.getBaseReputation e))
        (reputationToRank (p.getBaseReputation e + row.standing)))
      (f.loadStanding row.standing) :=
    ⟨⟨hloaded.this, hloaded.other⟩, hID, rfl⟩
  have h2 := h1.ite (c := hasFlag row.flags.toUInt8 Visible = true) h1.shown
  have h3 := h2.ite (c := hasFlag row.flags.toUInt8 Inactive = true) (h2.inactive true)
  have h4 := h3.war (p := p) hrep hmem row.flags.toUInt8
  have h5 := h4.settle row.flags.toUInt8
  unfold loadRow FactionState.loaded FactionState.replayed
  rw [he]
  dsimp only
  rw [if_pos hrep]
  exact h5.only

theorem loadRow_of_none {row : SavedRow} (h : store.lookupEntry row.faction.toUInt32 = none) :
    m.loadRow store p row = m := by
  unfold loadRow
  rw [h]

theorem loadRow_of_not {row : SavedRow} {e : FactionEntry}
    (he : store.lookupEntry row.faction.toUInt32 = some e) (hrep : ¬ e.canHaveReputation = true) :
    m.loadRow store p row = m := by
  unfold loadRow
  rw [he]
  exact if_neg hrep

/-- The faction of a row. -/
def RowOf (store : FactionStore) (row : SavedRow) (e : FactionEntry) : Prop :=
  store.lookupEntry row.faction.toUInt32 = some e ∧ e.canHaveReputation = true

theorem RowOf.faction_inj {row row' : SavedRow} {e : FactionEntry} (h : RowOf store row e)
    (h' : RowOf store row' e) : row.faction = row'.faction := by
  have hsame := (FactionStore.lookupEntry_eq_some.mp h.1).2.symm.trans
    (FactionStore.lookupEntry_eq_some.mp h'.1).2
  exact UInt16.toUInt32_inj.mp hsame

theorem loadRow_other (hd : store.DistinctIndexes) (hr : Recorded store m) {row : SavedRow}
    {e : FactionEntry} (he : e ∈ store.entries) (hrep : e.canHaveReputation = true)
    (hne : ¬ RowOf store row e) :
    (m.loadRow store p row).factions.get? e.listID = m.factions.get? e.listID := by
  cases hrow : store.lookupEntry row.faction.toUInt32 with
  | none => rw [loadRow_of_none hrow]
  | some e' =>
    by_cases hrep' : e'.canHaveReputation = true
    · have hmem := (FactionStore.lookupEntry_eq_some.mp hrow).1
      obtain ⟨f, hf⟩ := hr.complete e' hmem hrep'
      refine (loadRow_only hrow hrep' hf (hr.of_get? hd hmem hf).1).other _ ?_
      intro hkey
      obtain rfl := FactionStore.listID_inj hd he hmem hrep hkey
      exact hne ⟨hrow, hrep'⟩
    · rw [loadRow_of_not hrow hrep']

theorem Kept.loadRow {I : ReputationMgr → Prop} (h : Kept store p I) {row : SavedRow}
    (hload : ∀ e, RowOf store row e → I ((m.update e.listID
      (FactionState.loadStanding row.standing) (fun _ => rfl)).updateRankCounters
        (reputationToRank (p.getBaseReputation e))
        (reputationToRank (p.getBaseReputation e + row.standing))))
    (hsettle : ∀ {m : ReputationMgr} id, I m → I (m.update id FactionState.settle (fun _ => rfl)))
    (hm : I m) : I (m.loadRow store p row) := by
  unfold ReputationMgr.loadRow
  split
  · exact hm
  · next e he =>
    split
    · next hrep =>
      have h1 := hload e ⟨he, hrep⟩
      dsimp only
      generalize (m.update e.listID (FactionState.loadStanding row.standing)
        (fun _ => rfl)).updateRankCounters _ _ = m1 at h1 ⊢
      have hite : ∀ {c : Prop} [Decidable c] {m m' : ReputationMgr}, I m' → I m →
          I (if c then m' else m) := by
        intro c _ m m' hm' hm
        split
        · exact hm'
        · exact hm
      have h2 := hite (c := hasFlag row.flags.toUInt8 Visible = true) (h.shown e.listID h1) h1
      have h3 := hite (c := hasFlag row.flags.toUInt8 Inactive = true)
        (h.inactive e.listID true h2) h2
      refine hite (hsettle e.listID ?_) ?_ <;>
        exact hite (h.atWar _ true (hite (h.atWar _ true h3) (hite (h.atWar _ false h3) h3)))
          (hite (h.atWar _ true h3) (hite (h.atWar _ false h3) h3))
    · exact hm

theorem Recorded.loadRow (h : Recorded store m) (row : SavedRow) :
    Recorded store (m.loadRow store p row) := by
  refine Recorded.kept.loadRow ?_ ?_ h
  · intro e _
    exact h.modify (g := FactionState.loadStanding row.standing) (fun _ => rfl) rfl (fun _ => rfl)
  · intro m id hm
    exact hm.modify (g := FactionState.settle) (fun _ => rfl) rfl (fun _ => rfl)

/-! ## All rows -/

theorem load_foldl {I : ReputationMgr → Prop} (hd : store.DistinctIndexes) {todo : List SavedRow}
    (hnodup : (todo.map SavedRow.faction).Nodup)
    (hstep : ∀ {m row e}, I m → Recorded store m → row ∈ todo → RowOf store row e →
      m.factions.get? e.listID = some (initialState p e) → I (m.loadRow store p row))
    (hr : Recorded store m)
    (hfresh : ∀ row ∈ todo, ∀ e, RowOf store row e →
      m.factions.get? e.listID = some (initialState p e)) (hI : I m) :
    I (todo.foldl (loadRow store p) m) := by
  induction todo generalizing m with
  | nil => exact hI
  | cons row todo ih =>
    rw [List.map_cons, List.nodup_cons] at hnodup
    refine ih hnodup.2 (fun hI hr hrow => hstep hI hr (List.mem_cons_of_mem _ hrow))
      (hr.loadRow row) ?_ ?_
    · intro row' hrow' e he
      have hne : ¬ RowOf store row e := by
        intro hsame
        exact hnodup.1 (hsame.faction_inj he ▸ List.mem_map_of_mem hrow')
      have hmem := (FactionStore.lookupEntry_eq_some.mp he.1).1
      rw [loadRow_other hd hr hmem he.2 hne]
      exact hfresh row' (List.mem_cons_of_mem _ hrow') e he
    · cases hrow : store.lookupEntry row.faction.toUInt32 with
      | none => rwa [loadRow_of_none hrow]
      | some e =>
        by_cases hrep : e.canHaveReputation = true
        · exact hstep hI hr List.mem_cons_self ⟨hrow, hrep⟩
            (hfresh row List.mem_cons_self e ⟨hrow, hrep⟩)
        · rwa [loadRow_of_not hrow hrep]

/-- **The rule of LoadFromDB.** A row finds the record of its faction as `Initialize` left it. -/
theorem load_invariant {I : ReputationMgr → Prop} {rows : SavedRows} (hd : store.DistinctIndexes)
    (hstep : ∀ {m row e}, I m → Recorded store m → row ∈ rows → RowOf store row e →
      m.factions.get? e.listID = some (initialState p e) → I (m.loadRow store p row))
    (h0 : I (Initialize store p)) : I (loadFromDB store p rows) := by
  refine load_foldl hd rows.nodup hstep (Recorded.Initialize hd) ?_ h0
  intro row _ e he
  exact get?_initialized hd (FactionStore.lookupEntry_eq_some.mp he.1).1 he.2

theorem Recorded.loadFromDB (hd : store.DistinctIndexes) (rows : SavedRows) :
    Recorded store (loadFromDB store p rows) :=
  load_invariant hd (fun hm _ _ _ _ => hm.loadRow _) (Recorded.Initialize hd)

end ReputationMgr

end EGServer.Reputation
