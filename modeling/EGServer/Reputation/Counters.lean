import EGServer.Reputation.Loading

/-!
# The counters of ranks and of visible factions

The four counters are changed by one or by none at a time, from an old rank that every path
finds in its own way: the rank before the change, the base rank when a row is loaded, and
`REP_HOSTILE`, which counts for nothing, when a faction is first recorded. Held against the
records they are the numbers of records, as far as a `uint8` goes.
-/

namespace EGServer.Reputation.ReputationMgr

open ReputationFlags

variable {store : FactionStore} {p : Player} {m m' : ReputationMgr} {id : RepListID}

/-! ## One counter -/

theorem countRank_eq {rank old new : ReputationRank} {n n' : Nat}
    (h : n' + (decide (rank ≤ old)).toNat = n + (decide (rank ≤ new)).toNat) :
    countRank rank old new (.ofNat n) = .ofNat n' := by
  unfold countRank
  by_cases hold : rank ≤ old <;> by_cases hnew : rank ≤ new <;>
    simp only [hold, hnew, decide_true, decide_false, Bool.toNat_true, Bool.toNat_false, if_true,
      if_false] at h ⊢
  · obtain rfl : n' = n := by omega
    rw [UInt8.sub_add_cancel]
  · obtain rfl : n = n' + 1 := by omega
    rw [UInt8.ofNat_add]
    exact UInt8.add_sub_cancel _ _
  · obtain rfl : n' = n + 1 := by omega
    rw [UInt8.ofNat_add]
    rfl
  · obtain rfl : n' = n := by omega
    rfl

theorem ofNat_ne_zero {n : Nat} (hpos : 0 < n) (hle : n ≤ 255) : UInt8.ofNat n ≠ 0 := by
  intro h
  have hnat := congrArg UInt8.toNat h
  rw [UInt8.toNat_ofNat_of_lt' (by show n < 256; omega)] at hnat
  have hzero : (0 : UInt8).toNat = 0 := rfl
  omega

/-! ## What is counted -/

/-- The record is of this rank or a higher one. -/
def ranked (store : FactionStore) (p : Player) (rank : ReputationRank) (f : FactionState) : Bool :=
  rank ≤ rankOf store p f

def isVisible (f : FactionState) : Bool := f.flags.hasFlag Visible

/-- Base and standing of a record together, without wrapping. -/
def InBounds (store : FactionStore) (p : Player) (f : FactionState) : Prop :=
  ∀ e, store.lookupEntry f.ID = some e →
    reputation_Bottom.toInt ≤ (p.getBaseReputation e).toInt + f.standing.toInt ∧
      (p.getBaseReputation e).toInt + f.standing.toInt ≤ reputation_Cap.toInt

/-- The counters are the numbers of records. -/
structure Counted (store : FactionStore) (p : Player) (m : ReputationMgr) : Prop where
  exalted : m.exaltedFactionCount = .ofNat (m.factions.rows.countP (ranked store p REP_EXALTED))
  revered : m.reveredFactionCount = .ofNat (m.factions.rows.countP (ranked store p REP_REVERED))
  honored : m.honoredFactionCount = .ofNat (m.factions.rows.countP (ranked store p REP_HONORED))
  visible : m.visibleFactionCount = .ofNat (m.factions.rows.countP isVisible)
  unwrapped : m.factions.rows.length ≤ 255 → m.wrapped = false

/-- The base reputations are standings themselves. -/
def BoundedBases (store : FactionStore) : Prop :=
  ∀ e ∈ store.entries, ∀ i, reputation_Bottom ≤ e.reputationBase i ∧
    e.reputationBase i ≤ reputation_Cap

theorem getBaseReputation_mem (hb : BoundedBases store) {e : FactionEntry}
    (he : e ∈ store.entries) : reputation_Bottom ≤ p.getBaseReputation e ∧
      p.getBaseReputation e ≤ reputation_Cap := by
  unfold Player.getBaseReputation
  split
  · decide
  · exact hb e he _

theorem clamp_mem (standing : Int32) :
    reputation_Bottom ≤ clamp standing ∧ clamp standing ≤ reputation_Cap := by
  unfold clamp
  split
  · decide
  · next hcap =>
    split
    · decide
    · next hbottom => exact ⟨Int32.not_lt.mp hbottom, Int32.not_lt.mp hcap⟩

theorem toInt_sub_of_mem {a b : Int32} (ha : reputation_Bottom ≤ a ∧ a ≤ reputation_Cap)
    (hb : reputation_Bottom ≤ b ∧ b ≤ reputation_Cap) : (a - b).toInt = a.toInt - b.toInt := by
  have hbottom : reputation_Bottom.toInt = -42000 := rfl
  have hcap : reputation_Cap.toInt = 42999 := rfl
  simp only [Int32.le_iff_toInt_le, hbottom, hcap] at ha hb
  rw [Int32.toInt_sub, Int.bmod_eq_of_le] <;> omega

/-! ## One record changed in place -/

theorem Counted.replace (h : Counted store p m) {g : FactionState → FactionState}
    (hg : ∀ f, (g f).reputationListID = f.reputationListID) {f : FactionState}
    (hf : m.factions.get? id = some f) (hvisible : isVisible (g f) = isVisible f) :
    Counted store p ((m.update id g hg).updateRankCounters (rankOf store p f)
      (rankOf store p (g f))) := by
  have hcount := fun q : FactionState → Bool => Table.countP_modify (p := q) hg hf
  refine ⟨?_, ?_, ?_, ?_, ?_⟩
  · show countRank _ _ _ m.exaltedFactionCount = _
    rw [h.exalted]
    exact countRank_eq (hcount (ranked store p REP_EXALTED))
  · show countRank _ _ _ m.reveredFactionCount = _
    rw [h.revered]
    exact countRank_eq (hcount (ranked store p REP_REVERED))
  · show countRank _ _ _ m.honoredFactionCount = _
    rw [h.honored]
    exact countRank_eq (hcount (ranked store p REP_HONORED))
  · show m.visibleFactionCount = _
    have hsame := hcount isVisible
    rw [hvisible, Nat.add_right_cancel_iff] at hsame
    rw [h.visible]
    exact congrArg UInt8.ofNat hsame.symm
  · intro hlen
    have hrows : m.factions.rows.length ≤ 255 := by
      rwa [factions_updateRankCounters, factions_update, Table.length_modify] at hlen
    -- the record itself is counted where the old rank counts
    have hpos : ∀ rank, rank ≤ rankOf store p f →
        UInt8.ofNat (m.factions.rows.countP (ranked store p rank)) ≠ 0 := by
      intro rank hrank
      refine ofNat_ne_zero ?_ (le_trans List.countP_le_length hrows)
      exact List.countP_pos_iff.mpr ⟨f, (Table.get?_eq_some.mp hf).1, decide_eq_true hrank⟩
    show (m.wrapped || _ || _ || _) = false
    simp only [Bool.or_eq_false_iff, Bool.and_eq_false_iff, decide_eq_false_iff_not]
    refine ⟨⟨⟨h.unwrapped hrows, ?_⟩, ?_⟩, ?_⟩
    · by_cases hrank : REP_EXALTED ≤ rankOf store p f
      · exact .inr (h.exalted ▸ hpos _ hrank)
      · exact .inl hrank
    · by_cases hrank : REP_REVERED ≤ rankOf store p f
      · exact .inr (h.revered ▸ hpos _ hrank)
      · exact .inl hrank
    · by_cases hrank : REP_HONORED ≤ rankOf store p f
      · exact .inr (h.honored ▸ hpos _ hrank)
      · exact .inl hrank

theorem rankOf_congr {f f' : FactionState} (hID : f'.ID = f.ID)
    (hstanding : f'.standing = f.standing) : rankOf store p f' = rankOf store p f := by
  rw [rankOf, rankOf, hID, hstanding]

theorem Counted.of_counts (h : Counted store p m)
    (hsame : { m' with factions := m.factions } = { m with sendFactionIncreased := m'.sendFactionIncreased })
    (hranked : ∀ rank, m'.factions.rows.countP (ranked store p rank) =
      m.factions.rows.countP (ranked store p rank))
    (hvisible : m'.factions.rows.countP isVisible = m.factions.rows.countP isVisible)
    (hlen : m'.factions.rows.length = m.factions.rows.length) : Counted store p m' := by
  obtain ⟨factions', visible', honored', revered', exalted', sent', wrapped'⟩ := m'
  simp only [ReputationMgr.mk.injEq, true_and] at hsame
  obtain ⟨hv, hh, hr, he, hw⟩ := hsame
  refine ⟨?_, ?_, ?_, ?_, ?_⟩
  · exact he.trans (h.exalted.trans (congrArg _ (hranked _).symm))
  · exact hr.trans (h.revered.trans (congrArg _ (hranked _).symm))
  · exact hh.trans (h.honored.trans (congrArg _ (hranked _).symm))
  · exact hv.trans (h.visible.trans (congrArg _ hvisible.symm))
  · intro hle
    exact hw.trans (h.unwrapped (hlen ▸ hle))

theorem Counted.update (h : Counted store p m) {g : FactionState → FactionState}
    (hg : ∀ f, (g f).reputationListID = f.reputationListID)
    (hrank : ∀ f, rankOf store p (g f) = rankOf store p f)
    (hvisible : ∀ f, isVisible (g f) = isVisible f) : Counted store p (m.update id g hg) := by
  have hcount : ∀ q : FactionState → Bool, (∀ f, q (g f) = q f) →
      (m.factions.modify id g hg).rows.countP q = m.factions.rows.countP q := by
    intro q hq
    cases hf : m.factions.get? id with
    | none => rw [Table.rows_modify_of_none hg hf]
    | some f =>
      have hmodify := Table.countP_modify (p := q) hg hf
      rwa [hq, Nat.add_right_cancel_iff] at hmodify
  refine h.of_counts rfl ?_ (hcount _ hvisible) (Table.length_modify _ _ hg)
  intro rank
  refine hcount _ ?_
  intro f
  rw [ranked, ranked, hrank]

theorem isVisible_setAtWar (f : FactionState) (rank : ReputationRank) (b : Bool) :
    isVisible (f.setAtWar rank b) = isVisible f := by
  unfold FactionState.setAtWar
  split
  · rfl
  · split
    · rfl
    · exact hasFlag_assign_of_disjoint (by decide) _ _

theorem isVisible_setInactive (f : FactionState) (b : Bool) :
    isVisible (f.setInactive b) = isVisible f := by
  unfold FactionState.setInactive
  split
  · rfl
  · split
    · rfl
    · exact hasFlag_assign_of_disjoint (by decide) _ _

theorem Counted.setAtWarState (h : Counted store p m) (b : Bool) :
    Counted store p (m.setAtWarState store p id b) :=
  h.update _ (fun f => rankOf_congr (f.ID_setAtWar _ _) (f.standing_setAtWar _ _))
    (fun f => isVisible_setAtWar f _ b)

theorem Counted.setInactiveState (h : Counted store p m) (b : Bool) :
    Counted store p (m.setInactiveState id b) :=
  h.update _ (fun f => rankOf_congr (f.ID_setInactive _) (f.standing_setInactive _))
    (fun f => isVisible_setInactive f b)

theorem Counted.setVisibleState (h : Counted store p m) :
    Counted store p (m.setVisibleState id) := by
  unfold ReputationMgr.setVisibleState
  split
  · exact h
  · next f hf =>
    split
    · next hshow =>
      have hcount := fun q : FactionState → Bool =>
        Table.countP_modify (f := FactionState.makeVisible) (p := q) (fun _ => rfl) hf
      have hranked : ∀ rank, (m.factions.modify id FactionState.makeVisible
          (fun _ => rfl)).rows.countP (ranked store p rank) =
            m.factions.rows.countP (ranked store p rank) := by
        intro rank
        have hsame := hcount (ranked store p rank)
        exact Nat.add_right_cancel hsame
      have hbefore : isVisible f = false := by
        simp only [FactionState.canShow, Bool.and_eq_true, Bool.not_eq_true'] at hshow
        exact hshow.2
      have hafter : isVisible f.makeVisible = true := hasFlag_assign_self (by decide) _ _
      have hvisible := hcount isVisible
      rw [hbefore, hafter, Bool.toNat_false, Bool.toNat_true, Nat.add_zero] at hvisible
      refine ⟨?_, ?_, ?_, ?_, ?_⟩
      · exact h.exalted.trans (congrArg _ (hranked _).symm)
      · exact h.revered.trans (congrArg _ (hranked _).symm)
      · exact h.honored.trans (congrArg _ (hranked _).symm)
      · show m.visibleFactionCount + 1 = .ofNat _
        rw [h.visible]
        show _ = UInt8.ofNat ((m.factions.modify id FactionState.makeVisible
          (fun _ => rfl)).rows.countP isVisible)
        rw [hvisible, UInt8.ofNat_add]
        rfl
      · intro hlen
        refine h.unwrapped (le_trans (le_of_eq ?_) hlen)
        exact (Table.length_modify (f := FactionState.makeVisible) _ _ (fun _ => rfl)).symm
    · exact h

/-! ## The invariant -/

/-- What holds of a manager in use. -/
structure Sound (store : FactionStore) (p : Player) (m : ReputationMgr) : Prop where
  recorded : Recorded store m
  counted : Counted store p m
  bounded : ∀ f ∈ m.factions, InBounds store p f

theorem InBounds.congr {f f' : FactionState} (h : InBounds store p f) (hID : f'.ID = f.ID)
    (hstanding : f'.standing = f.standing) : InBounds store p f' := by
  unfold InBounds
  rw [hID, hstanding]
  exact h

theorem bounded_modify {g : FactionState → FactionState}
    (hg : ∀ f, (g f).reputationListID = f.reputationListID)
    (h : ∀ f ∈ m.factions, InBounds store p f)
    (hnew : ∀ f, m.factions.get? id = some f → InBounds store p (g f)) :
    ∀ f ∈ m.factions.modify id g hg, InBounds store p f := by
  intro f hf
  obtain ⟨f₀, hf₀, rfl⟩ := Table.mem_modify.mp hf
  split
  · next hkey => exact hnew f₀ (Table.get?_eq_some.mpr ⟨hf₀, hkey⟩)
  · exact h f₀ hf₀

theorem add_sub_base (base standing : Int32) : base + (standing - base) = standing := by
  rw [Int32.add_comm, Int32.sub_add_cancel]

/-- **The steps keep the counters** and the bounds. -/
theorem Sound.kept (hd : store.DistinctIndexes) (hb : BoundedBases store) :
    Kept store p (Sound store p) where
  shown id h := by
    refine ⟨(Recorded.kept (p := p)).shown id h.recorded, h.counted.setVisibleState, ?_⟩
    unfold ReputationMgr.setVisibleState
    split
    · exact h.bounded
    · next f hf =>
      split
      · refine bounded_modify (g := FactionState.makeVisible) (fun _ => rfl) h.bounded ?_
        intro f hf
        exact (h.bounded f (Table.get?_eq_some.mp hf).1).congr rfl rfl
      · exact h.bounded
  atWar id b h := by
    refine ⟨Recorded.kept.atWar id b h.recorded, h.counted.setAtWarState b, ?_⟩
    refine bounded_modify (fun f => f.reputationListID_setAtWar _ _) h.bounded ?_
    intro f hf
    exact (h.bounded f (Table.get?_eq_some.mp hf).1).congr (f.ID_setAtWar _ _)
      (f.standing_setAtWar _ _)
  inactive id b h := by
    refine ⟨(Recorded.kept (p := p)).inactive id b h.recorded, h.counted.setInactiveState b, ?_⟩
    refine bounded_modify (fun f => f.reputationListID_setInactive _) h.bounded ?_
    intro f hf
    exact (h.bounded f (Table.get?_eq_some.mp hf).1).congr (f.ID_setInactive _)
      (f.standing_setInactive _)
  recorded {m e f} standing h he hf := by
    obtain ⟨hid, -⟩ := h.recorded.of_get? hd he hf
    have hnew : rankOf store p (f.setStanding (clamp standing - p.getBaseReputation e)) =
        reputationToRank (clamp standing) := by
      rw [rankOf_eq he (f := f.setStanding _) hid, FactionState.setStanding, add_sub_base]
    have hold : rankOf store p f = reputationToRank (f.standing + p.getBaseReputation e) := by
      rw [rankOf_eq he hid, Int32.add_comm]
    refine ⟨(Recorded.kept (p := p)).recorded standing h.recorded he hf, ?_, ?_⟩
    · rw [record, ← hold, ← hnew]
      exact h.counted.replace
        (g := FactionState.setStanding (clamp standing - p.getBaseReputation e))
        (fun _ => rfl) hf rfl
    · refine bounded_modify
        (g := FactionState.setStanding (clamp standing - p.getBaseReputation e))
        (fun _ => rfl) h.bounded ?_
      intro f₀ hf₀
      obtain rfl : f₀ = f := Option.some.inj (hf₀.symm.trans hf)
      intro e' he'
      have hsame : e' = e := by
        have hself : store.lookupEntry f₀.ID = some e := hid ▸ FactionStore.lookupEntry_self he
        exact Option.some.inj (he'.symm.trans hself)
      subst hsame
      have hmem := clamp_mem standing
      show _ ≤ _ + (clamp standing - p.getBaseReputation e').toInt ∧
        _ + (clamp standing - p.getBaseReputation e').toInt ≤ _
      rw [toInt_sub_of_mem hmem (getBaseReputation_mem hb he)]
      obtain ⟨hlow, hhigh⟩ := hmem
      rw [Int32.le_iff_toInt_le] at hlow hhigh
      omega
  increased h := ⟨⟨h.recorded.ofStore, h.recorded.complete⟩, h.counted.of_counts rfl (fun _ => rfl)
    rfl rfl, h.bounded⟩
  sent {m} h := by
    refine ⟨(Recorded.kept (p := p)).sent h.recorded, ?_, ?_⟩
    · refine h.counted.of_counts rfl ?_ ?_ ?_
      · intro rank
        show (m.factions.rows.map _).countP _ = _
        rw [List.countP_map]
        rfl
      · show (m.factions.rows.map _).countP _ = _
        rw [List.countP_map]
        rfl
      · exact List.length_map _
    · intro f hf
      obtain ⟨f₀, hf₀, rfl⟩ := List.mem_map.mp (show f ∈ m.factions.rows.map _ from hf)
      exact (h.bounded f₀ hf₀).congr rfl rfl

/-! ## Initialize -/

theorem rankOf_initialState {e : FactionEntry} (he : e ∈ store.entries) :
    rankOf store p (initialState p e) = p.getBaseRank e := by
  rw [rankOf_eq he (f := initialState p e) rfl]
  show reputationToRank (p.getBaseReputation e + 0) = _
  rw [Int32.add_zero]
  rfl

theorem Counted.initializeFaction (h : Counted store p m) {e : FactionEntry}
    (he : e ∈ store.entries) (hrep : e.canHaveReputation = true)
    (hnew : m.factions.get? e.listID = none) :
    Counted store p (m.initializeFaction p e) := by
  have hrows : (m.factions.insertOrAssign (initialState p e)).rows =
      m.factions.rows ++ [initialState p e] :=
    Table.rows_insertOrAssign_of_none (a := initialState p e) hnew
  have hcount : ∀ q : FactionState → Bool,
      (m.factions.insertOrAssign (initialState p e)).rows.countP q =
        m.factions.rows.countP q + (q (initialState p e)).toNat := by
    intro q
    rw [hrows, List.countP_append, List.countP_singleton]
    cases q (initialState p e) <;> rfl
  -- `REP_HOSTILE` has not been counted
  have hranked : ∀ rank : ReputationRank, REP_HOSTILE < rank →
      countRank rank REP_HOSTILE (p.getBaseRank e)
          (.ofNat (m.factions.rows.countP (ranked store p rank))) =
        .ofNat ((m.factions.insertOrAssign (initialState p e)).rows.countP
          (ranked store p rank)) := by
    intro rank hrank
    refine countRank_eq ?_
    rw [hcount, decide_eq_false (not_le.mpr hrank), ranked, rankOf_initialState he]
    rfl
  unfold ReputationMgr.initializeFaction
  rw [if_pos hrep]
  dsimp only
  refine ⟨?_, ?_, ?_, ?_, ?_⟩
  · split <;> exact (congrArg _ h.exalted).trans (hranked _ (by decide))
  · split <;> exact (congrArg _ h.revered).trans (hranked _ (by decide))
  · split <;> exact (congrArg _ h.honored).trans (hranked _ (by decide))
  · have hvisible := hcount isVisible
    split
    · next hflag =>
      rw [isVisible, hflag] at hvisible
      show m.visibleFactionCount + 1 = _
      rw [h.visible]
      refine Eq.trans ?_ (congrArg UInt8.ofNat hvisible.symm)
      rw [Bool.toNat_true, UInt8.ofNat_add]
      rfl
    · next hflag =>
      rw [isVisible, Bool.eq_false_iff.mpr hflag] at hvisible
      exact h.visible.trans (congrArg UInt8.ofNat hvisible.symm)
  · intro hlen
    have hall : (m.factions.insertOrAssign (initialState p e)).rows.length ≤ 255 := by
      revert hlen
      split <;> exact id
    have hle : m.factions.rows.length ≤ 255 := by
      rw [hrows, List.length_append] at hall
      omega
    have hwrapped : (m.wrapped || false || false || false) = false := by
      rw [h.unwrapped hle]
      rfl
    split <;> exact hwrapped

theorem Sound.Initialize (hd : store.DistinctIndexes) (hb : BoundedBases store) :
    Sound store p (Initialize store p) := by
  refine ⟨Recorded.Initialize hd, ?_, ?_⟩
  · refine initialize_invariant hd ⟨rfl, rfl, rfl, rfl, fun _ => rfl⟩ ?_
    intro m e hm he hrep hnew
    exact hm.initializeFaction he hrep hnew
  · intro f hf e he
    obtain ⟨e', he', -, rfl⟩ := (mem_initialized hd).mp hf
    have hself := FactionStore.lookupEntry_self he'
    obtain rfl : e' = e := Option.some.inj (hself.symm.trans he)
    obtain ⟨hlow, hhigh⟩ := getBaseReputation_mem (p := p) hb he'
    rw [Int32.le_iff_toInt_le] at hlow hhigh
    show _ ≤ _ + (0 : Int32).toInt ∧ _ + (0 : Int32).toInt ≤ _
    rw [Int32.toInt_zero]
    omega

/-! ## LoadFromDB -/

/-- The standings of these rows are those of a server: base and standing are within the bounds. -/
def Written (store : FactionStore) (p : Player) (rows : SavedRows) : Prop :=
  ∀ row ∈ rows, ∀ e, RowOf store row e →
    reputation_Bottom.toInt ≤ (p.getBaseReputation e).toInt + row.standing.toInt ∧
      (p.getBaseReputation e).toInt + row.standing.toInt ≤ reputation_Cap.toInt

theorem Sound.loadFromDB (hd : store.DistinctIndexes) (hb : BoundedBases store) {rows : SavedRows}
    (hw : Written store p rows) : Sound store p (loadFromDB store p rows) := by
  refine load_invariant hd ?_ (Sound.Initialize hd hb)
  intro m row e hm _ hrow he hfresh
  refine (Sound.kept hd hb).loadRow ?_ ?_ hm
  · intro e' he'
    obtain rfl : e = e' := Option.some.inj (he.1.symm.trans he'.1)
    have hmem := (FactionStore.lookupEntry_eq_some.mp he.1).1
    refine ⟨?_, ?_, ?_⟩
    · exact hm.recorded.modify (g := FactionState.loadStanding row.standing) (fun _ => rfl) rfl
        (fun _ => rfl)
    · -- the rank counted so far is the base rank
      have hold : rankOf store p (initialState p e) =
          reputationToRank (p.getBaseReputation e) := rankOf_initialState hmem
      have hnew : rankOf store p ((initialState p e).loadStanding row.standing) =
          reputationToRank (p.getBaseReputation e + row.standing) :=
        rankOf_eq hmem (f := (initialState p e).loadStanding row.standing) rfl
      rw [← hold, ← hnew]
      exact hm.counted.replace (g := FactionState.loadStanding row.standing) (fun _ => rfl) hfresh
        rfl
    · refine bounded_modify (g := FactionState.loadStanding row.standing) (fun _ => rfl)
        hm.bounded ?_
      intro f hf e' he'
      obtain rfl := Option.some.inj (hf.symm.trans hfresh)
      obtain rfl : e = e' := Option.some.inj ((FactionStore.lookupEntry_self hmem).symm.trans he')
      exact hw row hrow e he
  · intro m id hm
    refine ⟨?_, ?_, ?_⟩
    · exact hm.recorded.modify (g := FactionState.settle) (fun _ => rfl) rfl (fun _ => rfl)
    · exact hm.counted.update (g := FactionState.settle) (fun _ => rfl) (fun _ => rfl)
        (fun _ => rfl)
    · refine bounded_modify (g := FactionState.settle) (fun _ => rfl) hm.bounded ?_
      intro f hf
      exact (hm.bounded f (Table.get?_eq_some.mp hf).1).congr rfl rfl

/-! ## Every run -/

theorem Sound.reaches (hd : store.DistinctIndexes) (hb : BoundedBases store) {start : ReputationMgr}
    (hstart : Sound store p start) (h : Reaches (Changes store p) (fun _ _ => True) start m) :
    Sound store p m := by
  refine h.invariant hstart ?_
  intro s t c hs _ hstep
  obtain rfl : t = s.change store p c := hstep
  exact (Sound.kept hd hb).change c hs

/-- How many recorded factions are of a rank or a higher one, by `GetRank`. -/
def rankCount (store : FactionStore) (p : Player) (m : ReputationMgr) (rank : ReputationRank) :
    Nat :=
  m.factions.rows.countP fun f => decide (rank ≤ m.assertedRank p store f)

theorem countP_ranked (h : Recorded store m) (rank : ReputationRank) :
    m.factions.rows.countP (ranked store p rank) = rankCount store p m rank := by
  refine List.countP_congr ?_
  intro f hf
  rw [ranked, assertedRank_eq h hf]

/-- **The counters of a manager in use** are, modulo 256, the numbers of recorded factions of the
rank or a higher one and of visible factions, and every standing is within its bounds. As long as
no more than 255 factions are recorded, they are these numbers, and no counter has been
decremented below 0. -/
theorem counters_of_run (hd : store.DistinctIndexes) (hb : BoundedBases store) {rows : SavedRows}
    (hw : Written store p rows) {start : ReputationMgr}
    (hstart : start = Initialize store p ∨ start = loadFromDB store p rows)
    (h : Reaches (Changes store p) (fun _ _ => True) start m) :
    (m.honoredFactionCount = .ofNat (rankCount store p m REP_HONORED) ∧
      m.reveredFactionCount = .ofNat (rankCount store p m REP_REVERED) ∧
      m.exaltedFactionCount = .ofNat (rankCount store p m REP_EXALTED) ∧
      m.visibleFactionCount = .ofNat (m.factions.rows.countP isVisible)) ∧
    (m.factions.rows.length ≤ 255 →
      m.honoredFactionCount.toNat = rankCount store p m REP_HONORED ∧
      m.reveredFactionCount.toNat = rankCount store p m REP_REVERED ∧
      m.exaltedFactionCount.toNat = rankCount store p m REP_EXALTED ∧
      m.visibleFactionCount.toNat = m.factions.rows.countP isVisible ∧ m.wrapped = false) ∧
    ∀ e ∈ store.entries, ∀ f, m.factions.get? e.listID = some f →
      reputation_Bottom.toInt ≤ (p.getBaseReputation e).toInt + f.standing.toInt ∧
        (p.getBaseReputation e).toInt + f.standing.toInt ≤ reputation_Cap.toInt := by
  have hsound : Sound store p m := by
    refine Sound.reaches hd hb ?_ h
    rcases hstart with rfl | rfl
    · exact Sound.Initialize hd hb
    · exact Sound.loadFromDB hd hb hw
  obtain ⟨hrecorded, hcounted, hbounded⟩ := hsound
  have hhonored := hcounted.honored
  have hrevered := hcounted.revered
  have hexalted := hcounted.exalted
  rw [countP_ranked hrecorded] at hhonored hrevered hexalted
  refine ⟨⟨hhonored, hrevered, hexalted, hcounted.visible⟩, ?_, ?_⟩
  · intro hlen
    have hexact : ∀ q : FactionState → Bool,
        (UInt8.ofNat (m.factions.rows.countP q)).toNat = m.factions.rows.countP q := by
      grind [UInt8.toNat_ofNat_of_lt']
    refine ⟨?_, ?_, ?_, ?_, hcounted.unwrapped hlen⟩
    · rw [hhonored]
      exact hexact _
    · rw [hrevered]
      exact hexact _
    · rw [hexalted]
      exact hexact _
    · rw [hcounted.visible]
      exact hexact _
  · intro e he f hf
    obtain ⟨hid, -⟩ := hrecorded.of_get? hd he hf
    exact hbounded f (Table.get?_eq_some.mp hf).1 e (hid ▸ FactionStore.lookupEntry_self he)

/-! ## Two factions, and more than a `uint8` can count -/

def human : Player := { raceMask := 1, classMask := 1 }

/-- A faction for everybody. -/
def commonFaction (ID : UInt32) (index base : Int32) : FactionEntry where
  ID := ID
  reputationIndex := index
  reputationRaceMask := fun _ => 0xFFFFFFFF
  reputationBase := fun _ => base
  reputationFlags := fun _ => Visible.toUInt32

theorem human_getBaseReputation (ID : UInt32) (index base : Int32) :
    human.getBaseReputation (commonFaction ID index base) = base := by
  have hcolumn : human.getFactionDataIndexForRaceAndClass (commonFaction ID index base) = some 0 := by
    unfold Player.getFactionDataIndexForRaceAndClass
    rw [List.finRange_succ, List.find?_cons_of_pos]
    show ((decide ((0xFFFFFFFF : UInt32) &&& 1 ≠ 0) || _) && (_ || decide ((0 : UInt32) = 0))) = true
    rw [Bool.and_eq_true, Bool.or_eq_true, Bool.or_eq_true]
    exact ⟨.inl (by decide), .inr (by decide)⟩
  unfold Player.getBaseReputation
  rw [hcolumn]
  rfl

theorem commonFaction_bounded {base : Int32} (ID : UInt32) (index : Int32)
    (h : reputation_Bottom ≤ base ∧ base ≤ reputation_Cap) (i : Fin 4) :
    reputation_Bottom ≤ (commonFaction ID index base).reputationBase i ∧
      (commonFaction ID index base).reputationBase i ≤ reputation_Cap := h

def twoFactions : FactionStore where
  entries := [commonFaction 1 0 0, commonFaction 2 1 3000]
  ordered := by decide
  numbered := by decide

theorem twoFactions_distinct : twoFactions.DistinctIndexes := by
  intro a ha b hb _ hindex
  rcases List.mem_pair.mp ha with rfl | rfl <;> rcases List.mem_pair.mp hb with rfl | rfl
  · rfl
  · exact absurd hindex (by decide)
  · exact absurd hindex (by decide)
  · rfl

/-- A friend of the second faction gains nothing by the first. -/
def oneRow : SavedRows := ⟨[{ faction := 2, standing := 18000, flags := 1 }], by decide⟩

def noSpillover : Spillover where
  getRepSpilloverTemplate := fun _ => none
  getFactionTeamList := fun _ => none
  templateRep := fun _ => 0
  parentRep := 0
  sisterRep := fun _ => 0
  gain := fun standing => standing

theorem counters_of_run_two :
    ((loadFromDB twoFactions human oneRow).change twoFactions human
      (.setReputation noSpillover 1 9000 false false)).honoredFactionCount.toNat = 2 := by
  have hb : BoundedBases twoFactions := by
    intro e he i
    rcases List.mem_pair.mp he with rfl | rfl
    · exact commonFaction_bounded 1 0 (by decide) i
    · exact commonFaction_bounded 2 1 (by decide) i
  have hw : Written twoFactions human oneRow := by
    intro row hrow e he
    obtain rfl := List.mem_singleton.mp hrow
    obtain rfl : commonFaction 2 1 3000 = e := Option.some.inj he.1
    decide
  have hcounters := counters_of_run twoFactions_distinct hb hw (Or.inr rfl)
    ((Reaches.refl _).next (a := .setReputation noSpillover 1 9000 false false) trivial rfl)
  rw [(hcounters.2.1 (by decide)).1]
  decide

/-- 256 factions, each of which honors everybody. -/
def crowd : FactionStore where
  entries := (List.range 256).map fun i => commonFaction (.ofNat (i + 1)) (.ofNat i) 9000
  ordered := by
    refine List.pairwise_map.mpr (List.pairwise_lt_range.imp_of_mem ?_)
    intro i j hi hj hlt
    rw [List.mem_range] at hi hj
    show UInt32.ofNat (i + 1) < UInt32.ofNat (j + 1)
    grind [UInt32.toNat_ofNat_of_lt', UInt32.lt_iff_toNat_lt]
  numbered := by
    intro e he
    obtain ⟨i, hi, rfl⟩ := List.mem_map.mp he
    rw [List.mem_range] at hi
    show (0 : UInt32) < UInt32.ofNat (i + 1)
    rw [UInt32.lt_iff_toNat_lt, UInt32.toNat_ofNat_of_lt' (by show _ < 4294967296; omega)]
    exact Nat.succ_pos i

theorem mem_crowd {e : FactionEntry} (he : e ∈ crowd.entries) :
    ∃ i < 256, commonFaction (.ofNat (i + 1)) (.ofNat i) 9000 = e := by
  obtain ⟨i, hi, rfl⟩ := List.mem_map.mp he
  exact ⟨i, List.mem_range.mp hi, rfl⟩

theorem crowd_distinct : crowd.DistinctIndexes := by
  intro a ha b hb _ hindex
  obtain ⟨i, hi, rfl⟩ := mem_crowd ha
  obtain ⟨j, hj, rfl⟩ := mem_crowd hb
  have hnat : (UInt32.ofNat i).toNat = (UInt32.ofNat j).toNat :=
    congrArg (fun x : Int32 => x.toUInt32.toNat) hindex
  grind [UInt32.toNat_ofNat_of_lt']

theorem crowd_bounded : BoundedBases crowd := by
  intro e he i
  obtain ⟨j, -, rfl⟩ := mem_crowd he
  exact commonFaction_bounded _ _ (by decide) i

set_option maxRecDepth 4096 in
theorem crowd_canHaveReputation : ∀ i < 256, (0 : Int32) ≤ .ofNat i := by decide

theorem rankCount_crowd : rankCount crowd human (Initialize crowd human) REP_HONORED = 256 := by
  have hrecorded : Recorded crowd (Initialize crowd human) := Recorded.Initialize crowd_distinct
  have hall : crowd.entries.filter FactionEntry.canHaveReputation = crowd.entries := by
    refine List.filter_eq_self.mpr ?_
    intro e he
    obtain ⟨i, hi, rfl⟩ := mem_crowd he
    exact decide_eq_true (crowd_canHaveReputation i hi)
  rw [← countP_ranked hrecorded, rows_initialized crowd_distinct, hall, List.countP_eq_length.mpr]
  · rw [List.length_map, crowd, List.length_map, List.length_range]
  · intro f hf
    obtain ⟨e, he, rfl⟩ := List.mem_map.mp hf
    refine decide_eq_true ?_
    rw [rankOf_initialState he]
    obtain ⟨i, -, rfl⟩ := mem_crowd he
    rw [Player.getBaseRank, human_getBaseReputation]
    decide

/-- The counter of the factions that honor a new character of the crowd is 0. -/
theorem counter_overflows : crowd.DistinctIndexes ∧ BoundedBases crowd ∧
    rankCount crowd human (Initialize crowd human) REP_HONORED = 256 ∧
    (Initialize crowd human).honoredFactionCount = 0 := by
  refine ⟨crowd_distinct, crowd_bounded, rankCount_crowd, ?_⟩
  have hsound : Sound crowd human (Initialize crowd human) :=
    Sound.Initialize crowd_distinct crowd_bounded
  rw [hsound.counted.honored, countP_ranked hsound.recorded, rankCount_crowd]
  rfl

end EGServer.Reputation.ReputationMgr
