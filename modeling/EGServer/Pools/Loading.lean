import EGServer.Lib.LinkCuts
import EGServer.Pools.Limits

/-!
# Loading the pools of pools

The last part of `LoadFromDB` for the pools: the rows that put a pool into another one, and the check
for circular references, which follows the mother pools of every template and removes a relation that
leads back.
-/

namespace EGServer.Pools

/-! ## The tables -/

/-- A row of `pool_members` for a pool in a pool. -/
structure PoolMember where
  child_pool_id : UInt32
  mother_pool_id : UInt32
  chance : ℚ

/-- `mPoolTemplate`: the limits of the pools. -/
abbrev PoolTemplates := Table (Prod.fst : UInt32 × UInt32 → UInt32)

structure LoadedPools where
  mPoolPoolGroups : UInt32 → PoolGroup := fun _ => {}
  mPoolSearchMap : Table (Prod.fst : UInt32 × UInt32 → UInt32) := ∅

namespace PoolGroup

def addEntry (G : PoolGroup) (poolitem : PoolObject) (maxentries : UInt32) : PoolGroup :=
  if poolitem.chance ≠ 0 ∧ maxentries = 1 then
    { G with ExplicitlyChanced := G.ExplicitlyChanced ++ [poolitem] }
  else { G with EqualChanced := G.EqualChanced ++ [poolitem] }

def removeOneRelation (G : PoolGroup) (child_pool_id : UInt32) : PoolGroup where
  ExplicitlyChanced := G.ExplicitlyChanced.eraseP fun itr => itr.guid == child_pool_id
  EqualChanced := G.EqualChanced.eraseP fun itr => itr.guid == child_pool_id

end PoolGroup

namespace LoadedPools

/-! ## The rows -/

/-- `mPoolSearchMap.insert(p)` -/
def insertPair (s : LoadedPools) (p : UInt32 × UInt32) : LoadedPools :=
  match s.mPoolSearchMap.get? p.1 with
  | none => { s with mPoolSearchMap := s.mPoolSearchMap.insertOrAssign p }
  | some _ => s

def addEntry (s : LoadedPools) (row : PoolMember) (MaxLimit : UInt32) : LoadedPools :=
  { s with
    mPoolPoolGroups := Function.update s.mPoolPoolGroups row.mother_pool_id
      ((s.mPoolPoolGroups row.mother_pool_id).addEntry ⟨row.child_pool_id, row.chance⟩ MaxLimit) }

def loadRow (mPoolTemplate : PoolTemplates) (s : LoadedPools) (row : PoolMember) : LoadedPools :=
  match mPoolTemplate.get? row.mother_pool_id with
  | none => s
  | some pPoolTemplateMother =>
    if mPoolTemplate.get? row.child_pool_id = none then s
    else if row.mother_pool_id = row.child_pool_id then s
    else if row.chance < 0 ∨ 100 < row.chance then s
    else (s.addEntry row pPoolTemplateMother.2).insertPair (row.child_pool_id, row.mother_pool_id)

/-! ## The check -/

/-- The walk from one template, which ends at a pool in no other one or at a relation that leads
back. It is given fuel. -/
def findCircular (mPoolSearchMap : Table (Prod.fst : UInt32 × UInt32 → UInt32)) :
    Nat → List UInt32 → UInt32 → Option (Option (UInt32 × UInt32))
  | 0, _, _ => none
  | fuel + 1, checkedPools, pool_id =>
    match mPoolSearchMap.get? pool_id with
    | none => some none
    | some poolItr =>
      if poolItr.2 ∈ poolItr.1 :: checkedPools then some (some poolItr)
      else findCircular mPoolSearchMap fuel (poolItr.1 :: checkedPools) poolItr.2

def removeLink (s : LoadedPools) (poolItr : UInt32 × UInt32) : LoadedPools where
  mPoolPoolGroups := Function.update s.mPoolPoolGroups poolItr.2
    ((s.mPoolPoolGroups poolItr.2).removeOneRelation poolItr.1)
  mPoolSearchMap := s.mPoolSearchMap.erase poolItr.1

/-- "Now check for circular reference" -/
def checkCircular (fuel : Nat) : List (UInt32 × UInt32) → LoadedPools → Option LoadedPools
  | [], s => some s
  | it :: rest, s =>
    match findCircular s.mPoolSearchMap fuel [] it.1 with
    | none => none
    | some none => checkCircular fuel rest s
    | some (some poolItr) => checkCircular fuel rest (s.removeLink poolItr)

def loadFromDB (fuel : Nat) (mPoolTemplate : PoolTemplates) (rows : List PoolMember) :
    Option LoadedPools :=
  checkCircular fuel mPoolTemplate.rows (rows.foldl (loadRow mPoolTemplate) {})

/-! ## Both tables in step -/

variable {s : LoadedPools} {c m : UInt32}

/-- The mother pool that the search map has for a pool. -/
def mother (s : LoadedPools) (child : UInt32) : Option UInt32 :=
  (s.mPoolSearchMap.get? child).map Prod.snd

/-- What the search map says is what the groups list. -/
structure InStep (s : LoadedPools) : Prop where
  nodup : ∀ m, (s.mPoolPoolGroups m).guids.Nodup
  listed : ∀ c m, s.mother c = some m ↔ c ∈ (s.mPoolPoolGroups m).guids

theorem mother_eq_some : s.mother c = some m ↔ s.mPoolSearchMap.get? c = some (c, m) := by
  rw [mother, Option.map_eq_some_iff]
  constructor
  · rintro ⟨p, hp, rfl⟩
    have hkey : p.1 = c := (Table.get?_eq_some.mp hp).2
    rw [hp, ← hkey]
  · intro h
    exact ⟨_, h, rfl⟩

theorem mother_eq_none : s.mother c = none ↔ s.mPoolSearchMap.get? c = none :=
  Option.map_eq_none_iff

theorem inStep_empty : InStep {} where
  nodup := fun _ => List.nodup_nil
  listed := by
    intro c m
    constructor
    · intro h
      cases h
    · intro h
      cases h

theorem mem_guids_addEntry {G : PoolGroup} {obj : PoolObject} {limit g : UInt32} :
    g ∈ (G.addEntry obj limit).guids ↔ g = obj.guid ∨ g ∈ G.guids := by
  unfold PoolGroup.addEntry PoolGroup.guids PoolGroup.objects
  split <;> simp <;> grind

theorem nodup_addEntry {G : PoolGroup} {obj : PoolObject} {limit : UInt32} (h : G.guids.Nodup)
    (hnew : obj.guid ∉ G.guids) : (G.addEntry obj limit).guids.Nodup := by
  have hperm : (G.addEntry obj limit).guids.Perm (obj.guid :: G.guids) := by
    unfold PoolGroup.addEntry PoolGroup.guids PoolGroup.objects
    grind
  exact hperm.nodup_iff.mpr (List.nodup_cons.mpr ⟨hnew, h⟩)

theorem map_guid_eraseP (l : List PoolObject) (g : UInt32) :
    (l.eraseP fun itr => itr.guid == g).map PoolObject.guid = (l.map PoolObject.guid).erase g := by
  induction l with
  | nil => rfl
  | cons obj l ih =>
    grind

theorem guids_removeOneRelation {G : PoolGroup} (h : G.guids.Nodup) (g : UInt32) :
    (G.removeOneRelation g).guids = G.guids.filter fun g' => g' ≠ g := by
  unfold PoolGroup.guids PoolGroup.objects at h ⊢
  rw [List.map_append] at h ⊢
  obtain ⟨hequal, hexplicit, -⟩ := List.nodup_append.mp h
  rw [PoolGroup.removeOneRelation, map_guid_eraseP, map_guid_eraseP, hequal.erase_eq_filter,
    hexplicit.erase_eq_filter, List.map_append, List.filter_append]
  simp only [ne_eq, bne, decide_not]
  rfl

theorem InStep.removeLink (h : s.InStep) (hlink : s.mother c = some m) :
    (s.removeLink (c, m)).InStep ∧ (s.removeLink (c, m)).mother = LinkCuts.cut s.mother c := by
  have hmother : (s.removeLink (c, m)).mother = LinkCuts.cut s.mother c := by
    funext a
    show ((s.mPoolSearchMap.erase c).get? a).map Prod.snd = _
    by_cases hac : a = c
    · rw [hac, Table.get?_erase_self, LinkCuts.cut_self]
      rfl
    · rw [Table.get?_erase_ne _ hac, LinkCuts.cut_of_ne hac]
      rfl
  have hguids : ∀ p, ((s.removeLink (c, m)).mPoolPoolGroups p).guids =
      if p = m then (s.mPoolPoolGroups m).guids.filter fun g => g ≠ c
      else (s.mPoolPoolGroups p).guids := by
    intro p
    show (Function.update s.mPoolPoolGroups m _ p).guids = _
    by_cases hp : p = m
    · rw [hp, Function.update_self, if_pos rfl, guids_removeOneRelation (h.nodup m)]
    · rw [Function.update_of_ne hp, if_neg hp]
  refine ⟨⟨?_, ?_⟩, hmother⟩
  · intro p
    rw [hguids]
    split
    · exact (h.nodup m).filter _
    · exact h.nodup p
  · intro a p
    rw [hmother, hguids]
    have hcut : LinkCuts.cut s.mother c a = some p ↔ a ≠ c ∧ s.mother a = some p := LinkCuts.link_cut
    rw [hcut, h.listed]
    split
    · rename_i hp
      rw [hp, List.mem_filter, decide_eq_true_eq]
      exact and_comm
    · rename_i hp
      constructor
      · exact fun hmem => hmem.2
      · intro hmem
        refine ⟨?_, hmem⟩
        intro hac
        -- a pool has one mother
        rw [hac, ← h.listed, hlink] at hmem
        exact hp (Option.some.inj hmem).symm

end LoadedPools

end EGServer.Pools

/-!
# The check for circular references

What `LoadFromDB` leaves of the relations between pools: of every cycle all links but one, and every
link that is on no cycle. The groups list what the search map says, and since no pool lies under
itself, spawning and despawning go down to a depth that the number of relations bounds.
-/

namespace EGServer.Pools

namespace LoadedPools

variable {s : LoadedPools} {c m : UInt32} {mPoolTemplate : PoolTemplates} {rows : List PoolMember}

/-! ## The rows -/

/-- The row is not skipped, unless it puts a pool into itself. -/
def Passes (mPoolTemplate : PoolTemplates) (row : PoolMember) : Prop :=
  mPoolTemplate.get? row.mother_pool_id ≠ none ∧ mPoolTemplate.get? row.child_pool_id ≠ none ∧
    0 ≤ row.chance ∧ row.chance ≤ 100

/-- The relation that the rows describe. -/
def Original (mPoolTemplate : PoolTemplates) (rows : List PoolMember) (child mother : UInt32) : Prop :=
  ∃ row ∈ rows, row.child_pool_id = child ∧ row.mother_pool_id = mother ∧ Passes mPoolTemplate row

theorem mother_insertPair (hnew : s.mother c = none) (m a : UInt32) :
    (s.insertPair (c, m)).mother a = if a = c then some m else s.mother a := by
  rw [insertPair, mother_eq_none.mp hnew]
  show ((s.mPoolSearchMap.insertOrAssign (c, m)).get? a).map Prod.snd = _
  split
  · grind [Table.get?_insertOrAssign_self]
  · rename_i hac
    rw [Table.get?_insertOrAssign_ne _ hac]
    rfl

theorem InStep.addRow (h : s.InStep) {row : PoolMember} (hnew : s.mother row.child_pool_id = none)
    (limit : UInt32) :
    ((s.addEntry row limit).insertPair (row.child_pool_id, row.mother_pool_id)).InStep ∧
      ∀ a, ((s.addEntry row limit).insertPair (row.child_pool_id, row.mother_pool_id)).mother a =
        if a = row.child_pool_id then some row.mother_pool_id else s.mother a := by
  have hmother : ∀ a, ((s.addEntry row limit).insertPair
      (row.child_pool_id, row.mother_pool_id)).mother a =
        if a = row.child_pool_id then some row.mother_pool_id else s.mother a :=
    fun a => mother_insertPair (s := s.addEntry row limit) hnew row.mother_pool_id a
  have hgroups : ((s.addEntry row limit).insertPair
      (row.child_pool_id, row.mother_pool_id)).mPoolPoolGroups =
        (s.addEntry row limit).mPoolPoolGroups := by
    rw [insertPair]
    split <;> rfl
  have hfresh : ∀ p, row.child_pool_id ∉ (s.mPoolPoolGroups p).guids := by
    intro p hmem
    cases hnew.symm.trans ((h.listed _ p).mpr hmem)
  refine ⟨⟨?_, ?_⟩, hmother⟩
  · intro p
    rw [hgroups]
    show (Function.update s.mPoolPoolGroups row.mother_pool_id _ p).guids.Nodup
    by_cases hp : p = row.mother_pool_id
    · rw [hp, Function.update_self]
      exact nodup_addEntry (h.nodup _) (hfresh _)
    · rw [Function.update_of_ne hp]
      exact h.nodup p
  · intro a p
    rw [hmother, hgroups]
    have hrest := h.listed a p
    show _ ↔ a ∈ (Function.update s.mPoolPoolGroups row.mother_pool_id _ p).guids
    by_cases hp : p = row.mother_pool_id
    · grind [mem_guids_addEntry]
    · grind

theorem InStep.loadRow (h : s.InStep) (mPoolTemplate : PoolTemplates) {row : PoolMember}
    (hnew : s.mother row.child_pool_id = none) :
    (loadRow mPoolTemplate s row).InStep ∧ ∀ c m, (loadRow mPoolTemplate s row).mother c = some m ↔
      s.mother c = some m ∨ row.child_pool_id = c ∧ row.mother_pool_id = m ∧
        Passes mPoolTemplate row ∧ c ≠ m := by
  -- a row that is skipped
  have hskip : ¬(Passes mPoolTemplate row ∧ row.child_pool_id ≠ row.mother_pool_id) →
      s.InStep ∧ ∀ c m, s.mother c = some m ↔
        s.mother c = some m ∨ row.child_pool_id = c ∧ row.mother_pool_id = m ∧
          Passes mPoolTemplate row ∧ c ≠ m := by
    grind
  rw [LoadedPools.loadRow]
  cases htemplate : mPoolTemplate.get? row.mother_pool_id with
  | none =>
    apply hskip
    intro hpasses
    exact hpasses.1.1 htemplate
  | some pPoolTemplateMother =>
    dsimp only
    split
    · rename_i hnone
      apply hskip
      intro hpasses
      exact hpasses.1.2.1 hnone
    · rename_i hchild
      split
      · rename_i hself
        apply hskip
        intro hpasses
        exact hpasses.2 hself.symm
      · rename_i hself
        split
        · rename_i hchance
          apply hskip
          intro hpasses
          rcases hchance with hlow | hhigh
          · exact absurd hpasses.1.2.2.1 (not_le.mpr hlow)
          · exact absurd hpasses.1.2.2.2 (not_le.mpr hhigh)
        · rename_i hchance
          rw [not_or, not_lt, not_lt] at hchance
          have hpasses : Passes mPoolTemplate row := by
            refine ⟨?_, hchild, hchance⟩
            rw [htemplate]
            exact Option.some_ne_none _
          obtain ⟨hstep, hmother⟩ := h.addRow hnew pPoolTemplateMother.2
          grind

/-- **The rows**, each with a child of its own: what is put into the tables. -/
theorem InStep.loadRows (h : s.InStep) (mPoolTemplate : PoolTemplates)
    (hnodup : (rows.map PoolMember.child_pool_id).Nodup)
    (hnew : ∀ row ∈ rows, s.mother row.child_pool_id = none) :
    (rows.foldl (LoadedPools.loadRow mPoolTemplate) s).InStep ∧
      ∀ c m, (rows.foldl (LoadedPools.loadRow mPoolTemplate) s).mother c = some m ↔
        s.mother c = some m ∨ Original mPoolTemplate rows c m ∧ c ≠ m := by
  induction rows generalizing s with
  | nil =>
    refine ⟨h, ?_⟩
    intro c m
    constructor
    · exact Or.inl
    · intro hm
      exact hm.resolve_right fun hrow => by
        obtain ⟨row, hmem, -⟩ := hrow.1
        cases hmem
  | cons row rows ih =>
    rw [List.map_cons, List.nodup_cons] at hnodup
    obtain ⟨hstep, hmother⟩ :=
      h.loadRow mPoolTemplate (hnew row List.mem_cons_self)
    have hnext : ∀ row' ∈ rows,
        (LoadedPools.loadRow mPoolTemplate s row).mother row'.child_pool_id = none := by
      intro row' hrow'
      apply Option.eq_none_iff_forall_ne_some.mpr
      grind
    obtain ⟨hlast, hall⟩ := ih hstep hnodup.2 hnext
    refine ⟨hlast, ?_⟩
    intro c m
    rw [List.foldl_cons, hall, hmother]
    constructor
    · rintro ((hold | ⟨hc, hm, hpasses, hne⟩) | ⟨⟨row', hmem, hrow'⟩, hne⟩)
      · exact Or.inl hold
      · exact Or.inr ⟨⟨row, List.mem_cons_self, hc, hm, hpasses⟩, hne⟩
      · exact Or.inr ⟨⟨row', List.mem_cons_of_mem _ hmem, hrow'⟩, hne⟩
    · rintro (hold | ⟨⟨row', hmem, hc, hm, hpasses⟩, hne⟩)
      · exact Or.inl (Or.inl hold)
      · rcases List.mem_cons.mp hmem with rfl | hmem
        · exact Or.inl (Or.inr ⟨hc, hm, hpasses, hne⟩)
        · exact Or.inr ⟨⟨row', hmem, hc, hm, hpasses⟩, hne⟩

/-! ## The walks -/

theorem findCircular_spec (fuel : Nat) (checkedPools : List UInt32) (pool_id : UInt32) :
    LinkCuts.follow s.mother fuel checkedPools pool_id =
        (findCircular s.mPoolSearchMap fuel checkedPools pool_id).map (Option.map Prod.fst) ∧
      ∀ poolItr, findCircular s.mPoolSearchMap fuel checkedPools pool_id = some (some poolItr) →
        s.mother poolItr.1 = some poolItr.2 := by
  induction fuel generalizing checkedPools pool_id with
  | zero =>
    refine ⟨rfl, ?_⟩
    intro poolItr hfound
    cases hfound
  | succ fuel ih =>
    rw [LinkCuts.follow, findCircular, mother]
    cases hget : s.mPoolSearchMap.get? pool_id with
    | none =>
      refine ⟨rfl, ?_⟩
      intro poolItr hfound
      cases hfound
    | some link =>
      have hkey : link.1 = pool_id := (Table.get?_eq_some.mp hget).2
      have hlink : s.mother link.1 = some link.2 := by
        rw [mother, hkey, hget]
        rfl
      grind

theorem findCircular_mono {map : Table (Prod.fst : UInt32 × UInt32 → UInt32)} {fuel fuel' : Nat}
    {checkedPools : List UInt32} {pool_id : UInt32} {result : Option (UInt32 × UInt32)}
    (hle : fuel ≤ fuel') (h : findCircular map fuel checkedPools pool_id = some result) :
    findCircular map fuel' checkedPools pool_id = some result := by
  induction fuel generalizing fuel' checkedPools pool_id with
  | zero => cases h
  | succ fuel ih =>
    obtain ⟨fuel', rfl⟩ := Nat.exists_eq_succ_of_ne_zero (Nat.ne_zero_of_lt hle)
    rw [findCircular] at h ⊢
    grind

theorem checkCircular_mono {fuel fuel' : Nat} {starts : List (UInt32 × UInt32)} {loaded : LoadedPools}
    (hle : fuel ≤ fuel') (h : checkCircular fuel starts s = some loaded) :
    checkCircular fuel' starts s = some loaded := by
  induction starts generalizing s with
  | nil => exact h
  | cons it starts ih =>
    grind [findCircular_mono, checkCircular]

/-- **The check breaks the cycles of the mother pools**, in both tables. -/
theorem InStep.checkCircular {fuel : Nat} {starts : List (UInt32 × UInt32)}
    {final : UInt32 → Option UInt32} (h : s.InStep)
    (hrun : LinkCuts.breakCycles fuel s.mother (starts.map Prod.fst) = some final) :
    ∃ loaded, checkCircular fuel starts s = some loaded ∧ loaded.InStep ∧ loaded.mother = final := by
  induction starts generalizing s with
  | nil =>
    cases hrun
    exact ⟨s, rfl, h, rfl⟩
  | cons it starts ih =>
    rw [List.map_cons, LinkCuts.breakCycles] at hrun
    obtain ⟨hwalk, hlink⟩ := @findCircular_spec s fuel [] it.1
    rw [hwalk] at hrun
    rw [LoadedPools.checkCircular]
    cases hfound : findCircular s.mPoolSearchMap fuel [] it.1 with
    | none =>
      rw [hfound] at hrun
      cases hrun
    | some result =>
      rw [hfound] at hrun
      cases result with
      | none => exact ih h hrun
      | some poolItr =>
        obtain ⟨hstep, hmother⟩ := h.removeLink (hlink poolItr hfound)
        exact ih hstep (hmother ▸ hrun)

/-! ## What is left of the relations -/

/-- **The cycles of a relation are removed exactly.** -/
structure CyclesRemoved (original : UInt32 → UInt32 → Prop) (loaded : LoadedPools) : Prop where
  kept : ∀ c m, loaded.mother c = some m → original c m
  acyclic : ∀ p, ¬Relation.TransGen (fun c m => loaded.mother c = some m) p p
  /-- Of the links of a cycle one is removed. -/
  one : ∀ p, Relation.TransGen original p p → ∃! link : UInt32 × UInt32,
    Relation.TransGen original p link.1 ∧ original link.1 link.2 ∧ loaded.mother link.1 ≠ some link.2
  others : ∀ c m, original c m → ¬Relation.TransGen original c c → loaded.mother c = some m
  listed : ∀ c m, loaded.mother c = some m ↔ c ∈ (loaded.mPoolPoolGroups m).guids

/-- The tables with the groups of the other types, which are loaded separately. -/
def toTables (loaded : LoadedPools) (MaxLimit : UInt32 → UInt32) (others : Kind → UInt32 → PoolGroup) :
    PoolTables where
  MaxLimit := MaxLimit
  groups
    | .Pool => loaded.mPoolPoolGroups
    | T => others T
  mPoolSearchMap := loaded.mPoolSearchMap

/-- **Spawning and despawning recurse to a finite depth**, whatever the members of other types are. -/
def FiniteDepth (loaded : LoadedPools) : Prop :=
  ∀ MaxLimit others, (∀ T p, (others T p).guids.Nodup) →
    (∀ T p q g, g ∈ (others T p).guids → g ∈ (others T q).guids → p = q) →
    ∀ n p, (loaded.toTables MaxLimit others).depth ≤ n →
      (loaded.toTables MaxLimit others).spawnPoolAt n p =
          (loaded.toTables MaxLimit others).spawnPool p ∧
        (loaded.toTables MaxLimit others).despawnPoolAt n p =
          (loaded.toTables MaxLimit others).despawnPool p

theorem InStep.finiteDepth (h : s.InStep)
    (hacyclic : ∀ p, ¬Relation.TransGen (fun c m => s.mother c = some m) p p) : s.FiniteDepth := by
  intro MaxLimit others hnodup hunique n p hn
  have hswap : ∀ p q, Relation.TransGen (s.toTables MaxLimit others).SubPool p q →
      Relation.TransGen (fun c m => s.mother c = some m) q p := by
    intro p q hpq
    induction hpq with
    | single hsub => exact Relation.TransGen.single ((h.listed _ _).mpr hsub)
    | tail _ hsub ih => exact ih.head ((h.listed _ _).mpr hsub)
  let M : PoolMgr := {
    toPoolTables := s.toTables MaxLimit others
    nodup := by
      intro T p
      cases T with
      | Creature => exact hnodup .Creature p
      | GameObject => exact hnodup .GameObject p
      | Pool => exact h.nodup p
    unique := by
      intro T p q g hp hq
      cases T with
      | Creature => exact hunique .Creature p q g hp hq
      | GameObject => exact hunique .GameObject p q g hp hq
      | Pool =>
        have hp := (h.listed g p).mpr hp
        have hq := (h.listed g q).mpr hq
        exact Option.some.inj (hp.symm.trans hq)
    search := by
      intro child mother
      exact mother_eq_some.symm.trans (h.listed child mother)
    acyclic := fun p hp => hacyclic p (hswap p p hp) }
  have hheight : M.height p < n := lt_of_lt_of_le (PoolMgr.height_lt_depth p) hn
  exact ⟨PoolMgr.spawnPoolAt_eq (M := M) hheight (PoolMgr.height_lt_depth p),
    PoolMgr.despawnPoolAt_eq (M := M) hheight (PoolMgr.height_lt_depth p)⟩

/-- The relation of the rows, as a pool's mother. -/
noncomputable def originalMother (mPoolTemplate : PoolTemplates) (rows : List PoolMember)
    (child : UInt32) : Option UInt32 :=
  haveI := Classical.propDecidable (∃ m, Original mPoolTemplate rows child m)
  if h : ∃ m, Original mPoolTemplate rows child m then some h.choose else none

theorem link_originalMother (mPoolTemplate : PoolTemplates)
    (hnodup : (rows.map PoolMember.child_pool_id).Nodup) :
    LinkCuts.Link (originalMother mPoolTemplate rows) = Original mPoolTemplate rows := by
  have hunique : ∀ c m m', Original mPoolTemplate rows c m → Original mPoolTemplate rows c m' →
      m = m' := by
    rintro c m m' ⟨row, hrow, hc, rfl, -⟩ ⟨row', hrow', hc', rfl, -⟩
    rw [List.inj_on_of_nodup_map hnodup hrow hrow' (hc.trans hc'.symm)]
  funext c m
  apply propext
  rw [LinkCuts.Link, originalMother]
  split
  · grind
  · grind

theorem broken_of_loaded (hnodup : (rows.map PoolMember.child_pool_id).Nodup)
    (hloaded : ∀ c m, s.mother c = some m ↔ Original mPoolTemplate rows c m ∧ c ≠ m) :
    LinkCuts.Broken (originalMother mPoolTemplate rows) s.mother := by
  have hlink : ∀ c m, LinkCuts.Link (originalMother mPoolTemplate rows) c m ↔
      Original mPoolTemplate rows c m := by
    intro c m
    rw [link_originalMother mPoolTemplate hnodup]
  have hself : ∀ c m, LinkCuts.Link (originalMother mPoolTemplate rows) c m → s.mother c = none →
      c = m := by
    grind
  constructor
  · intro c m hm
    exact (hlink c m).mpr ((hloaded c m).mp hm).1
  · intro c m hcm hnone
    have hc : c = m := hself c m hcm hnone
    rw [← hc] at hcm
    exact Relation.TransGen.single hcm
  · intro c b hcyclic hreach hnone hb
    clear hb
    obtain ⟨m, hcm, -⟩ := hcyclic.exists_link
    have hc : c = m := hself c m hcm hnone
    rw [← hc] at hcm
    -- the only way from a pool in itself is back to it
    induction hreach with
    | refl => rfl
    | tail _ hab ih =>
      rw [← ih] at hab
      exact LinkCuts.link_unique hcm hab

/-- **The check for circular references is exact.** With a fuel that is more than the number of rows it
ends, every cycle has lost one of its links and nothing else is lost. -/
theorem cycles_removed (mPoolTemplate : PoolTemplates) (rows : List PoolMember)
    (hnodup : (rows.map PoolMember.child_pool_id).Nodup) :
    ∃ loaded, (∀ fuel, rows.length < fuel → loadFromDB fuel mPoolTemplate rows = some loaded) ∧
      CyclesRemoved (Original mPoolTemplate rows) loaded ∧ FiniteDepth loaded := by
  obtain ⟨hstep, hrows⟩ :=
    inStep_empty.loadRows mPoolTemplate hnodup fun _ _ => rfl
  have hlink := link_originalMother mPoolTemplate hnodup
  have hloaded : ∀ c m, (rows.foldl (loadRow mPoolTemplate) {}).mother c = some m ↔
      Original mPoolTemplate rows c m ∧ c ≠ m := by
    intro c m
    rw [hrows]
    exact or_iff_right (fun h => nomatch h)
  have hkeys : ∀ c, (rows.foldl (loadRow mPoolTemplate) {}).mother c ≠ none →
      c ∈ rows.map PoolMember.child_pool_id := by
    intro c hc
    obtain ⟨m, hm⟩ := Option.ne_none_iff_exists'.mp hc
    obtain ⟨row, hrow, rfl, -⟩ := ((hloaded c m).mp hm).1
    exact List.mem_map_of_mem hrow
  obtain ⟨final, hrun, hbroken, hsettled⟩ :=
    (broken_of_loaded hnodup hloaded).breakCycles hkeys
      (show (rows.map PoolMember.child_pool_id).length < rows.length + 1 by simp)
      (mPoolTemplate.rows.map Prod.fst)
  obtain ⟨loaded, hcheck, hinStep, hmother⟩ := hstep.checkCircular hrun
  have horiginal : ∀ c m, LinkCuts.Link (originalMother mPoolTemplate rows) c m ↔
      Original mPoolTemplate rows c m := by
    intro c m
    rw [hlink]
  have hacyclic : ∀ p, ¬LinkCuts.Cyclic final p := by
    intro p hp
    obtain ⟨m, hm, -⟩ := hp.exists_link
    obtain ⟨row, -, rfl, -, hpasses⟩ := (horiginal p m).mp (hbroken.sub p m hm)
    -- the walk has started from every template
    have hstart : row.child_pool_id ∈ mPoolTemplate.rows.map Prod.fst := by
      obtain ⟨template, htemplate⟩ := Option.ne_none_iff_exists'.mp hpasses.2.1
      obtain ⟨hmem, hkey⟩ := Table.get?_eq_some.mp htemplate
      exact List.mem_map.mpr ⟨template, hmem, hkey⟩
    exact (hsettled _ hstart).not_cyclic Relation.ReflTransGen.refl hp
  refine ⟨loaded, ?_, ⟨?_, ?_, ?_, ?_, hinStep.listed⟩, hinStep.finiteDepth (hmother ▸ hacyclic)⟩
  · intro fuel hfuel
    exact checkCircular_mono hfuel hcheck
  · intro c m hm
    exact (horiginal c m).mp (hbroken.sub c m (hmother ▸ hm))
  · rw [hmother]
    exact hacyclic
  · intro p hp
    rw [← hlink] at hp
    obtain ⟨r, ⟨hreach, hnone⟩, hunique⟩ := hbroken.existsUnique hacyclic hp
    obtain ⟨hcyclic, -⟩ := LinkCuts.Cyclic.of_reach hp hreach
    obtain ⟨m, hm, -⟩ := hcyclic.exists_link
    rw [← hlink, hmother]
    refine ⟨(r, m), ⟨?_, hm, ?_⟩, ?_⟩
    · exact Relation.TransGen.trans_left hp hreach
    · rw [hnone]
      exact Option.some_ne_none m |>.symm
    · intro link hother
      obtain ⟨hreach', hm', hne⟩ := hother
      have hr : link.1 = r := by
        apply hunique
        refine ⟨hreach'.to_reflTransGen, ?_⟩
        by_contra hsome
        obtain ⟨m', hm''⟩ := Option.ne_none_iff_exists'.mp hsome
        rw [LinkCuts.link_unique hm' (hbroken.sub _ _ hm'')] at hne
        exact hne hm''
      apply Prod.ext hr
      rw [hr] at hm'
      exact LinkCuts.link_unique hm' hm
  · intro c m hcm hcyclic
    rw [← hlink] at hcm hcyclic
    cases hc : loaded.mother c with
    | none => exact absurd (hbroken.cyclic c m hcm (hmother ▸ hc)) hcyclic
    | some m' => rw [LinkCuts.link_unique hcm (hbroken.sub c m' (hmother ▸ hc))]

def threePools : PoolTemplates := ⟨[(1, 1), (2, 1), (3, 1)], by decide⟩

/-- Two pools in each other, and a third in the first of them. -/
def circularRows : List PoolMember := [⟨1, 2, 0⟩, ⟨2, 1, 0⟩, ⟨3, 1, 0⟩]

theorem cycles_removed_circularRows :
    ∃ loaded, loadFromDB 4 threePools circularRows = some loaded ∧
      CyclesRemoved (Original threePools circularRows) loaded ∧ FiniteDepth loaded ∧
      loaded.mother 1 = some 2 ∧ loaded.mother 2 = none ∧ loaded.mother 3 = some 1 := by
  obtain ⟨loaded, hrun, hremoved, hdepth⟩ := cycles_removed threePools circularRows (by decide)
  have hloaded := hrun 4 (by decide)
  have hmothers : ((loadFromDB 4 threePools circularRows).map fun s =>
      (s.mother 1, s.mother 2, s.mother 3)) = some (some 2, none, some 1) := by decide +kernel
  grind

end LoadedPools

end EGServer.Pools
