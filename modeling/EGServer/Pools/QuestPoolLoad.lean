import EGServer.Pools.QuestPoolCheck

/-!
# Loading the quest pools

What the tables say about a pool, what `LoadFromDB` builds from them before the check, and when the
state that it leaves is well formed. A row whose pool has no template is not skipped, since the
column that is looked at for a missing template is that of the index. And an index without quests is
removed only when quests of the pool have been saved.
-/

namespace EGServer.Pools

open QuestPool (nonempty Chosen)

/-! ## Rows -/

/-- The quests at an index, out of the rows of one pool. -/
def questsAt (rows : List QuestPoolMember) (i : Nat) : List UInt32 :=
  (rows.filter fun row => row.poolIndex.toNat = i).map QuestPoolMember.questId

/-- One more than the last index. -/
def indexCount (rows : List QuestPoolMember) : Nat :=
  rows.foldl (fun n row => max n (row.poolIndex.toNat + 1)) 0

/-- The members of the pool, by their indexes. -/
def membersOf (rows : List QuestPoolMember) : List (List UInt32) :=
  (List.range (indexCount rows)).map (questsAt rows)

section

variable {rows : List QuestPoolMember} {row : QuestPoolMember} {i : Nat} {q : UInt32}

theorem indexCount_append (rows : List QuestPoolMember) (row : QuestPoolMember) :
    indexCount (rows ++ [row]) = max (indexCount rows) (row.poolIndex.toNat + 1) := by
  rw [indexCount, List.foldl_append]
  rfl

theorem questsAt_append (rows : List QuestPoolMember) (row : QuestPoolMember) (i : Nat) :
    questsAt (rows ++ [row]) i =
      if row.poolIndex.toNat = i then questsAt rows i ++ [row.questId] else questsAt rows i := by
  grind [questsAt]

theorem index_lt (h : row ∈ rows) : row.poolIndex.toNat < indexCount rows := by
  induction rows using List.reverseRecOn with
  | nil => cases h
  | append_singleton rows last ih =>
    rw [indexCount_append]
    grind

theorem indexCount_le (rows : List QuestPoolMember) : indexCount rows ≤ 256 := by
  induction rows using List.reverseRecOn with
  | nil => exact Nat.zero_le _
  | append_singleton rows last ih =>
    rw [indexCount_append]
    exact Nat.max_le.mpr ⟨ih, last.poolIndex.toNat_lt⟩

theorem mem_questsAt : q ∈ questsAt rows i ↔ ∃ row ∈ rows, row.poolIndex.toNat = i ∧ row.questId = q := by
  rw [questsAt, List.mem_map]
  simp only [List.mem_filter, decide_eq_true_eq, and_assoc]

theorem questsAt_of_le (h : indexCount rows ≤ i) : questsAt rows i = [] := by
  apply List.eq_nil_iff_forall_not_mem.mpr
  intro q hq
  obtain ⟨row, hrow, hindex, -⟩ := mem_questsAt.mp hq
  exact absurd (index_lt hrow) (by omega)

/-- **A row is added** at its index. -/
theorem membersOf_append (rows : List QuestPoolMember) (row : QuestPoolMember) :
    membersOf (rows ++ [row]) =
      QuestPool.addQuest (membersOf rows) row.poolIndex.toNat row.questId := by
  have hlength : (membersOf rows).length = indexCount rows := by
    rw [membersOf, List.length_map, List.length_range]
  have hresized : ∀ i, (if row.poolIndex.toNat < (membersOf rows).length then membersOf rows
      else membersOf rows ++
        List.replicate (row.poolIndex.toNat + 1 - (membersOf rows).length) [])[i]? =
      if i < max (indexCount rows) (row.poolIndex.toNat + 1) then some (questsAt rows i) else none := by
    intro i
    have hold : (membersOf rows)[i]? = if i < indexCount rows then some (questsAt rows i) else none := by
      grind [membersOf]
    rw [hlength]
    split
    · rename_i hlt
      rw [hold]
      congr 1
      rw [Nat.max_eq_left hlt]
    · rename_i hlt
      by_cases hi : i < indexCount rows
      · rw [List.getElem?_append_left (by rw [hlength]; exact hi), hold, if_pos hi, if_pos (by omega)]
      · rw [List.getElem?_append_right (by rw [hlength]; omega), List.getElem?_replicate, hlength]
        split
        · rw [if_pos (by omega), questsAt_of_le (by omega)]
        · rw [if_neg (by omega)]
  apply List.ext_getElem?
  intro i
  rw [QuestPool.addQuest, List.getElem?_modify, hresized, membersOf, indexCount_append,
    List.getElem?_map]
  by_cases hi : i < max (indexCount rows) (row.poolIndex.toNat + 1)
  · rw [if_pos hi, List.getElem?_range hi, Option.map_some, questsAt_append]
    split <;> rfl
  · rw [if_neg hi, List.getElem?_eq_none (by simpa using hi)]
    rfl

theorem mem_flatten_membersOf : q ∈ (membersOf rows).flatten ↔ ∃ row ∈ rows, row.questId = q := by
  rw [List.mem_flatten]
  constructor
  · intro h
    obtain ⟨m, hm, hq⟩ := h
    obtain ⟨i, -, rfl⟩ := List.mem_map.mp hm
    obtain ⟨row, hrow, -, hquest⟩ := mem_questsAt.mp hq
    exact ⟨row, hrow, hquest⟩
  · intro h
    obtain ⟨row, hrow, hquest⟩ := h
    exact ⟨_, List.mem_map.mpr ⟨row.poolIndex.toNat, List.mem_range.mpr (index_lt hrow), rfl⟩,
      mem_questsAt.mpr ⟨row, hrow, rfl, hquest⟩⟩

theorem nodup_membersOf (h : (rows.map QuestPoolMember.questId).Nodup) :
    (membersOf rows).flatten.Nodup := by
  rw [membersOf, ← List.flatMap_def]
  apply List.nodup_flatMap.mpr
  constructor
  · intro i _
    exact h.sublist (List.filter_sublist.map _)
  · apply List.nodup_range.imp
    intro i j hij q hi hj
    obtain ⟨row, hrow, hindex, hquest⟩ := mem_questsAt.mp hi
    obtain ⟨row', hrow', hindex', hquest'⟩ := mem_questsAt.mp hj
    grind [List.inj_on_of_nodup_map]

theorem nonempty_membersOf (h : rows ≠ []) : nonempty (membersOf rows) ≠ [] := by
  obtain ⟨row, hrow⟩ := List.exists_mem_of_ne_nil rows h
  obtain ⟨m, hm, hq⟩ := List.mem_flatten.mp (mem_flatten_membersOf.mpr ⟨row, hrow, rfl⟩)
  exact List.ne_nil_of_mem
    (List.mem_filter.mpr ⟨hm, decide_eq_true (List.ne_nil_of_mem hq)⟩)

theorem length_membersOf_lt (rows : List QuestPoolMember) : (membersOf rows).length < 2 ^ 32 := by
  rw [membersOf, List.length_map, List.length_range]
  have hle := indexCount_le rows
  omega

end

namespace QuestPoolTables

variable {tables : QuestPoolTables} {rows : List QuestPoolMember} {p : UInt32}

/-! ## What is built -/

/-- The quest of the row exists, and is daily, weekly or monthly. -/
def accepts (tables : QuestPoolTables) (row : QuestPoolMember) : Bool :=
  match tables.quest_template row.questId with
  | none => false
  | some (isDaily, isWeekly, isMonthly) => isDaily || isWeekly || isMonthly

def rowsOf (tables : QuestPoolTables) (rows : List QuestPoolMember) (poolId : UInt32) :
    List QuestPoolMember :=
  rows.filter fun row => tables.accepts row && decide (row.poolId = poolId)

def savedOf (saved : List SavedQuest) (poolId : UInt32) : Finset UInt32 :=
  ((saved.filter fun row => row.pool_id = poolId).map SavedQuest.quest_id).toFinset

/-- The pool before the check, as far as the rows go. -/
def builtPool (tables : QuestPoolTables) (rows : List QuestPoolMember) (poolId : UInt32) : QuestPool where
  poolId := poolId
  numActive := (tables.quest_pool_template poolId).getD 0
  members := membersOf (tables.rowsOf rows poolId)

theorem loadRow_of_not_accepts {row : QuestPoolMember} (h : tables.accepts row = false)
    (lookup : QuestPoolLookup) :
    tables.loadRow lookup
      ⟨row.questId, row.poolId, some row.poolIndex, tables.quest_pool_template row.poolId⟩ = lookup := by
  grind [loadRow, accepts]

theorem get?_ensure (lookup : QuestPoolLookup) (kind : QuestPoolKind) (poolId numActive p : UInt32) :
    ((QuestPoolLookup.ensure lookup kind poolId numActive).get? p).map PooledQuests.pool =
      if p = poolId then
        some (((lookup.get? poolId).map PooledQuests.pool).getD { poolId, numActive })
      else (lookup.get? p).map PooledQuests.pool := by
  rw [QuestPoolLookup.ensure]
  cases hget : lookup.get? poolId with
  | none =>
    dsimp only
    split
    · rename_i hp
      have hnew := Table.get?_insertOrAssign_self lookup ⟨kind, { poolId, numActive }⟩
      rw [hp]
      exact congrArg (Option.map PooledQuests.pool) hnew
    · rename_i hp
      rw [Table.get?_insertOrAssign_ne]
      exact hp
  | some e =>
    dsimp only
    split
    · rename_i hp
      rw [hp, hget]
      rfl
    · rfl

theorem get?_loadRow_of_accepts {row : QuestPoolMember} (h : tables.accepts row = true)
    (lookup : QuestPoolLookup) (p : UInt32) :
    ((tables.loadRow lookup ⟨row.questId, row.poolId, some row.poolIndex,
        tables.quest_pool_template row.poolId⟩).get? p).map PooledQuests.pool =
      if p = row.poolId then
        some ((((lookup.get? p).map PooledQuests.pool).getD
          { poolId := p, numActive := (tables.quest_pool_template p).getD 0 }).pushQuest
            row.poolIndex.toNat row.questId)
      else (lookup.get? p).map PooledQuests.pool := by
  rw [accepts] at h
  rw [loadRow]
  dsimp only
  cases hquest : tables.quest_template row.questId with
  | none =>
    rw [hquest] at h
    cases h
  | some flags =>
    obtain ⟨isDaily, isWeekly, isMonthly⟩ := flags
    rw [hquest] at h
    dsimp only at h ⊢
    rw [if_neg (by revert h; cases isDaily <;> cases isWeekly <;> cases isMonthly <;> simp)]
    by_cases hp : p = row.poolId
    · rw [if_pos hp, hp, Table.get?_modify_self, Option.map_map]
      have hensured := get?_ensure lookup
        (if isDaily then QuestPoolKind.daily else if isWeekly then .weekly else .monthly) row.poolId
        ((tables.quest_pool_template row.poolId).getD 0) row.poolId
      rw [if_pos rfl] at hensured
      obtain ⟨e, he, hpool⟩ := Option.map_eq_some_iff.mp hensured
      rw [he, ← hpool]
      rfl
    · rw [if_neg hp, Table.get?_modify_ne _ _ hp, get?_ensure, if_neg hp]

/-- **What the rows build.** -/
theorem get?_loadRows (tables : QuestPoolTables) (rows : List QuestPoolMember) (p : UInt32) :
    (((rows.map fun row => (⟨row.questId, row.poolId, some row.poolIndex,
        tables.quest_pool_template row.poolId⟩ : QuestPoolFields)).foldl tables.loadRow ∅).get? p).map
        PooledQuests.pool =
      if tables.rowsOf rows p = [] then none else some (tables.builtPool rows p) := by
  induction rows using List.reverseRecOn with
  | nil => rfl
  | append_singleton rows row ih =>
    rw [List.map_append, List.foldl_append, List.map_cons, List.map_nil, List.foldl_cons,
      List.foldl_nil]
    cases hrow : tables.accepts row with
    | false =>
      grind [builtPool, loadRow_of_not_accepts, rowsOf]
    | true =>
      rw [get?_loadRow_of_accepts hrow, ih]
      by_cases hp : p = row.poolId
      · have hmore : tables.rowsOf (rows ++ [row]) p = tables.rowsOf rows p ++ [row] := by
          rw [rowsOf, List.filter_append]
          simp [rowsOf, hrow, hp]
        rw [if_pos hp, hmore, if_neg (List.append_ne_nil_of_right_ne_nil _ (List.cons_ne_nil _ _)),
          builtPool, builtPool, hmore, membersOf_append]
        by_cases hnone : tables.rowsOf rows p = []
        · rw [if_pos hnone, hnone]
          rfl
        · rw [if_neg hnone]
          rfl
      · have hsame : tables.rowsOf (rows ++ [row]) p = tables.rowsOf rows p := by
          rw [rowsOf, List.filter_append]
          simp [rowsOf, Ne.symm hp]
        rw [if_neg hp, builtPool, builtPool, hsame]

theorem savedOf_cons (row : SavedQuest) (saved : List SavedQuest) (p : UInt32) :
    savedOf (row :: saved) p =
      if row.pool_id = p then insert row.quest_id (savedOf saved p) else savedOf saved p := by
  rw [savedOf, List.filter_cons]
  by_cases hp : row.pool_id = p
  · rw [if_pos hp, if_pos (decide_eq_true hp), List.map_cons, List.toFinset_cons, savedOf]
  · rw [if_neg hp, if_neg (by simpa using hp), savedOf]

/-- **What the saved quests add.** -/
theorem get?_loadSaved (saved : List SavedQuest) (lookup : QuestPoolLookup) (p : UInt32) :
    ((saved.foldl loadSaved lookup).get? p).map PooledQuests.pool =
      ((lookup.get? p).map PooledQuests.pool).map fun pool =>
        { pool with activeQuests := pool.activeQuests ∪ savedOf saved p } := by
  induction saved generalizing lookup with
  | nil =>
    rw [List.foldl_nil]
    cases (lookup.get? p).map PooledQuests.pool with
    | none => rfl
    | some pool => simp [savedOf]
  | cons row saved ih =>
    rw [List.foldl_cons, ih, loadSaved, savedOf_cons]
    by_cases hp : p = row.pool_id
    · rw [if_pos hp.symm, hp, Table.get?_modify_self]
      cases lookup.get? row.pool_id with
      | none => rfl
      | some e =>
        simp only [Option.map_some, Finset.union_insert, ← Finset.insert_union]
        rfl
    · rw [if_neg (Ne.symm hp), Table.get?_modify_ne _ _ hp]

/-! ## Before the check -/

/-- The pool of the tables, before the check. -/
def loadedPool (tables : QuestPoolTables) (poolId : UInt32) : QuestPool :=
  { tables.builtPool tables.quest_pool_members.rows poolId with
    activeQuests := savedOf tables.pool_quest_save poolId }

/-- The rows of the pool that are not skipped. -/
def poolRows (tables : QuestPoolTables) (poolId : UInt32) : List QuestPoolMember :=
  tables.rowsOf tables.quest_pool_members.rows poolId

def lookup (tables : QuestPoolTables) : QuestPoolLookup :=
  tables.pool_quest_save.foldl loadSaved (tables.query.foldl tables.loadRow ∅)

theorem get?_lookup (tables : QuestPoolTables) (p : UInt32) :
    (tables.lookup.get? p).map PooledQuests.pool =
      if tables.poolRows p = [] then none else some (tables.loadedPool p) := by
  have hrows := tables.get?_loadRows tables.quest_pool_members.rows p
  rw [lookup, get?_loadSaved, query, hrows, poolRows]
  split
  · rfl
  · rw [Option.map_some, loadedPool, builtPool]
    simp

theorem mem_lookup {e : PooledQuests} (h : e ∈ tables.lookup) :
    e.pool = tables.loadedPool e.pool.poolId ∧ tables.poolRows e.pool.poolId ≠ [] := by
  have hget := tables.get?_lookup e.poolId
  rw [Table.get?_key h] at hget
  by_cases hrows : tables.poolRows e.poolId = []
  · rw [if_pos hrows] at hget
    cases hget
  · rw [if_neg hrows] at hget
    exact ⟨Option.some.inj hget, hrows⟩

theorem exists_mem_lookup (h : tables.poolRows p ≠ []) :
    ∃ e ∈ tables.lookup, e.pool = tables.loadedPool p := by
  have hget := tables.get?_lookup p
  rw [if_neg h] at hget
  obtain ⟨e, he, hpool⟩ := Option.map_eq_some_iff.mp hget
  exact ⟨e, (Table.get?_eq_some.mp he).1, hpool⟩

theorem mem_poolRows {row : QuestPoolMember} : row ∈ tables.poolRows p ↔
    row ∈ tables.quest_pool_members ∧ tables.accepts row = true ∧ row.poolId = p := by
  rw [poolRows, rowsOf, List.mem_filter, Bool.and_eq_true, decide_eq_true_eq]
  exact Iff.rfl

theorem nodup_loadedPool (tables : QuestPoolTables) (p : UInt32) :
    (tables.loadedPool p).members.flatten.Nodup :=
  nodup_membersOf (tables.quest_pool_members.nodup.sublist (List.filter_sublist.map _))

end QuestPoolTables

end EGServer.Pools
