import EGServer.Pools.QuestPoolLoad

/-!
# The state that `LoadFromDB` leaves

The checks of all pools together, and when `LoadFromDB` returns with a well-formed state: when every
pool with quests has a template, and fits.
-/

namespace EGServer.Pools

open QuestPool (nonempty Chosen)

namespace QuestPoolTables

variable {tables : QuestPoolTables} {draw : UInt32 → Nat → Nat} {mgr mgr' : QuestPoolMgr}
  {es es' : List PooledQuests} {q : UInt32}

/-! ## The checks of all pools -/

theorem isSome_addToLookup (poolLookup : UInt32 → Option UInt32) (pool : QuestPool) (q : UInt32) :
    (addToLookup poolLookup pool q).isSome = true ↔
      (poolLookup q).isSome = true ∨ q ∈ pool.members.flatten := by
  rw [addToLookup]
  generalize pool.members.flatten = quests
  induction quests generalizing poolLookup with
  | nil => simp
  | cons quest quests ih =>
    rw [List.foldl_cons, ih, List.mem_cons]
    grind

/-- The pool of one entry after the check. -/
def Checked (draw : UInt32 → Nat → Nat) (e e' : PooledQuests) : Prop :=
  e.pool.check (draw e.pool.poolId) = some e'.pool

/-- **The loop over all pools**: each has been checked, and their quests are pooled. -/
theorem checkPools_some (h : checkPools draw es mgr = some mgr') :
    ∃ es', mgr'.pools = mgr.pools ++ es' ∧ List.Forall₂ (Checked draw) es es' ∧
      ∀ q, mgr'.isQuestPooled q = true ↔
        mgr.isQuestPooled q = true ∨ ∃ e' ∈ es', q ∈ e'.pool.members.flatten := by
  induction es generalizing mgr with
  | nil =>
    cases h
    refine ⟨[], (List.append_nil _).symm, List.Forall₂.nil, ?_⟩
    intro q
    simp
  | cons e es ih =>
    rw [checkPools] at h
    cases hcheck : e.pool.check (draw e.pool.poolId) with
    | none =>
      rw [hcheck] at h
      cases h
    | some pool =>
      rw [hcheck] at h
      obtain ⟨es', hpools, hchecked, hpooled⟩ := ih h
      refine ⟨{ e with pool } :: es', ?_, List.Forall₂.cons hcheck hchecked, ?_⟩
      · rw [hpools, List.append_assoc]
        rfl
      · intro q
        rw [hpooled]
        have hadd := isSome_addToLookup mgr._poolLookup pool q
        rw [show QuestPoolMgr.isQuestPooled _ q = (addToLookup mgr._poolLookup pool q).isSome from rfl,
          hadd, List.exists_mem_cons_iff, or_assoc]
        rfl

theorem exists_checkPools (mgr : QuestPoolMgr)
    (h : ∀ e ∈ es, ∃ pool, e.pool.check (draw e.pool.poolId) = some pool) :
    ∃ mgr', checkPools draw es mgr = some mgr' := by
  induction es generalizing mgr with
  | nil => exact ⟨mgr, rfl⟩
  | cons e es ih =>
    obtain ⟨pool, hcheck⟩ := h e List.mem_cons_self
    obtain ⟨mgr', hrest⟩ := ih _ fun e' he' => h e' (List.mem_cons_of_mem _ he')
    refine ⟨mgr', ?_⟩
    rw [checkPools, hcheck]
    exact hrest

/-! ## Well-formed states -/

/-- How many members are to be active. -/
def requested (tables : QuestPoolTables) (poolId : UInt32) : Nat :=
  ((tables.quest_pool_template poolId).getD 0).toNat

/-- The members with quests, as the rows have them. -/
def poolMembers (tables : QuestPoolTables) (poolId : UInt32) : List (List UInt32) :=
  nonempty (membersOf (tables.poolRows poolId))

/-- **A pool is well formed**: its members are those of the rows, as many as can be are active, the
active quests are theirs, and a choice that has been saved is kept. -/
structure PoolLoaded (tables : QuestPoolTables) (pool : QuestPool) : Prop where
  members : pool.members.Perm (tables.poolMembers pool.poolId)
  count : pool.members.countP pool.isActive =
    min (tables.requested pool.poolId) (tables.poolMembers pool.poolId).length
  active : ∀ q, q ∈ pool.activeQuests ↔ ∃ m ∈ pool.members, pool.isActive m = true ∧ q ∈ m
  kept : Chosen (tables.poolMembers pool.poolId) (savedOf tables.pool_quest_save pool.poolId)
      (min (tables.requested pool.poolId) (tables.poolMembers pool.poolId).length) →
    pool.activeQuests = savedOf tables.pool_quest_save pool.poolId

structure WellLoaded (tables : QuestPoolTables) (mgr : QuestPoolMgr) : Prop where
  /-- Without a template a quest is not pooled. -/
  unpooled : ∀ row ∈ tables.quest_pool_members, tables.quest_pool_template row.poolId = none →
    mgr.isQuestPooled row.questId = false
  pools : ∀ e ∈ mgr.pools, PoolLoaded tables e.pool
  present : ∀ row ∈ tables.quest_pool_members, tables.accepts row = true →
    tables.quest_pool_template row.poolId ≠ none → ∃ e ∈ mgr.pools, e.pool.poolId = row.poolId

/-- Every pool with quests has a template; and all of its indexes up to the last have quests, or quests
of it have been saved and no more members are to be active than have quests. -/
def Fitting (tables : QuestPoolTables) : Prop :=
  ∀ row ∈ tables.quest_pool_members, tables.accepts row = true →
    tables.quest_pool_template row.poolId ≠ none ∧
      ([] ∉ membersOf (tables.poolRows row.poolId) ∨
        savedOf tables.pool_quest_save row.poolId ≠ ∅ ∧
          tables.requested row.poolId ≤ (tables.poolMembers row.poolId).length)

theorem mem_of_forall₂ {R : PooledQuests → PooledQuests → Prop} (h : List.Forall₂ R es es')
    (e e' : PooledQuests) :
    (e ∈ es → ∃ e' ∈ es', R e e') ∧ (e' ∈ es' → ∃ e ∈ es, R e e') := by
  induction h with
  | nil => exact ⟨(fun hmem => nomatch hmem), (fun hmem => nomatch hmem)⟩
  | cons hhead _ ih =>
    grind

theorem check_lookup {e e' : PooledQuests} (he : e ∈ tables.lookup) (h : Checked draw e e') :
    e'.pool.poolId = e.pool.poolId ∧
      (nonempty e'.pool.members).Perm (tables.poolMembers e.pool.poolId) ∧
      ([] ∉ e'.pool.members → (tables.loadedPool e.pool.poolId).Fits) := by
  obtain ⟨hpool, hrows⟩ := mem_lookup he
  rw [Checked, hpool] at h
  obtain ⟨hid, hperm, hfits⟩ := QuestPool.check_some (tables.nodup_loadedPool e.pool.poolId)
    (length_membersOf_lt _) (nonempty_membersOf hrows) h
  exact ⟨hid, hperm, hfits⟩

theorem mem_poolMembers {p : UInt32} : q ∈ (tables.poolMembers p).flatten ↔
    ∃ row ∈ tables.poolRows p, row.questId = q := by
  rw [← mem_flatten_membersOf, List.mem_flatten, List.mem_flatten]
  constructor
  · intro h
    obtain ⟨m, hm, hq⟩ := h
    exact ⟨m, List.mem_of_mem_filter hm, hq⟩
  · intro h
    obtain ⟨m, hm, hq⟩ := h
    exact ⟨m, List.mem_filter.mpr ⟨hm, decide_eq_true (List.ne_nil_of_mem hq)⟩, hq⟩

theorem poolLoaded_of_fits {p : UInt32} {pool : QuestPool} {row : QuestPoolMember} {draw : Nat → Nat}
    (hpool : pool = tables.loadedPool p) (hrow : row ∈ tables.poolRows p) (h : (tables.loadedPool p).Fits) :
    ∃ pool', pool.check draw = some pool' ∧ PoolLoaded tables pool' := by
  obtain ⟨members, quests, hcheck, hperm, hchosen, hkept⟩ :=
    QuestPool.check_of_fits draw (tables.nodup_loadedPool p) (length_membersOf_lt _)
      (nonempty_membersOf (List.ne_nil_of_mem hrow)) h
  rw [hpool]
  refine ⟨_, hcheck, ?_⟩
  have hnodup : members.flatten.Nodup :=
    hperm.flatten.nodup_iff.mpr (QuestPool.nodup_nonempty (tables.nodup_loadedPool p))
  have hne : [] ∉ members := fun hnil => QuestPool.not_mem_nonempty _ (hperm.mem_iff.mp hnil)
  obtain ⟨hcount, hactive⟩ := Chosen.isActive { tables.loadedPool p with
    members := members, activeQuests := quests, numActive := (tables.loadedPool p).clamped }
    hchosen hnodup hne
  exact ⟨hperm, hcount, hactive, hkept⟩

/-- **When the state is well formed**: exactly when every pool with quests has a template and fits. -/
theorem wellLoaded_iff (tables : QuestPoolTables) (order : Arrangement PooledQuests)
    (draw : UInt32 → Nat → Nat) :
    (∃ mgr, tables.loadFromDB order draw = some mgr ∧ tables.WellLoaded mgr) ↔ tables.Fitting := by
  have hload : tables.loadFromDB order draw =
      checkPools draw (order.arrange tables.lookup.rows) { pools := [] } := rfl
  have hmem : ∀ e, e ∈ order.arrange tables.lookup.rows ↔ e ∈ tables.lookup := fun e =>
    (order.perm _).mem_iff
  constructor
  · intro h
    obtain ⟨mgr, hrun, hwell⟩ := h
    rw [hload] at hrun
    obtain ⟨es', hpools, hchecked, hpooled⟩ := checkPools_some hrun
    rw [List.nil_append] at hpools
    intro row hrow haccepts
    have hrows : row ∈ tables.poolRows row.poolId := mem_poolRows.mpr ⟨hrow, haccepts, rfl⟩
    obtain ⟨e, he, hpool⟩ := exists_mem_lookup (List.ne_nil_of_mem hrows)
    have hid : e.pool.poolId = row.poolId := congrArg QuestPool.poolId hpool
    obtain ⟨e', he', hcheck⟩ := (mem_of_forall₂ hchecked e e).1 ((hmem e).mpr he)
    obtain ⟨-, hperm, hfits⟩ := check_lookup he hcheck
    rw [hid] at hperm hfits
    constructor
    · -- a quest without a template is pooled
      intro hnone
      have hquest : row.questId ∈ (nonempty e'.pool.members).flatten :=
        hperm.flatten.mem_iff.mpr (mem_poolMembers.mpr ⟨row, hrows, rfl⟩)
      have hin : mgr.isQuestPooled row.questId = true := by
        refine (hpooled _).mpr (Or.inr ⟨e', he', ?_⟩)
        exact List.filter_sublist.flatten.subset hquest
      rw [hwell.unpooled row hrow hnone] at hin
      cases hin
    · refine hfits ?_
      intro hnil
      have hmembers := (hwell.pools e' (hpools ▸ he')).members
      exact QuestPool.not_mem_nonempty _ (hmembers.mem_iff.mp hnil)
  · intro h
    have hspec : ∀ e ∈ tables.lookup, ∃ pool,
        e.pool.check (draw e.pool.poolId) = some pool ∧ PoolLoaded tables pool := by
      intro e he
      obtain ⟨hpool, hrows⟩ := mem_lookup he
      obtain ⟨row, hrow⟩ := List.exists_mem_of_ne_nil _ hrows
      obtain ⟨htable, haccepts, hid⟩ := mem_poolRows.mp hrow
      have hfits := (h row htable haccepts).2
      rw [hid] at hfits
      exact poolLoaded_of_fits hpool hrow hfits
    obtain ⟨mgr, hrun⟩ := exists_checkPools { pools := [] } fun e he =>
      (hspec e ((hmem e).mp he)).imp fun _ hpool => hpool.1
    obtain ⟨es', hpools, hchecked, hpooled⟩ := checkPools_some hrun
    rw [List.nil_append] at hpools
    refine ⟨mgr, hload.trans hrun, ?_, ?_, ?_⟩
    · intro row hrow hnone
      apply Bool.eq_false_iff.mpr
      intro hin
      rcases (hpooled _).mp hin with hin | ⟨e', he', hquest⟩
      · cases hin
      · obtain ⟨e, he, hcheck⟩ := (mem_of_forall₂ hchecked e' e').2 he'
        obtain ⟨pool, hsome, hloaded⟩ := hspec e ((hmem e).mp he)
        cases hcheck.symm.trans hsome
        -- the only row of the quest is of a pool with a template
        rw [hloaded.members.flatten.mem_iff, mem_poolMembers] at hquest
        obtain ⟨row', hrow', hsame⟩ := hquest
        obtain ⟨htable, haccepts, -⟩ := mem_poolRows.mp hrow'
        have hrow'' : row' = row := Table.eq_of_key htable hrow hsame
        rw [hrow''] at haccepts
        exact (h row hrow haccepts).1 hnone
    · intro e' he'
      rw [hpools] at he'
      obtain ⟨e, he, hcheck⟩ := (mem_of_forall₂ hchecked e' e').2 he'
      obtain ⟨pool, hsome, hloaded⟩ := hspec e ((hmem e).mp he)
      cases hcheck.symm.trans hsome
      exact hloaded
    · intro row hrow haccepts _
      obtain ⟨e, he, hpool⟩ :=
        exists_mem_lookup (List.ne_nil_of_mem (mem_poolRows.mpr ⟨hrow, haccepts, rfl⟩))
      obtain ⟨e', he', hcheck⟩ := (mem_of_forall₂ hchecked e e).1 ((hmem e).mpr he)
      refine ⟨e', hpools ▸ he', ?_⟩
      rw [(check_lookup he hcheck).1, hpool]
      rfl

theorem nodup_twoRows (poolIndex : UInt8) :
    (([⟨1, 5, 0⟩, ⟨2, 5, poolIndex⟩] : List QuestPoolMember).map QuestPoolMember.questId).Nodup := by
  show ([1, 2] : List UInt32).Nodup
  decide

/-- Quest 1 at index 0 of pool 5, and quest 2 at an index that is given; every quest is daily. -/
def twoQuests (poolIndex : UInt8) (numActive : Option UInt32) (saved : List SavedQuest) :
    QuestPoolTables where
  quest_pool_members := ⟨[⟨1, 5, 0⟩, ⟨2, 5, poolIndex⟩], nodup_twoRows poolIndex⟩
  quest_pool_template _ := numActive
  pool_quest_save := saved
  quest_template _ := some (true, false, false)

/-- Without a template the quests are pooled; with nothing at index 1 the pool keeps a member without
quests, or, once a quest has been saved, an `ASSERT` fails. -/
theorem not_wellLoaded :
    (((twoQuests 1 none []).loadFromDB (Arrangement.id _) fun _ _ => 0).map
        fun mgr => mgr.isQuestPooled 1) = some true ∧
      (((twoQuests 2 (some 1) []).loadFromDB (Arrangement.id _) fun _ _ => 0).map
        fun mgr => mgr.pools.map fun e => e.pool.members) = some [[[1], [], [2]]] ∧
      ((twoQuests 2 (some 3) [⟨5, 1⟩]).loadFromDB (Arrangement.id _) fun _ _ => 0).isNone = true ∧
      ∀ tables ∈ [twoQuests 1 none [], twoQuests 2 (some 1) [], twoQuests 2 (some 3) [⟨5, 1⟩]],
        ¬∃ mgr, tables.loadFromDB (Arrangement.id _) (fun _ _ => 0) = some mgr ∧
          tables.WellLoaded mgr := by
  have hpooled : (((twoQuests 1 none []).loadFromDB (Arrangement.id _) fun _ _ => 0).map
      fun mgr => mgr.isQuestPooled 1) = some true := by decide +kernel
  have hkept : (((twoQuests 2 (some 1) []).loadFromDB (Arrangement.id _) fun _ _ => 0).map
      fun mgr => mgr.pools.map fun e => e.pool.members) = some [[[1], [], [2]]] := by decide +kernel
  have hnone : ((twoQuests 2 (some 3) [⟨5, 1⟩]).loadFromDB (Arrangement.id _) fun _ _ => 0).isNone =
      true := by decide +kernel
  refine ⟨hpooled, hkept, hnone, ?_⟩
  intro tables htables h
  obtain ⟨mgr, hrun, hwell⟩ := h
  simp only [List.mem_cons, List.not_mem_nil, or_false] at htables
  rcases htables with rfl | rfl | rfl
  · rw [hrun, Option.map_some, Option.some.injEq] at hpooled
    have hnot := hwell.unpooled ⟨1, 5, 0⟩ List.mem_cons_self rfl
    rw [hpooled] at hnot
    cases hnot
  · rw [hrun, Option.map_some, Option.some.injEq] at hkept
    have hmem : [[1], [], [2]] ∈ mgr.pools.map fun e => e.pool.members := by
      rw [hkept]
      exact List.mem_cons_self
    obtain ⟨e, he, hmembers⟩ := List.mem_map.mp hmem
    have hnil : [] ∈ e.pool.members := by
      rw [hmembers]
      exact List.mem_cons_of_mem _ List.mem_cons_self
    exact QuestPool.not_mem_nonempty _ ((hwell.pools e he).members.mem_iff.mp hnil)
  · rw [hrun] at hnone
    cases hnone

end QuestPoolTables

end EGServer.Pools
