import EGServer.Pools.QuestPools

/-!
# The check of a quest pool

What the check of `LoadFromDB` leaves of one pool: the saved quests, where they are those of as many
members as are to be active, and those of members that are drawn otherwise. Members without quests
are removed in the first case only, and only after the number of active members has been compared
with the number of members.
-/

namespace EGServer.Pools

namespace QuestPool

open List (Perm)

variable {pool : QuestPool} {t : List (List UInt32)} {S : Finset UInt32} {draw : Nat → Nat}
  {k i : Nat}

/-! ## Members that are active -/

/-- The members that have quests. -/
def nonempty (members : List (List UInt32)) : List (List UInt32) := members.filter fun m => m ≠ []

/-- All quests of the member are active. -/
def isActive (pool : QuestPool) (member : List UInt32) : Bool :=
  member.all fun quest => decide (quest ∈ pool.activeQuests)

/-- The quests are those of `k` of the members. -/
def Chosen (members : List (List UInt32)) (quests : Finset UInt32) (k : Nat) : Prop :=
  ∃ chosen rest, members.Perm (chosen ++ rest) ∧ chosen.length = k ∧ quests = chosen.flatten.toFinset

theorem Chosen.of_perm {members members' : List (List UInt32)} (h : Chosen members S k)
    (hperm : members'.Perm members) : Chosen members' S k := by
  obtain ⟨chosen, rest, hsplit, hlength, hquests⟩ := h
  exact ⟨chosen, rest, hperm.trans hsplit, hlength, hquests⟩

theorem mem_toFinset_flatten {l : List (List UInt32)} {q : UInt32} :
    q ∈ l.flatten.toFinset ↔ ∃ m ∈ l, q ∈ m := by
  rw [List.mem_toFinset, List.mem_flatten]

theorem not_mem_of_rest {chosen rest : List (List UInt32)} (hnodup : t.flatten.Nodup)
    (hperm : t.Perm (chosen ++ rest)) {m : List UInt32} (hm : m ∈ rest) {q : UInt32} (hq : q ∈ m) :
    q ∉ chosen.flatten.toFinset := by
  have hsplit := hperm.flatten.nodup_iff.mp hnodup
  rw [List.flatten_append] at hsplit
  intro hchosen
  exact (List.nodup_append.mp hsplit).2.2 q (List.mem_toFinset.mp hchosen) q
    (List.mem_flatten.mpr ⟨m, hm, hq⟩) rfl

/-- **As many members are active as were chosen**, and their quests are the active ones. -/
theorem Chosen.isActive (pool : QuestPool) (h : Chosen pool.members pool.activeQuests k)
    (hnodup : pool.members.flatten.Nodup) (hne : [] ∉ pool.members) :
    pool.members.countP pool.isActive = k ∧
      ∀ q, q ∈ pool.activeQuests ↔ ∃ m ∈ pool.members, pool.isActive m = true ∧ q ∈ m := by
  obtain ⟨chosen, rest, hperm, hlength, hquests⟩ := h
  have hchosen : ∀ m ∈ chosen, pool.isActive m = true := by
    intro m hm
    apply List.all_eq_true.mpr
    intro q hq
    rw [hquests]
    exact decide_eq_true (mem_toFinset_flatten.mpr ⟨m, hm, hq⟩)
  have hrest : ∀ m ∈ rest, ¬pool.isActive m = true := by
    intro m hm hactive
    cases m with
    | nil => exact hne (hperm.mem_iff.mpr (List.mem_append_right _ hm))
    | cons q m =>
      have hq : q ∈ pool.activeQuests :=
        of_decide_eq_true (List.all_eq_true.mp hactive q List.mem_cons_self)
      rw [hquests] at hq
      exact not_mem_of_rest hnodup hperm hm List.mem_cons_self hq
  constructor
  · rw [hperm.countP_eq, List.countP_append, List.countP_eq_length.mpr hchosen,
      List.countP_eq_zero.mpr hrest, hlength, Nat.add_zero]
  · grind [mem_toFinset_flatten]

/-! ## Drawing -/

theorem take_swap {l : List (List UInt32)} {j : Nat} (h : k ≤ j) : (l.swap k j).take k = l.take k := by
  apply List.ext_getElem
  · simp
  · grind

/-- The first `k` turns of the loop. -/
theorem regenerateSteps (pool : QuestPool) (draw : Nat → Nat) (hk : k ≤ pool.members.length) :
    ∃ drawn, (List.range k).foldl (regenerateStep draw) { pool with activeQuests := ∅ } =
        { pool with
          members := drawn
          activeQuests := (drawn.take k).flatten.toFinset } ∧
      drawn.Perm pool.members := by
  induction k with
  | zero => exact ⟨pool.members, rfl, Perm.refl _⟩
  | succ k ih =>
    obtain ⟨drawn, hfold, hperm⟩ := ih (Nat.le_of_succ_le hk)
    rw [List.range_succ, List.foldl_append, hfold, List.foldl_cons, List.foldl_nil]
    have hlen : drawn.length = pool.members.length := hperm.length_eq
    have hle : k ≤ Sampling.between (Sampling.skip draw k) k (drawn.length - 1) := Nat.le_add_right _ _
    have hswap : (if k ≠ Sampling.between (Sampling.skip draw k) k (drawn.length - 1) then
        drawn.swap k (Sampling.between (Sampling.skip draw k) k (drawn.length - 1)) else drawn) =
          drawn.swap k (Sampling.between (Sampling.skip draw k) k (drawn.length - 1)) := by
      split
      · rfl
      · rename_i heq
        rw [← not_not.mp heq, List.swap_self]
    refine ⟨drawn.swap k (Sampling.between (Sampling.skip draw k) k (drawn.length - 1)), ?_,
      (List.swap_perm _ _ _).trans hperm⟩
    grind [List.toFinset_append, take_swap, List.take_add_one, regenerateStep]

/-- **What is drawn**: as many members as are to be active. -/
theorem regeneratePool_spec (pool : QuestPool) (draw : Nat → Nat) (hne : pool.members ≠ [])
    (hle : pool.numActive.toNat ≤ pool.members.length) :
    ∃ members quests, pool.regeneratePool draw = some { pool with members, activeQuests := quests } ∧
      members.Perm pool.members ∧ Chosen members quests pool.numActive.toNat := by
  obtain ⟨drawn, hfold, hperm⟩ := regenerateSteps pool draw hle
  refine ⟨drawn, (drawn.take pool.numActive.toNat).flatten.toFinset, ?_, hperm, ?_⟩
  · rw [regeneratePool, if_neg (by simpa using hne), if_neg (Nat.not_lt.mpr hle), hfold]
  · refine ⟨drawn.take pool.numActive.toNat, drawn.drop pool.numActive.toNat, ?_, ?_, rfl⟩
    · rw [List.take_append_drop]
    · rw [List.length_take, hperm.length_eq]
      exact Nat.min_eq_left hle

theorem regeneratePool_none (draw : Nat → Nat) (h : pool.members.length < pool.numActive.toNat) :
    pool.regeneratePool draw = none := by
  rw [regeneratePool, if_pos h, ite_self]

/-! ## Restoring -/

/-- The first quest of the member has been saved. -/
def isSaved (S : Finset UInt32) : List UInt32 → Bool
  | [] => false
  | first :: _ => decide (first ∈ S)

theorem restoreOthers (status : Bool) (others : List UInt32) (r : Restoring) :
    others.foldl (restoreOther status) r =
      { r with
        activeQuests := r.activeQuests \ others.toFinset
        accountedFor :=
          if status then r.accountedFor ∪ others.toFinset else r.accountedFor } := by
  induction others generalizing r with
  | nil => cases status <;> simp
  | cons q others ih =>
    rw [List.foldl_cons, ih, restoreOther]
    dsimp only
    rw [List.toFinset_cons]
    congr 1
    · ext a
      simp only [Finset.mem_sdiff, Finset.mem_erase, Finset.mem_insert]
      tauto
    · grind

/-- **A member with quests**: all of them are accounted for if the first has been saved, and they are
not active in either case. -/
theorem restoreMember_of_quests {r : Restoring} {q : UInt32} {others : List UInt32}
    (h : r.members[i]? = some (q :: others)) :
    restoreMember r i =
      { r with
        activeQuests := r.activeQuests \ (q :: others).toFinset
        accountedFor := if q ∈ r.activeQuests then r.accountedFor ∪ (q :: others).toFinset
          else r.accountedFor
        activeCount := if q ∈ r.activeQuests then r.activeCount + 1 else r.activeCount } := by
  rw [restoreMember, h]
  dsimp only
  by_cases hq : q ∈ r.activeQuests
  · rw [decide_eq_true hq, if_pos rfl, restoreOthers, if_pos rfl, if_pos hq, if_pos hq]
    dsimp only
    rw [List.toFinset_cons]
    congr 1
    · ext a
      simp only [Finset.mem_sdiff, Finset.mem_erase, Finset.mem_insert]
      tauto
    · ext a
      simp only [if_true, Finset.mem_union, Finset.mem_insert]
      tauto
  · rw [decide_eq_false hq, if_neg Bool.false_ne_true, restoreOthers, if_neg Bool.false_ne_true,
      if_neg hq, if_neg hq]
    rw [List.toFinset_cons]
    congr 1
    grind

/-- The members from `i` on have been gone through. -/
structure Restored (t : List (List UInt32)) (S : Finset UInt32) (i : Nat) (r : Restoring) : Prop where
  members : ∃ done, r.members = t.take i ++ done ∧ done.Perm (nonempty (t.drop i))
  active : r.activeQuests = S \ (t.drop i).flatten.toFinset
  accounted : r.accountedFor = ((t.drop i).filter (isSaved S)).flatten.toFinset
  count : r.activeCount = (t.drop i).countP (isSaved S)

/-- One turn of the loop. -/
theorem Restored.step {r : Restoring} (h : Restored t S (i + 1) r) (hi : i < t.length)
    (hnodup : t.flatten.Nodup) : Restored t S i (restoreMember r i) := by
  obtain ⟨done, hmembers, hperm⟩ := h.members
  have htake : t.take (i + 1) = t.take i ++ [t[i]] := (List.take_append_getElem hi).symm
  have hdrop : t.drop i = t[i] :: t.drop (i + 1) := List.drop_eq_getElem_cons hi
  have hlength : (t.take i).length = i := List.length_take_of_le (Nat.le_of_lt hi)
  rw [htake, List.append_assoc, List.singleton_append] at hmembers
  have hget : r.members[i]? = some t[i] := by
    rw [hmembers, List.getElem?_append_right (Nat.le_of_eq hlength), hlength, Nat.sub_self]
    rfl
  cases hmember : t[i] with
  | nil =>
    -- the last member takes the place of the one without quests
    rw [hmember] at hget hmembers hdrop
    have hpop : restoreMember r i = { r with members := Sampling.swapPop r.members i } := by
      rw [restoreMember, hget]
    have hswap : ∃ done', Sampling.swapPop r.members i = t.take i ++ done' ∧ done'.Perm done := by
      rw [hmembers]
      rcases List.eq_nil_or_concat done with rfl | ⟨front, last, rfl⟩
      · refine ⟨[], ?_, Perm.refl _⟩
        rw [Sampling.swapPop, List.getLast?_concat]
        dsimp only
        rw [List.set_append_right _ _ (Nat.le_of_eq hlength), hlength, Nat.sub_self]
        simp
      · refine ⟨last :: front, ?_, ?_⟩
        · rw [List.concat_eq_append, ← List.cons_append, ← List.append_assoc, Sampling.swapPop,
            List.getLast?_concat]
          dsimp only
          rw [List.append_assoc, List.set_append_right _ _ (Nat.le_of_eq hlength), hlength,
            Nat.sub_self, List.cons_append, List.set_cons_zero, ← List.cons_append,
            ← List.append_assoc, List.dropLast_concat]
        · rw [List.concat_eq_append]
          exact (List.perm_append_singleton last front).symm
    obtain ⟨done', hpopped, hperm'⟩ := hswap
    rw [hpop]
    constructor
    · refine ⟨done', hpopped, ?_⟩
      rw [hdrop]
      exact hperm'.trans hperm
    · rw [hdrop]
      exact h.active
    · rw [hdrop]
      exact h.accounted
    · rw [hdrop]
      exact h.count
  | cons q others =>
    rw [hmember] at hget hmembers hdrop
    -- no later member has this quest
    have hfresh : q ∉ (t.drop (i + 1)).flatten := by
      have hsplit : (t.take i).flatten ++ ((q :: others) ++ (t.drop (i + 1)).flatten) = t.flatten := by
        rw [← List.flatten_cons, ← hdrop, ← List.flatten_append, List.take_append_drop]
      grind
    have hstatus : q ∈ r.activeQuests ↔ q ∈ S := by
      rw [h.active, Finset.mem_sdiff, List.mem_toFinset]
      exact and_iff_left hfresh
    rw [restoreMember_of_quests hget]
    constructor
    · refine ⟨(q :: others) :: done, hmembers, ?_⟩
      rw [hdrop]
      exact hperm.cons (q :: others)
    · dsimp only
      rw [h.active, hdrop, List.flatten_cons, List.toFinset_append]
      ext a
      simp only [Finset.mem_sdiff, Finset.mem_union]
      tauto
    · dsimp only
      simp only [hstatus]
      rw [hdrop, h.accounted]
      by_cases hq : q ∈ S
      · have hsaved : isSaved S (q :: others) = true := decide_eq_true hq
        rw [if_pos hq, List.filter_cons_of_pos hsaved, List.flatten_cons, List.toFinset_append,
          Finset.union_comm]
      · rw [if_neg hq, List.filter_cons_of_neg (by simpa [isSaved] using hq)]
    · dsimp only
      simp only [hstatus]
      rw [hdrop, h.count]
      by_cases hq : q ∈ S
      · have hsaved : isSaved S (q :: others) = true := decide_eq_true hq
        rw [if_pos hq, List.countP_cons_of_pos hsaved]
      · rw [if_neg hq, List.countP_cons_of_neg (by simpa [isSaved] using hq)]

/-- **What is restored**: the members whose first quest has been saved, out of those with quests. -/
theorem restore_spec (pool : QuestPool) (hnodup : pool.members.flatten.Nodup) :
    pool.restore.members.Perm (nonempty pool.members) ∧
      pool.restore.accountedFor =
        (pool.members.filter (isSaved pool.activeQuests)).flatten.toFinset ∧
      pool.restore.activeCount = pool.members.countP (isSaved pool.activeQuests) := by
  have hrun : ∀ k, k ≤ pool.members.length →
      Restored pool.members pool.activeQuests (pool.members.length - k)
        (((List.range pool.members.length).reverse.take k).foldl restoreMember
          { members := pool.members, activeQuests := pool.activeQuests }) := by
    intro k
    induction k with
    | zero =>
      intro _
      rw [Nat.sub_zero, List.take_zero]
      refine ⟨⟨[], ?_, ?_⟩, ?_, ?_, ?_⟩ <;> simp [nonempty]
    | succ k ih =>
      intro hk
      have hget : (List.range pool.members.length).reverse[k]? =
          some (pool.members.length - 1 - k) := by
        rw [List.getElem?_reverse (by simpa using hk), List.length_range,
          List.getElem?_range (by omega)]
      rw [List.take_add_one, hget, List.foldl_append]
      have hnext := ih (Nat.le_of_succ_le hk)
      have hindex : pool.members.length - k = pool.members.length - 1 - k + 1 := by omega
      rw [hindex] at hnext
      have hstep := hnext.step (by omega) hnodup
      rw [Nat.sub_add_eq, Nat.sub_right_comm]
      exact hstep
  have hall := hrun pool.members.length (Nat.le_refl _)
  rw [List.take_of_length_le (by simp), Nat.sub_self] at hall
  obtain ⟨⟨done, hmembers, hperm⟩, -, haccounted, hcount⟩ := hall
  refine ⟨?_, haccounted, hcount⟩
  have hmembers : pool.restore.members = done := hmembers
  rw [hmembers]
  exact hperm

/-! ## The check -/

/-- The number of active members, reduced to the number of members. -/
def clamped (pool : QuestPool) : UInt32 :=
  if pool.members.length < pool.numActive.toNat then UInt32.ofNat pool.members.length
  else pool.numActive

theorem toNat_clamped (h : pool.members.length < 2 ^ 32) :
    pool.clamped.toNat = min pool.numActive.toNat pool.members.length := by
  rw [clamped]
  split
  · rw [UInt32.toNat_ofNat_of_lt' h]
    omega
  · omega

theorem check_eq (pool : QuestPool) (draw : Nat → Nat) : pool.check draw =
    if pool.activeQuests = ∅ then { pool with numActive := pool.clamped }.regeneratePool draw
    else if pool.restore.activeCount ≠ pool.clamped.toNat then
      regeneratePool draw { pool with
        numActive := pool.clamped
        members := pool.restore.members
        activeQuests := pool.restore.accountedFor }
    else
      some { pool with
        numActive := pool.clamped
        members := pool.restore.members
        activeQuests := pool.restore.accountedFor } := by
  rw [check, clamped]
  split <;> rfl

/-- Every index has quests, or quests have been saved and no more members are to be active than have
quests. -/
def Fits (pool : QuestPool) : Prop :=
  [] ∉ pool.members ∨
    pool.activeQuests ≠ ∅ ∧ pool.numActive.toNat ≤ (nonempty pool.members).length

theorem nonempty_eq_self (h : [] ∉ t) : nonempty t = t := by
  apply List.filter_eq_self.mpr
  intro m hm
  exact decide_eq_true fun hnil => h (hnil ▸ hm)

theorem not_mem_nonempty (t : List (List UInt32)) : [] ∉ nonempty t := by
  simp [nonempty]

theorem nonempty_perm {t' : List (List UInt32)} (h : t.Perm t') : (nonempty t).Perm (nonempty t') :=
  h.filter _

theorem nodup_nonempty (h : t.flatten.Nodup) : (nonempty t).flatten.Nodup :=
  h.sublist (List.filter_sublist.flatten)

theorem filter_isSaved_nonempty (S : Finset UInt32) (t : List (List UInt32)) :
    (nonempty t).filter (isSaved S) = t.filter (isSaved S) := by
  rw [nonempty, List.filter_filter]
  apply List.filter_congr
  intro m _
  cases m <;> simp [isSaved]

theorem countP_isSaved (S : Finset UInt32) (t : List (List UInt32)) :
    t.countP (isSaved S) = ((nonempty t).filter (isSaved S)).length := by
  rw [filter_isSaved_nonempty, List.countP_eq_length_filter]

theorem filter_isSaved_perm {chosen rest : List (List UInt32)} (hnodup : t.flatten.Nodup)
    (hne : [] ∉ t) (hperm : t.Perm (chosen ++ rest)) :
    (t.filter (isSaved chosen.flatten.toFinset)).Perm chosen := by
  have hchosen : ∀ m ∈ chosen, isSaved chosen.flatten.toFinset m = true := by
    intro m hm
    cases m with
    | nil => exact absurd (hperm.mem_iff.mpr (List.mem_append_left _ hm)) hne
    | cons q m => exact decide_eq_true (mem_toFinset_flatten.mpr ⟨_, hm, List.mem_cons_self⟩)
  have hrest : ∀ m ∈ rest, ¬isSaved chosen.flatten.toFinset m = true := by
    intro m hm hsaved
    cases m with
    | nil => cases hsaved
    | cons q m =>
      exact not_mem_of_rest hnodup hperm hm List.mem_cons_self (of_decide_eq_true hsaved)
  have hfilter := hperm.filter (isSaved chosen.flatten.toFinset)
  rw [List.filter_append, List.filter_eq_self.mpr hchosen, List.filter_eq_nil_iff.mpr hrest,
    List.append_nil] at hfilter
  exact hfilter

/-- **A pool that fits** gets as many active members as are asked for, or as there are, and keeps what
has been saved if it is such a choice. -/
theorem check_of_fits (draw : Nat → Nat) (hnodup : pool.members.flatten.Nodup)
    (hsize : pool.members.length < 2 ^ 32) (hne : nonempty pool.members ≠ []) (h : pool.Fits) :
    ∃ members quests, pool.check draw =
        some { pool with members, activeQuests := quests, numActive := pool.clamped } ∧
      members.Perm (nonempty pool.members) ∧
      Chosen members quests (min pool.numActive.toNat (nonempty pool.members).length) ∧
      (Chosen (nonempty pool.members) pool.activeQuests
        (min pool.numActive.toNat (nonempty pool.members).length) → quests = pool.activeQuests) := by
  have hclamped := toNat_clamped hsize
  have hle : (nonempty pool.members).length ≤ pool.members.length := List.length_filter_le _ _
  have hmin : pool.clamped.toNat = min pool.numActive.toNat (nonempty pool.members).length := by
    rcases h with hfull | ⟨-, hfew⟩
    · rw [hclamped, nonempty_eq_self hfull]
    · omega
  rw [check_eq, ← hmin]
  by_cases hsaved : pool.activeQuests = ∅
  · -- nothing has been saved, and no index is without quests
    have hfull : nonempty pool.members = pool.members := by
      rcases h with hfull | ⟨hsome, -⟩
      · exact nonempty_eq_self hfull
      · exact absurd hsaved hsome
    rw [if_pos hsaved]
    obtain ⟨members, quests, hdrawn, hperm, hchosen⟩ :=
      regeneratePool_spec { pool with numActive := pool.clamped } draw (hfull ▸ hne)
        (by rw [hclamped]; exact Nat.min_le_right _ _)
    refine ⟨members, quests, hdrawn, hfull.symm ▸ hperm, hchosen, ?_⟩
    intro hkept
    obtain ⟨chosen, rest, hsplit, hlength, hquests⟩ := hkept
    rw [hsaved] at hquests ⊢
    have hnone : chosen = [] := by
      apply List.eq_nil_iff_forall_not_mem.mpr
      intro m hm
      have hnil : m = [] := by
        apply List.eq_nil_iff_forall_not_mem.mpr
        intro q hq
        have hmem : q ∈ chosen.flatten.toFinset := mem_toFinset_flatten.mpr ⟨m, hm, hq⟩
        rw [← hquests] at hmem
        exact absurd hmem (Finset.notMem_empty q)
      exact not_mem_nonempty pool.members (hnil ▸ hsplit.mem_iff.mpr (List.mem_append_left _ hm))
    obtain ⟨drawn, rest', -, hlength', rfl⟩ := hchosen
    grind
  · rw [if_neg hsaved]
    obtain ⟨hmembers, haccounted, hcount⟩ := restore_spec pool hnodup
    have hrestored : Chosen pool.restore.members pool.restore.accountedFor pool.restore.activeCount := by
      refine Chosen.of_perm ?_ hmembers
      refine ⟨(nonempty pool.members).filter (isSaved pool.activeQuests),
        (nonempty pool.members).filter (fun m => !isSaved pool.activeQuests m),
        (List.filter_append_perm _ _).symm, ?_, ?_⟩
      · rw [hcount, countP_isSaved]
      · rw [haccounted, filter_isSaved_nonempty]
    have hkept : Chosen (nonempty pool.members) pool.activeQuests pool.clamped.toNat →
        pool.restore.activeCount = pool.clamped.toNat ∧
          pool.restore.accountedFor = pool.activeQuests := by
      intro hkept
      obtain ⟨chosen, rest, hsplit, hlength, hquests⟩ := hkept
      have hperm := filter_isSaved_perm (nodup_nonempty hnodup) (not_mem_nonempty pool.members) hsplit
      rw [← hquests] at hperm
      constructor
      · rw [hcount, countP_isSaved, hperm.length_eq, hlength]
      · rw [haccounted, ← filter_isSaved_nonempty]
        ext q
        rw [List.mem_toFinset, hperm.flatten.mem_iff, ← List.mem_toFinset, ← hquests]
    by_cases hactive : pool.restore.activeCount = pool.clamped.toNat
    · grind
    · rw [if_pos hactive]
      obtain ⟨members, quests, hdrawn, hperm, hchosen⟩ :=
        regeneratePool_spec { pool with
            numActive := pool.clamped
            members := pool.restore.members
            activeQuests := pool.restore.accountedFor } draw
          (fun hnil => hne (List.nil_perm.mp (hnil ▸ hmembers)))
          (by rw [hmin, hmembers.length_eq]; exact Nat.min_le_right _ _)
      grind

/-- **What the check makes of any pool**: no quest is lost, and a pool that does not fit keeps a member
without quests. -/
theorem check_some {pool' : QuestPool} (hnodup : pool.members.flatten.Nodup)
    (hsize : pool.members.length < 2 ^ 32) (hne : nonempty pool.members ≠ [])
    (h : pool.check draw = some pool') :
    pool'.poolId = pool.poolId ∧ (nonempty pool'.members).Perm (nonempty pool.members) ∧
      ([] ∉ pool'.members → pool.Fits) := by
  by_cases hfits : pool.Fits
  · obtain ⟨members, quests, hcheck, hperm, -⟩ := check_of_fits draw hnodup hsize hne hfits
    rw [hcheck] at h
    cases h
    refine ⟨rfl, ?_, fun _ => hfits⟩
    have hsame := nonempty_perm hperm
    rwa [nonempty_eq_self (not_mem_nonempty _)] at hsame
  · rw [Fits, not_or, not_and, not_not, not_le] at hfits
    obtain ⟨hgap, hmany⟩ := hfits
    rw [check_eq] at h
    by_cases hsaved : pool.activeQuests = ∅
    · -- members without quests take part in the drawing
      rw [if_pos hsaved] at h
      obtain ⟨members, quests, hdrawn, hperm, -⟩ :=
        regeneratePool_spec { pool with numActive := pool.clamped } draw
          (List.ne_nil_of_mem hgap) (by rw [toNat_clamped hsize]; exact Nat.min_le_right _ _)
      rw [hdrawn] at h
      cases h
      exact ⟨rfl, nonempty_perm hperm, fun hnone => absurd (hperm.mem_iff.mpr hgap) hnone⟩
    · -- there are fewer members than are to be active
      exfalso
      obtain ⟨hmembers, -, hcount⟩ := restore_spec pool hnodup
      have hlt : (nonempty pool.members).length < pool.members.length :=
        List.length_filter_lt_length_iff_exists.mpr ⟨[], hgap, by simp⟩
      have hfew : (nonempty pool.members).length < pool.clamped.toNat := by
        rw [toNat_clamped hsize]
        exact Nat.lt_min.mpr ⟨hmany hsaved, hlt⟩
      have hle : pool.restore.activeCount ≤ (nonempty pool.members).length := by
        rw [hcount, countP_isSaved]
        exact List.length_filter_le _ _
      rw [if_neg hsaved, if_pos (by omega), regeneratePool_none draw] at h
      · cases h
      · dsimp only
        rw [hmembers.length_eq]
        exact hfew

end QuestPool

end EGServer.Pools
