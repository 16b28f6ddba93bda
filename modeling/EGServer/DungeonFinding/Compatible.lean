import EGServer.DungeonFinding.Legal
import Mathlib.Data.Set.Pairwise.List

/-!
# Compatible sets of entries

What the search is for, without its lists, orders and caches: a set of queue entries is
compatible when its players can be in one group, and fully compatible when they are a full
group. A part of a compatible set is compatible, which is what lets the search grow its
lists one entry at a time.
-/

namespace EGServer.DungeonFinding

open Assignment

/-- The number of players of a set of entries. -/
def LFGQueue.playersIn (q : LFGQueue) (s : Finset ObjectGuid) : Nat :=
  ∑ g ∈ s, (q.rolesOf g).size

/-- The players of the entries can be in one group. -/
structure Compatible (rules : LfgRules) (q : LFGQueue) (s : Finset ObjectGuid) : Prop where
  queued : ∀ g ∈ s, q.isQueued g = true
  disjoint : ∀ g ∈ s, ∀ g' ∈ s, g ≠ g' → ∀ player ∈ q.rolesOf g, player ∉ q.rolesOf g'
  size : q.playersIn s ≤ MAX_GROUP_SIZE
  lfgGroups : (s.filter fun g => rules.isLfgGroup g = true).card ≤ 1
  ignores : ∀ g ∈ s, ∀ g' ∈ s, ∀ a ∈ q.rolesOf g, ∀ b ∈ q.rolesOf g', a ≠ b →
    rules.hasIgnore a b = false
  roles : ∃ merged : LfgRolesMap,
    (∀ (player : ObjectGuid) (r : UInt8), merged[player]? = some r ↔
      ∃ g ∈ s, (q.rolesOf g)[player]? = some r) ∧ (checkGroupRoles merged).1 = true
  dungeon : ∃ d, ∀ g ∈ s, d ∈ q.dungeonsOf g

/-- The players of the entries are a full group. -/
structure FullyCompatible (rules : LfgRules) (q : LFGQueue) (s : Finset ObjectGuid) : Prop
    extends Compatible rules q s where
  full : q.playersIn s = MAX_GROUP_SIZE

variable {rules : LfgRules} {q : LFGQueue} {s t : Finset ObjectGuid}

/-! ## Only the entries of the set matter -/

section Agree

variable {q' : LFGQueue} (h : ∀ g ∈ s, q'.queueDataStore g = q.queueDataStore g)

include h

theorem isQueued_of_agree : ∀ g ∈ s, q'.isQueued g = q.isQueued g := by
  intro g hg
  rw [LFGQueue.isQueued, LFGQueue.isQueued, h g hg]

theorem rolesOf_of_agree : ∀ g ∈ s, q'.rolesOf g = q.rolesOf g := by
  intro g hg
  rw [LFGQueue.rolesOf, LFGQueue.rolesOf, h g hg]

theorem dungeonsOf_of_agree : ∀ g ∈ s, q'.dungeonsOf g = q.dungeonsOf g := by
  intro g hg
  rw [LFGQueue.dungeonsOf, LFGQueue.dungeonsOf, h g hg]

theorem playersIn_of_agree : q'.playersIn s = q.playersIn s :=
  Finset.sum_congr rfl fun g hg => by rw [rolesOf_of_agree h g hg]

theorem Compatible.of_agree (hc : Compatible rules q s) : Compatible rules q' s where
  queued g hg := by
    rw [isQueued_of_agree h g hg]
    exact hc.queued g hg
  disjoint g hg g' hg' := by
    rw [rolesOf_of_agree h g hg, rolesOf_of_agree h g' hg']
    exact hc.disjoint g hg g' hg'
  size := by
    rw [playersIn_of_agree h]
    exact hc.size
  lfgGroups := hc.lfgGroups
  ignores g hg g' hg' := by
    rw [rolesOf_of_agree h g hg, rolesOf_of_agree h g' hg']
    exact hc.ignores g hg g' hg'
  roles := by
    obtain ⟨merged, hmerged, hsolve⟩ := hc.roles
    refine ⟨merged, fun player r => ?_, hsolve⟩
    rw [hmerged]
    apply exists_congr
    intro g
    apply and_congr_right
    intro hg
    rw [rolesOf_of_agree h g hg]
  dungeon := by
    obtain ⟨d, hd⟩ := hc.dungeon
    refine ⟨d, fun g hg => ?_⟩
    rw [dungeonsOf_of_agree h g hg]
    exact hd g hg

theorem compatible_iff_of_agree : Compatible rules q' s ↔ Compatible rules q s :=
  ⟨fun hc => hc.of_agree fun g hg => (h g hg).symm, fun hc => hc.of_agree h⟩

theorem fullyCompatible_iff_of_agree : FullyCompatible rules q' s ↔ FullyCompatible rules q s := by
  constructor
  · intro hf
    refine ⟨(compatible_iff_of_agree h).mp hf.toCompatible, ?_⟩
    rw [← playersIn_of_agree h]
    exact hf.full
  · intro hf
    refine ⟨(compatible_iff_of_agree h).mpr hf.toCompatible, ?_⟩
    rw [playersIn_of_agree h]
    exact hf.full

end Agree

/-! ## Parts of a compatible set -/

theorem size_merged (hdisjoint : ∀ g ∈ s, ∀ g' ∈ s, g ≠ g' →
      ∀ player ∈ q.rolesOf g, player ∉ q.rolesOf g') {merged : LfgRolesMap}
    (hmerged : ∀ (player : ObjectGuid) (r : UInt8), merged[player]? = some r ↔
      ∃ g ∈ s, (q.rolesOf g)[player]? = some r) : merged.size = q.playersIn s := by
  have hplayers : merged.players = s.biUnion fun g => (q.rolesOf g).players := by
    ext player
    rw [Finset.mem_biUnion]
    constructor
    · intro hp
      obtain ⟨r, hr⟩ := LfgRolesMap.getElem?_of_mem hp
      obtain ⟨g, hg, hget⟩ := (hmerged player r).mp hr
      exact ⟨g, hg, LfgRolesMap.mem_players.mpr (LfgRolesMap.mem_of_getElem? hget)⟩
    · rintro ⟨g, hg, hp⟩
      obtain ⟨r, hr⟩ := LfgRolesMap.getElem?_of_mem hp
      exact LfgRolesMap.mem_players.mpr
        (LfgRolesMap.mem_of_getElem? ((hmerged player r).mpr ⟨g, hg, hr⟩))
  rw [← LfgRolesMap.card_players, hplayers, Finset.card_biUnion]
  · exact Finset.sum_congr rfl fun g _ => LfgRolesMap.card_players _
  · intro g hg g' hg' hne
    apply Finset.disjoint_left.mpr
    grind [LfgRolesMap.mem_players]

theorem playersIn_mono (hts : t ⊆ s) : q.playersIn t ≤ q.playersIn s :=
  Finset.sum_le_sum_of_subset hts

/-- **Downward closure.** A part of a compatible set that has players is compatible. -/
theorem Compatible.subset (h : Compatible rules q s) (hsized : q.Sized) (hts : t ⊆ s)
    (hne : t.Nonempty) : Compatible rules q t := by
  have hdisjoint := fun g hg g' hg' => h.disjoint g (hts hg) g' (hts hg')
  refine ⟨fun g hg => h.queued g (hts hg), hdisjoint, (playersIn_mono hts).trans h.size, ?_,
    fun g hg g' hg' => h.ignores g (hts hg) g' (hts hg'), ?_, ?_⟩
  · exact (Finset.card_le_card (Finset.filter_subset_filter _ hts)).trans h.lfgGroups
  · obtain ⟨merged, hmerged, hsolve⟩ := h.roles
    let part : LfgRolesMap := merged.filter fun player _ => decide (∃ g ∈ t, player ∈ q.rolesOf g)
    have hpart : ∀ (player : ObjectGuid) (r : UInt8), part[player]? = some r ↔
        ∃ g ∈ t, (q.rolesOf g)[player]? = some r := by
      intro player r
      rw [Std.ExtTreeMap.getElem?_filter', Option.filter_eq_some_iff, hmerged, decide_eq_true_iff]
      constructor
      · rintro ⟨⟨g, hg, hr⟩, g', hg', hp⟩
        by_cases he : g = g'
        · exact ⟨g, he ▸ hg', hr⟩
        · exact absurd hp (h.disjoint g hg g' (hts hg') he player (LfgRolesMap.mem_of_getElem? hr))
      · rintro ⟨g, hg, hr⟩
        exact ⟨⟨g, hts hg, hr⟩, g, hg, LfgRolesMap.mem_of_getElem? hr⟩
    have hsize : merged.size < 256 := by
      rw [size_merged h.disjoint hmerged]
      exact Nat.lt_of_le_of_lt h.size (by decide)
    have hsize' : part.size < 256 := by
      grind
    obtain ⟨_, hclean, hassign⟩ := (checkGroupRoles_iff merged hsize).mp hsolve
    have hget : ∀ (player : ObjectGuid) (r : UInt8), part[player]? = some r →
        merged[player]? = some r := by
      grind
    refine ⟨part, hpart, (checkGroupRoles_iff part hsize').mpr ⟨?_, ?_, ?_⟩⟩
    · obtain ⟨g, hg⟩ := hne
      have hpos := hsized.size_pos (h.queued g (hts hg))
      rw [← LfgRolesMap.card_players, Finset.card_pos] at hpos
      obtain ⟨player, hp⟩ := hpos
      obtain ⟨r, hr⟩ := LfgRolesMap.getElem?_of_mem hp
      exact ⟨player, LfgRolesMap.mem_players.mpr
        (LfgRolesMap.mem_of_getElem? ((hpart player r).mpr ⟨g, hg, hr⟩))⟩
    · exact fun player r hr => hclean player r (hget player r hr)
    · have hsub : part.players ⊆ merged.players := by
        intro player hp
        obtain ⟨r, hr⟩ := LfgRolesMap.getElem?_of_mem hp
        exact LfgRolesMap.mem_players.mpr (LfgRolesMap.mem_of_getElem? (hget player r hr))
      obtain ⟨f, hf⟩ := hassign.subset hsub
      refine ⟨f, hf.congr fun player hp hable => ?_⟩
      grind [EGServer.DungeonFinding.LfgRolesMap.getD_of_getElem?, LfgRolesMap.Able, EGServer.DungeonFinding.LfgRolesMap.getElem?_of_mem]
  · obtain ⟨d, hd⟩ := h.dungeon
    exact ⟨d, fun g hg => hd g (hts hg)⟩

/-! ## Lists of entries -/

variable {env : LfgEnv} {check : List ObjectGuid}

theorem total_eq_playersIn (hnodup : check.Nodup) : q.total check = q.playersIn check.toFinset := by
  rw [LFGQueue.playersIn, List.sum_toFinset _ hnodup, LFGQueue.total]

theorem mergeable_iff (hnodup : check.Nodup) :
    Mergeable env.toLfgRules (q.playersOf check) ↔
      (∀ g ∈ check, ∀ g' ∈ check, g ≠ g' → ∀ player ∈ q.rolesOf g, player ∉ q.rolesOf g') ∧
      ∀ g ∈ check, ∀ g' ∈ check, ∀ a ∈ q.rolesOf g, ∀ b ∈ q.rolesOf g', a ≠ b →
        env.hasIgnore a b = false := by
  have hplayers : (q.playersOf check).map Prod.fst = check.flatMap fun g => (q.rolesOf g).keys := by
    rw [LFGQueue.playersOf, List.map_flatMap]
    simp only [Std.ExtTreeMap.map_fst_toList_eq_keys]
  have hpairwise : (q.playersOf check).Pairwise (fun a b => env.hasIgnore a.1 b.1 = false) ↔
      (check.flatMap fun g => (q.rolesOf g).keys).Pairwise
        fun a b => env.hasIgnore a b = false := by
    rw [← hplayers, List.pairwise_map]
  have hdistinct : (check.flatMap fun g => (q.rolesOf g).keys).Nodup ↔
      ∀ g ∈ check, ∀ g' ∈ check, g ≠ g' → ∀ player ∈ q.rolesOf g, player ∉ q.rolesOf g' := by
    have hsymm : Std.Symm (Function.onFun List.Disjoint fun g => (q.rolesOf g).keys) :=
      ⟨fun _ _ h => h.symm⟩
    rw [List.nodup_flatMap, ← List.Nodup.pairwise_coe hnodup]
    constructor
    · rintro ⟨_, h⟩ g hg g' hg' hne player hp hp'
      exact h hg hg' hne (Std.ExtTreeMap.mem_keys.mpr hp) (Std.ExtTreeMap.mem_keys.mpr hp')
    · intro h
      refine ⟨fun g _ => LfgRolesMap.nodup_keys _, ?_⟩
      intro g hg g' hg' hne player hp hp'
      exact h g hg g' hg' hne player (Std.ExtTreeMap.mem_keys.mp hp)
        (Std.ExtTreeMap.mem_keys.mp hp')
  rw [Mergeable, hplayers, hpairwise, ← hdistinct]
  apply and_congr_right
  intro hdis
  have hmem : ∀ {player}, player ∈ (check.flatMap fun g => (q.rolesOf g).keys) ↔
      ∃ g ∈ check, player ∈ q.rolesOf g := by
    intro player
    simp [List.mem_flatMap]
  have hsymm : Std.Symm fun a b => env.hasIgnore a b = false :=
    ⟨fun a b h => (env.hasIgnore_comm b a).trans h⟩
  rw [← List.Nodup.pairwise_coe hdis]
  constructor
  · intro h g hg g' hg' a ha b hb hne
    exact h (hmem.mpr ⟨g, hg, ha⟩) (hmem.mpr ⟨g', hg', hb⟩) hne
  · intro h a ha b hb hne
    obtain ⟨g, hg, ha⟩ := hmem.mp ha
    obtain ⟨g', hg', hb⟩ := hmem.mp hb
    exact h g hg g' hg' a ha b hb hne

/-- **A list joins** exactly when its set is compatible. -/
theorem joins_iff (hnodup : check.Nodup) (hne : check ≠ [])
    (hq : ∀ g ∈ check, q.isQueued g = true) (htotal : q.total check ≤ MAX_GROUP_SIZE) :
    Joins env q check ↔ Compatible env.toLfgRules q check.toFinset := by
  have hgroups : (check.toFinset.filter fun g => env.isLfgGroup g = true).card =
      check.countP env.isLfgGroup := by
    rw [List.countP_eq_length_filter, ← List.toFinset_filter,
      List.toFinset_card_of_nodup (hnodup.filter _)]
  constructor
  · intro h
    obtain ⟨hdisjoint, hignores⟩ := (mergeable_iff hnodup).mp h.mergeable
    refine ⟨?_, ?_, ?_, ?_, ?_, ?_, ?_⟩
    · simpa using hq
    · simpa using hdisjoint
    · rwa [← total_eq_playersIn hnodup]
    · rw [hgroups]
      exact h.lfgGroups
    · simpa using hignores
    · refine ⟨mergeRoles env q check, fun player r => ?_, h.solvable⟩
      rw [getElem?_mergeRoles h.mergeable]
      simp
    · obtain ⟨d, hd⟩ := h.dungeons
      refine ⟨d, ?_⟩
      simpa using (mem_commonDungeons.mp hd).2
  · intro h
    have hmergeable : Mergeable env.toLfgRules (q.playersOf check) :=
      (mergeable_iff hnodup).mpr ⟨by simpa using h.disjoint, by simpa using h.ignores⟩
    refine ⟨?_, hmergeable, ?_, ?_⟩
    · rw [← hgroups]
      exact h.lfgGroups
    · obtain ⟨merged, hmerged, hsolve⟩ := h.roles
      have : mergeRoles env q check = merged := by
        apply Std.ExtTreeMap.ext_getElem?
        intro player
        apply Option.ext
        intro r
        rw [hmerged, getElem?_mergeRoles hmergeable]
        simp
      rw [this]
      exact hsolve
    · obtain ⟨d, hd⟩ := h.dungeon
      refine ⟨d, mem_commonDungeons.mpr ⟨hne, ?_⟩⟩
      simpa using hd

end EGServer.DungeonFinding
