import EGServer.Spells.CategoryCooldowns
import Mathlib.Logic.Function.Basic

/-!
# How long cooldowns last

Runs of `AddCooldown` and `Update`, beside which the ends that were recorded are written down
(`Recorded`). `Update` has two loops: the first forgets the categories that have ended, the
second erases the spells that have, and with an entry goes whatever its category points to. A
category is so forgotten early if the cooldown of one of its spells ends before it
(`Recorded.Sound`); in a run in which this does not happen, and in which no entry that is
pointed to changes its category, every cooldown is there until it ends (`cooldowns_last`).
-/

namespace EGServer.Spells.SpellHistory

variable {mgr : SpellMgr} {h : SpellHistory} {k c : UInt32} {e : CooldownEntry} {n : CooldownNode}
  {q : UInt32 × Nat} {now t : TimePoint} {spellInfo : SpellInfo} {itemId : UInt32}

/-! ## What an assignment leaves -/

theorem mem_put :
    n ∈ (h.put k e).spellCooldowns →
      n.key = k ∧ n.value = e ∨ n.key ≠ k ∧ n ∈ h.spellCooldowns := by
  intro hn
  have hfind := NodeMap.find?_key hn
  by_cases hk : n.key = k
  · obtain ⟨m, hm, hv, -⟩ := find?_put_self h k e
    rw [hk, hm] at hfind
    cases hfind
    exact Or.inl ⟨hk, hv⟩
  · rw [find?_put_ne hk] at hfind
    exact Or.inr ⟨hk, (NodeMap.find?_eq_some.mp hfind).1⟩

theorem spellCooldowns_store (h : SpellHistory) (k : UInt32) (e : CooldownEntry) :
    (h.store k e).spellCooldowns = (h.put k e).spellCooldowns := by
  unfold store
  dsimp only
  split
  · exact spellCooldowns_point _ _ _
  · rfl

theorem mem_categoryCooldowns_store (hn : (h.put k e).spellCooldowns.find? k = some n) :
    q ∈ (h.store k e).categoryCooldowns ↔
      e.categoryId ≠ 0 ∧ q = (e.categoryId, n.addr) ∨
        q ∈ h.categoryCooldowns ∧ (e.categoryId ≠ 0 → q.1 ≠ e.categoryId) := by
  unfold store
  dsimp only
  split
  · next hc =>
    rw [bne_iff_ne] at hc
    rw [mem_point hn]
    simp only [ne_eq, hc, not_false_eq_true, true_and, forall_const]
    exact Iff.rfl
  · next hc =>
    rw [bne_iff_ne, ne_eq, not_not] at hc
    have hput : (h.put k e).categoryCooldowns = h.categoryCooldowns := rfl
    rw [hput, hc]
    simp only [ne_eq, not_true_eq_false, false_and, false_or, false_implies, and_true]

/-! ## What Update leaves -/

theorem mem_eraseLoop {p : CooldownNode → Bool} (l : List CooldownNode) : ∀ h : SpellHistory,
    n ∈ (l.foldl (fun h itr => if p itr then h.eraseCooldown itr else h) h).spellCooldowns ↔
      n ∈ h.spellCooldowns ∧ ∀ m ∈ l, p m = true → n.key ≠ m.key := by
  induction l with
  | nil =>
    intro h
    rw [List.foldl_nil, and_iff_left fun m hm => absurd hm List.not_mem_nil]
  | cons m l ih =>
    intro h
    rw [List.foldl_cons, ih, List.forall_mem_cons]
    by_cases hp : p m = true
    · have herase : n ∈ (h.eraseCooldown m).spellCooldowns ↔ n ∈ h.spellCooldowns ∧ n.key ≠ m.key :=
        NodeMap.mem_erase
      rw [if_pos hp, herase, and_assoc, imp_iff_right hp]
    · rw [if_neg hp]
      simp only [hp, false_implies, true_and, Bool.false_eq_true]

theorem mem_categoryCooldowns_eraseLoop {p : CooldownNode → Bool} (l : List CooldownNode) :
    ∀ h : SpellHistory,
    q ∈ (l.foldl (fun h itr => if p itr then h.eraseCooldown itr else h) h).categoryCooldowns ↔
      q ∈ h.categoryCooldowns ∧ ∀ m ∈ l, p m = true → q.1 ≠ m.value.categoryId := by
  induction l with
  | nil =>
    intro h
    rw [List.foldl_nil, and_iff_left fun m hm => absurd hm List.not_mem_nil]
  | cons m l ih =>
    intro h
    rw [List.foldl_cons, ih, List.forall_mem_cons]
    by_cases hp : p m = true
    · have herase : q ∈ (h.eraseCooldown m).categoryCooldowns ↔
          q ∈ h.categoryCooldowns ∧ q.1 ≠ m.value.categoryId := Table.mem_erase
      rw [if_pos hp, herase, and_assoc, imp_iff_right hp]
    · rw [if_neg hp]
      simp only [hp, false_implies, true_and, Bool.false_eq_true]

theorem mem_eraseIf {p : CooldownNode → Bool} :
    n ∈ (h.eraseIf p).spellCooldowns ↔ n ∈ h.spellCooldowns ∧ p n = false := by
  refine (mem_eraseLoop h.spellCooldowns.nodes.rows h).trans ⟨?_, ?_⟩
  · rintro ⟨hn, hall⟩
    refine ⟨hn, ?_⟩
    by_contra hp
    exact hall n hn (Bool.eq_true_of_not_eq_false hp) rfl
  · rintro ⟨hn, hp⟩
    refine ⟨hn, fun m hm hm' hkey => ?_⟩
    have heq : n = m := h.spellCooldowns.nodes.eq_of_key hn hm hkey
    rw [heq, hm'] at hp
    cases hp

theorem mem_categoryCooldowns_eraseIf {p : CooldownNode → Bool} :
    q ∈ (h.eraseIf p).categoryCooldowns ↔
      q ∈ h.categoryCooldowns ∧ ∀ m ∈ h.spellCooldowns, p m = true → q.1 ≠ m.value.categoryId :=
  mem_categoryCooldowns_eraseLoop h.spellCooldowns.nodes.rows h

theorem expireLoop (now : TimePoint) (l : List (UInt32 × Nat)) : ∀ h : SpellHistory,
    let h' := l.foldl
      (fun h itr =>
        if (h.deref itr.2).categoryEnd < now then
          { h with categoryCooldowns := h.categoryCooldowns.erase itr.1 }
        else h) h
    h'.spellCooldowns = h.spellCooldowns ∧
      (q ∈ h'.categoryCooldowns ↔
        q ∈ h.categoryCooldowns ∧ ∀ r ∈ l, (h.deref r.2).categoryEnd < now → q.1 ≠ r.1) := by
  induction l with
  | nil =>
    grind
  | cons r l ih =>
    intro h
    dsimp only
    rw [List.foldl_cons, List.forall_mem_cons]
    by_cases hr : (h.deref r.2).categoryEnd < now
    · rw [if_pos hr, imp_iff_right hr]
      obtain ⟨hspells, hmem⟩ := ih { h with categoryCooldowns := h.categoryCooldowns.erase r.1 }
      refine ⟨hspells, hmem.trans ?_⟩
      rw [Table.mem_erase, and_assoc]
      -- what is pointed to is not changed, so neither are the ends
      exact Iff.rfl
    · rw [if_neg hr]
      simp only [hr, false_implies, true_and]
      exact ih h

theorem spellCooldowns_expireCategories (h : SpellHistory) (now : TimePoint) :
    (h.expireCategories now).spellCooldowns = h.spellCooldowns :=
  (@expireLoop (0, 0) now h.categoryCooldowns.rows h).1

theorem mem_expireCategories :
    q ∈ (h.expireCategories now).categoryCooldowns ↔
      q ∈ h.categoryCooldowns ∧ ¬(h.deref q.2).categoryEnd < now := by
  refine (expireLoop now h.categoryCooldowns.rows h).2.trans ⟨?_, ?_⟩
  · rintro ⟨hq, hall⟩
    exact ⟨hq, fun hend => hall q hq hend rfl⟩
  · rintro ⟨hq, hend⟩
    refine ⟨hq, fun r hr hr' hkey => hend ?_⟩
    have heq : q = r := h.categoryCooldowns.eq_of_key hq hr hkey
    rwa [heq]

/-- `Update` erases the spells that have ended. -/
theorem mem_update :
    n ∈ (h.update now).spellCooldowns ↔ n ∈ h.spellCooldowns ∧ ¬n.value.cooldownEnd < now := by
  rw [update, mem_eraseIf, spellCooldowns_expireCategories, decide_eq_false_iff_not]

/-- `Update` forgets the categories that have ended, and those of the spells it erases. -/
theorem mem_categoryCooldowns_update :
    q ∈ (h.update now).categoryCooldowns ↔
      q ∈ h.categoryCooldowns ∧ ¬(h.deref q.2).categoryEnd < now ∧
        ∀ m ∈ h.spellCooldowns, m.value.cooldownEnd < now → q.1 ≠ m.value.categoryId := by
  rw [update, mem_categoryCooldowns_eraseIf, spellCooldowns_expireCategories, mem_expireCategories,
    and_assoc]
  simp only [decide_eq_true_eq]

/-! ## Runs, and what was recorded -/

/-- The item brings a cooldown of its own for the spell. -/
def OwnData (mgr : SpellMgr) (spellInfo : SpellInfo) (itemId : UInt32) : Prop :=
  itemId ≠ 0 ∧ ∃ effects itemEffect, mgr.getItemEffects itemId = some effects ∧
    effects.find? (fun itemEffect => itemEffect.spellID.toUInt32 == spellInfo.id) =
      some itemEffect ∧
    ¬(itemEffect.coolDownMSec < 0 ∧ itemEffect.categoryCoolDownMSec < 0)

/-- A history with the time of its last update and the ends that were recorded last. -/
structure Recorded where
  history : SpellHistory
  lastUpdate : Option TimePoint
  categoryEnds : UInt32 → Option TimePoint
  cooldownEnds : UInt32 → Option TimePoint

inductive Entering where
  | add (spellId itemId : UInt32) (cooldownEnd : TimePoint) (categoryId : UInt32)
      (categoryEnd : TimePoint) (onHold : Bool)
  | update (now : TimePoint)

namespace Recorded

variable {r r' : Recorded} {a : Entering}

def start (rehash : Nat → Arrangement CooldownNode) : Recorded where
  history := new rehash
  lastUpdate := none
  categoryEnds _ := none
  cooldownEnds _ := none

def enter (r : Recorded) : Entering → Recorded
  | .add spellId itemId cooldownEnd categoryId categoryEnd onHold =>
    { history := r.history.addCooldown spellId itemId cooldownEnd categoryId categoryEnd onHold
      lastUpdate := r.lastUpdate
      categoryEnds :=
        if categoryId = 0 then r.categoryEnds
        else Function.update r.categoryEnds categoryId (some categoryEnd)
      cooldownEnds := Function.update r.cooldownEnds spellId (some cooldownEnd) }
  | .update now => { r with history := r.history.update now, lastUpdate := some now }

/-- No update was later. -/
def Reached (r : Recorded) (t : TimePoint) : Prop := ∀ u ∈ r.lastUpdate, u ≤ t

/-- The times of the updates do not decrease. -/
def Step (r : Recorded) (a : Entering) (r' : Recorded) : Prop :=
  (∀ now, a = .update now → r.Reached now) ∧ r' = r.enter a

/-- `AddCooldown` changes the category of no entry that is pointed to, and a spell that
`Update` erases takes with it no pointer of a category that is still to last. -/
def Sound (r : Recorded) : Entering → Prop
  | .add spellId _ _ categoryId _ _ => ¬Overwrites r.history spellId categoryId
  | .update now => ∀ n ∈ r.history.spellCooldowns, n.value.cooldownEnd < now →
      ∀ q ∈ r.history.categoryCooldowns, q.1 = n.value.categoryId →
        (r.history.deref q.2).categoryEnd ≤ now

/-- The milliseconds from `t` to `e`, which are none only where nothing remains. -/
def Tells (e t : TimePoint) (remaining : UInt32) : Prop :=
  (remaining.toNat : Int) = max 0 ((e - t) / TICKS_PER_MILLISECOND) ∧ (remaining = 0 ↔ e ≤ t)

/-- What remains is nothing, or whole milliseconds that 32 bits can hold. -/
def Tellable (e t : TimePoint) : Prop :=
  e ≤ t ∨ TICKS_PER_MILLISECOND ≤ e - t ∧ e - t < 2 ^ 32 * TICKS_PER_MILLISECOND

/-- Asked at `t`, the history knows of all that was recorded and has not ended. -/
structure Lasting (mgr : SpellMgr) (r : Recorded) (t : TimePoint) : Prop where
  ofCategory : ∀ spellInfo itemId e, ¬OwnData mgr spellInfo itemId →
    r.categoryEnds spellInfo.category = some e → t < e →
    hasCooldown mgr r.history spellInfo itemId false = true
  ofSpell : ∀ spellInfo itemId ignoreCategoryCooldown e, r.cooldownEnds spellInfo.id = some e →
    t ≤ e → hasCooldown mgr r.history spellInfo itemId ignoreCategoryCooldown = true
  /-- The entry of the spell itself is relied on. -/
  remainingOfSpell : ∀ spellInfo itemId, hasCooldown mgr r.history spellInfo itemId true = true →
    ∃ e, r.cooldownEnds spellInfo.id = some e ∧
      (Tells e t (r.history.getRemainingCooldown t spellInfo) ↔ Tellable e t)
  /-- The entry that the category points to is relied on. -/
  remainingOfCategory : ∀ spellInfo itemId, ¬OwnData mgr spellInfo itemId →
    hasCooldown mgr r.history spellInfo itemId true = false →
    hasCooldown mgr r.history spellInfo itemId false = true →
    ∃ e, r.categoryEnds spellInfo.category = some e ∧
      (Tells e t (r.history.getRemainingCooldown t spellInfo) ↔ Tellable e t)
  nothingRemains : ∀ spellInfo itemId, ¬OwnData mgr spellInfo itemId →
    hasCooldown mgr r.history spellInfo itemId false = false →
    r.history.getRemainingCooldown t spellInfo = 0

/-! ## The invariant -/

/-- What the history holds is what was recorded, and what it does not hold has ended. -/
structure Kept (r : Recorded) : Prop where
  noZero : NoZero r.history
  unrecorded : r.categoryEnds 0 = none
  pointed : ∀ q ∈ r.history.categoryCooldowns, ∃ n ∈ r.history.spellCooldowns,
    n.addr = q.2 ∧ n.value.categoryId = q.1 ∧ r.categoryEnds q.1 = some n.value.categoryEnd
  stored : ∀ n ∈ r.history.spellCooldowns, r.cooldownEnds n.key = some n.value.cooldownEnd
  ended : ∀ c e, r.categoryEnds c = some e → (∀ q ∈ r.history.categoryCooldowns, q.1 ≠ c) →
    ∃ u ∈ r.lastUpdate, e ≤ u
  past : ∀ k e, r.cooldownEnds k = some e → (∀ n ∈ r.history.spellCooldowns, n.key ≠ k) →
    ∃ u ∈ r.lastUpdate, e < u

theorem start_kept (rehash : Nat → Arrangement CooldownNode) : (start rehash).Kept where
  noZero q hq := absurd hq (Table.not_mem_empty q)
  unrecorded := rfl
  pointed q hq := absurd hq (Table.not_mem_empty q)
  stored n hn := absurd hn (Table.not_mem_empty n)
  ended _ _ he := by cases he
  past _ _ he := by cases he

theorem Kept.deref (hr : r.Kept) (hq : q ∈ r.history.categoryCooldowns) :
    r.categoryEnds q.1 = some (r.history.deref q.2).categoryEnd := by
  obtain ⟨n, hn, haddr, -, hend⟩ := hr.pointed q hq
  have hat : r.history.spellCooldowns.at? q.2 = some n := NodeMap.at?_eq_some.mpr ⟨hn, haddr⟩
  rw [SpellHistory.deref, hat]
  exact hend

theorem Kept.add {spellId : UInt32} {cooldownEnd : TimePoint} {categoryId : UInt32}
    {categoryEnd : TimePoint} {onHold : Bool} (hr : r.Kept)
    (hno : ¬Overwrites r.history spellId categoryId) :
    (r.enter (.add spellId itemId cooldownEnd categoryId categoryEnd onHold)).Kept := by
  let entry : CooldownEntry := { spellId, cooldownEnd, itemId, categoryId, categoryEnd, onHold }
  obtain ⟨n, hn, hv, haddr⟩ := find?_put_self r.history spellId entry
  have hspells := spellCooldowns_store r.history spellId entry
  have hpointers (q : UInt32 × Nat) := @mem_categoryCooldowns_store r.history spellId entry n q hn
  have hnmem : n ∈ (r.history.store spellId entry).spellCooldowns := by
    rw [hspells]
    exact (NodeMap.find?_eq_some.mp hn).1
  constructor
  case noZero =>
    intro q hq
    rcases (hpointers q).mp hq with ⟨hc, rfl⟩ | ⟨hq, -⟩
    · exact hc
    · exact hr.noZero q hq
  case unrecorded =>
    dsimp only [enter]
    split
    · exact hr.unrecorded
    · next hc => rw [Function.update_of_ne (Ne.symm hc), hr.unrecorded]
  case pointed =>
    intro q hq
    rcases (hpointers q).mp hq with ⟨hc, rfl⟩ | ⟨hq, hne⟩
    · refine ⟨n, hnmem, rfl, by rw [hv], ?_⟩
      have hc' : categoryId ≠ 0 := hc
      dsimp only [enter]
      rw [if_neg hc', hv]
      exact Function.update_self _ _ _
    · obtain ⟨m, hm, hmaddr, hmc, hend⟩ := hr.pointed q hq
      have hkey : m.key ≠ spellId := by
        intro hkey
        refine hno ⟨m, NodeMap.find?_eq_some.mpr ⟨hm, hkey⟩, ?_, ?_⟩
        · rw [hmc]
          intro hc
          exact hne (fun hzero => hr.noZero q hq (hc.trans hzero)) hc
        · rw [hmc, hmaddr]
          exact hq
      refine ⟨m, ?_, hmaddr, hmc, ?_⟩
      · have hput : m ∈ (r.history.put spellId entry).spellCooldowns := mem_put_of_ne hm hkey
        rw [← hspells] at hput
        exact hput
      · dsimp only [enter]
        split
        · exact hend
        · next hc => rw [Function.update_of_ne (hne hc), hend]
  case stored =>
    intro m hm
    have hm' : m ∈ (r.history.put spellId entry).spellCooldowns := by
      rw [← hspells]
      exact hm
    rcases mem_put hm' with ⟨hk, hv⟩ | ⟨hk, hm⟩
    · dsimp only [enter]
      rw [hk, hv]
      exact Function.update_self _ _ _
    · dsimp only [enter]
      rw [Function.update_of_ne hk]
      exact hr.stored m hm
  case ended =>
    intro c e he hall
    have hold : r.categoryEnds c = some e ∧ (categoryId ≠ 0 → c ≠ categoryId) := by
      dsimp only [enter] at he
      split at he
      · next hc => exact ⟨he, fun hc' => absurd hc hc'⟩
      · next hc =>
        have hne : c ≠ categoryId := by
          intro heq
          exact hall (categoryId, n.addr) ((hpointers _).mpr (Or.inl ⟨hc, rfl⟩)) heq.symm
        rw [Function.update_of_ne hne] at he
        exact ⟨he, fun _ => hne⟩
    apply hr.ended c e hold.1
    intro q hq heq
    refine hall q ((hpointers q).mpr (Or.inr ⟨hq, fun hc => ?_⟩)) heq
    rw [heq]
    exact hold.2 hc
  case past =>
    intro k e he hall
    have hne : k ≠ spellId := by
      intro heq
      exact hall n hnmem ((NodeMap.find?_eq_some.mp hn).2.trans heq.symm)
    dsimp only [enter] at he
    rw [Function.update_of_ne hne] at he
    apply hr.past k e he
    intro m hm heq
    refine hall m ?_ heq
    have hput : m ∈ (r.history.put spellId entry).spellCooldowns :=
      mem_put_of_ne hm (heq.trans_ne hne)
    rw [← hspells] at hput
    exact hput

theorem Kept.update (hr : r.Kept) (hnow : r.Reached now) (hsound : r.Sound (.update now)) :
    (r.enter (.update now)).Kept := by
  constructor
  case noZero => exact fun q hq => hr.noZero q (mem_categoryCooldowns_update.mp hq).1
  case unrecorded => exact hr.unrecorded
  case pointed =>
    intro q hq
    obtain ⟨hq, -, hkept⟩ := mem_categoryCooldowns_update.mp hq
    obtain ⟨n, hn, haddr, hc, hend⟩ := hr.pointed q hq
    refine ⟨n, mem_update.mpr ⟨hn, fun hover => ?_⟩, haddr, hc, hend⟩
    exact hkept n hn hover hc.symm
  case stored => exact fun n hn => hr.stored n (mem_update.mp hn).1
  case ended =>
    intro c e he hall
    refine ⟨now, rfl, ?_⟩
    by_cases hthere : ∃ q ∈ r.history.categoryCooldowns, q.1 = c
    · -- the pointer was there, and one of the two loops has removed it
      obtain ⟨q, hq, rfl⟩ := hthere
      have hend : e = (r.history.deref q.2).categoryEnd :=
        Option.some.inj (he.symm.trans (hr.deref hq))
      by_contra hlater
      refine hall q (mem_categoryCooldowns_update.mpr ⟨hq, ?_, ?_⟩) rfl
      · exact fun hlt => hlater (hend.trans_le hlt.le)
      · exact fun m hm hover hc => hlater (hend.trans_le (hsound m hm hover q hq hc))
    · obtain ⟨u, hu, hle⟩ := hr.ended c e he fun q hq hc => hthere ⟨q, hq, hc⟩
      exact hle.trans (hnow u hu)
  case past =>
    intro k e he hall
    refine ⟨now, rfl, ?_⟩
    by_cases hthere : ∃ n ∈ r.history.spellCooldowns, n.key = k
    · obtain ⟨n, hn, rfl⟩ := hthere
      have hend : e = n.value.cooldownEnd := Option.some.inj (he.symm.trans (hr.stored n hn))
      by_contra hlater
      refine hall n (mem_update.mpr ⟨hn, ?_⟩) rfl
      rw [← hend]
      exact hlater
    · obtain ⟨u, hu, hlt⟩ := hr.past k e he fun n hn hk => hthere ⟨n, hn, hk⟩
      exact hlt.trans_le (hnow u hu)

theorem Kept.enter (hr : r.Kept) (hsound : r.Sound a) (hstep : r.Step a r') : r'.Kept := by
  obtain ⟨htime, rfl⟩ := hstep
  cases a with
  | add spellId itemId cooldownEnd categoryId categoryEnd onHold => exact hr.add hsound
  | update now => exact hr.update (htime now rfl) hsound

/-! ## Asking -/

theorem category_of_not_ownData (hown : ¬OwnData mgr spellInfo itemId) :
    (getCooldownDurations mgr spellInfo itemId).2.1 = spellInfo.category := by
  unfold getCooldownDurations
  by_cases hitem : itemId = 0
  · rw [hitem]
    rfl
  · have hitem' : (itemId != 0) = true := bne_iff_ne.mpr hitem
    cases heffects : mgr.getItemEffects itemId with
    | none =>
      simp only [hitem']
      rfl
    | some effects =>
      cases hfind : effects.find? fun itemEffect =>
          itemEffect.spellID.toUInt32 == spellInfo.id with
      | none =>
        simp only [hitem', hfind]
        rfl
      | some itemEffect =>
        have hneg : itemEffect.coolDownMSec < 0 ∧ itemEffect.categoryCoolDownMSec < 0 := by
          by_contra hneg
          exact hown ⟨hitem, effects, itemEffect, heffects, hfind, hneg⟩
        simp only [hitem', hfind, hneg.1, hneg.2, decide_true, Bool.and_self, if_true]

theorem isSome_find? :
    (h.spellCooldowns.find? k).isSome = true ↔ ∃ n ∈ h.spellCooldowns, n.key = k := by
  rw [Option.isSome_iff_exists]
  exact exists_congr fun n => NodeMap.find?_eq_some

theorem isSome_categoryCooldown :
    (h.categoryCooldowns.get? c).isSome = true ↔ ∃ q ∈ h.categoryCooldowns, q.1 = c := by
  rw [Option.isSome_iff_exists]
  exact exists_congr fun q => Table.get?_eq_some

theorem hasCooldown_of_spell (hn : n ∈ h.spellCooldowns) (hk : n.key = spellInfo.id)
    (ignoring : Bool) : hasCooldown mgr h spellInfo itemId ignoring = true := by
  unfold hasCooldown
  exact if_pos (isSome_find?.mpr ⟨n, hn, hk⟩)

theorem hasCooldown_ignoring :
    hasCooldown mgr h spellInfo itemId true = (h.spellCooldowns.find? spellInfo.id).isSome := by
  unfold hasCooldown
  rw [if_pos rfl]
  cases (h.spellCooldowns.find? spellInfo.id).isSome with
  | true => rfl
  | false => rfl

theorem hasCooldown_of_category (hown : ¬OwnData mgr spellInfo itemId) (hzero : NoZero h)
    (hspell : (h.spellCooldowns.find? spellInfo.id).isSome = false) :
    hasCooldown mgr h spellInfo itemId false =
      (h.categoryCooldowns.get? spellInfo.category).isSome := by
  unfold hasCooldown
  rw [category_of_not_ownData hown, hspell, if_neg Bool.false_ne_true, if_neg Bool.false_ne_true]
  dsimp only
  split
  · next hcat =>
    rw [beq_iff_eq] at hcat
    cases hsome : (h.categoryCooldowns.get? spellInfo.category).isSome with
    | false => rfl
    | true =>
      obtain ⟨q, hq, hc⟩ := isSome_categoryCooldown.mp hsome
      exact absurd (hc.trans hcat) (hzero q hq)
  · rfl

/-! ## The milliseconds that are told -/

/-- What `GetRemainingCooldown` makes of an end. -/
def remaining (e t : TimePoint) : UInt32 :=
  if e < t then 0 else UInt32.ofNat ((e - t) / TICKS_PER_MILLISECOND).toNat

theorem getRemainingCooldown_of_spell (hfind : h.spellCooldowns.find? spellInfo.id = some n) :
    h.getRemainingCooldown t spellInfo = remaining n.value.cooldownEnd t := by
  unfold getRemainingCooldown
  rw [hfind]
  rfl

theorem getRemainingCooldown_of_category (hfind : h.spellCooldowns.find? spellInfo.id = none)
    (hget : h.categoryCooldowns.get? spellInfo.category = some q) :
    h.getRemainingCooldown t spellInfo = remaining (h.deref q.2).categoryEnd t := by
  unfold getRemainingCooldown
  rw [hfind, hget]
  rfl

theorem remaining_toNat (e t : Int) :
    (remaining e t).toNat = ((e - t) / TICKS_PER_MILLISECOND).toNat % 2 ^ 32 := by
  unfold remaining
  split
  · grind [TICKS_PER_MILLISECOND]
  · exact UInt32.toNat_ofNat'

/-- **The told remainder.** It is right exactly where nothing remains or where whole
milliseconds do, of which 32 bits can hold the count. -/
theorem tells_iff (e t : TimePoint) : Tells e t (remaining e t) ↔ Tellable e t := by
  have hzero : remaining e t = 0 ↔ (remaining e t).toNat = 0 :=
    ⟨fun h => by rw [h]; rfl, fun h => UInt32.toNat_inj.mp h⟩
  grind [TICKS_PER_MILLISECOND, remaining_toNat, Tellable, Tells]

/-! ## Lasting -/

theorem Kept.lasting (hr : r.Kept) (ht : r.Reached t) : Lasting mgr r t := by
  have hspell (spellInfo : SpellInfo) (e : TimePoint) (he : r.cooldownEnds spellInfo.id = some e)
      (hte : t ≤ e) : ∃ n ∈ r.history.spellCooldowns, n.key = spellInfo.id := by
    by_contra hnone
    obtain ⟨u, hu, hlt⟩ := hr.past spellInfo.id e he fun n hn hk => hnone ⟨n, hn, hk⟩
    exact absurd (hlt.trans_le (ht u hu)) (not_lt_of_ge hte)
  constructor
  case ofCategory =>
    intro spellInfo itemId e hown he hte
    cases hfind : (r.history.spellCooldowns.find? spellInfo.id).isSome with
    | true =>
      obtain ⟨n, hn, hk⟩ := isSome_find?.mp hfind
      exact hasCooldown_of_spell hn hk false
    | false =>
      rw [hasCooldown_of_category hown hr.noZero hfind, isSome_categoryCooldown]
      by_contra hnone
      obtain ⟨u, hu, hle⟩ := hr.ended spellInfo.category e he fun q hq hc => hnone ⟨q, hq, hc⟩
      exact absurd (hle.trans (ht u hu)) (not_le_of_gt hte)
  case ofSpell =>
    grind [hasCooldown_of_spell]
  case remainingOfSpell =>
    intro spellInfo itemId hhas
    rw [hasCooldown_ignoring, Option.isSome_iff_exists] at hhas
    obtain ⟨n, hfind⟩ := hhas
    obtain ⟨hn, hk⟩ := NodeMap.find?_eq_some.mp hfind
    refine ⟨n.value.cooldownEnd, hk ▸ hr.stored n hn, ?_⟩
    rw [getRemainingCooldown_of_spell hfind]
    exact tells_iff _ _
  case remainingOfCategory =>
    intro spellInfo itemId hown hnot hhas
    rw [hasCooldown_ignoring] at hnot
    rw [hasCooldown_of_category hown hr.noZero hnot, Option.isSome_iff_exists] at hhas
    obtain ⟨q, hget⟩ := hhas
    obtain ⟨hq, hc⟩ := Table.get?_eq_some.mp hget
    refine ⟨(r.history.deref q.2).categoryEnd, hc ▸ hr.deref hq, ?_⟩
    rw [Option.isSome_eq_false_iff, Option.isNone_iff_eq_none] at hnot
    rw [getRemainingCooldown_of_category hnot hget]
    exact tells_iff _ _
  case nothingRemains =>
    intro spellInfo itemId hown hnot
    have hspellNone : (r.history.spellCooldowns.find? spellInfo.id).isSome = false := by
      by_contra hsome
      obtain ⟨n, hn, hk⟩ := isSome_find?.mp (Bool.eq_true_of_not_eq_false hsome)
      rw [hasCooldown_of_spell hn hk] at hnot
      cases hnot
    rw [hasCooldown_of_category hown hr.noZero hspellNone] at hnot
    grind [getRemainingCooldown]

theorem Kept.update_lasting_iff (hr : r.Kept) (hnow : r.Reached now) :
    Lasting mgr (r.enter (.update now)) now ↔ r.Sound (.update now) := by
  constructor
  · intro hlasting n hn hover q hq hc
    by_contra hlater
    let spellInfo : SpellInfo :=
      { id := n.key, category := q.1, recoveryTime := 0, categoryRecoveryTime := 0,
        preventionType := 0, schoolMask := 0, isCooldownStartedOnEvent := false,
        isAutoRepeatRangedSpell := false, ignoreCategoryCooldownMods := false }
    have hown : ¬OwnData mgr spellInfo 0 := fun hown => hown.1 rfl
    have hhas := hlasting.ofCategory spellInfo 0 _ hown (hr.deref hq) (lt_of_not_ge hlater)
    have hspellNone :
        (((r.history.update now).spellCooldowns.find? spellInfo.id).isSome) = false := by
      by_contra hsome
      obtain ⟨m, hm, hk⟩ := isSome_find?.mp (Bool.eq_true_of_not_eq_false hsome)
      obtain ⟨hm, hkept⟩ := mem_update.mp hm
      have heq : m = n := r.history.spellCooldowns.nodes.eq_of_key hm hn hk
      rw [heq] at hkept
      exact hkept hover
    have hzero : NoZero (r.history.update now) :=
      fun q' hq' => hr.noZero q' (mem_categoryCooldowns_update.mp hq').1
    have hhas' : hasCooldown mgr (r.history.update now) spellInfo 0 false = true := hhas
    rw [hasCooldown_of_category hown hzero hspellNone] at hhas'
    obtain ⟨q', hq', hc'⟩ := isSome_categoryCooldown.mp hhas'
    exact (mem_categoryCooldowns_update.mp hq').2.2 n hn hover (hc'.trans hc)
  · intro hsound
    apply (hr.update hnow hsound).lasting
    intro u hu
    cases hu
    exact le_rfl

end Recorded

open Recorded

/-- **Cooldowns last until they end, unless `Update` erases early.** In a run of sound calls
every cooldown that was recorded and has not ended is known at every time since the last
update, with what remains of it; and an update at `now` leaves it so if and only if it is sound. -/
theorem cooldowns_last {r : Recorded} (mgr : SpellMgr) (rehash : Nat → Arrangement CooldownNode)
    (hrun : Reaches Recorded.Step Recorded.Sound (start rehash) r) :
    (∀ t, r.Reached t → Lasting mgr r t) ∧
      ∀ now, r.Reached now →
        (Lasting mgr (r.enter (.update now)) now ↔ r.Sound (.update now)) := by
  have hkept : r.Kept :=
    hrun.invariant (start_kept rehash) fun hr hsound hstep => hr.enter hsound hstep
  exact ⟨fun t ht => hkept.lasting ht, fun now hnow => hkept.update_lasting_iff hnow⟩

theorem cooldowns_last_added :
    Lasting noSpells ((start fun _ => Arrangement.id _).enter (.add 1 0 10 5 20 false)) 15 := by
  have hsound : (start fun _ => Arrangement.id _).Sound (.add 1 0 10 5 20 false) := by
    rintro ⟨n, hn, -⟩
    cases hn
  have hstep : Recorded.Step (start fun _ => Arrangement.id _) (.add 1 0 10 5 20 false)
      ((start fun _ => Arrangement.id _).enter (.add 1 0 10 5 20 false)) :=
    ⟨fun now hc => (Entering.noConfusion hc), rfl⟩
  refine (cooldowns_last noSpells _ ((Reaches.refl _).next hsound hstep)).1 15 ?_
  intro u hu
  cases hu

/-- A third spell of the category. -/
def thirdSpell : SpellInfo where
  id := 3
  category := 5
  recoveryTime := 0
  categoryRecoveryTime := 0
  preventionType := 0
  schoolMask := 0
  isCooldownStartedOnEvent := false
  isAutoRepeatRangedSpell := false
  ignoreCategoryCooldownMods := false

/-- Two spells of category 5; the first has ended at 15, the category lasts until 40. -/
def sharedCategory : Recorded :=
  (((start fun _ => Arrangement.id _).enter (.add 1 0 10 5 20 false)).enter
    (.add 2 0 30 5 40 false)).enter (.update 15)

theorem category_forgotten :
    ¬∀ (mgr : SpellMgr) (rehash : Nat → Arrangement CooldownNode) (r : Recorded),
      Reaches Recorded.Step (fun _ _ => True) (start rehash) r →
      ∀ t, (∀ u ∈ r.lastUpdate, u < t) → ∀ spellInfo itemId e, ¬OwnData mgr spellInfo itemId →
        r.categoryEnds spellInfo.category = some e → t < e →
        hasCooldown mgr r.history spellInfo itemId false = true := by
  intro hall
  have hadd (r : Recorded) (spellId : UInt32) (cooldownEnd categoryEnd : TimePoint) :
      Recorded.Step r (.add spellId 0 cooldownEnd 5 categoryEnd false)
        (r.enter (.add spellId 0 cooldownEnd 5 categoryEnd false)) :=
    ⟨fun now hc => Entering.noConfusion hc, rfl⟩
  have hrun : Reaches Recorded.Step (fun _ _ => True) (start fun _ => Arrangement.id _)
      sharedCategory := by
    refine (((Reaches.refl _).next trivial (hadd _ 1 10 20)).next trivial (hadd _ 2 30 40)).next
      trivial (a := .update 15) ⟨?_, rfl⟩
    intro now _ u hu
    cases hu
  have hhas := hall noSpells _ sharedCategory hrun 16 (by rintro u ⟨⟩; decide) thirdSpell 0 40
    (fun hown => hown.1 rfl) rfl (by decide)
  have hnot : hasCooldown noSpells sharedCategory.history thirdSpell 0 false = false := by rfl
  rw [hnot] at hhas
  cases hhas

end EGServer.Spells.SpellHistory
