import EGServer.Spells.SpellHistory

/-!
# Pointers of the category cooldowns

Every pointer of `_categoryCooldowns` points to a stored entry of its category (`Aligned`).
`EraseCooldown` removes the pointer by the category that the entry has when it goes, so what
breaks the pointers is a change of category in place: `Overwrites`. An operation on aligned
pointers leaves them aligned if and only if it overwrites no entry that is pointed to with
another category (`Sound`).

`LockSpellSchool` and `RestoreCooldownStateAfterDuel` walk over spells and assign entries to
some of them; `walk_aligned_iff` is about such a walk in general.
-/

namespace EGServer.Spells.SpellHistory

variable {mgr : SpellMgr} {h h' : SpellHistory} {k k' c : UInt32} {e : CooldownEntry}
  {n m : CooldownNode} {now : TimePoint}

/-- Each pointer points to a stored entry of its category. -/
def Aligned (h : SpellHistory) : Prop :=
  ∀ q ∈ h.categoryCooldowns, ∃ n ∈ h.spellCooldowns, n.addr = q.2 ∧ n.value.categoryId = q.1

/-- Zero is no category. -/
def NoZero (h : SpellHistory) : Prop := ∀ q ∈ h.categoryCooldowns, q.1 ≠ 0

structure Good (h : SpellHistory) : Prop where
  aligned : Aligned h
  noZero : NoZero h

/-- Assigning an entry of category `c` to the spell changes the category of an entry that is
pointed to. -/
def Overwrites (h : SpellHistory) (spellId c : UInt32) : Prop :=
  ∃ n, h.spellCooldowns.find? spellId = some n ∧ n.value.categoryId ≠ c ∧
    (n.value.categoryId, n.addr) ∈ h.categoryCooldowns

/-- The entry of the spell is pointed to by a category it does not have. -/
def Broken (h : SpellHistory) (spellId : UInt32) : Prop :=
  ∃ n q, h.spellCooldowns.find? spellId = some n ∧ q ∈ h.categoryCooldowns ∧ q.2 = n.addr ∧
    n.value.categoryId ≠ q.1

theorem Broken.not_aligned (hb : Broken h k) : ¬Aligned h := by
  obtain ⟨n, q, hn, hq, haddr, hne⟩ := hb
  intro ha
  obtain ⟨m, hm, hmaddr, hmc⟩ := ha q hq
  have heq : m = n :=
    h.spellCooldowns.distinct m hm n (NodeMap.find?_eq_some.mp hn).1 (hmaddr.trans haddr)
  rw [heq] at hmc
  exact hne hmc

/-! ## Assigning an entry -/

theorem find?_put_self (h : SpellHistory) (k : UInt32) (e : CooldownEntry) :
    ∃ n, (h.put k e).spellCooldowns.find? k = some n ∧ n.value = e ∧
      ∀ m, h.spellCooldowns.find? k = some m → n.addr = m.addr := by
  cases hf : h.spellCooldowns.find? k with
  | none => exact ⟨_, NodeMap.find?_put_of_none hf, rfl, fun m hm => by cases hm⟩
  | some m =>
    refine ⟨_, NodeMap.find?_put_of_some hf, rfl, ?_⟩
    intro m' hm'
    cases hm'
    rfl

theorem find?_put_ne (hne : k' ≠ k) :
    (h.put k e).spellCooldowns.find? k' = h.spellCooldowns.find? k' :=
  NodeMap.find?_put_ne hne

theorem mem_put_of_ne (hn : n ∈ h.spellCooldowns) (hne : n.key ≠ k) :
    n ∈ (h.put k e).spellCooldowns := by
  have hf : (h.put k e).spellCooldowns.find? n.key = some n :=
    (find?_put_ne hne).trans (NodeMap.find?_key hn)
  exact (NodeMap.find?_eq_some.mp hf).1

theorem Aligned.put (ha : Aligned h) (hno : ¬Overwrites h k e.categoryId) :
    Aligned (h.put k e) := by
  intro q hq
  obtain ⟨n, hn, haddr, hc⟩ := ha q hq
  by_cases hne : n.key = k
  · have hf : h.spellCooldowns.find? k = some n := NodeMap.find?_eq_some.mpr ⟨hn, hne⟩
    obtain ⟨n', hn', hv, ha'⟩ := find?_put_self h k e
    refine ⟨n', (NodeMap.find?_eq_some.mp hn').1, (ha' n hf).trans haddr, ?_⟩
    have hsame : n.value.categoryId = e.categoryId := by
      by_contra hdiff
      refine hno ⟨n, hf, hdiff, ?_⟩
      rw [hc, haddr]
      exact hq
    rw [hv, ← hsame, hc]
  · exact ⟨n, mem_put_of_ne hn hne, haddr, hc⟩

theorem Good.put (hg : Good h) (hno : ¬Overwrites h k e.categoryId) : Good (h.put k e) :=
  ⟨hg.aligned.put hno, hg.noZero⟩

theorem Overwrites.broken (ho : Overwrites h k e.categoryId) : Broken (h.put k e) k := by
  obtain ⟨n, hn, hne, hq⟩ := ho
  obtain ⟨n', hn', hv, haddr⟩ := find?_put_self h k e
  refine ⟨n', _, hn', hq, (haddr n hn).symm, ?_⟩
  rw [hv]
  exact hne.symm

theorem Broken.put_ne (hb : Broken h k) (hne : k' ≠ k) : Broken (h.put k' e) k := by
  obtain ⟨n, q, hn, hq, haddr, hc⟩ := hb
  exact ⟨n, q, (find?_put_ne hne.symm).trans hn, hq, haddr, hc⟩

theorem overwrites_put_ne (hne : k' ≠ k) : Overwrites (h.put k' e) k c ↔ Overwrites h k c := by
  unfold Overwrites
  rw [find?_put_ne hne.symm]
  exact Iff.rfl

/-! ## Storing an entry -/

theorem mem_point {q : UInt32 × Nat} (hn : h.spellCooldowns.find? k = some n) :
    q ∈ (h.point c k).categoryCooldowns ↔
      q = (c, n.addr) ∨ q ∈ h.categoryCooldowns ∧ q.1 ≠ c := by
  rw [point, hn]
  exact Table.mem_insertOrAssign

theorem spellCooldowns_point (h : SpellHistory) (c k : UInt32) :
    (h.point c k).spellCooldowns = h.spellCooldowns := by
  unfold point
  split
  · rfl
  · rfl

theorem store_good (hg : Good h) (hno : ¬Overwrites h k e.categoryId) : Good (h.store k e) := by
  have hput := hg.put hno
  unfold store
  dsimp only
  split
  · next hzero =>
    rw [bne_iff_ne] at hzero
    obtain ⟨n, hn, hv, -⟩ := find?_put_self h k e
    constructor
    case aligned =>
      intro q hq
      rw [spellCooldowns_point]
      rcases (mem_point hn).mp hq with rfl | ⟨hq, -⟩
      · exact ⟨n, (NodeMap.find?_eq_some.mp hn).1, rfl, by rw [hv]⟩
      · exact hput.aligned q hq
    case noZero =>
      intro q hq
      rcases (mem_point hn).mp hq with rfl | ⟨hq, -⟩
      · exact hzero
      · exact hput.noZero q hq
  · exact hput

theorem store_aligned_iff (hg : Good h) : Aligned (h.store k e) ↔ ¬Overwrites h k e.categoryId := by
  refine ⟨fun ha ho => ?_, fun hno => (store_good hg hno).aligned⟩
  obtain ⟨n, hn, hne, hq⟩ := id ho
  obtain ⟨n', hn', hv, haddr⟩ := find?_put_self h k e
  have hbroken : Broken (h.store k e) k := by
    unfold store
    dsimp only
    split
    · -- the pointer of the old category is not the one that is set
      refine ⟨n', (n.value.categoryId, n.addr), ?_, ?_, (haddr n hn).symm, ?_⟩
      · rw [spellCooldowns_point]
        exact hn'
      · exact (mem_point hn').mpr (Or.inr ⟨hq, hne⟩)
      · rw [hv]
        exact hne.symm
    · exact ho.broken
  exact hbroken.not_aligned ha

/-! ## Erasing -/

theorem Good.eraseCooldown (hg : Good h) (hn : n ∈ h.spellCooldowns) : Good (h.eraseCooldown n) := by
  constructor
  case aligned =>
    intro q hq
    obtain ⟨hq, hc⟩ := Table.mem_erase.mp hq
    obtain ⟨m, hm, haddr, hmc⟩ := hg.aligned q hq
    refine ⟨m, NodeMap.mem_erase.mpr ⟨hm, ?_⟩, haddr, hmc⟩
    -- another category, so another entry and another spell
    intro hkey
    have heq : m = n := h.spellCooldowns.nodes.eq_of_key hm hn hkey
    rw [heq] at hmc
    exact hc hmc.symm
  case noZero =>
    intro q hq
    exact hg.noZero q (Table.mem_erase.mp hq).1

theorem Good.eraseLoop {p : CooldownNode → Bool} (l : List CooldownNode) :
    ∀ {h : SpellHistory}, Good h → (∀ n ∈ l, n ∈ h.spellCooldowns) → (l.map Node.key).Nodup →
      Good (l.foldl (fun h itr => if p itr then h.eraseCooldown itr else h) h) := by
  induction l with
  | nil => exact fun hg _ _ => hg
  | cons n l ih =>
    intro h hg hmem hnodup
    rw [List.map_cons, List.nodup_cons] at hnodup
    rw [List.foldl_cons]
    have hn := hmem n List.mem_cons_self
    split
    · apply ih (hg.eraseCooldown hn) _ hnodup.2
      intro m hm
      refine NodeMap.mem_erase.mpr ⟨hmem m (List.mem_cons_of_mem n hm), ?_⟩
      intro hkey
      exact hnodup.1 (List.mem_map.mpr ⟨m, hm, hkey⟩)
    · exact ih hg (fun m hm => hmem m (List.mem_cons_of_mem n hm)) hnodup.2

theorem Good.eraseIf (hg : Good h) (p : CooldownNode → Bool) : Good (h.eraseIf p) :=
  Good.eraseLoop _ hg (fun _ hn => hn) h.spellCooldowns.nodes.nodup

theorem Good.expireCategories (hg : Good h) (now : TimePoint) : Good (h.expireCategories now) := by
  unfold SpellHistory.expireCategories
  generalize h.categoryCooldowns.rows = l
  induction l generalizing h with
  | nil => exact hg
  | cons q l ih =>
    rw [List.foldl_cons]
    split
    · apply ih
      refine ⟨fun r hr => hg.aligned r (Table.mem_erase.mp hr).1, fun r hr => ?_⟩
      exact hg.noZero r (Table.mem_erase.mp hr).1
    · exact ih hg

/-! ## Walks that assign entries -/

section Walk

variable {ι : Type} {key : ι → UInt32} {entry : ι → CooldownEntry} {cond : SpellHistory → ι → Bool}

/-- One round: the spell of the element gets an entry if the condition says so. -/
def walkStep (key : ι → UInt32) (entry : ι → CooldownEntry) (cond : SpellHistory → ι → Bool)
    (h : SpellHistory) (x : ι) : SpellHistory :=
  if cond h x then h.put (key x) (entry x) else h

theorem Broken.walk (l : List ι) : ∀ {h : SpellHistory}, Broken h k → k ∉ l.map key →
    Broken (l.foldl (walkStep key entry cond) h) k := by
  induction l with
  | nil => exact fun hb _ => hb
  | cons x l ih =>
    intro h hb hk
    rw [List.map_cons, List.mem_cons, not_or] at hk
    rw [List.foldl_cons]
    apply ih _ hk.2
    unfold walkStep
    split
    · exact hb.put_ne (Ne.symm hk.1)
    · exact hb

/-- **Walks.** Over different spells, with a condition that assigning to another spell does
not change while the pointers are good, a walk keeps the pointers aligned if and only if none
of its assignments, judged before the walk, overwrites an entry. -/
theorem walk_aligned_iff
    (hstable : ∀ {h : SpellHistory} {x y : ι}, Good h → key x ≠ key y →
      ¬Overwrites h (key x) (entry x).categoryId → cond (h.put (key x) (entry x)) y = cond h y)
    (l : List ι) : ∀ {h : SpellHistory}, Good h → (l.map key).Nodup →
      ((Aligned (l.foldl (walkStep key entry cond) h) ↔
          ∀ x ∈ l, cond h x = true → ¬Overwrites h (key x) (entry x).categoryId) ∧
        (Aligned (l.foldl (walkStep key entry cond) h) →
          Good (l.foldl (walkStep key entry cond) h))) := by
  induction l with
  | nil => exact fun hg _ => ⟨iff_of_true hg.aligned fun _ h => absurd h List.not_mem_nil, fun _ => hg⟩
  | cons x l ih =>
    intro h hg hnodup
    rw [List.map_cons, List.nodup_cons] at hnodup
    rw [List.foldl_cons]
    by_cases hx : cond h x = true
    · have hstep : walkStep key entry cond h x = h.put (key x) (entry x) := if_pos hx
      rw [hstep]
      by_cases ho : Overwrites h (key x) (entry x).categoryId
      · have hno := (@Broken.walk _ _ _ entry cond l _ ho.broken hnodup.1).not_aligned
        grind
      · obtain ⟨hiff, hgood⟩ := ih (hg.put ho) hnodup.2
        refine ⟨hiff.trans ?_, hgood⟩
        rw [List.forall_mem_cons]
        have hrest : ∀ y ∈ l,
            ((cond (h.put (key x) (entry x)) y = true →
              ¬Overwrites (h.put (key x) (entry x)) (key y) (entry y).categoryId) ↔
            (cond h y = true → ¬Overwrites h (key y) (entry y).categoryId)) := by
          grind [overwrites_put_ne]
        grind
    · have hstep : walkStep key entry cond h x = h := if_neg hx
      grind

end Walk

/-! ## Operations -/

/-- The entry that `LockSpellSchool` gives a spell. -/
def lockoutEntry (now : TimePoint) (lockoutTime spellId : UInt32) : CooldownEntry :=
  { spellId, cooldownEnd := now + lockoutTime.toNat * TICKS_PER_MILLISECOND, itemId := 0,
    categoryId := 0, categoryEnd := now, onHold := false }

theorem lockSpellSchool_eq (mgr : SpellMgr) (h : SpellHistory) (now : TimePoint)
    (knownSpells : KnownSpells) (schoolMask lockoutTime : UInt32) :
    lockSpellSchool mgr h now knownSpells schoolMask lockoutTime =
      knownSpells.1.foldl (walkStep id (lockoutEntry now lockoutTime)
        fun h => locks mgr h now schoolMask lockoutTime) h :=
  rfl

theorem locks_put {schoolMask lockoutTime : UInt32} (hg : Good h) (hne : k ≠ k')
    (he : e.categoryId = 0) (hno : ¬Overwrites h k e.categoryId) :
    locks mgr (h.put k e) now schoolMask lockoutTime k' = locks mgr h now schoolMask lockoutTime k' := by
  unfold locks
  split
  · rfl
  next spellInfo hinfo =>
  have hid : spellInfo.id = k' := mgr.id_eq k' spellInfo hinfo
  have hrem : (h.put k e).getRemainingCooldown now spellInfo =
      h.getRemainingCooldown now spellInfo := by
    unfold getRemainingCooldown
    rw [hid, find?_put_ne hne.symm]
    cases h.spellCooldowns.find? k' with
    | some itr => rfl
    | none =>
      have hcats : (h.put k e).categoryCooldowns = h.categoryCooldowns := rfl
      dsimp only
      rw [hcats]
      cases hcat : h.categoryCooldowns.get? spellInfo.category with
      | none => rfl
      | some q =>
        -- the pointer leads to an entry with a category, which is not the one that is locked
        obtain ⟨hq, -⟩ := Table.get?_eq_some.mp hcat
        obtain ⟨n, hn, haddr, hc⟩ := hg.aligned q hq
        have hother : n.key ≠ k := by
          intro hkey
          refine hno ⟨n, NodeMap.find?_eq_some.mpr ⟨hn, hkey⟩, ?_, ?_⟩
          · rw [he, hc]
            exact hg.noZero q hq
          · rw [hc, haddr]
            exact hq
        have hsame : (h.put k e).deref q.2 = h.deref q.2 := by
          rw [deref, deref, NodeMap.at?_eq_some.mpr ⟨hn, haddr⟩,
            NodeMap.at?_eq_some.mpr ⟨mem_put_of_ne hn hother, haddr⟩]
        simp only [hsame]
  rw [hrem]

theorem lockSpellSchool_aligned_iff (hg : Good h) (knownSpells : KnownSpells)
    (schoolMask lockoutTime : UInt32) :
    (Aligned (lockSpellSchool mgr h now knownSpells schoolMask lockoutTime) ↔
        ∀ s ∈ knownSpells.1, locks mgr h now schoolMask lockoutTime s = true → ¬Overwrites h s 0) ∧
      (Aligned (lockSpellSchool mgr h now knownSpells schoolMask lockoutTime) →
        Good (lockSpellSchool mgr h now knownSpells schoolMask lockoutTime)) := by
  rw [lockSpellSchool_eq]
  apply walk_aligned_iff _ _ hg
  · rw [List.map_id]
    exact knownSpells.2
  · intro h x y hg hne hno
    exact locks_put hg hne rfl hno

/-- A spell whose entry the end of a duel puts back. -/
def restores (h : SpellHistory) (itr : UInt32 × CooldownEntry) : Bool :=
  !itr.2.onHold && !h.isOnHold itr.1

theorem restores_put (hne : k ≠ k') (e' : CooldownEntry) :
    (h.put k e).restores (k', e') = h.restores (k', e') := by
  unfold restores isOnHold
  rw [find?_put_ne hne.symm]

theorem restoreCooldownStateAfterDuel_aligned_iff (hg : Good h) :
    (Aligned (restoreCooldownStateAfterDuel mgr h true) ↔
        ∀ itr ∈ (h.stateToRestore mgr).rows, h.restores itr = true →
          ¬Overwrites h itr.1 itr.2.categoryId) ∧
      (Aligned (restoreCooldownStateAfterDuel mgr h true) →
        Good (restoreCooldownStateAfterDuel mgr h true)) := by
  have hg' : Good { h with spellCooldownsBeforeDuel := h.stateToRestore mgr } :=
    ⟨hg.aligned, hg.noZero⟩
  apply @walk_aligned_iff _ Prod.fst Prod.snd restores _ _ _ hg'
  · exact (h.stateToRestore mgr).nodup
  · intro h x y _ hne _
    exact restores_put hne y.2

/-- The operations that overwrite no entry that is pointed to with another category. -/
def Sound (mgr : SpellMgr) (h : SpellHistory) : Op → Prop
  | .loadRow type row =>
    ∀ cooldown, readCooldown mgr type row = some cooldown →
      ¬Overwrites h row.spell cooldown.categoryId
  | .addCooldown spellId _ _ categoryId _ _ => ¬Overwrites h spellId categoryId
  | .startCooldown owner curTime spellInfo itemId onHold =>
    ∀ recTime categoryId catrecTime,
      startTimes mgr owner curTime spellInfo itemId onHold = some (recTime, categoryId, catrecTime) →
      ¬Overwrites h spellInfo.id categoryId
  | .lockSpellSchool now knownSpells schoolMask lockoutTime =>
    ∀ s ∈ knownSpells.1, locks mgr h now schoolMask lockoutTime s = true → ¬Overwrites h s 0
  | .restoreCooldownStateAfterDuel isPlayer =>
    isPlayer = true → ∀ itr ∈ (h.stateToRestore mgr).rows, h.restores itr = true →
      ¬Overwrites h itr.1 itr.2.categoryId
  | _ => True

theorem modifyCooldown_good (hg : Good h) (now : TimePoint) (k : UInt32) (mod : Int32) :
    Good (h.modifyCooldown now k mod) := by
  unfold modifyCooldown
  split
  · exact hg
  next itr hitr =>
  split
  · exact hg
  dsimp only
  split
  · -- the entry keeps its category
    apply hg.put
    rintro ⟨n, hn, hne, -⟩
    rw [hitr] at hn
    cases hn
    exact hne rfl
  · exact hg.eraseCooldown (NodeMap.find?_eq_some.mp hitr).1

theorem resetCooldown_good (hg : Good h) (k : UInt32) : Good (h.resetCooldown k) := by
  unfold resetCooldown
  split
  · exact hg
  · next itr hitr => exact hg.eraseCooldown (NodeMap.find?_eq_some.mp hitr).1

theorem resetAllCooldowns_good (h : SpellHistory) : Good h.resetAllCooldowns :=
  ⟨fun q hq => absurd hq (Table.not_mem_empty q), fun q hq => absurd hq (Table.not_mem_empty q)⟩

theorem run_aligned_iff (hg : Good h) (op : Op) :
    (Aligned (run mgr h op) ↔ Sound mgr h op) ∧ (Aligned (run mgr h op) → Good (run mgr h op)) := by
  have hof : ∀ {g : SpellHistory} {P : Prop}, Good g → P → (Aligned g ↔ P) ∧ (Aligned g → Good g) :=
    fun hg hP => ⟨iff_of_true hg.aligned hP, fun _ => hg⟩
  have hstore : ∀ k e, (Aligned (h.store k e) ↔ ¬Overwrites h k e.categoryId) ∧
      (Aligned (h.store k e) → Good (h.store k e)) := by
    grind [store_good, store_aligned_iff]
  cases op with
  | loadRow type row =>
    show (Aligned (loadRow mgr type h row) ↔ _) ∧ (Aligned (loadRow mgr type h row) →
      Good (loadRow mgr type h row))
    unfold loadRow
    cases hread : readCooldown mgr type row with
    | none => exact hof hg fun cooldown hc => by rw [hread] at hc; cases hc
    | some cooldown =>
      obtain ⟨hiff, hgood⟩ := hstore row.spell cooldown
      refine ⟨hiff.trans ⟨fun hno cooldown' hc => ?_, fun hall => hall cooldown hread⟩, hgood⟩
      rw [hread] at hc
      cases hc
      exact hno
  | addCooldown spellId itemId cooldownEnd categoryId categoryEnd onHold => exact hstore spellId _
  | startCooldown owner curTime spellInfo itemId onHold =>
    show (Aligned (startCooldown mgr h owner curTime spellInfo itemId onHold) ↔ _) ∧
      (Aligned (startCooldown mgr h owner curTime spellInfo itemId onHold) →
        Good (startCooldown mgr h owner curTime spellInfo itemId onHold))
    unfold startCooldown
    cases htimes : startTimes mgr owner curTime spellInfo itemId onHold with
    | none => exact hof hg fun _ _ _ hc => by rw [htimes] at hc; cases hc
    | some times =>
      obtain ⟨recTime, categoryId, catrecTime⟩ := times
      obtain ⟨hiff, hgood⟩ := hstore spellInfo.id
        { spellId := spellInfo.id, cooldownEnd := recTime, itemId, categoryId,
          categoryEnd := catrecTime, onHold }
      refine ⟨hiff.trans ⟨fun hno _ _ _ hc => ?_, fun hall => hall _ _ _ htimes⟩, hgood⟩
      rw [htimes] at hc
      cases hc
      exact hno
  | modifyCooldown now spellId cooldownModMs =>
    exact hof (modifyCooldown_good hg now spellId cooldownModMs) trivial
  | resetCooldown spellId => exact hof (resetCooldown_good hg spellId) trivial
  | resetCooldowns predicate => exact hof (hg.eraseIf _) trivial
  | resetAllCooldowns => exact hof (resetAllCooldowns_good h) trivial
  | update now => exact hof ((hg.expireCategories now).eraseIf _) trivial
  | lockSpellSchool now knownSpells schoolMask lockoutTime =>
    exact lockSpellSchool_aligned_iff hg knownSpells schoolMask lockoutTime
  | saveCooldownStateBeforeDuel =>
    have hsave : Good h.saveCooldownStateBeforeDuel := ⟨hg.aligned, hg.noZero⟩
    exact hof hsave trivial
  | restoreCooldownStateAfterDuel isPlayer =>
    cases isPlayer with
    | false => exact hof hg fun hc => by cases hc
    | true =>
      obtain ⟨hiff, hgood⟩ := @restoreCooldownStateAfterDuel_aligned_iff mgr _ hg
      exact ⟨hiff.trans ⟨fun hall _ => hall, fun hall => hall rfl⟩, hgood⟩

/-- `LoadFromDB` is the run of its rows. -/
theorem loadFromDB_reaches (type : OwnerType) (rows : List CooldownRow) :
    ∀ h, Reaches (Step mgr) (fun _ _ => True) h (loadFromDB mgr type h rows) := by
  induction rows with
  | nil => exact fun h => Reaches.refl h
  | cons row rows ih =>
    intro h
    have hone : Relation.ReflTransGen (fun s t => ∃ a : Op, True ∧ Step mgr s a t) h
        (loadRow mgr type h row) :=
      Relation.ReflTransGen.single ⟨.loadRow type row, trivial, rfl⟩
    exact hone.trans (ih (loadRow mgr type h row))

/-- **Category pointers do not dangle while no operation overwrites an entry they point to.**
In a run of sound operations the pointers are aligned in every state, and the first operation
that is not sound leaves them broken. -/
theorem pointers_aligned (rehash : Nat → Arrangement CooldownNode)
    (hrun : Reaches (Step mgr) (Sound mgr) (new rehash) h) :
    Aligned h ∧ ∀ op, Aligned (run mgr h op) ↔ Sound mgr h op := by
  have hgood : Good h := by
    apply hrun.invariant
    · exact ⟨fun q hq => absurd hq (Table.not_mem_empty q),
        fun q hq => absurd hq (Table.not_mem_empty q)⟩
    · intro s t op hg hsound hstep
      have ht : t = run mgr s op := hstep
      rw [ht]
      obtain ⟨hiff, hnext⟩ := @run_aligned_iff mgr _ hg op
      exact hnext (hiff.mpr hsound)
  exact ⟨hgood.aligned, fun op => (run_aligned_iff hgood op).1⟩

/-- No spells at all. -/
def noSpells : SpellMgr where
  getSpellInfo _ := none
  id_eq _ _ h := by cases h
  getItemEffects _ := none

theorem pointers_aligned_added :
    Aligned (run noSpells (new fun _ => Arrangement.id _) (.addCooldown 1 0 10 5 10 false)) := by
  have hsound : Sound noSpells (new fun _ => Arrangement.id _) (.addCooldown 1 0 10 5 10 false) := by
    rintro ⟨n, hn, -⟩
    cases hn
  exact (pointers_aligned _ ((Reaches.refl _).next hsound rfl)).1

/-- A spell that gets a cooldown of category 5, then one of category 7, and loses it. -/
def recategorized : SpellHistory :=
  run noSpells
    (run noSpells (run noSpells (new fun _ => Arrangement.id _) (.addCooldown 1 0 10 5 10 false))
      (.addCooldown 1 0 20 7 20 false)) (.resetCooldown 1)

theorem pointer_dangles :
    ¬∀ (mgr : SpellMgr) (rehash : Nat → Arrangement CooldownNode) (h : SpellHistory),
      Reaches (Step mgr) (fun _ _ => True) (new rehash) h → Aligned h := by
  intro hall
  have hrun : Reaches (Step noSpells) (fun _ _ => True) (new fun _ => Arrangement.id _)
      recategorized :=
    (((Reaches.refl _).next trivial rfl).next trivial rfl).next trivial rfl
  have hq : ((5, 0) : UInt32 × Nat) ∈ recategorized.categoryCooldowns.rows := by decide
  obtain ⟨n, hn, -⟩ := hall _ _ _ hrun (5, 0) hq
  have hnone : recategorized.spellCooldowns.nodes.rows = [] := by rfl
  rw [NodeMap.mem_def, Table.mem_def, hnone] at hn
  exact absurd hn List.not_mem_nil

end EGServer.Spells.SpellHistory
