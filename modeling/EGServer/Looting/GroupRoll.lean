import EGServer.Looting.LootTemplates
import Mathlib.Tactic.Linarith

/-!
# What a group can roll

The rows that some outcome of a group's roll selects (`Selectable`): of the rows that the filter
leaves, an explicitly chanced one that a roll can get to, or any equal-chanced one if a roll can
get past the explicitly chanced ones. The filter counts the entries of `items` (`isInvalid_eq`)
and not those of `quest_items`.
-/

namespace EGServer.Looting

variable {templates : Templates} {p : Processing templates} {s : Filling templates}
  {g : LootTemplate.LootGroup templates} {row : LootRow} {rows : List LootRow} {L : Loot} {r : ℚ}

/-! ## Rows of a group -/

theorem LootRow.chance_of_isValid (hvalid : row.isValid templates = true)
    (href : row.reference = 0) : row.chance = 0 ∨ 0 < row.chance := by
  unfold LootRow.isValid at hvalid
  grind

theorem LootRow.counts_of_isValid (hvalid : row.isValid templates = true)
    (href : row.reference = 0) : row.mincount ≤ row.maxcount := by
  unfold LootRow.isValid at hvalid
  grind

def Positive (rows : List LootRow) : Prop := ∀ row ∈ rows, 0 < row.chance

theorem positive_explicitlyChanced (g : LootTemplate.LootGroup templates) :
    Positive g.explicitlyChanced := by
  intro row hrow
  obtain ⟨hvalid, href⟩ := g.loaded row (List.mem_append_left _ hrow)
  exact (LootRow.chance_of_isValid hvalid href).resolve_left (g.chanced row hrow)

/-! ## The filter -/

/-- The entries of an item in a list. -/
def entriesIn (itemid : ItemId) (items : List LootItem) : Nat :=
  items.countP fun item => item.itemid = itemid

/-- The entries of an item, "normal and quest lists together". -/
def Loot.entries (L : Loot) (itemid : ItemId) : Nat :=
  entriesIn itemid L.items + entriesIn itemid L.quest_items

theorem entriesIn_cons (itemid : ItemId) (item : LootItem) (items : List LootItem) :
    entriesIn itemid (item :: items) =
      entriesIn itemid items + if item.itemid = itemid then 1 else 0 := by
  unfold entriesIn
  rw [List.countP_cons]
  simp only [decide_eq_true_eq]

theorem tooMany_iff (itemid : ItemId) (items : List LootItem) :
    ∀ found : UInt8, found.toNat < p.maxDuplicates.toNat →
      (p.tooMany itemid items found = true ↔
        p.maxDuplicates.toNat ≤ found.toNat + entriesIn itemid items) := by
  induction items with
  | nil =>
    intro found hfound
    rw [Processing.tooMany, entriesIn, List.countP_nil, Nat.add_zero]
    exact iff_of_false Bool.false_ne_true (Nat.not_le.mpr hfound)
  | cons item items ih =>
    intro found hfound
    rw [Processing.tooMany, entriesIn_cons]
    have hnext : (found + 1).toNat = found.toNat + 1 := by
      rw [UInt8.toNat_add]
      have hlt := p.maxDuplicates.toNat_lt
      exact Nat.mod_eq_of_lt (by change found.toNat + 1 < 2 ^ 8; omega)
    split
    · split
      · grind
      · next hne =>
        rw [beq_iff_eq, ← UInt8.toNat_inj, hnext] at hne
        rw [ih (found + 1) (by omega), hnext]
        omega
    · rw [Nat.add_zero]
      exact ih found hfound

theorem isInvalid_eq (hmax : p.maxDuplicates ≠ 0) :
    p.isInvalid L row = false ↔ row.lootmode &&& p.lootMode ≠ 0 ∧
      entriesIn row.itemid L.items < p.maxDuplicates.toNat := by
  have hpos : (0 : UInt8).toNat < p.maxDuplicates.toNat := by
    apply Nat.pos_of_ne_zero
    intro hzero
    exact hmax (UInt8.toNat_inj.mp hzero)
  unfold Processing.isInvalid
  split
  · next hmode => exact iff_of_false (by simp) fun h => h.1 hmode
  · next hmode =>
    rw [← Bool.not_eq_true, tooMany_iff _ _ _ hpos, and_iff_right hmode]
    show ¬_ ≤ 0 + _ ↔ _
    rw [Nat.zero_add, Nat.not_le]

theorem mem_possibleLoot (hmax : p.maxDuplicates ≠ 0) :
    row ∈ p.possibleLoot L rows ↔ row ∈ rows ∧ row.lootmode &&& p.lootMode ≠ 0 ∧
      entriesIn row.itemid L.items < p.maxDuplicates.toNat := by
  unfold Processing.possibleLoot
  rw [List.mem_filter, Bool.not_eq_true', isInvalid_eq hmax]

theorem Positive.possibleLoot (h : Positive rows) : Positive (p.possibleLoot L rows) :=
  fun row hrow => h row (List.mem_of_mem_filter hrow)

/-! ## Explicitly chanced rows -/

def chances : List LootRow → ℚ
  | [] => 0
  | row :: rows => row.chance + chances rows

theorem Positive.chances_nonneg (h : Positive rows) : 0 ≤ chances rows := by
  induction rows with
  | nil => exact le_refl _
  | cons row rows ih =>
    obtain ⟨hrow, hrows⟩ := List.forall_mem_cons.mp h
    exact add_nonneg hrow.le (ih hrows)

/-- A roll gets past all rows. -/
def Passed (rows : List LootRow) (r : ℚ) : Prop :=
  (∀ row ∈ rows, row.chance < 100) ∧ chances rows ≤ r

theorem passed_nil : Passed [] r ↔ 0 ≤ r := by
  unfold Passed chances
  exact and_iff_right fun row hrow => absurd hrow List.not_mem_nil

theorem passed_cons : Passed (row :: rows) r ↔ row.chance < 100 ∧ Passed rows (r - row.chance) := by
  unfold Passed
  rw [List.forall_mem_cons, chances, and_assoc, le_sub_iff_add_le']

theorem rollExplicit_eq_none (hpos : Positive rows) : ∀ r : ℚ, 0 ≤ r →
    (Processing.rollExplicit rows r = none ↔ Passed rows r) := by
  induction rows with
  | nil =>
    intro r hr
    rw [passed_nil]
    exact iff_of_true rfl hr
  | cons row rows ih =>
    intro r hr
    obtain ⟨hrow, hrows⟩ := List.forall_mem_cons.mp hpos
    rw [passed_cons, Processing.rollExplicit]
    split
    · next hsure => exact iff_of_false (by simp) fun h => absurd h.1 (not_lt.mpr hsure)
    · next hsure =>
      rw [and_iff_right (not_le.mp hsure)]
      split
      · next hneg =>
        refine iff_of_false (by simp) fun h => absurd hneg (not_lt.mpr ?_)
        exact le_trans (Positive.chances_nonneg hrows) h.2
      · next hneg => exact ih hrows _ (not_lt.mp hneg)

theorem rollExplicit_append {before : List LootRow} (hpos : Positive before) :
    ∀ r : ℚ, Passed before r →
      Processing.rollExplicit (before ++ rows) r =
        Processing.rollExplicit rows (r - chances before) := by
  induction before with
  | nil =>
    intro r _
    rw [List.nil_append, chances, sub_zero]
  | cons row before ih =>
    intro r hpassed
    obtain ⟨-, hbefore⟩ := List.forall_mem_cons.mp hpos
    obtain ⟨hlt, hrest⟩ := passed_cons.mp hpassed
    have hle : 0 ≤ r - row.chance := le_trans (Positive.chances_nonneg hbefore) hrest.2
    rw [List.cons_append, Processing.rollExplicit, if_neg (not_le.mpr hlt),
      if_neg (not_lt.mpr hle), ih hbefore _ hrest, chances, sub_sub]

theorem passed_of_rollExplicit (hpos : Positive rows) : ∀ r : ℚ, 0 ≤ r →
    Processing.rollExplicit rows r = some row →
      ∃ before after, rows = before ++ row :: after ∧ Passed before r := by
  induction rows with
  | nil =>
    intro r _ hroll
    cases hroll
  | cons first rows ih =>
    intro r hr hroll
    obtain ⟨-, hrows⟩ := List.forall_mem_cons.mp hpos
    rw [Processing.rollExplicit] at hroll
    split at hroll
    · cases hroll
      exact ⟨[], rows, rfl, passed_nil.mpr hr⟩
    · next hsure =>
      split at hroll
      · cases hroll
        exact ⟨[], rows, rfl, passed_nil.mpr hr⟩
      · next hneg =>
        obtain ⟨before, after, hsplit, hpassed⟩ := ih hrows _ (not_lt.mp hneg) hroll
        exact ⟨first :: before, after, congrArg (first :: ·) hsplit,
          passed_cons.mpr ⟨not_le.mp hsure, hpassed⟩⟩

/-- Some roll gets to the row. -/
def Pickable (rows : List LootRow) (row : LootRow) : Prop :=
  ∃ before after, rows = before ++ row :: after ∧ Passed before 100

theorem Passed.mono {r' : ℚ} (h : Passed rows r) (hle : r ≤ r') : Passed rows r' :=
  ⟨h.1, h.2.trans hle⟩

theorem pickable_iff (hpos : Positive rows) :
    (∃ draw : Draw, Processing.rollExplicit rows draw.chance = some row) ↔ Pickable rows row := by
  constructor
  · rintro ⟨draw, hroll⟩
    obtain ⟨before, after, hsplit, hpassed⟩ :=
      passed_of_rollExplicit hpos _ draw.chance_nonneg hroll
    exact ⟨before, after, hsplit, hpassed.mono draw.chance_le⟩
  · rintro ⟨before, after, hsplit, hpassed⟩
    have hbefore : Positive before := by
      intro b hb
      apply hpos
      rw [hsplit]
      exact List.mem_append_left _ hb
    have hrow : 0 < row.chance := by
      apply hpos
      rw [hsplit]
      exact List.mem_append_right _ List.mem_cons_self
    -- the roll that uses up what is before the row
    refine ⟨⟨chances before, 0, hbefore.chances_nonneg, hpassed.2⟩, ?_⟩
    rw [hsplit, rollExplicit_append hbefore _ ⟨hpassed.1, le_rfl⟩, sub_self,
      Processing.rollExplicit]
    split
    · rfl
    · rw [if_pos (by linarith)]

theorem passable_iff (hpos : Positive rows) :
    (∃ draw : Draw, Processing.rollExplicit rows draw.chance = none) ↔ Passed rows 100 := by
  constructor
  · rintro ⟨draw, hroll⟩
    exact ((rollExplicit_eq_none hpos _ draw.chance_nonneg).mp hroll).mono draw.chance_le
  · intro hpassed
    refine ⟨⟨100, 0, by norm_num, le_rfl⟩, ?_⟩
    exact (rollExplicit_eq_none hpos _ (by norm_num)).mpr hpassed

/-! ## Equal-chanced rows -/

theorem repeatBiasedWeight_pos (row : LootRow) (items : List LootItem) :
    0 < Processing.repeatBiasedWeight row items := by
  unfold Processing.repeatBiasedWeight
  have hfold (items : List LootItem) : ∀ weight : ℚ, 0 < weight →
      0 < items.foldl (fun weight item => if item.itemid = row.itemid then
        weight * Processing.LootGroupRepeatBiasFactor else weight) weight := by
    induction items with
    | nil => exact fun _ h => h
    | cons item items ih =>
      grind [Processing.LootGroupRepeatBiasFactor, mul_pos]
  exact hfold items 1 one_pos

theorem selectRandomContainerElement_mem {draw : Draw}
    (h : Processing.selectRandomContainerElement rows draw = some row) : row ∈ rows :=
  List.mem_of_getElem? h

theorem exists_selectRandomContainerElement (hrow : row ∈ rows) :
    ∃ number, ∀ draw : Draw, draw.number = number →
      Processing.selectRandomContainerElement rows draw = some row := by
  obtain ⟨i, hi, hget⟩ := List.getElem_of_mem hrow
  refine ⟨i, fun draw hdraw => ?_⟩
  unfold Processing.selectRandomContainerElement
  rw [hdraw, Nat.mod_eq_of_lt hi, List.getElem?_eq_getElem hi, hget]

theorem selectRandomWeightedContainerElement_eq (items : List LootItem) (draw : Draw) :
    Processing.selectRandomWeightedContainerElement (Processing.repeatBiasedWeight · items) rows
        draw = Processing.selectRandomContainerElement rows draw := by
  have hall :
      rows.filter (fun row => decide (0 < Processing.repeatBiasedWeight row items)) = rows :=
    List.filter_eq_self.mpr fun row _ => decide_eq_true (repeatBiasedWeight_pos row items)
  unfold Processing.selectRandomWeightedContainerElement Processing.selectRandomContainerElement
  dsimp only
  rw [hall, ite_self]

theorem rollEqualChanced_fst (p : Processing templates) (g : LootTemplate.LootGroup templates)
    (s : Filling templates) :
    (p.rollEqualChanced g s).1 = Processing.selectRandomContainerElement
      (p.possibleLoot s.loot g.equalChanced) (s.draws 0) := by
  unfold Processing.rollEqualChanced
  dsimp only
  split
  · next hempty =>
    rw [List.isEmpty_iff] at hempty
    rw [hempty]
    rfl
  · rw [selectRandomWeightedContainerElement_eq]
    split
    · rfl
    · rfl

/-! ## The roll -/

/-- Some outcome of the roll selects the row. -/
def Selectable (p : Processing templates) (L : Loot) (g : LootTemplate.LootGroup templates)
    (row : LootRow) : Prop :=
  Pickable (p.possibleLoot L g.explicitlyChanced) row ∨
    Passed (p.possibleLoot L g.explicitlyChanced) 100 ∧ row ∈ p.possibleLoot L g.equalChanced

theorem rollExplicitlyChanced_spec (p : Processing templates)
    (g : LootTemplate.LootGroup templates) (s : Filling templates) :
    (p.rollExplicitlyChanced g s).2.loot = s.loot ∧
      ((p.rollExplicitlyChanced g s).1 =
        Processing.rollExplicit (p.possibleLoot s.loot g.explicitlyChanced)
          (s.draws 0).chance) := by
  unfold Processing.rollExplicitlyChanced
  dsimp only
  split
  · next hempty =>
    rw [List.isEmpty_iff] at hempty
    rw [hempty]
    exact ⟨rfl, rfl⟩
  · exact ⟨rfl, rfl⟩

theorem selectable_of_roll (h : (p.roll g s).1 = some row) : Selectable p s.loot g row := by
  have hpos : Positive (p.possibleLoot s.loot g.explicitlyChanced) :=
    (positive_explicitlyChanced g).possibleLoot
  obtain ⟨hloot, hfirst⟩ := rollExplicitlyChanced_spec p g s
  unfold Processing.roll at h
  cases hroll : p.rollExplicitlyChanced g s with
  | mk picked s' =>
    rw [hroll] at h hloot hfirst
    cases picked with
    | some picked =>
      cases h
      exact Or.inl ((pickable_iff hpos).mp ⟨_, hfirst.symm⟩)
    | none =>
      refine Or.inr ⟨(passable_iff hpos).mp ⟨_, hfirst.symm⟩, ?_⟩
      grind [selectRandomContainerElement_mem, rollEqualChanced_fst]

/-- **Every selectable row is selected by some outcome.** -/
theorem exists_roll (h : Selectable p s.loot g row) :
    ∃ draws, (p.roll g { s with draws := draws }).1 = some row := by
  have hpos : Positive (p.possibleLoot s.loot g.explicitlyChanced) :=
    (positive_explicitlyChanced g).possibleLoot
  rcases h with hpick | ⟨hpassed, hequal⟩
  · obtain ⟨draw, hroll⟩ := (pickable_iff hpos).mpr hpick
    refine ⟨fun _ => draw, ?_⟩
    grind [Processing.roll, rollExplicitlyChanced_spec]
  · obtain ⟨number, hselect⟩ := exists_selectRandomContainerElement hequal
    -- one draw for both parts: a roll of 100, and the number of the row
    let draw : Draw := ⟨100, number, by norm_num, le_rfl⟩
    refine ⟨fun _ => draw, ?_⟩
    have hnone := (rollExplicit_eq_none hpos 100 (by norm_num)).mpr hpassed
    obtain ⟨hloot, hfirst⟩ := rollExplicitlyChanced_spec p g { s with draws := fun _ => draw }
    have hdraws :
        (p.rollExplicitlyChanced g { s with draws := fun _ => draw }).2.draws 0 = draw := by
      unfold Processing.rollExplicitlyChanced
      dsimp only
      split
      · rfl
      · rfl
    unfold Processing.roll
    cases hr : p.rollExplicitlyChanced g { s with draws := fun _ => draw } with
    | mk picked s' =>
      rw [hr] at hfirst hloot hdraws
      have hpicked : picked = none := hfirst.trans hnone
      rw [hpicked]
      show (p.rollEqualChanced g s').1 = some row
      rw [rollEqualChanced_fst, hloot, hdraws]
      exact hselect draw rfl

/-- A row that is selected is one of the group, matches the mode, and has room in `items`. -/
theorem Selectable.spec (hmax : p.maxDuplicates ≠ 0) (h : Selectable p L g row) :
    row ∈ g.explicitlyChanced ++ g.equalChanced ∧ row.lootmode &&& p.lootMode ≠ 0 ∧
      entriesIn row.itemid L.items < p.maxDuplicates.toNat := by
  rcases h with ⟨before, after, hsplit, -⟩ | ⟨-, hmem⟩
  · have hmem : row ∈ p.possibleLoot L g.explicitlyChanced := by
      rw [hsplit]
      exact List.mem_append_right _ List.mem_cons_self
    grind [mem_possibleLoot]
  · grind [mem_possibleLoot]

end EGServer.Looting
