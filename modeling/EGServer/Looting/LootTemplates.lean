import EGServer.Looting.Loot
import Mathlib.Algebra.Order.Field.Rat
import Mathlib.Algebra.Ring.Nat

/-!
# Loot templates

The templates of `LootMgr.cpp`: plain entries and references, and groups that drop one of their
entries; the checks of a row when it is loaded; and `Process`, which rolls for a template and adds
what drops to a loot. What the random number generator gives is a stream of draws, so that a
statement for every stream is one for every outcome of the rolls. A recursion through references
is cut at a depth.

Chances and rates are rational numbers. A chance that is rolled is between 0 and 100, where 100 is
what a `double` just below it becomes as a `float`. `RATE_DROP_ITEM_REFERENCED_AMOUNT` enters as
the number of rounds that it makes of a `maxcount`. Log messages and the copying of conditions
are not modelled.
-/

namespace EGServer.Looting

/-- A line of a loot table, with all that decides if it drops. -/
structure LootRow extends LootStoreItem where
  reference : UInt32 := 0
  chance : ℚ := 0
  lootmode : UInt16 := 1
  groupid : UInt8 := 0
  mincount : UInt8 := 1
  maxcount : UInt8 := 1

/-- `IsValid`; rows that are not are not loaded. -/
def LootRow.isValid (templates : Templates) (row : LootRow) : Bool :=
  if row.mincount = 0 then false
  else if row.reference = 0 then
    if (templates row.itemid).isNone then false
    -- Zero chance is allowed for grouped entries only
    else if row.chance = 0 ∧ row.groupid = 0 then false
    else if row.chance ≠ 0 ∧ row.chance < 1 / 1000000 then false
    else decide (row.mincount ≤ row.maxcount)
  else if row.needs_quest then true
  else decide (row.chance ≠ 0)

/-- Entries with chances, and those that all take the same chance; references are not allowed. -/
structure LootTemplate.LootGroup (templates : Templates) where
  explicitlyChanced : List LootRow
  equalChanced : List LootRow
  loaded : ∀ row ∈ explicitlyChanced ++ equalChanced,
    row.isValid templates = true ∧ row.reference = 0
  chanced : ∀ row ∈ explicitlyChanced, row.chance ≠ 0

structure LootTemplate (templates : Templates) where
  entries : List LootRow
  groups : List (Option (LootTemplate.LootGroup templates))
  loaded : ∀ row ∈ entries, row.isValid templates = true

/-- The templates by their ids. -/
abbrev LootStore (templates : Templates) :=
  Table (κ := UInt32) (α := UInt32 × LootTemplate templates) Prod.fst

variable {templates : Templates}

def LootStore.getLootFor (store : LootStore templates) (lootId : UInt32) :
    Option (LootTemplate templates) :=
  (store.get? lootId).map Prod.snd

/-! ## Loading -/

namespace LootTemplate

def LootGroup.empty : LootGroup templates where
  explicitlyChanced := []
  equalChanced := []
  loaded _ h := absurd h List.not_mem_nil
  chanced _ h := absurd h List.not_mem_nil

theorem LootGroup.loaded_append {rows : List LootRow} {row : LootRow}
    (h : ∀ r ∈ rows, r.isValid templates = true ∧ r.reference = 0)
    (hvalid : row.isValid templates = true) (href : row.reference = 0) {rows' : List LootRow}
    (hrows' : ∀ r ∈ rows', r ∈ rows ∨ r = row) :
    ∀ r ∈ rows', r.isValid templates = true ∧ r.reference = 0 := by
  intro r hr
  rcases hrows' r hr with hold | rfl
  · exact h r hold
  · exact ⟨hvalid, href⟩

/-- `LootGroup::AddEntry`, of a row that was found valid. -/
def LootGroup.addEntry (g : LootGroup templates) (row : LootRow)
    (hvalid : row.isValid templates = true) (href : row.reference = 0) : LootGroup templates :=
  if h : row.chance ≠ 0 then
    { explicitlyChanced := g.explicitlyChanced ++ [row]
      equalChanced := g.equalChanced
      loaded := loaded_append g.loaded hvalid href fun r hr => by
        simp only [List.mem_append, List.mem_singleton] at hr ⊢
        tauto
      chanced := by
        intro r hr
        rcases List.mem_append.mp hr with hr | hr
        · exact g.chanced r hr
        · rw [List.mem_singleton.mp hr]
          exact h }
  else
    { explicitlyChanced := g.explicitlyChanced
      equalChanced := g.equalChanced ++ [row]
      loaded := loaded_append g.loaded hvalid href fun r hr => by
        simp only [List.mem_append, List.mem_singleton] at hr ⊢
        tauto
      chanced := g.chanced }

def empty : LootTemplate templates where
  entries := []
  groups := []
  loaded _ h := absurd h List.not_mem_nil

/-- `LootTemplate::AddEntry`, of a row that was found valid. -/
def addEntry (T : LootTemplate templates) (row : LootRow) (hvalid : row.isValid templates = true) :
    LootTemplate templates :=
  if h : row.groupid > 0 ∧ row.reference = 0 then
    let index := row.groupid.toNat - 1
    let groups := T.groups ++ List.replicate (row.groupid.toNat - T.groups.length) none
    let group := (groups[index]?.join).getD .empty
    { T with groups := groups.set index (some (group.addEntry row hvalid h.2)) }
  else
    { T with
      entries := T.entries ++ [row]
      loaded := by
        intro r hr
        rcases List.mem_append.mp hr with hr | hr
        · exact T.loaded r hr
        · rw [List.mem_singleton.mp hr]
          exact hvalid }

end LootTemplate

/-! ## What Process works on -/

/-- What one call of the random number generator gives. -/
structure Draw where
  chance : ℚ
  number : Nat
  chance_nonneg : 0 ≤ chance
  chance_le : chance ≤ 100

/-- A call of `AddItem`, with the loot it found and the group that rolled the row, if one did. -/
structure Drop (templates : Templates) where
  before : Loot
  rolledBy : Option (LootTemplate.LootGroup templates)
  row : LootRow
  count : Nat

/-- A loot that is being filled. -/
structure Filling (templates : Templates) where
  loot : Loot
  /-- The `itemIndex` of each item of the two lists. -/
  itemIndexes : List Nat
  questItemIndexes : List Nat
  draws : Nat → Draw
  /-- Not in the source: the calls of `AddItem`. -/
  drops : List (Drop templates)

/-- What `Process` reads: members of the loot that it does not change, the server's rates and the
store of the references. -/
structure Processing (templates : Templates) where
  references : LootStore templates
  owner : Option Player
  group : Option LootGroup
  maxDuplicates : UInt8
  isInstanceLoot : Bool
  lootMode : UInt16
  rate : Bool
  /-- `RATE_DROP_ITEM_REFERENCED` -/
  rateReferenced : ℚ
  qualityToRate : Nat → ℚ
  /-- `uint32(float(maxcount) * RATE_DROP_ITEM_REFERENCED_AMOUNT)` -/
  referencedAmount : UInt8 → Nat

/-- The next draw. -/
def Filling.next (s : Filling templates) : Draw × Filling templates :=
  (s.draws 0, { s with draws := fun n => s.draws (n + 1) })

namespace Processing

variable (p : Processing templates)

/-! ## Adding items -/

def urand (min max : UInt8) (draw : Draw) : Nat :=
  min.toNat + draw.number % (max.toNat - min.toNat + 1)

/-- `generatedLoot.itemIndex = lootItems.size()`, for the item that is added next. -/
def pushIndex (needs_quest : Bool) (s : Filling templates) : Filling templates :=
  if needs_quest then
    { s with questItemIndexes := s.questItemIndexes ++ [s.loot.quest_items.length] }
  else { s with itemIndexes := s.itemIndexes ++ [s.loot.items.length] }

/-- A turn of the loop of `AddItem`. -/
def addStack (row : LootRow) (proto : ItemTemplate) (count : Nat) (s : Filling templates) :
    Filling templates :=
  { pushIndex row.needs_quest s with
    loot := s.loot.addStack templates p.owner p.group row.toLootStoreItem proto count }

/-- The loop of `AddItem`, with the indexes. -/
def addStacks (row : LootRow) (proto : ItemTemplate) :
    Nat → Nat → Filling templates → Filling templates
  | 0, _, s => s
  | n + 1, count, s =>
    if s.loot.hasRoom row.needs_quest then
      addStacks row proto n (count - proto.maxStackSize) (p.addStack row proto count s)
    else s

/-- `AddItem`, which draws the count itself. -/
def addItem (rolledBy : Option (LootTemplate.LootGroup templates)) (row : LootRow)
    (s : Filling templates) : Filling templates :=
  match templates row.itemid with
  | none => s
  | some proto =>
    let (draw, s) := s.next
    let count := urand row.mincount row.maxcount draw
    let turns := count / proto.maxStackSize + if count % proto.maxStackSize ≠ 0 then 1 else 0
    p.addStacks row proto turns count
      { s with drops := s.drops ++ [{ before := s.loot, rolledBy, row, count }] }

/-! ## Groups -/

/-- The loop of `LootGroupInvalidSelector`, which goes over `items` only. -/
def tooMany (itemid : ItemId) : List LootItem → UInt8 → Bool
  | [], _ => false
  | item :: items, foundDuplicates =>
    if item.itemid = itemid then
      if foundDuplicates + 1 == p.maxDuplicates then true
      else tooMany itemid items (foundDuplicates + 1)
    else tooMany itemid items foundDuplicates

/-- `LootGroupInvalidSelector`. -/
def isInvalid (loot : Loot) (row : LootRow) : Bool :=
  if row.lootmode &&& p.lootMode = 0 then true else p.tooMany row.itemid loot.items 0

def possibleLoot (loot : Loot) (rows : List LootRow) : List LootRow :=
  rows.filter fun row => !p.isInvalid loot row

/-- "each explicitly chanced entry" against what is left of the roll. -/
def rollExplicit : List LootRow → ℚ → Option LootRow
  | [], _ => none
  | row :: rows, roll =>
    if 100 ≤ row.chance then some row
    else if roll - row.chance < 0 then some row
    else rollExplicit rows (roll - row.chance)

def LootGroupRepeatBiasFactor : ℚ := 15 / 100

/-- The weight of a row in instance loot, for the items that there are. -/
def repeatBiasedWeight (row : LootRow) (items : List LootItem) : ℚ :=
  items.foldl
    (fun weight item =>
      if item.itemid = row.itemid then weight * LootGroupRepeatBiasFactor else weight) 1

/-- One of the rows that have a weight, or of all if none has. -/
def selectRandomWeightedContainerElement (weight : LootRow → ℚ) (rows : List LootRow)
    (draw : Draw) : Option LootRow :=
  let weighted := rows.filter fun row => 0 < weight row
  let rows := if weighted.isEmpty then rows else weighted
  rows[draw.number % rows.length]?

def selectRandomContainerElement (rows : List LootRow) (draw : Draw) : Option LootRow :=
  rows[draw.number % rows.length]?

/-- The part of `Roll` for the explicitly chanced rows, if there are some left. -/
def rollExplicitlyChanced (g : LootTemplate.LootGroup templates) (s : Filling templates) :
    Option LootRow × Filling templates :=
  let possible := p.possibleLoot s.loot g.explicitlyChanced
  if possible.isEmpty then (none, s)
  else (rollExplicit possible s.next.1.chance, s.next.2)

/-- "If nothing selected yet - an item is taken from equal-chanced part". -/
def rollEqualChanced (g : LootTemplate.LootGroup templates) (s : Filling templates) :
    Option LootRow × Filling templates :=
  let possible := p.possibleLoot s.loot g.equalChanced
  if possible.isEmpty then (none, s)
  else if !p.isInstanceLoot then (selectRandomContainerElement possible s.next.1, s.next.2)
  else
    (selectRandomWeightedContainerElement (repeatBiasedWeight · s.loot.items) possible s.next.1,
      s.next.2)

/-- `LootGroup::Roll`. -/
def roll (g : LootTemplate.LootGroup templates) (s : Filling templates) :
    Option LootRow × Filling templates :=
  match p.rollExplicitlyChanced g s with
  | (some row, s) => (some row, s)
  | (none, s) => p.rollEqualChanced g s

/-- `LootGroup::Process`. -/
def processGroup (g : LootTemplate.LootGroup templates) (s : Filling templates) :
    Filling templates :=
  match p.roll g s with
  | (some row, s) => p.addItem (some g) row s
  | (none, s) => s

/-- The loop over the groups. -/
def processGroups :
    List (Option (LootTemplate.LootGroup templates)) → Filling templates → Filling templates
  | [], s => s
  | none :: groups, s => processGroups groups s
  | some g :: groups, s => processGroups groups (p.processGroup g s)

/-! ## Templates -/

/-- `LootStoreItem::Roll`. -/
def rollEntry (row : LootRow) (s : Filling templates) : Bool × Filling templates :=
  if 100 ≤ row.chance then (true, s)
  else if row.reference > 0 then
    (decide (s.next.1.chance < row.chance * if p.rate then p.rateReferenced else 1), s.next.2)
  else
    let qualityModifier :=
      match templates row.itemid with
      | some proto => if p.rate then p.qualityToRate proto.quality else 1
      | none => 1
    (decide (s.next.1.chance < row.chance * qualityModifier), s.next.2)

/-- "Ref multiplicator". -/
def rounds (process : Filling templates → Option (Filling templates)) :
    Nat → Filling templates → Option (Filling templates)
  | 0, s => some s
  | n + 1, s => (process s).bind (rounds process n)

/-- A round of the loop over the entries; `process` is for the referenced template. -/
def processEntry
    (process : LootTemplate templates → UInt8 → Filling templates → Option (Filling templates))
    (row : LootRow) (s : Filling templates) : Option (Filling templates) :=
  if row.lootmode &&& p.lootMode = 0 then some s
  else if !(p.rollEntry row s).1 then some (p.rollEntry row s).2
  else if row.reference > 0 then
    match p.references.getLootFor row.reference with
    | none => some (p.rollEntry row s).2
    | some referenced =>
      rounds (process referenced row.groupid) (p.referencedAmount row.maxcount)
        (p.rollEntry row s).2
  else some (p.addItem none row (p.rollEntry row s).2)

/-- The loop over the entries. -/
def processEntries
    (process : LootTemplate templates → UInt8 → Filling templates → Option (Filling templates)) :
    List LootRow → Filling templates → Option (Filling templates)
  | [], s => some s
  | row :: rows, s => (p.processEntry process row s).bind (processEntries process rows)

/-- `LootTemplate::Process`, to a depth of references. -/
def process :
    Nat → LootTemplate templates → UInt8 → Filling templates → Option (Filling templates)
  | 0, _, _, _ => none
  | depth + 1, T, groupId, s =>
    if groupId ≠ 0 then
      match (T.groups[groupId.toNat - 1]?).join with
      | none => some s
      | some g => some (p.processGroup g s)
    else (p.processEntries (process depth) T.entries s).map (p.processGroups T.groups)

end Processing

end EGServer.Looting
