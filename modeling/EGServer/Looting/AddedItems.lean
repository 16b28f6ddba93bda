import EGServer.Looting.LootTemplates
import Mathlib.Algebra.Order.BigOperators.Group.List

/-!
# What AddItem adds

One call of `AddItem` appends items of its row to one of the two lists, each of at least one piece
and at most a stack, which make up the count that was drawn unless the list is full (`Adds`). It
keeps the lists within their limits and numbers the items by their positions (`Capped`).
-/

namespace EGServer.Looting

variable {templates : Templates} {p : Processing templates} {s : Filling templates}
  {row : LootRow} {proto : ItemTemplate} {L : Loot}

/-- The list that a row adds to. -/
def Loot.lootItems (L : Loot) (needs_quest : Bool) : List LootItem :=
  if needs_quest then L.quest_items else L.items

/-- The pieces of some items. -/
def pieces (items : List LootItem) : Nat := (items.map fun item => item.count.toNat).sum

/-- From `L` to `L'` items of the row were appended, `count` pieces in all unless the list got
full. -/
structure StacksAdded (row : LootRow) (proto : ItemTemplate) (count : Nat) (L L' : Loot) :
    Prop where
  other : L'.lootItems (!row.needs_quest) = L.lootItems (!row.needs_quest)
  appended : ∃ new, L'.lootItems row.needs_quest = L.lootItems row.needs_quest ++ new ∧
    (∀ item ∈ new, item.itemid = row.itemid ∧ 1 ≤ item.count.toNat ∧
      item.count.toNat ≤ proto.maxStackSize) ∧
    pieces new ≤ count ∧ (pieces new = count ∨ L'.hasRoom row.needs_quest = false)

/-! ## One stack -/

theorem lootItems_addStack (count : Nat) :
    (L.addStack templates p.owner p.group row.toLootStoreItem proto count).lootItems
        row.needs_quest =
      L.lootItems row.needs_quest ++
        [L.generatedLoot templates p.owner p.group row.toLootStoreItem proto count] ∧
    (L.addStack templates p.owner p.group row.toLootStoreItem proto count).lootItems
        (!row.needs_quest) = L.lootItems (!row.needs_quest) := by
  have hpush (item : LootItem) : (L.pushItem row.needs_quest item).lootItems row.needs_quest =
        L.lootItems row.needs_quest ++ [item] ∧
      (L.pushItem row.needs_quest item).lootItems (!row.needs_quest) =
        L.lootItems (!row.needs_quest) := by
    cases row.needs_quest with
    | true => exact ⟨rfl, rfl⟩
    | false => exact ⟨rfl, rfl⟩
  unfold Loot.addStack
  dsimp only
  split
  · exact hpush _
  · exact hpush _

theorem count_generatedLoot {count : Nat} (hcount : count ≤ 255) :
    (L.generatedLoot templates p.owner p.group row.toLootStoreItem proto count).count.toNat =
      min count proto.maxStackSize := by
  show (UInt8.ofNat (min count proto.maxStackSize)).toNat = _
  grind [UInt8.toNat_ofNat']

/-! ## All stacks -/

/-- So many stacks are needed for a count. -/
def StacksFor (proto : ItemTemplate) (n count : Nat) : Prop :=
  count ≤ n * proto.maxStackSize ∧ (0 < n → (n - 1) * proto.maxStackSize < count)

theorem stacksFor (hstack : 0 < proto.maxStackSize) (count : Nat) :
    StacksFor proto
      (count / proto.maxStackSize + if count % proto.maxStackSize ≠ 0 then 1 else 0) count := by
  have hdiv := Nat.div_add_mod count proto.maxStackSize
  rw [Nat.mul_comm] at hdiv
  split
  · next hrest =>
    refine ⟨?_, fun _ => ?_⟩
    · rw [Nat.add_mul, Nat.one_mul]
      have hlt := Nat.mod_lt count hstack
      omega
    · rw [Nat.add_sub_cancel]
      omega
  · next hrest =>
    rw [not_not] at hrest
    rw [Nat.add_zero]
    refine ⟨by omega, fun hpos => ?_⟩
    grind [Nat.sub_add_cancel, Nat.succ_mul]

theorem StacksFor.next {n count : Nat} (h : StacksFor proto (n + 1) count) :
    StacksFor proto n (count - proto.maxStackSize) := by
  obtain ⟨hle, hlt⟩ := h
  have hlt := hlt (Nat.succ_pos n)
  rw [Nat.add_sub_cancel] at hlt
  rw [Nat.add_mul, Nat.one_mul] at hle
  refine ⟨by omega, fun hpos => ?_⟩
  grind [Nat.sub_add_cancel, Nat.succ_mul]

theorem addStacks_stacksAdded (hstack : 0 < proto.maxStackSize) (n : Nat) :
    ∀ (L : Loot) (count : Nat), count ≤ 255 → StacksFor proto n count →
      StacksAdded row proto count L
        (Loot.addStacks templates p.owner p.group row.toLootStoreItem proto n count L) := by
  induction n with
  | zero =>
    intro L count _ hfor
    have hzero : count = 0 := by
      have hle := hfor.1
      rw [Nat.zero_mul] at hle
      exact Nat.le_zero.mp hle
    exact ⟨rfl, [], (List.append_nil _).symm, fun item hitem => absurd hitem List.not_mem_nil,
      Nat.zero_le _, Or.inl hzero.symm⟩
  | succ n ih =>
    intro L count hcount hfor
    rw [Loot.addStacks]
    split
    · obtain ⟨hlist, hother⟩ := @lootItems_addStack templates p row proto L count
      obtain ⟨hother', new, hnew, hitems, hle, hall⟩ := ih
        (L.addStack templates p.owner p.group row.toLootStoreItem proto count)
        (count - proto.maxStackSize) (Nat.le_trans (Nat.sub_le _ _) hcount) hfor.next
      have hpos : 0 < count := Nat.zero_lt_of_lt (hfor.2 (Nat.succ_pos n))
      have hgen := @count_generatedLoot templates p row proto L count hcount
      have hpieces : pieces (L.generatedLoot templates p.owner p.group row.toLootStoreItem proto
          count :: new) = min count proto.maxStackSize + pieces new := by
        rw [← hgen]
        rfl
      refine ⟨hother'.trans hother,
        L.generatedLoot templates p.owner p.group row.toLootStoreItem proto count :: new,
        ?_, ?_, ?_, ?_⟩
      · rw [hnew, hlist, List.append_assoc, List.singleton_append]
      · intro item hitem
        rcases List.mem_cons.mp hitem with rfl | hitem
        · rw [hgen]
          exact ⟨rfl, Nat.le_min.mpr ⟨hpos, hstack⟩, Nat.min_le_right _ _⟩
        · exact hitems item hitem
      · rw [hpieces]
        omega
      · grind
    · next hroom =>
      refine ⟨rfl, [], (List.append_nil _).symm, fun item hitem => absurd hitem List.not_mem_nil,
        Nat.zero_le _, Or.inr ?_⟩
      exact Bool.eq_false_iff.mpr hroom

/-! ## The indexes and the limits -/

/-- The lists are within their limits, and the items are numbered by their positions. -/
structure Capped (s : Filling templates) : Prop where
  items : s.loot.items.length ≤ MAX_NR_LOOT_ITEMS
  questItems : s.loot.quest_items.length ≤ MAX_NR_QUEST_ITEMS
  itemIndexes : s.itemIndexes = List.range s.loot.items.length
  questItemIndexes : s.questItemIndexes = List.range s.loot.quest_items.length

theorem Capped.addStack (h : Capped s) (hroom : s.loot.hasRoom row.needs_quest = true)
    (count : Nat) :
    Capped (p.addStack row proto count s) := by
  obtain ⟨hlist, hother⟩ := @lootItems_addStack templates p row proto s.loot count
  unfold Loot.hasRoom at hroom
  unfold Processing.addStack Processing.pushIndex
  cases hquest : row.needs_quest with
  | true =>
    rw [hquest] at hlist hother hroom
    have hlist' : (s.loot.addStack templates p.owner p.group row.toLootStoreItem proto
        count).quest_items = s.loot.quest_items ++ [_] := hlist
    have hother' : (s.loot.addStack templates p.owner p.group row.toLootStoreItem proto
        count).items = s.loot.items := hother
    constructor
    case items => rw [hother']; exact h.items
    case questItems =>
      rw [hlist', List.length_append]
      exact of_decide_eq_true hroom
    case itemIndexes => rw [hother']; exact h.itemIndexes
    grind [List.range_succ, List.length_append, questItemIndexes]
  | false =>
    rw [hquest] at hlist hother hroom
    have hlist' : (s.loot.addStack templates p.owner p.group row.toLootStoreItem proto
        count).items = s.loot.items ++ [_] := hlist
    have hother' : (s.loot.addStack templates p.owner p.group row.toLootStoreItem proto
        count).quest_items = s.loot.quest_items := hother
    constructor
    case items =>
      rw [hlist', List.length_append]
      exact of_decide_eq_true hroom
    case questItems => rw [hother']; exact h.questItems
    case itemIndexes =>
      show s.itemIndexes ++ [s.loot.items.length] = _
      rw [hlist', List.length_append, List.length_singleton, List.range_succ, h.itemIndexes]
    case questItemIndexes => rw [hother']; exact h.questItemIndexes

theorem Capped.addStacks (n : Nat) : ∀ {s : Filling templates} (count : Nat), Capped s →
    Capped (p.addStacks row proto n count s) := by
  induction n with
  | zero => exact fun _ h => h
  | succ n ih =>
    intro s count h
    rw [Processing.addStacks]
    split
    · next hroom => exact ih _ (h.addStack hroom count)
    · exact h

theorem drops_addStack (count : Nat) : (p.addStack row proto count s).drops = s.drops := by
  unfold Processing.addStack Processing.pushIndex
  split
  · rfl
  · rfl

/-- The indexes are beside the loot that the loop of `AddItem` makes. -/
theorem loot_addStacks (n : Nat) : ∀ (s : Filling templates) (count : Nat),
    (p.addStacks row proto n count s).loot =
        Loot.addStacks templates p.owner p.group row.toLootStoreItem proto n count s.loot ∧
      (p.addStacks row proto n count s).drops = s.drops := by
  induction n with
  | zero => exact fun _ _ => ⟨rfl, rfl⟩
  | succ n ih =>
    intro s count
    rw [Processing.addStacks, Loot.addStacks]
    split
    · obtain ⟨hloot, hdrops⟩ := ih (p.addStack row proto count s) (count - proto.maxStackSize)
      exact ⟨hloot, hdrops.trans (drops_addStack count)⟩
    · exact ⟨rfl, rfl⟩

end EGServer.Looting
