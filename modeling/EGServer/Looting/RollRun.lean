import EGServer.Looting.RollTally

/-!
# Rolls over whole runs

Every roll of a group has counters that say what is in its entries and somebody who has not voted,
and every item that a roll has blocked has one roll, until it is handed out or open to all again.
It is so as long as two things hold. When a loot is handed over, no member near it that could roll
for an item passes on everything, and of the members near it one can roll for each item: the
counters do not see a pass on everything, and nothing resolves a roll that starts decided. When a
member leaves, somebody else still has to vote in each roll it was in: `RemoveMember` erases the
vote before it asks `CountRollVote`, which then does not find it.
-/

namespace EGServer.Looting

/-! ## Slots of a loot -/

namespace Loot

variable {L : Loot} {f : LootItem → LootItem} {ref ref' : ItemRef} {item : LootItem} {i j : Nat}

theorem get?_modify_self (L : Loot) (f : LootItem → LootItem) (ref : ItemRef) :
    (L.modify f ref).get? ref = (L.get? ref).map f := by
  cases ref with
  | item i => exact List.getElem?_modify_eq f i L.items
  | quest i => exact List.getElem?_modify_eq f i L.quest_items

theorem get?_modify_ne (h : ref' ≠ ref) : (L.modify f ref).get? ref' = L.get? ref' := by
  cases ref with
  | item i =>
    cases ref' with
    | item j =>
      have hne : i ≠ j := fun heq => h (heq ▸ rfl)
      exact List.getElem?_modify_ne f L.items hne
    | quest j => rfl
  | quest i =>
    cases ref' with
    | item j => rfl
    | quest j =>
      have hne : i ≠ j := fun heq => h (heq ▸ rfl)
      exact List.getElem?_modify_ne f L.quest_items hne

theorem modify_length (L : Loot) (f : LootItem → LootItem) (ref : ItemRef) :
    (L.modify f ref).items.length = L.items.length ∧
      (L.modify f ref).quest_items.length = L.quest_items.length := by
  cases ref with
  | item i => exact ⟨List.length_modify .., rfl⟩
  | quest i => exact ⟨rfl, List.length_modify ..⟩

theorem refAt_congr {L' : Loot} (h : L'.items.length = L.items.length) (i : Nat) :
    L'.refAt i = L.refAt i := by
  rw [refAt, refAt, h]

theorem refAt_inj (h : L.refAt i = L.refAt j) : i = j := by
  grind [refAt]

/-- The item in a slot. -/
def itemAt (L : Loot) (slot : Nat) : Option LootItem := L.get? (L.refAt slot)

theorem itemAt_modify_self (L : Loot) (f : LootItem → LootItem) (slot : Nat) :
    (L.modify f (L.refAt slot)).itemAt slot = (L.itemAt slot).map f := by
  rw [itemAt, refAt_congr (modify_length L f _).1]
  exact get?_modify_self L f (L.refAt slot)

theorem itemAt_modify_ne {slot slot' : Nat} (h : slot' ≠ slot) :
    (L.modify f (L.refAt slot)).itemAt slot' = L.itemAt slot' := by
  rw [itemAt, refAt_congr (modify_length L f _).1, itemAt]
  exact get?_modify_ne fun heq => h (refAt_inj heq)

/-- The slot is free of rolls: its item is gone, or not blocked. -/
def Settled (L : Loot) (slot : Nat) : Prop :=
  ∀ item, L.itemAt slot = some item → item.is_looted = true ∨ item.is_blocked = false

end Loot

/-! ## The end of a roll settles its slot -/

namespace Roll

variable {r : Roll} {L : Loot} {answers : Answers} {p : RollVote → Bool} {total : UInt8}

/-- `L'` has the items of `L` in all slots but one, and as many. -/
structure SameBut (slot : Nat) (L L' : Loot) : Prop where
  items : L'.items.length = L.items.length
  quest_items : L'.quest_items.length = L.quest_items.length
  others : ∀ slot', slot' ≠ slot → L'.itemAt slot' = L.itemAt slot'

theorem SameBut.refl (slot : Nat) (L : Loot) : SameBut slot L L := ⟨rfl, rfl, fun _ _ => rfl⟩

theorem SameBut.trans {slot : Nat} {L₁ L₂ L₃ : Loot} (h₁ : SameBut slot L₁ L₂)
    (h₂ : SameBut slot L₂ L₃) : SameBut slot L₁ L₃ :=
  ⟨h₂.items.trans h₁.items, h₂.quest_items.trans h₁.quest_items,
    fun slot' h => (h₂.others slot' h).trans (h₁.others slot' h)⟩

theorem sameBut_modify (L : Loot) (f : LootItem → LootItem) (slot : Nat) :
    SameBut slot L (L.modify f (L.refAt slot)) :=
  ⟨(L.modify_length f _).1, (L.modify_length f _).2, fun _ h => Loot.itemAt_modify_ne h⟩

theorem sameBut_won (answers : Answers) (slot : Nat) (winner : RollEntry) (L : Loot) :
    SameBut slot L (won answers (L.refAt slot) winner L) := by
  unfold won
  split
  · have h := sameBut_modify L (fun item => { item with is_looted := true }) slot
    exact ⟨h.items, h.quest_items, h.others⟩
  · exact sameBut_modify L _ slot

theorem settled_won (answers : Answers) (slot : Nat) (winner : RollEntry) (L : Loot) :
    (won answers (L.refAt slot) winner L).Settled slot := by
  intro item hitem
  unfold won at hitem
  split at hitem
  · have hself := Loot.itemAt_modify_self L (fun item => { item with is_looted := true }) slot
    obtain ⟨item₀, -, rfl⟩ := Option.map_eq_some_iff.mp (hself.symm.trans hitem)
    exact Or.inl rfl
  · obtain ⟨item₀, -, rfl⟩ := Option.map_eq_some_iff.mp
      ((Loot.itemAt_modify_self L _ slot).symm.trans hitem)
    exact Or.inr rfl

theorem countVotes_cases (answers : Answers) (p : RollVote → Bool) (r : Roll) (total : UInt8) (L : Loot)
    (h : total ≠ 0 → r.playerVote.rows ≠ []) :
    SameBut r.itemSlot L (countVotes answers p r total L).2 ∧
      ((countVotes answers p r total L).2.Settled r.itemSlot ∨
        (countVotes answers p r total L).1 = 0 ∧ (countVotes answers p r total L).2 = L) := by
  unfold countVotes
  split
  · next hnone =>
    refine ⟨.refl _ _, Or.inr ⟨?_, rfl⟩⟩
    by_contra hne
    rw [Bool.or_eq_true, decide_eq_true_eq, List.isEmpty_iff] at hnone
    rcases hnone with hzero | hempty
    · exact hne hzero
    · exact h hne hempty
  · split
    · exact ⟨.refl _ _, Or.inr ⟨rfl, rfl⟩⟩
    · exact ⟨sameBut_won answers r.itemSlot _ L, Or.inl (settled_won answers r.itemSlot _ L)⟩

theorem countVotes_settled (answers : Answers) (p : RollVote → Bool) (r : Roll) (total : UInt8)
    (L : Loot) (hs : L.Settled r.itemSlot) :
    (countVotes answers p r total L).2.Settled r.itemSlot := by
  unfold countVotes
  split
  · exact hs
  · split
    · exact hs
    · exact settled_won answers r.itemSlot _ L

/-- **Counting a roll** settles the slot it is about, and touches no other. -/
theorem Tallied.countTheRoll (h : r.Tallied) (answers : Answers) (L : Loot) :
    SameBut r.itemSlot L (r.countTheRoll answers L) ∧
      (r.countTheRoll answers L).Settled r.itemSlot := by
  have hrows : ∀ (total : UInt8) (p : RollVote → Bool), total.toNat = r.votes p → total ≠ 0 →
      r.playerVote.rows ≠ [] := by
    intro total p htotal hne hempty
    have hzero : r.votes p = 0 := by
      rw [votes, hempty]
      rfl
    apply hne
    rw [← UInt8.toNat_inj, htotal, hzero]
    rfl
  obtain ⟨hsame, hfirst⟩ := countVotes_cases answers isNeed r r.totalNeed L
    (hrows r.totalNeed isNeed h.need)
  have hunblock : ∀ M : Loot, (M.modify (fun item => { item with is_blocked := false })
      (M.refAt r.itemSlot)).Settled r.itemSlot := by
    intro M item hitem
    obtain ⟨item₀, -, rfl⟩ := Option.map_eq_some_iff.mp
      ((Loot.itemAt_modify_self M _ r.itemSlot).symm.trans hitem)
    exact Or.inr rfl
  unfold Roll.countTheRoll
  generalize countVotes answers isNeed r r.totalNeed L = first at hsame hfirst
  obtain ⟨totalNeed, L₁⟩ := first
  dsimp only at hsame hfirst ⊢
  by_cases hneed : totalNeed = 0
  · rw [if_pos hneed]
    obtain ⟨hsame₂, hsecond⟩ := countVotes_cases answers isGreed r r.totalGreed L₁
      (hrows r.totalGreed isGreed h.greed)
    have hkeeps := countVotes_settled answers isGreed r r.totalGreed L₁
    generalize countVotes answers isGreed r r.totalGreed L₁ = second at hsame₂ hsecond hkeeps
    obtain ⟨totalGreed, L₂⟩ := second
    dsimp only at hsame₂ hsecond hkeeps ⊢
    by_cases hgreed : totalGreed = 0
    · rw [if_pos (by rw [hneed, hgreed]; rfl)]
      exact ⟨(hsame.trans hsame₂).trans (sameBut_modify L₂ _ r.itemSlot), hunblock L₂⟩
    · rw [if_neg (by simp [hgreed])]
      refine ⟨hsame.trans hsame₂, ?_⟩
      rcases hsecond with hsettled | ⟨hzero, -⟩
      · exact hsettled
      · exact absurd hzero hgreed
  · grind

end Roll

/-! ## All rolls of a group -/

namespace Rolls

variable {templates : Templates} {W : Rolls} {r r' : Roll} {id : LootId} {slot : Nat} {L L₀ : Loot}
  {answers : Roll.Answers} {playerGUID : ObjectGuid} {choice : UInt8}

/-- **The invariant**, apart from who has voted. -/
structure WF (W : Rolls) : Prop where
  tallied : ∀ r ∈ W.RollId, r.Tallied
  fresh : ∀ r ∈ W.RollId, r.itemGUID < W.nextItemGUID
  there : ∀ r ∈ W.RollId, (W.loots r.loot).isSome = true
  once : ∀ r ∈ W.RollId, ∀ r' ∈ W.RollId, r.loot = r'.loot → r.itemSlot = r'.itemSlot → r = r'
  held : ∀ id slot L, (id, slot) ∈ W.blocked → W.loots id = some L →
    L.Settled slot ∨ ∃ r ∈ W.RollId, r.loot = id ∧ r.itemSlot = slot
  known : ∀ id slot, (id, slot) ∈ W.blocked → (W.loots id).isSome = true

/-- In each roll somebody has not voted yet. -/
def AllOpen (W : Rolls) : Prop := ∀ r ∈ W.RollId, r.Undecided

theorem WF.init : WF {} where
  tallied := by
    rintro r ⟨⟩
  fresh := by
    rintro r ⟨⟩
  there := by
    rintro r ⟨⟩
  once := by
    rintro r ⟨⟩
  held := by
    rintro id slot L ⟨⟩
  known := by
    rintro id slot ⟨⟩

theorem AllOpen.init : AllOpen {} := by
  intro r h
  cases h

/-! ### Writing a roll back -/

theorem mem_setRoll (hr : r ∈ W.RollId) (r' : Roll) (hguid : r'.itemGUID = r.itemGUID) {a : Roll} :
    a ∈ (W.setRoll r').RollId ↔ a = r' ∨ a ∈ W.RollId ∧ a.itemGUID ≠ r.itemGUID := by
  rw [setRoll, Table.mem_modify]
  grind

theorem WF.setRoll (hw : W.WF) (hr : r ∈ W.RollId) (hguid : r'.itemGUID = r.itemGUID)
    (hloot : r'.loot = r.loot) (hslot : r'.itemSlot = r.itemSlot) (ht : r'.Tallied) :
    (W.setRoll r').WF := by
  have hmem := fun a => mem_setRoll (a := a) hr _ hguid
  constructor
  · intro a ha
    rcases (hmem a).mp ha with rfl | ⟨ha, -⟩
    · exact ht
    · exact hw.tallied a ha
  · intro a ha
    rcases (hmem a).mp ha with rfl | ⟨ha, -⟩
    · exact hguid ▸ hw.fresh r hr
    · exact hw.fresh a ha
  · intro a ha
    rcases (hmem a).mp ha with rfl | ⟨ha, -⟩
    · exact hloot ▸ hw.there r hr
    · exact hw.there a ha
  · intro a ha b hb hl hs
    rcases (hmem a).mp ha with ha' | ⟨ha', hna⟩ <;> rcases (hmem b).mp hb with hb' | ⟨hb', hnb⟩
    · exact ha'.trans hb'.symm
    · subst ha'
      have heq := hw.once r hr b hb' (hloot.symm.trans hl) (hslot.symm.trans hs)
      exact absurd (congrArg Roll.itemGUID heq.symm) hnb
    · subst hb'
      have heq := hw.once a ha' r hr (hl.trans hloot) (hs.trans hslot)
      exact absurd (congrArg Roll.itemGUID heq) hna
    · exact hw.once a ha' b hb' hl hs
  · intro id slot L hb hL
    rcases hw.held id slot L hb hL with hsettled | ⟨a, ha, hl, hs⟩
    · exact Or.inl hsettled
    · by_cases hne : a.itemGUID = r.itemGUID
      · have heq : a = r := W.RollId.eq_of_key ha hr hne
        subst heq
        exact Or.inr ⟨r', (hmem r').mpr (Or.inl rfl), hloot.trans hl, hslot.trans hs⟩
      · exact Or.inr ⟨a, (hmem a).mpr (Or.inr ⟨ha, hne⟩), hl, hs⟩
  · exact hw.known

/-! ### Counting a roll -/

theorem countTheRoll_eq (hL : W.loots r.loot = some L) :
    W.countTheRoll answers r = { W with
      RollId := W.RollId.erase r.itemGUID
      loots := Function.update W.loots r.loot (some (r.countTheRoll answers L))
      counted := (r.winner answers).toList.map (r, ·) ++ W.counted } := by
  rw [countTheRoll, hL]
  rfl

theorem isSome_update {loots : LootId → Option Loot} {id' : LootId} (h : (loots id').isSome = true)
    (id : LootId) (L : Loot) : (Function.update loots id (some L) id').isSome = true := by
  grind

theorem WF.countTheRoll (hw : W.WF) (hr : r ∈ W.RollId) (answers : Roll.Answers) :
    (W.countTheRoll answers r).WF := by
  obtain ⟨L, hL⟩ := Option.isSome_iff_exists.mp (hw.there r hr)
  rw [countTheRoll_eq hL]
  obtain ⟨hsame, hsettled⟩ := (hw.tallied r hr).countTheRoll answers L
  have hkeep : ∀ a ∈ W.RollId.erase r.itemGUID, a ∈ W.RollId :=
    fun a ha => (Table.mem_erase.mp ha).1
  constructor
  · exact fun a ha => hw.tallied a (hkeep a ha)
  · exact fun a ha => hw.fresh a (hkeep a ha)
  · exact fun a ha => isSome_update (hw.there a (hkeep a ha)) _ _
  · exact fun a ha b hb => hw.once a (hkeep a ha) b (hkeep b hb)
  · intro id slot L' hb hL'
    dsimp only at hL'
    have hstays : ∀ a ∈ W.RollId, a.loot = id → a.itemSlot = slot →
        (id ≠ r.loot ∨ slot ≠ r.itemSlot) → a ∈ W.RollId.erase r.itemGUID := by
      intro a ha hl hs hother
      refine Table.mem_erase.mpr ⟨ha, ?_⟩
      intro hguid
      have heq : a = r := W.RollId.eq_of_key ha hr hguid
      subst heq
      rcases hother with h | h
      · exact h hl.symm
      · exact h hs.symm
    by_cases hid : id = r.loot
    · subst hid
      rw [Function.update_self] at hL'
      cases hL'
      by_cases hslot : slot = r.itemSlot
      · subst hslot
        exact Or.inl hsettled
      · rcases hw.held _ slot L hb hL with hold | ⟨a, ha, hl, hs⟩
        · left
          intro item hitem
          exact hold item ((hsame.others slot hslot).symm.trans hitem)
        · exact Or.inr ⟨a, hstays a ha hl hs (Or.inr hslot), hl, hs⟩
    · rw [Function.update_of_ne hid] at hL'
      rcases hw.held id slot L' hb hL' with hold | ⟨a, ha, hl, hs⟩
      · exact Or.inl hold
      · exact Or.inr ⟨a, hstays a ha hl hs (Or.inl hid), hl, hs⟩
  · exact fun id slot hb => isSome_update (hw.known id slot hb) _ _

theorem mem_countTheRoll (hL : (W.loots r.loot).isSome = true) (answers : Roll.Answers) {a : Roll} :
    a ∈ (W.countTheRoll answers r).RollId ↔ a ∈ W.RollId ∧ a.itemGUID ≠ r.itemGUID := by
  obtain ⟨L, hL⟩ := Option.isSome_iff_exists.mp hL
  rw [countTheRoll_eq hL]
  exact Table.mem_erase

/-! ### A vote -/

theorem getRoll_eq_some {guid : Nat} (h : W.getRoll guid = some r) :
    r ∈ W.RollId ∧ r.itemGUID = guid := by
  have h := Option.eq_some_of_filter_eq_some h
  exact Table.get?_eq_some.mp h

theorem cast_same (r : Roll) (guid : ObjectGuid) (choice : UInt8) :
    (r.cast guid choice).itemGUID = r.itemGUID ∧ (r.cast guid choice).loot = r.loot ∧
      (r.cast guid choice).itemSlot = r.itemSlot := by
  unfold Roll.cast
  repeat' split
  all_goals exact ⟨rfl, rfl, rfl⟩

/-- **A vote** decides the roll it is cast in, or leaves somebody who has not voted. -/
theorem countRollVote_keeps (hw : W.WF) (ho : W.AllOpen) (playerGUID : ObjectGuid) (guid : Nat)
    (choice : UInt8) (answers : Roll.Answers) :
    (W.countRollVote playerGUID guid choice answers).1.WF ∧
      (W.countRollVote playerGUID guid choice answers).1.AllOpen := by
  unfold countRollVote
  cases hget : W.getRoll guid with
  | none => exact ⟨hw, ho⟩
  | some r =>
    obtain ⟨hr, -⟩ := getRoll_eq_some hget
    dsimp only
    split
    · exact ⟨hw, ho⟩
    · next hvote =>
      split
      · exact ⟨hw, ho⟩
      · obtain ⟨hguid, hloot, hslot⟩ := cast_same r playerGUID choice
        have ht := (hw.tallied r hr).cast (not_not.mp hvote) choice
        have hw' := hw.setRoll hr hguid hloot hslot ht
        have hmem := fun a => mem_setRoll (a := a) hr _ hguid
        have hr' : r.cast playerGUID choice ∈ (W.setRoll (r.cast playerGUID choice)).RollId :=
          (hmem _).mpr (Or.inl rfl)
        dsimp only
        split
        · refine ⟨hw'.countTheRoll hr' answers, ?_⟩
          intro a ha
          obtain ⟨ha, hne⟩ := (mem_countTheRoll (hw'.there _ hr') answers).mp ha
          rcases (hmem a).mp ha with rfl | ⟨ha, -⟩
          · exact absurd rfl hne
          · exact ho a ha
        · next hdecided =>
          refine ⟨hw', ?_⟩
          intro a ha
          rcases (hmem a).mp ha with rfl | ⟨ha, -⟩
          · exact not_not.mp fun h => hdecided (ht.isDecided_iff.mpr h)
          · exact ho a ha

/-! ### A departure -/

/-- Somebody else still has to vote. -/
def StaysOpen (r : Roll) (playerGUID : ObjectGuid) : Prop :=
  ∃ e ∈ r.playerVote.rows, e.guid ≠ playerGUID ∧ e.vote = .notEmitedYet

theorem undecided_leave {vote : RollVote} (h : StaysOpen r playerGUID) :
    (r.leave playerGUID vote).Undecided := by
  obtain ⟨e, he, hne, hopen⟩ := h
  refine List.countP_pos_iff.mpr ⟨e, Table.mem_erase.mpr ⟨he, hne⟩, ?_⟩
  rw [hopen]
  rfl

theorem voteOf_leave (r : Roll) (playerGUID : ObjectGuid) (vote : RollVote) :
    (r.leave playerGUID vote).voteOf playerGUID = none := by
  show ((r.playerVote.erase playerGUID).get? playerGUID).map (·.vote) = none
  rw [Table.get?_erase_self]
  rfl

theorem countRollVote_none {guid : Nat}
    (h : ∀ r, W.RollId.get? guid = some r → r.voteOf playerGUID = none) :
    (W.countRollVote playerGUID guid choice answers).1 = W := by
  unfold countRollVote
  cases hget : W.getRoll guid with
  | none => rfl
  | some r =>
    have hnone := h r (Option.eq_some_of_filter_eq_some hget)
    dsimp only
    rw [if_pos (by rw [hnone]; rintro ⟨⟩)]

theorem leaveRolls_keeps (todo : List Nat) (hw : W.WF) (ho : W.AllOpen)
    (hstays : ∀ r ∈ W.RollId, ∀ vote, r.voteOf playerGUID = some vote → StaysOpen r playerGUID) :
    (leaveRolls playerGUID answers todo W).WF ∧ (leaveRolls playerGUID answers todo W).AllOpen := by
  induction todo generalizing W with
  | nil => exact ⟨hw, ho⟩
  | cons guid todo ih =>
    rw [leaveRolls]
    cases hget : W.RollId.get? guid with
    | none => exact ih hw ho hstays
    | some r =>
      dsimp only
      cases hvote : r.voteOf playerGUID with
      | none => exact ih hw ho hstays
      | some vote =>
        obtain ⟨hr, hguid⟩ := Table.get?_eq_some.mp hget
        have hmem := fun a => mem_setRoll (a := a) hr (r.leave playerGUID vote) rfl
        have hsame : ((W.setRoll (r.leave playerGUID vote)).countRollVote playerGUID guid
            MAX_ROLL_TYPE answers).1 = W.setRoll (r.leave playerGUID vote) := by
          apply countRollVote_none
          intro a ha
          obtain ⟨ha, hag⟩ := Table.get?_eq_some.mp ha
          rcases (hmem a).mp ha with rfl | ⟨-, hne⟩
          · exact voteOf_leave r playerGUID vote
          · exact absurd (hag.trans hguid.symm) hne
        dsimp only
        rw [hsame]
        refine ih (hw.setRoll hr rfl rfl rfl ((hw.tallied r hr).leave hvote)) ?_ ?_
        · intro a ha
          rcases (hmem a).mp ha with rfl | ⟨ha, -⟩
          · exact undecided_leave (hstays r hr vote hvote)
          · exact ho a ha
        · intro a ha vote' hvote'
          rcases (hmem a).mp ha with rfl | ⟨ha, -⟩
          · rw [voteOf_leave] at hvote'
            cases hvote'
          · exact hstays a ha vote' hvote'

/-! ### The end of a loot's rolls -/

theorem endRolls_keeps {answers : Nat → Roll.Answers} (todo : List Roll)
    (hnodup : (todo.map (·.itemGUID)).Nodup) (htodo : ∀ r ∈ todo, r ∈ W.RollId) (hw : W.WF)
    (ho : W.AllOpen) : (endRolls answers todo W).WF ∧ (endRolls answers todo W).AllOpen := by
  induction todo generalizing W with
  | nil => exact ⟨hw, ho⟩
  | cons r todo ih =>
    rw [List.map_cons, List.nodup_cons] at hnodup
    have hr := htodo r List.mem_cons_self
    have hmem := fun a => mem_countTheRoll (hw.there r hr) (answers r.itemGUID) (a := a)
    rw [endRolls]
    refine ih hnodup.2 ?_ (hw.countTheRoll hr _) fun a ha => ho a ((hmem a).mp ha).1
    grind

theorem endRoll_keeps (hw : W.WF) (ho : W.AllOpen) (id : LootId) (answers : Nat → Roll.Answers) :
    (W.endRoll id answers).WF ∧ (W.endRoll id answers).AllOpen := by
  refine endRolls_keeps _ ?_ (fun r hr => (List.mem_filter.mp hr).1) hw ho
  exact W.RollId.nodup.sublist (List.filter_sublist.map _)

/-! ### Handing a loot over -/

/-- A loot that is being handed over: slots still to come have the items they came with, and no
roll is about them. -/
structure Handing (W : Rolls) (id : LootId) (L₀ : Loot) (toCome : Nat → Prop) : Prop where
  wf : W.WF
  allOpen : W.AllOpen
  loot : ∃ L, W.loots id = some L ∧ L.items.length = L₀.items.length ∧
    L.quest_items.length = L₀.quest_items.length ∧
    ∀ slot, toCome slot → L.itemAt slot = L₀.itemAt slot
  free : ∀ slot, toCome slot → ∀ r ∈ W.RollId, r.loot = id → r.itemSlot ≠ slot

theorem Handing.mono {P Q : Nat → Prop} (h : W.Handing id L₀ P) (hQ : ∀ slot, Q slot → P slot) :
    W.Handing id L₀ Q := by
  obtain ⟨L, hL, hi, hq, hsame⟩ := h.loot
  exact ⟨h.wf, h.allOpen, ⟨L, hL, hi, hq, fun slot hs => hsame slot (hQ slot hs)⟩,
    fun slot hs => h.free slot (hQ slot hs)⟩

theorem WF.setLoot (hw : W.WF) (hL : W.loots id = some L) {L' : Loot}
    (hsettled : ∀ slot, L.Settled slot → L'.Settled slot) : (W.setLoot id L').WF := by
  refine ⟨hw.tallied, hw.fresh, fun r hr => isSome_update (hw.there r hr) _ _, hw.once, ?_,
    fun id' slot hb => isSome_update (hw.known id' slot hb) _ _⟩
  intro id' slot M hb hM
  rw [Rolls.setLoot] at hM
  dsimp only at hM
  by_cases hid : id' = id
  · subst hid
    rw [Function.update_self] at hM
    cases hM
    rcases hw.held id' slot L hb hL with hold | hroll
    · exact Or.inl (hsettled slot hold)
    · exact Or.inr hroll
  · rw [Function.update_of_ne hid] at hM
    exact hw.held id' slot M hb hM

theorem Handing.markUnderThreshold {P : Nat → Prop} (h : W.Handing id L₀ P)
    (hslot : slot < L₀.items.length) :
    (W.markUnderThreshold id slot).Handing id L₀ fun s => P s ∧ s ≠ slot := by
  obtain ⟨L, hL, hi, hq, hsame⟩ := h.loot
  have href : L.refAt slot = .item slot := by
    rw [Loot.refAt, if_pos (hi.symm ▸ hslot)]
  rw [Rolls.markUnderThreshold, hL]
  dsimp only
  rw [← href]
  refine ⟨h.wf.setLoot hL ?_, h.allOpen, ⟨_, Function.update_self .., ?_, ?_, ?_⟩, ?_⟩
  · intro s hs item hitem
    by_cases heq : s = slot
    · subst heq
      obtain ⟨item₀, hitem₀, rfl⟩ := Option.map_eq_some_iff.mp
        ((Loot.itemAt_modify_self L _ s).symm.trans hitem)
      exact hs item₀ hitem₀
    · exact hs item ((Loot.itemAt_modify_ne heq).symm.trans hitem)
  · exact (L.modify_length _ _).1.trans hi
  · exact (L.modify_length _ _).2.trans hq
  · rintro s ⟨hs, hne⟩
    exact (Loot.itemAt_modify_ne hne).trans (hsame s hs)
  · rintro s ⟨hs, -⟩
    exact h.free s hs

theorem push_block (slot : Nat) (hw : W.WF) (hL : W.loots id = some L) (hguid : r.itemGUID = W.nextItemGUID) :
    ∃ RollId, (push (block { W with nextItemGUID := W.nextItemGUID + 1 } id slot) r) =
        { loots := Function.update W.loots id
            (some (L.modify (fun item => { item with is_blocked := true }) (L.refAt slot)))
          RollId
          nextItemGUID := W.nextItemGUID + 1
          blocked := (id, slot) :: W.blocked
          counted := W.counted } ∧
      ∀ a, a ∈ RollId ↔ a = r ∨ a ∈ W.RollId := by
  have hnone : W.RollId.get? r.itemGUID = none := by
    apply Table.get?_eq_none.mpr
    intro a ha heq
    have hlt := hw.fresh a ha
    rw [heq, hguid] at hlt
    exact Nat.lt_irrefl _ hlt
  obtain ⟨t, ht⟩ : ∃ t, W.RollId.tryEmplace atEnd r = some t := by
    apply Option.isSome_iff_exists.mp
    rw [Table.tryEmplace, dif_pos hnone]
    rfl
  refine ⟨t, ?_, fun a => Table.mem_tryEmplace ht⟩
  unfold block
  dsimp only
  rw [hL, push]
  dsimp only [Rolls.setLoot]
  rw [ht, Option.getD_some]

theorem WF.pushBlocked (hw : W.WF) (ho : W.AllOpen) (hL : W.loots id = some L)
    (hguid : r.itemGUID = W.nextItemGUID) (hloot : r.loot = id) (hslot : r.itemSlot = slot)
    (ht : r.Tallied) (hu : r.Undecided)
    (hfree : ∀ a ∈ W.RollId, a.loot = id → a.itemSlot ≠ slot) :
    (push (block { W with nextItemGUID := W.nextItemGUID + 1 } id slot) r).WF ∧
      (push (block { W with nextItemGUID := W.nextItemGUID + 1 } id slot) r).AllOpen := by
  obtain ⟨RollId, heq, hmem⟩ := push_block slot hw hL hguid
  rw [heq]
  refine ⟨⟨?_, ?_, ?_, ?_, ?_, ?_⟩, ?_⟩
  · intro a ha
    rcases (hmem a).mp ha with rfl | ha
    · exact ht
    · exact hw.tallied a ha
  · intro a ha
    rcases (hmem a).mp ha with rfl | ha
    · exact hguid ▸ Nat.lt_succ_self _
    · exact Nat.lt_succ_of_lt (hw.fresh a ha)
  · intro a ha
    rcases (hmem a).mp ha with rfl | ha
    · rw [hloot]
      dsimp only
      rw [Function.update_self]
      rfl
    · exact isSome_update (hw.there a ha) _ _
  · intro a ha b hb hl hs
    rcases (hmem a).mp ha with ha' | ha' <;> rcases (hmem b).mp hb with hb' | hb'
    · exact ha'.trans hb'.symm
    · subst ha'
      exact absurd (hs.symm.trans hslot) (hfree b hb' (hl.symm.trans hloot))
    · subst hb'
      exact absurd (hs.trans hslot) (hfree a ha' (hl.trans hloot))
    · exact hw.once a ha' b hb' hl hs
  · intro id' s M hb hM
    dsimp only at hb hM
    have hnew : id' = id → s = slot → ∃ a ∈ RollId, a.loot = id' ∧ a.itemSlot = s :=
      fun hid hs => ⟨r, (hmem r).mpr (Or.inl rfl), hloot.trans hid.symm, hslot.trans hs.symm⟩
    rcases List.mem_cons.mp hb with hfirst | hold
    · exact Or.inr (hnew (Prod.mk.inj hfirst).1 (Prod.mk.inj hfirst).2)
    · have hkeep : (∃ a ∈ W.RollId, a.loot = id' ∧ a.itemSlot = s) →
          ∃ a ∈ RollId, a.loot = id' ∧ a.itemSlot = s := by
        rintro ⟨a, ha, h⟩
        exact ⟨a, (hmem a).mpr (Or.inr ha), h⟩
      by_cases hid : id' = id
      · subst hid
        by_cases hs : s = slot
        · exact Or.inr (hnew rfl hs)
        · rw [Function.update_self] at hM
          cases hM
          rcases hw.held id' s L hold hL with hsettled | hroll
          · left
            intro item hitem
            exact hsettled item ((Loot.itemAt_modify_ne hs).symm.trans hitem)
          · exact Or.inr (hkeep hroll)
      · rw [Function.update_of_ne hid] at hM
        rcases hw.held id' s M hold hM with hsettled | hroll
        · exact Or.inl hsettled
        · exact Or.inr (hkeep hroll)
  · intro id' s hb
    dsimp only at hb ⊢
    rcases List.mem_cons.mp hb with hb | hb
    · rw [(Prod.mk.inj hb).1, Function.update_self]
      rfl
    · exact isSome_update (hw.known id' s hb) _ _
  · intro a ha
    rcases (hmem a).mp ha with rfl | ha
    · exact hu
    · exact ho a ha

/-- **A roll for an item** of which all that can roll for it are to vote. -/
theorem Handing.offer {P : Nat → Prop} {group : RollGroup} {item : LootItem} {asksPass : Bool}
    (h : W.Handing id L₀ P) (hP : P slot) (hv : Roll.Votable templates group item asksPass)
    (forgetsAllPassed : Bool) :
    (W.offer templates group id slot item asksPass forgetsAllPassed).Handing id L₀
      fun s => P s ∧ s ≠ slot := by
  obtain ⟨L, hL, hi, hq, hsame⟩ := h.loot
  obtain ⟨hguid, hloot, hslot⟩ := Roll.addRollers_same templates item asksPass group.members
    (W.newRoll templates group id slot item asksPass forgetsAllPassed)
  have hsmall : 0 + group.members.length ≤ MAXRAIDSIZE := by
    rw [Nat.zero_add]
    exact group.small
  obtain ⟨htallied, hundecided⟩ := Roll.addRollers_tallied templates item asksPass
    (r := W.newRoll templates group id slot item asksPass forgetsAllPassed) group.nodup hsmall
    (fun _ _ => rfl) hv.noAutoPass ⟨rfl, rfl, rfl, rfl, rfl, Nat.zero_le _⟩
  have hnobody : (¬∃ m ∈ group.members, m.isAtGroupRewardDistance = true) →
      (Roll.addRollers templates item asksPass group.members
        (W.newRoll templates group id slot item asksPass forgetsAllPassed)).totalPlayersRolling = 0 := by
    intro hnear
    rw [Roll.addRollers_nobody hnear]
    rfl
  rw [Rolls.offer]
  generalize Roll.addRollers templates item asksPass group.members
    (W.newRoll templates group id slot item asksPass forgetsAllPassed) = r at *
  dsimp only [newRoll] at hguid hloot hslot ⊢
  by_cases hzero : r.totalPlayersRolling = 0
  · rw [if_pos hzero]
    refine ⟨⟨h.wf.tallied, fun a ha => Nat.lt_succ_of_lt (h.wf.fresh a ha), h.wf.there, h.wf.once,
      h.wf.held, h.wf.known⟩, h.allOpen, ⟨L, hL, hi, hq, fun s hs => hsame s hs.1⟩,
      fun s hs => h.free s hs.1⟩
  · rw [if_neg hzero]
    have hundec : r.Undecided := by
      apply hundecided
      right
      apply hv.someone
      by_contra hnear
      exact hzero (hnobody hnear)
    have hnotAll : ¬(forgetsAllPassed && decide (r.totalPass = r.totalPlayersRolling)) = true := by
      intro hall
      rw [Bool.and_eq_true, decide_eq_true_eq] at hall
      have hsum := r.votes_sum
      have hpass := htallied.pass
      have htotal := htallied.total
      rw [hall.2] at hpass
      rw [Roll.Undecided] at hundec
      omega
    rw [if_neg hnotAll]
    obtain ⟨hw, ho⟩ := h.wf.pushBlocked h.allOpen hL hguid hloot hslot htallied hundec
      (h.free slot hP)
    obtain ⟨RollId, heq, hmem⟩ := push_block slot h.wf hL hguid
    rw [heq] at hw ho ⊢
    refine ⟨hw, ho, ⟨_, Function.update_self .., ?_, ?_, ?_⟩, ?_⟩
    · exact (L.modify_length _ _).1.trans hi
    · exact (L.modify_length _ _).2.trans hq
    · rintro s ⟨hs, hne⟩
      exact (Loot.itemAt_modify_ne hne).trans (hsame s hs)
    · rintro s ⟨hs, hne⟩ a ha hl
      rcases (hmem a).mp ha with rfl | ha
      · exact fun heq => hne (heq.symm.trans hslot)
      · exact h.free s hs a ha hl

theorem itemAt_item {L : Loot} {i : Nat} (h : i < L.items.length) : L.itemAt i = L.items[i]? := by
  rw [Loot.itemAt, Loot.refAt, if_pos h]
  rfl

theorem itemAt_quest (L : Loot) (i : Nat) : L.itemAt (L.items.length + i) = L.quest_items[i]? := by
  rw [Loot.itemAt, Loot.refAt, if_neg (by omega), Nat.add_sub_cancel_left]
  rfl

section
variable {group : RollGroup}

theorem offerItems_keeps {Q : Nat → Prop} (forgetsAllPassed : Bool) (todo : List Nat)
    (hnodup : todo.Nodup) (htodo : ∀ i ∈ todo, i < L₀.items.length) (hQ : ∀ i ∈ todo, ¬Q i)
    (hv : ∀ item ∈ L₀.items, isRolledFor templates group item = true →
      Roll.Votable templates group item true)
    (h : W.Handing id L₀ fun s => s ∈ todo ∨ Q s) :
    (offerItems templates group id forgetsAllPassed todo W).Handing id L₀ Q := by
  induction todo generalizing W with
  | nil => exact h.mono fun s hs => Or.inr hs
  | cons i todo ih =>
    obtain ⟨hi, hnodup⟩ := List.nodup_cons.mp hnodup
    have htl : ∀ k ∈ todo, k < L₀.items.length := fun k hk => htodo k (List.mem_cons_of_mem i hk)
    have hQtl : ∀ k ∈ todo, ¬Q k := fun k hk => hQ k (List.mem_cons_of_mem i hk)
    have hlt := htodo i List.mem_cons_self
    have hrest : ∀ s, s ∈ todo ∨ Q s → (s ∈ i :: todo ∨ Q s) ∧ s ≠ i := by
      grind
    obtain ⟨L, hL, hlen, -, hsame⟩ := h.loot
    have hitem : L.items[i]? = L₀.items[i]? := by
      rw [← itemAt_item hlt, ← itemAt_item (hlen.symm ▸ hlt)]
      exact hsame i (Or.inl List.mem_cons_self)
    rw [offerItems, hL, Option.bind_some, hitem]
    cases hget : L₀.items[i]? with
    | none => exact ih hnodup htl hQtl (h.mono fun s hs => (hrest s hs).1)
    | some item =>
      dsimp only
      split
      · exact ih hnodup htl hQtl (h.mono fun s hs => (hrest s hs).1)
      · split
        · next hrolled =>
          refine ih hnodup htl hQtl (Handing.mono (h.offer (Or.inl List.mem_cons_self)
            (hv item (List.mem_of_getElem? hget) hrolled) forgetsAllPassed) hrest)
        · exact ih hnodup htl hQtl (Handing.mono (h.markUnderThreshold hlt) hrest)

theorem offerQuestItems_keeps {skipsUnknown : Bool} (todo : List Nat) (hnodup : todo.Nodup)
    (hv : ∀ item ∈ L₀.quest_items, item.follow_loot_rules = true →
      (skipsUnknown = true → (templates item.itemid).isSome = true) →
        Roll.Votable templates group item false)
    (h : W.Handing id L₀ fun s => ∃ i ∈ todo, s = L₀.items.length + i) :
    (offerQuestItems templates group id L₀.items.length skipsUnknown todo W).Handing id L₀
      fun _ => False := by
  induction todo generalizing W with
  | nil =>
    refine h.mono ?_
    rintro s ⟨⟩
  | cons i todo ih =>
    obtain ⟨hi, hnodup⟩ := List.nodup_cons.mp hnodup
    have hrest : ∀ s, (∃ k ∈ todo, s = L₀.items.length + k) →
        (∃ k ∈ i :: todo, s = L₀.items.length + k) ∧ s ≠ L₀.items.length + i := by
      grind
    obtain ⟨L, hL, hlen, -, hsame⟩ := h.loot
    have hitem : L.quest_items[i]? = L₀.quest_items[i]? := by
      rw [← itemAt_quest, ← itemAt_quest, hlen]
      exact hsame _ ⟨i, List.mem_cons_self, rfl⟩
    rw [offerQuestItems, hL, Option.bind_some, hitem]
    cases hget : L₀.quest_items[i]? with
    | none => exact ih hnodup (h.mono fun s hs => (hrest s hs).1)
    | some item =>
      dsimp only
      split
      · exact ih hnodup (h.mono fun s hs => (hrest s hs).1)
      · next hrolled =>
        rw [Bool.not_eq_true, Bool.or_eq_false_iff, Bool.not_eq_false', Bool.and_eq_false_iff] at hrolled
        refine ih hnodup (Handing.mono (h.offer ⟨i, List.mem_cons_self, rfl⟩
          (hv item (List.mem_of_getElem? hget) hrolled.1 ?_) false) hrest)
        intro hskips
        rcases hrolled.2 with h | h
        · rw [hskips] at h
          cases h
        · exact Option.isSome_iff_ne_none.mpr fun hnone => by
            rw [hnone] at h
            cases h

/-- **A loot that can be voted on**: for each item that is rolled for, no member near it that can
roll passes on everything, and when members are near, one of them can roll. -/
structure Fairly (templates : Templates) (group : RollGroup) (L : Loot) (skipsUnknown : Bool) :
    Prop where
  items : ∀ item ∈ L.items, isRolledFor templates group item = true →
    Roll.Votable templates group item true
  quest_items : ∀ item ∈ L.quest_items, item.follow_loot_rules = true →
    (skipsUnknown = true → (templates item.itemid).isSome = true) →
      Roll.Votable templates group item false

theorem handOver_keeps (hw : W.WF) (ho : W.AllOpen) (hid : W.loots id = none)
    (forgetsAllPassed skipsUnknown : Bool) (hfair : Fairly templates group L skipsUnknown) :
    (W.handOver templates group id L forgetsAllPassed skipsUnknown).WF ∧
      (W.handOver templates group id L forgetsAllPassed skipsUnknown).AllOpen := by
  have hno : ∀ r ∈ W.RollId, r.loot ≠ id := by
    intro r hr heq
    have hthere := hw.there r hr
    rw [heq, hid] at hthere
    cases hthere
  have hstart : (W.setLoot id L).Handing id L fun _ => True := by
    refine ⟨⟨hw.tallied, hw.fresh, fun r hr => isSome_update (hw.there r hr) _ _, hw.once, ?_,
      fun id' slot hb => isSome_update (hw.known id' slot hb) _ _⟩, ho,
      ⟨L, Function.update_self .., rfl, rfl, fun _ _ => rfl⟩, fun _ _ r hr hl => absurd hl (hno r hr)⟩
    intro id' slot M hb hM
    have hne : id' ≠ id := by
      rintro rfl
      have hknown := hw.known id' slot hb
      rw [hid] at hknown
      cases hknown
    rw [Rolls.setLoot] at hM
    dsimp only at hM
    rw [Function.update_of_ne hne] at hM
    exact hw.held id' slot M hb hM
  have hitems := offerItems_keeps (Q := fun s => ∃ i ∈ List.range L.quest_items.length,
      s = L.items.length + i) forgetsAllPassed (List.range L.items.length)
    List.nodup_range (fun i hi => List.mem_range.mp hi) (by
      rintro i hi ⟨k, -, heq⟩
      have hlt := List.mem_range.mp hi
      omega) hfair.items (hstart.mono fun _ _ => trivial)
  have hquest := offerQuestItems_keeps (List.range L.quest_items.length) List.nodup_range
    hfair.quest_items hitems
  exact ⟨hquest.wf, hquest.allOpen⟩

end

/-! ## Runs -/

inductive Operation where
  | groupLoot (group : RollGroup) (id : LootId) (L : Loot)
  | needBeforeGreed (group : RollGroup) (id : LootId) (L : Loot)
  | countRollVote (playerGUID : ObjectGuid) (guid : Nat) (choice : UInt8) (answers : Roll.Answers)
  | removeMember (playerGUID : ObjectGuid) (answers : Roll.Answers)
  | endRoll (id : LootId) (answers : Nat → Roll.Answers)

def exec (templates : Templates) (W : Rolls) : Operation → Rolls
  | .groupLoot group id L => W.groupLoot templates group id L
  | .needBeforeGreed group id L => W.needBeforeGreed templates group id L
  | .countRollVote playerGUID guid choice answers =>
    (W.countRollVote playerGUID guid choice answers).1
  | .removeMember playerGUID answers => W.removeMember playerGUID answers
  | .endRoll id answers => W.endRoll id answers

def Step (templates : Templates) (W : Rolls) (o : Operation) (W' : Rolls) : Prop :=
  W.exec templates o = W'

/-- The loot that is handed over. -/
def Operation.handsOver : Operation → Option LootId
  | .groupLoot _ id _ => some id
  | .needBeforeGreed _ id _ => some id
  | _ => none

/-- A loot is handed over as it is first opened. -/
def FirstOpened (W : Rolls) (o : Operation) : Prop := ∀ id, o.handsOver = some id → W.loots id = none

/-- A loot is handed over that can be voted on, and whoever leaves leaves somebody who still has to
vote in each of its rolls. -/
def Resolvable (templates : Templates) (W : Rolls) (o : Operation) : Prop :=
  W.FirstOpened o ∧
    match o with
    | .groupLoot group _ L => Fairly templates group L true
    | .needBeforeGreed group _ L => Fairly templates group L false
    | .removeMember playerGUID _ =>
      ∀ r ∈ W.RollId, ∀ vote, r.voteOf playerGUID = some vote → StaysOpen r playerGUID
    | _ => True

theorem exec_keeps (hw : W.WF) (ho : W.AllOpen) {o : Operation} (hok : W.Resolvable templates o) :
    (W.exec templates o).WF ∧ (W.exec templates o).AllOpen := by
  obtain ⟨hopened, hok⟩ := hok
  cases o with
  | groupLoot group id L => exact handOver_keeps hw ho (hopened id rfl) true true hok
  | needBeforeGreed group id L => exact handOver_keeps hw ho (hopened id rfl) false false hok
  | countRollVote playerGUID guid choice answers =>
    exact countRollVote_keeps hw ho playerGUID guid choice answers
  | removeMember playerGUID answers => exact leaveRolls_keeps _ hw ho hok
  | endRoll id answers => exact endRoll_keeps hw ho id answers

/-- A blocked item that is not handed out has exactly one roll. -/
def BlockedHaveRolls (W : Rolls) : Prop :=
  ∀ id slot L item, (id, slot) ∈ W.blocked → W.loots id = some L → L.itemAt slot = some item →
    item.is_blocked = true → item.is_looted = false →
      ∃! r, r ∈ W.RollId ∧ r.loot = id ∧ r.itemSlot = slot

/-- **Exact tallies, and nothing left undecided**: each roll's counters are right and stay so while
its votes are counted, somebody has not voted in it, and a blocked item has its roll. -/
theorem run_tallies (templates : Templates)
    (h : Reaches (Step templates) (Resolvable templates) {} W) :
    (∀ r ∈ W.RollId, r.Tallied ∧ r.Undecided ∧
      ∀ (answers : Roll.Answers) (maxresul : Nat) (best : Option RollEntry),
        (Roll.rollOff answers Roll.isNeed r.playerVote.rows (r.totalNeed, maxresul, best)).1.toNat ≤
            r.totalNeed.toNat ∧
          (Roll.rollOff answers Roll.isGreed r.playerVote.rows
            (r.totalGreed, maxresul, best)).1.toNat ≤ r.totalGreed.toNat) ∧
      W.BlockedHaveRolls := by
  have hinv : W.WF ∧ W.AllOpen := by
    refine h.invariant (I := fun W => W.WF ∧ W.AllOpen) ⟨.init, .init⟩ ?_
    rintro W W' o ⟨hw, ho⟩ hok rfl
    exact exec_keeps hw ho hok
  obtain ⟨hw, ho⟩ := hinv
  refine ⟨?_, ?_⟩
  · intro r hr
    have ht := hw.tallied r hr
    refine ⟨ht, ho r hr, ?_⟩
    intro answers maxresul best
    have hneed := Roll.rollOff_total answers Roll.isNeed r.playerVote.rows r.totalNeed maxresul best
      ht.need.ge
    have hgreed := Roll.rollOff_total answers Roll.isGreed r.playerVote.rows r.totalGreed maxresul
      best ht.greed.ge
    omega
  · intro id slot L item hb hL hitem hblocked hlooted
    rcases hw.held id slot L hb hL with hsettled | ⟨r, hr, hl, hs⟩
    · rcases hsettled item hitem with h | h
      · rw [hlooted] at h
        cases h
      · rw [hblocked] at h
        cases h
    · refine ⟨r, ⟨hr, hl, hs⟩, ?_⟩
      rintro r' ⟨hr', hl', hs'⟩
      exact hw.once r' hr' r hr (hl'.trans hl.symm) (hs'.trans hs.symm)

/-! ## The two things that go wrong -/

/-- Operations one after another. -/
def run (templates : Templates) (W : Rolls) (ops : List Operation) : Rolls :=
  ops.foldl (exec templates) W

/-- Are the loots that are handed over new? -/
def opensNew (templates : Templates) : List Operation → Rolls → Bool
  | [], _ => true
  | o :: ops, W =>
    (o.handsOver.all fun id => (W.loots id).isNone) && opensNew templates ops (W.exec templates o)

theorem run_reaches (ops : List Operation) (W₀ : Rolls)
    (h : Reaches (Step templates) FirstOpened W₀ W) (hnew : opensNew templates ops W = true) :
    Reaches (Step templates) FirstOpened W₀ (run templates W ops) := by
  induction ops generalizing W with
  | nil => exact h
  | cons o ops ih =>
    rw [opensNew, Bool.and_eq_true] at hnew
    have hopened : W.FirstOpened o := by
      intro id hid
      have hall := hnew.1
      rw [hid, Option.all_some] at hall
      exact Option.isNone_iff_eq_none.mp hall
    exact ih (h.next hopened rfl) hnew.2

/-- Item 1 is one that a group rolls for. -/
def oneItem (id : ItemId) : Option ItemTemplate := if id = 1 then some { quality := 2 } else none

def threeOf (canRoll : Bool) (passes : ObjectGuid → Bool) : RollGroup where
  members := [7, 8, 9].map fun guid =>
    { player := { guid, ofTeam := fun _ => canRoll }, passOnGroupLoot := passes guid }
  nodup := by
    show ([7, 8, 9] : List ObjectGuid).Nodup
    decide
  small := by
    show 3 ≤ MAXRAIDSIZE
    decide
  lootThreshold := 2

def anyAnswers : Roll.Answers where
  isThere _ := true
  randomN _ := 0
  canStore _ := true

/-- 7 passes on all loot, and leaves. -/
def passerLeaves : List Operation :=
  [.groupLoot (threeOf true (· == 7)) 1 { items := [{ itemid := 1 }] }, .removeMember 7 anyAnswers]

/-- Nobody can roll. -/
def nobodyRolls : List Operation := [.groupLoot (threeOf false fun _ => false) 1
  { items := [{ itemid := 1 }] }]

/-- 7 and 8 vote need, and 9 leaves. -/
def lastLeaves : List Operation :=
  [.needBeforeGreed (threeOf true fun _ => false) 1 { items := [{ itemid := 1 }] },
    .countRollVote 7 0 1 anyAnswers, .countRollVote 8 0 1 anyAnswers, .removeMember 9 anyAnswers]

/-- The pass of a member that passes on everything is taken off a counter that never had it; an item
that nobody can roll for stays blocked without a roll; and a roll that a departure decides stays. -/
theorem tallies_wrong :
    (∃ W, Reaches (Step oneItem) FirstOpened {} W ∧
      ∃ r ∈ W.RollId, r.totalPass = 255 ∧ r.votes Roll.isPass = 0) ∧
    (∃ W, Reaches (Step oneItem) FirstOpened {} W ∧ ¬W.BlockedHaveRolls) ∧
    ∃ W, Reaches (Step oneItem) FirstOpened {} W ∧ ∃ r ∈ W.RollId, ¬r.Undecided := by
  refine ⟨?_, ?_, ?_⟩
  · refine ⟨_, run_reaches passerLeaves {} (.refl _) (by decide), ?_⟩
    have hrows : (run oneItem {} passerLeaves).RollId.rows.map
        (fun r => (r.totalPass, r.votes Roll.isPass)) = [(255, 0)] := by decide
    obtain ⟨r, hr, heq⟩ := List.mem_map.mp (hrows ▸ List.mem_cons_self)
    exact ⟨r, hr, (Prod.mk.inj heq).1, (Prod.mk.inj heq).2⟩
  · refine ⟨_, run_reaches nobodyRolls {} (.refl _) (by decide), ?_⟩
    intro hheld
    have hitem : (((run oneItem {} nobodyRolls).loots 1).bind (·.itemAt 0)).map
        (fun item => (item.is_blocked, item.is_looted)) = some (true, false) := by decide
    obtain ⟨item, hitem, hflags⟩ := Option.map_eq_some_iff.mp hitem
    obtain ⟨L, hL, hitem⟩ := Option.bind_eq_some_iff.mp hitem
    obtain ⟨r, ⟨hr, -⟩, -⟩ := hheld 1 0 L item (by decide) hL hitem (Prod.mk.inj hflags).1
      (Prod.mk.inj hflags).2
    have hnone : (run oneItem {} nobodyRolls).RollId.rows.length = 0 := by decide
    have hmem : r ∈ (run oneItem {} nobodyRolls).RollId.rows := hr
    rw [List.length_eq_zero_iff.mp hnone] at hmem
    cases hmem
  · refine ⟨_, run_reaches lastLeaves {} (.refl _) (by decide), ?_⟩
    have hrows : (run oneItem {} lastLeaves).RollId.rows.map (fun r => r.votes Roll.isOpen) = [0] := by
      decide
    obtain ⟨r, hr, heq⟩ := List.mem_map.mp (hrows ▸ List.mem_cons_self)
    exact ⟨r, hr, fun h => absurd heq (Nat.ne_of_gt h)⟩

theorem staysOpen_of (h : (W.RollId.rows.all fun r => r.playerVote.rows.any fun e =>
      decide (e.guid ≠ playerGUID) && decide (e.vote = .notEmitedYet)) = true) :
    ∀ r ∈ W.RollId, ∀ vote, r.voteOf playerGUID = some vote → StaysOpen r playerGUID := by
  intro r hr _ _
  obtain ⟨e, he, hother⟩ := List.any_eq_true.mp (List.all_eq_true.mp h r hr)
  rw [Bool.and_eq_true, decide_eq_true_eq, decide_eq_true_eq] at hother
  exact ⟨e, he, hother⟩

theorem threeOf_fairly (skipsUnknown : Bool) (L : Loot) (hL : L.quest_items = [])
    (hitems : ∀ item ∈ L.items, item = { itemid := 1 }) :
    Fairly oneItem (threeOf true fun _ => false) L skipsUnknown where
  items := by
    intro item hitem _
    rw [hitems item hitem]
    constructor
    · intro m hm _ _ _
      obtain ⟨guid, -, rfl⟩ := List.mem_map.mp hm
      rfl
    · intro _
      exact ⟨_, List.mem_cons_self, rfl, by decide⟩
  quest_items := by
    intro item hitem
    rw [hL] at hitem
    cases hitem

/-- 7 votes need and 9 leaves; 8 still has to vote. -/
theorem threeOf_tallies :
    (run oneItem {} [.groupLoot (threeOf true fun _ => false) 1 { items := [{ itemid := 1 }] },
      .countRollVote 7 0 1 anyAnswers, .removeMember 9 anyAnswers]).BlockedHaveRolls := by
  refine (run_tallies oneItem (Reaches.next (a := .removeMember 9 anyAnswers)
    (Reaches.next (a := .countRollVote 7 0 1 anyAnswers)
      (Reaches.next (a := .groupLoot (threeOf true fun _ => false) 1 { items := [{ itemid := 1 }] })
        (.refl _) ⟨?_, ?_⟩ rfl) ⟨?_, trivial⟩ rfl) ⟨?_, ?_⟩ rfl)).2
  · intro id _
    rfl
  · refine threeOf_fairly true _ rfl ?_
    intro item hitem
    exact List.mem_singleton.mp hitem
  · rintro id ⟨⟩
  · rintro id ⟨⟩
  · exact staysOpen_of (by decide)

end Rolls

end EGServer.Looting
