import EGServer.Looting.AddedItems
import EGServer.Looting.GroupRoll
import Mathlib.Data.Fintype.EquivFin
import Mathlib.Order.WellFounded

/-!
# Processing a template

`Process` of a template whose references go round in no circle ends (`exists_process`), and what it
does is a sequence of calls of `AddItem` (`Calls`), each for a row that the template offers at
the loot mode (`Offered`) and, for a row of a group, one that the group can select. The lists
stay within their limits and the items numbered (`Capped`).

The cap on duplicates is kept by each roll of a group exactly where no row that it can select has
its duplicates among the quest items, which the filter does not look at (`process_caps`).
-/

namespace EGServer.Looting

variable {templates : Templates} {p : Processing templates} {s s' : Filling templates}
  {T T' : LootTemplate templates} {g : LootTemplate.LootGroup templates} {groupId : UInt8}
  {row : LootRow} {ok ok' : Drop templates → Prop}

/-! ## Calls of AddItem -/

/-- The loot after a call. -/
def Drop.after (p : Processing templates) (d : Drop templates) : Loot :=
  d.before.addItem templates p.owner p.group d.row.toLootStoreItem d.count

/-- From a loot to another by calls of `AddItem`. -/
inductive Calls (p : Processing templates) : Loot → List (Drop templates) → Loot → Prop where
  | nil (L : Loot) : Calls p L [] L
  | cons (d : Drop templates) {ds : List (Drop templates)} {L : Loot}
      (rest : Calls p (d.after p) ds L) : Calls p d.before (d :: ds) L

theorem Calls.append {L L₁ L₂ : Loot} {ds ds' : List (Drop templates)} (h : Calls p L ds L₁)
    (h' : Calls p L₁ ds' L₂) : Calls p L (ds ++ ds') L₂ := by
  induction h with
  | nil => exact h'
  | cons d rest ih => exact Calls.cons d (ih h')

theorem Calls.process {L L' : Loot} {ds : List (Drop templates)} (h : Calls p L ds L') :
    L' = Loot.process templates p.owner p.group
      (ds.map fun d => (d.row.toLootStoreItem, d.count)) L := by
  induction h with
  | nil => rfl
  | cons d rest ih => exact ih

/-- From `s` to `s'` by calls of `AddItem` that are in order. -/
structure Processed (p : Processing templates) (ok : Drop templates → Prop)
    (s s' : Filling templates) : Prop where
  capped : Capped s → Capped s'
  drops : ∃ new, s'.drops = s.drops ++ new ∧ Calls p s.loot new s'.loot ∧ ∀ d ∈ new, ok d

theorem Processed.refl (s : Filling templates) : Processed p ok s s :=
  ⟨id, [], (List.append_nil _).symm, Calls.nil _, fun _ hd => absurd hd List.not_mem_nil⟩

theorem Processed.of_same (hloot : s'.loot = s.loot) (hitems : s'.itemIndexes = s.itemIndexes)
    (hquest : s'.questItemIndexes = s.questItemIndexes) (hdrops : s'.drops = s.drops) :
    Processed p ok s s' := by
  refine ⟨fun h => ⟨?_, ?_, ?_, ?_⟩, [], ?_, ?_, fun d hd => absurd hd List.not_mem_nil⟩
  · rw [hloot]
    exact h.items
  · rw [hloot]
    exact h.questItems
  · rw [hloot, hitems]
    exact h.itemIndexes
  · rw [hloot, hquest]
    exact h.questItemIndexes
  · rw [hdrops, List.append_nil]
  · rw [hloot]
    exact Calls.nil _

theorem Processed.trans {s'' : Filling templates} (h : Processed p ok s s')
    (h' : Processed p ok s' s'') : Processed p ok s s'' := by
  obtain ⟨hcapped, new, hdrops, hcalls, hok⟩ := h
  obtain ⟨hcapped', new', hdrops', hcalls', hok'⟩ := h'
  refine ⟨fun hs => hcapped' (hcapped hs), new ++ new', ?_, hcalls.append hcalls', ?_⟩
  · rw [hdrops', hdrops, List.append_assoc]
  · intro d hd
    rcases List.mem_append.mp hd with hd | hd
    · exact hok d hd
    · exact hok' d hd

theorem Processed.mono (h : Processed p ok s s') (himp : ∀ d, ok d → ok' d) :
    Processed p ok' s s' := by
  obtain ⟨hcapped, new, hdrops, hcalls, hok⟩ := h
  exact ⟨hcapped, new, hdrops, hcalls, fun d hd => himp d (hok d hd)⟩

/-! ## One call -/

/-- Item templates have a stack size, as `GetMaxStackSize` gives them. -/
def Stackable (templates : Templates) : Prop :=
  ∀ itemid proto, templates itemid = some proto → 0 < proto.maxStackSize

/-- The count is one that the row allows, and the items are stacks of it. -/
structure Drawn (p : Processing templates) (d : Drop templates) : Prop where
  mincount : d.row.mincount.toNat ≤ d.count
  maxcount : d.count ≤ d.row.maxcount.toNat
  added : ∃ proto, templates d.row.itemid = some proto ∧
    StacksAdded d.row proto d.count d.before (d.after p)

theorem urand_bounds {min max : UInt8} (hle : min ≤ max) (draw : Draw) :
    min.toNat ≤ Processing.urand min max draw ∧ Processing.urand min max draw ≤ max.toNat := by
  unfold Processing.urand
  have hmod := Nat.mod_lt draw.number (Nat.succ_pos (max.toNat - min.toNat))
  have hle' : min.toNat ≤ max.toNat := UInt8.le_iff_toNat_le.mp hle
  rw [Nat.succ_eq_add_one] at hmod
  omega

theorem addItem_processed (hstack : Stackable templates) (hcounts : row.mincount ≤ row.maxcount)
    (rolledBy : Option (LootTemplate.LootGroup templates)) (s : Filling templates)
    (hok : ∀ count, Drawn p ⟨s.loot, rolledBy, row, count⟩ → ok ⟨s.loot, rolledBy, row, count⟩) :
    Processed p ok s (p.addItem rolledBy row s) := by
  unfold Processing.addItem
  cases hproto : templates row.itemid with
  | none => exact Processed.refl s
  | some proto =>
    dsimp only
    obtain ⟨hmin, hmax⟩ := urand_bounds hcounts s.next.1
    generalize hcount : Processing.urand row.mincount row.maxcount s.next.1 = count at hmin hmax
    generalize hturns : (count / proto.maxStackSize +
      if count % proto.maxStackSize ≠ 0 then 1 else 0) = turns
    obtain ⟨hloot, hdrops⟩ := @loot_addStacks templates p row proto turns
      { s.next.2 with drops := s.next.2.drops ++ [⟨s.next.2.loot, rolledBy, row, count⟩] } count
    have hbyte : count ≤ 255 := by
      have hlt := row.maxcount.toNat_lt
      omega
    have hafter : Drop.after p ⟨s.loot, rolledBy, row, count⟩ =
        Loot.addStacks templates p.owner p.group row.toLootStoreItem proto turns count s.loot := by
      unfold Drop.after Loot.addItem
      dsimp only
      rw [hproto, ← hturns]
    have hdrawn : Drawn p ⟨s.loot, rolledBy, row, count⟩ := by
      refine ⟨hmin, hmax, proto, hproto, ?_⟩
      rw [hafter]
      apply addStacks_stacksAdded (hstack row.itemid proto hproto) turns s.loot count hbyte
      rw [← hturns]
      exact stacksFor (hstack row.itemid proto hproto) count
    refine ⟨fun h => ?_, [⟨s.loot, rolledBy, row, count⟩], hdrops, ?_, ?_⟩
    · apply Capped.addStacks
      exact ⟨h.items, h.questItems, h.itemIndexes, h.questItemIndexes⟩
    · rw [hloot]
      apply Calls.cons (p := p) ⟨s.loot, rolledBy, row, count⟩
      rw [hafter]
      exact Calls.nil _
    · intro d hd
      rw [List.mem_singleton.mp hd]
      exact hok count hdrawn

theorem drops_addItem (rolledBy : Option (LootTemplate.LootGroup templates))
    (s : Filling templates) : (p.addItem rolledBy row s).drops = s.drops ∨
      ∃ count, (p.addItem rolledBy row s).drops = s.drops ++ [⟨s.loot, rolledBy, row, count⟩] := by
  unfold Processing.addItem
  split
  · exact Or.inl rfl
  · refine Or.inr ⟨Processing.urand row.mincount row.maxcount s.next.1, ?_⟩
    dsimp only
    rw [(loot_addStacks _ _ _).2]
    rfl

/-! ## What a template offers -/

/-- The rows of a group. -/
def LootTemplate.LootGroup.rows (g : LootTemplate.LootGroup templates) : List LootRow :=
  g.explicitlyChanced ++ g.equalChanced

def Matches (p : Processing templates) (row : LootRow) : Prop := row.lootmode &&& p.lootMode ≠ 0

/-- Through references that match the mode, the row is one of a template and matches it too. A
reference to a group leads to that group alone. -/
inductive Offered (p : Processing templates) :
    LootTemplate templates → UInt8 → Option (LootTemplate.LootGroup templates) → LootRow →
      Prop where
  | entry {T : LootTemplate templates} {row : LootRow} (hrow : row ∈ T.entries)
      (hmatch : Matches p row) (hplain : row.reference = 0) : Offered p T 0 none row
  | grouped {T : LootTemplate templates} {g : LootTemplate.LootGroup templates} {row : LootRow}
      (hgroup : some g ∈ T.groups) (hrow : row ∈ g.rows) (hmatch : Matches p row) :
      Offered p T 0 (some g) row
  | group {T : LootTemplate templates} {groupId : UInt8} {g : LootTemplate.LootGroup templates}
      {row : LootRow} (hgroup : (T.groups[groupId.toNat - 1]?).join = some g) (hrow : row ∈ g.rows)
      (hmatch : Matches p row) : Offered p T groupId (some g) row
  | reference {T T' : LootTemplate templates} {ref row : LootRow}
      {rolledBy : Option (LootTemplate.LootGroup templates)} (hrow : ref ∈ T.entries)
      (hmatch : Matches p ref) (href : ref.reference ≠ 0)
      (hreferred : p.references.getLootFor ref.reference = some T')
      (hoffered : Offered p T' ref.groupid rolledBy row) : Offered p T 0 rolledBy row

/-- A call of `AddItem` that a template makes. -/
structure InOrder (p : Processing templates) (T : LootTemplate templates) (groupId : UInt8)
    (d : Drop templates) : Prop where
  offered : Offered p T groupId d.rolledBy d.row
  selected : ∀ g, d.rolledBy = some g → Selectable p d.before g d.row
  drawn : Drawn p d

/-! ## Groups -/

theorem roll_same (p : Processing templates) (g : LootTemplate.LootGroup templates)
    (s : Filling templates) : (p.roll g s).2.loot = s.loot ∧
      (p.roll g s).2.itemIndexes = s.itemIndexes ∧
      (p.roll g s).2.questItemIndexes = s.questItemIndexes ∧ (p.roll g s).2.drops = s.drops := by
  have hfirst : ∃ draws, (p.rollExplicitlyChanced g s).2 = { s with draws := draws } := by
    unfold Processing.rollExplicitlyChanced
    dsimp only
    split
    · exact ⟨s.draws, rfl⟩
    · exact ⟨_, rfl⟩
  have hsecond (s : Filling templates) :
      ∃ draws, (p.rollEqualChanced g s).2 = { s with draws := draws } := by
    unfold Processing.rollEqualChanced
    dsimp only
    split
    · exact ⟨s.draws, rfl⟩
    split
    · exact ⟨_, rfl⟩
    · exact ⟨_, rfl⟩
  unfold Processing.roll
  cases hr : p.rollExplicitlyChanced g s with
  | mk picked s₁ =>
    rw [hr] at hfirst
    obtain ⟨draws, rfl⟩ := hfirst
    cases picked with
    | some row => exact ⟨rfl, rfl, rfl, rfl⟩
    | none =>
      obtain ⟨draws', hdraws'⟩ := hsecond { s with draws := draws }
      grind

/-- **A group drops at most one of its rows**, and one that its roll can select. -/
theorem processGroup_spec (hstack : Stackable templates) (hmax : p.maxDuplicates ≠ 0)
    (g : LootTemplate.LootGroup templates) (s : Filling templates) :
    ((p.processGroup g s).drops = s.drops ∨
        ∃ d, (p.processGroup g s).drops = s.drops ++ [d] ∧ d.rolledBy = some g ∧
          d.before = s.loot ∧ d.row ∈ g.rows) ∧
      Processed p (fun d => d.rolledBy = some g ∧ d.row ∈ g.rows ∧ Matches p d.row ∧
        Selectable p d.before g d.row ∧ Drawn p d) s (p.processGroup g s) := by
  obtain ⟨hloot, hitems, hquest, hdrops⟩ := roll_same p g s
  have hselectable := @selectable_of_roll templates p s g
  unfold Processing.processGroup
  cases hroll : p.roll g s with
  | mk picked s₁ =>
    rw [hroll] at hloot hitems hquest hdrops hselectable
    have hsame (ok : Drop templates → Prop) : Processed p ok s s₁ :=
      Processed.of_same hloot hitems hquest hdrops
    cases picked with
    | none => exact ⟨Or.inl hdrops, hsame _⟩
    | some row =>
      have hsel : Selectable p s.loot g row := hselectable rfl
      obtain ⟨hrow, hmode, -⟩ := hsel.spec hmax
      obtain ⟨hvalid, href⟩ := g.loaded row hrow
      have hcounts := LootRow.counts_of_isValid hvalid href
      dsimp only
      constructor
      · rcases @drops_addItem templates p row (some g) s₁ with hnone | ⟨count, hone⟩
        · exact Or.inl (hnone.trans hdrops)
        · refine Or.inr ⟨⟨s₁.loot, some g, row, count⟩, ?_, rfl, hloot, hrow⟩
          rw [hone]
          exact congrArg (· ++ [_]) hdrops
      · refine (hsame _).trans (addItem_processed hstack hcounts (some g) s₁ fun count hdrawn => ?_)
        refine ⟨rfl, hrow, hmode, ?_, hdrawn⟩
        rw [hloot]
        exact hsel

theorem processGroups_processed (hstack : Stackable templates) (hmax : p.maxDuplicates ≠ 0)
    (groups : List (Option (LootTemplate.LootGroup templates)))
    (hok : ∀ g, some g ∈ groups → ∀ d : Drop templates, d.rolledBy = some g → d.row ∈ g.rows →
      Matches p d.row → Selectable p d.before g d.row → Drawn p d → ok d) :
    ∀ s, Processed p ok s (p.processGroups groups s) := by
  induction groups with
  | nil => exact fun s => Processed.refl s
  | cons group groups ih =>
    intro s
    have hrest := ih fun g hg => hok g (List.mem_cons_of_mem group hg)
    cases group with
    | none => exact hrest s
    | some g =>
      have hfirst := (processGroup_spec hstack hmax g s).2.mono (fun d hd =>
        hok g List.mem_cons_self d hd.1 hd.2.1 hd.2.2.1 hd.2.2.2.1 hd.2.2.2.2)
      exact hfirst.trans (hrest _)

/-! ## Entries -/

theorem rollEntry_same (row : LootRow) (s : Filling templates) :
    Processed p ok s (p.rollEntry row s).2 := by
  unfold Processing.rollEntry
  split
  · exact Processed.refl s
  split
  · exact Processed.of_same rfl rfl rfl rfl
  · exact Processed.of_same rfl rfl rfl rfl

theorem rounds_processed {f : Filling templates → Option (Filling templates)}
    (hf : ∀ s s', f s = some s' → Processed p ok s s') (n : Nat) :
    ∀ s s', Processing.rounds f n s = some s' → Processed p ok s s' := by
  induction n with
  | zero =>
    intro s s' h
    cases h
    exact Processed.refl s
  | succ n ih =>
    intro s s' h
    obtain ⟨s₁, h₁, h⟩ := Option.bind_eq_some_iff.mp h
    exact (hf s s₁ h₁).trans (ih s₁ s' h)

theorem processEntries_processed (hstack : Stackable templates)
    {f : LootTemplate templates → UInt8 → Filling templates → Option (Filling templates)}
    (hf : ∀ T groupId s s', f T groupId s = some s' → Processed p (InOrder p T groupId) s s')
    (rows : List LootRow) (hrows : ∀ row ∈ rows, row ∈ T.entries) :
    ∀ s s', p.processEntries f rows s = some s' → Processed p (InOrder p T 0) s s' := by
  induction rows with
  | nil =>
    intro s s' h
    cases h
    exact Processed.refl s
  | cons row rows ih =>
    intro s s' h
    obtain ⟨s₁, hfirst, hrest⟩ := Option.bind_eq_some_iff.mp h
    have hrow := hrows row List.mem_cons_self
    refine Processed.trans ?_ (ih (fun r hr => hrows r (List.mem_cons_of_mem row hr)) s₁ s' hrest)
    have hrolled : Processed p (InOrder p T 0) s (p.rollEntry row s).2 := rollEntry_same row s
    unfold Processing.processEntry at hfirst
    split at hfirst
    · cases hfirst
      exact Processed.refl s
    next hmatch =>
    split at hfirst
    · cases hfirst
      exact hrolled
    split at hfirst
    · next href =>
      split at hfirst
      · cases hfirst
        exact hrolled
      next referenced hreferred =>
      -- what the referenced template offers, this one offers through the reference
      refine hrolled.trans (rounds_processed (fun t t' ht => ?_) _ _ _ hfirst)
      refine (hf referenced row.groupid t t' ht).mono fun d hd => ?_
      exact ⟨Offered.reference hrow hmatch (UInt32.pos_iff_ne_zero.mp href) hreferred hd.offered,
        hd.selected, hd.drawn⟩
    · next hplain =>
      cases hfirst
      have hzero : row.reference = 0 := by
        by_contra hne
        exact hplain (UInt32.pos_iff_ne_zero.mpr hne)
      have hcounts := LootRow.counts_of_isValid (T.loaded row hrow) hzero
      refine hrolled.trans (addItem_processed hstack hcounts none _ fun count hdrawn => ?_)
      refine ⟨Offered.entry hrow hmatch hzero, fun g hg => ?_, hdrawn⟩
      cases hg

/-- **What `Process` does** is in order, to whatever depth. -/
theorem process_processed (hstack : Stackable templates) (hmax : p.maxDuplicates ≠ 0)
    (depth : Nat) : ∀ T groupId s s', p.process depth T groupId s = some s' →
      Processed p (InOrder p T groupId) s s' := by
  induction depth with
  | zero =>
    intro T groupId s s' h
    cases h
  | succ depth ih =>
    intro T groupId s s' h
    rw [Processing.process] at h
    split at h
    · split at h
      · cases h
        exact Processed.refl s
      · next g hgroup =>
        cases h
        refine (processGroup_spec hstack hmax g s).2.mono fun d hd => ?_
        obtain ⟨hby, hrow, hmatch, hsel, hdrawn⟩ := hd
        refine ⟨?_, fun g' hg' => ?_, hdrawn⟩
        · rw [hby]
          exact Offered.group hgroup hrow hmatch
        · cases hby.symm.trans hg'
          exact hsel
    · next hgroupId =>
      rw [not_not] at hgroupId
      subst hgroupId
      obtain ⟨s₁, hentries, rfl⟩ := Option.map_eq_some_iff.mp h
      refine (processEntries_processed hstack ih T.entries (fun _ hr => hr) s s₁ hentries).trans ?_
      apply processGroups_processed hstack hmax T.groups
      intro g hg d hby hrow hmatch hsel hdrawn
      refine ⟨?_, fun g' hg' => ?_, hdrawn⟩
      · rw [hby]
        exact Offered.grouped hg hrow hmatch
      · cases hby.symm.trans hg'
        exact hsel

/-! ## Termination -/

/-- A template of the store refers to another one of it. -/
def Refers (store : LootStore templates) (a b : UInt32) : Prop :=
  ∃ T, store.getLootFor a = some T ∧ ∃ row ∈ T.entries, row.reference ≠ 0 ∧ row.reference = b ∧
    (store.getLootFor b).isSome = true

def Acyclic (store : LootStore templates) : Prop := ∀ a, ¬Relation.TransGen (Refers store) a a

theorem wellFounded_refers {store : LootStore templates} (h : Acyclic store) :
    WellFounded fun b a => Refers store a b := by
  have : Finite UInt32 := Finite.of_injective UInt32.toFin fun a b hab => UInt32.toFin_inj.mp hab
  have : IsTrans UInt32 fun b a => Relation.TransGen (Refers store) a b :=
    ⟨fun _ _ _ hab hbc => Relation.TransGen.trans hbc hab⟩
  have : Std.Irrefl fun b a : UInt32 => Relation.TransGen (Refers store) a b := ⟨h⟩
  have hwf := Finite.wellFounded_of_trans_of_irrefl fun b a => Relation.TransGen (Refers store) a b
  exact Subrelation.wf (fun hr => Relation.TransGen.single hr) hwf

/-- From some depth on `Process` of the template returns, whatever is rolled. -/
def Ends (p : Processing templates) (T : LootTemplate templates) : Prop :=
  ∃ bound, ∀ depth, bound ≤ depth → ∀ groupId s, ∃ s', p.process depth T groupId s = some s'

theorem exists_rounds {f : Filling templates → Option (Filling templates)}
    (hf : ∀ s, ∃ s', f s = some s') (n : Nat) : ∀ s, ∃ s', Processing.rounds f n s = some s' := by
  induction n with
  | zero => exact fun s => ⟨s, rfl⟩
  | succ n ih =>
    intro s
    obtain ⟨s₁, h₁⟩ := hf s
    obtain ⟨s', h'⟩ := ih s₁
    exact ⟨s', by rw [Processing.rounds, h₁, Option.bind_some, h']⟩

/-- The rows that a loop goes over lead only to templates that end at a depth. -/
def LeadsTo (p : Processing templates) (depth : Nat) (row : LootRow) : Prop :=
  row.reference ≠ 0 → ∀ T, p.references.getLootFor row.reference = some T → ∀ groupId s,
    ∃ s', p.process depth T groupId s = some s'

theorem exists_processEntries {depth : Nat} (rows : List LootRow)
    (hrows : ∀ row ∈ rows, LeadsTo p depth row) :
    ∀ s, ∃ s', p.processEntries (p.process depth) rows s = some s' := by
  induction rows with
  | nil => exact fun s => ⟨s, rfl⟩
  | cons row rows ih =>
    intro s
    have hone : ∃ s₁, p.processEntry (p.process depth) row s = some s₁ := by
      unfold Processing.processEntry
      split
      · exact ⟨_, rfl⟩
      split
      · exact ⟨_, rfl⟩
      split
      · next href =>
        split
        · exact ⟨_, rfl⟩
        · next referenced hreferred =>
          have hends := hrows row List.mem_cons_self (UInt32.pos_iff_ne_zero.mp href) referenced
            hreferred row.groupid
          exact exists_rounds hends _ _
      · exact ⟨_, rfl⟩
    obtain ⟨s₁, h₁⟩ := hone
    obtain ⟨s', h'⟩ := ih (fun r hr => hrows r (List.mem_cons_of_mem row hr)) s₁
    exact ⟨s', by rw [Processing.processEntries, h₁, Option.bind_some, h']⟩

theorem exists_leadsTo (rows : List LootRow)
    (hrows : ∀ row ∈ rows, row.reference ≠ 0 →
      ∀ T, p.references.getLootFor row.reference = some T → Ends p T) :
    ∃ bound, ∀ depth, bound ≤ depth → ∀ row ∈ rows, LeadsTo p depth row := by
  induction rows with
  | nil => exact ⟨0, fun _ _ row hrow => absurd hrow List.not_mem_nil⟩
  | cons row rows ih =>
    obtain ⟨bound, hbound⟩ := ih fun r hr => hrows r (List.mem_cons_of_mem row hr)
    have hone : ∃ bound', ∀ depth, bound' ≤ depth → LeadsTo p depth row := by
      by_cases href : row.reference = 0
      · exact ⟨0, fun _ _ hne => absurd href hne⟩
      cases hreferred : p.references.getLootFor row.reference with
      | none =>
        refine ⟨0, fun depth _ _ T hT => ?_⟩
        rw [hreferred] at hT
        cases hT
      | some referenced =>
        obtain ⟨bound', hends⟩ := hrows row List.mem_cons_self href referenced hreferred
        refine ⟨bound', fun depth hdepth _ T hT => ?_⟩
        rw [hreferred] at hT
        cases hT
        exact hends depth hdepth
    obtain ⟨bound', hone⟩ := hone
    refine ⟨max bound bound', fun depth hdepth => List.forall_mem_cons.mpr ⟨?_, ?_⟩⟩
    · exact hone depth (le_trans (le_max_right _ _) hdepth)
    · exact hbound depth (le_trans (le_max_left _ _) hdepth)

theorem ends_of_references
    (hrows : ∀ row ∈ T.entries, row.reference ≠ 0 →
      ∀ T', p.references.getLootFor row.reference = some T' → Ends p T') : Ends p T := by
  obtain ⟨bound, hbound⟩ := exists_leadsTo T.entries hrows
  refine ⟨bound + 1, fun depth hdepth groupId s => ?_⟩
  obtain ⟨depth, rfl⟩ := Nat.exists_eq_add_of_le' (Nat.le_trans (Nat.le_add_left 1 bound) hdepth)
  rw [Processing.process]
  split
  · split
    · exact ⟨_, rfl⟩
    · exact ⟨_, rfl⟩
  · obtain ⟨s₁, h₁⟩ := exists_processEntries T.entries
      (hbound depth (Nat.le_of_succ_le_succ hdepth)) s
    rw [h₁]
    exact ⟨_, rfl⟩

/-- **Termination**: by induction on the references, of which there is no infinite chain. -/
theorem ends_of_acyclic (h : Acyclic p.references) (T : LootTemplate templates) : Ends p T := by
  have hstore : ∀ a T', p.references.getLootFor a = some T' → Ends p T' := by
    intro a
    induction a using (wellFounded_refers h).induction with
    | _ a ih =>
      intro T' hT'
      apply ends_of_references
      intro row hrow href referenced hreferred
      refine ih row.reference ⟨T', hT', row, hrow, href, rfl, ?_⟩ referenced hreferred
      rw [hreferred]
      rfl
  exact ends_of_references fun row _ _ T' hT' => hstore row.reference T' hT'

/-! ## More depth -/

theorem rounds_mono {f f' : Filling templates → Option (Filling templates)}
    (hf : ∀ s s', f s = some s' → f' s = some s') (n : Nat) :
    ∀ s s', Processing.rounds f n s = some s' → Processing.rounds f' n s = some s' := by
  induction n with
  | zero => exact fun _ _ h => h
  | succ n ih =>
    intro s s' h
    obtain ⟨s₁, h₁, h⟩ := Option.bind_eq_some_iff.mp h
    rw [Processing.rounds, hf s s₁ h₁, Option.bind_some]
    exact ih s₁ s' h

theorem processEntries_mono
    {f f' : LootTemplate templates → UInt8 → Filling templates → Option (Filling templates)}
    (hf : ∀ T groupId s s', f T groupId s = some s' → f' T groupId s = some s')
    (rows : List LootRow) :
    ∀ s s', p.processEntries f rows s = some s' → p.processEntries f' rows s = some s' := by
  induction rows with
  | nil => exact fun _ _ h => h
  | cons row rows ih =>
    intro s s' h
    obtain ⟨s₁, h₁, h⟩ := Option.bind_eq_some_iff.mp h
    have hone : p.processEntry f' row s = some s₁ := by
      unfold Processing.processEntry at h₁ ⊢
      split at h₁
      · next hmode => rw [if_pos hmode, h₁]
      · next hmode =>
        rw [if_neg hmode]
        split at h₁
        · next hroll => rw [if_pos hroll, h₁]
        · next hroll =>
          rw [if_neg hroll]
          split at h₁
          · next href =>
            rw [if_pos href]
            grind [rounds_mono]
          · next href => rw [if_neg href, h₁]
    rw [Processing.processEntries, hone, Option.bind_some]
    exact ih s₁ s' h

theorem process_mono (depth : Nat) : ∀ T groupId s s', p.process depth T groupId s = some s' →
    p.process (depth + 1) T groupId s = some s' := by
  induction depth with
  | zero =>
    intro T groupId s s' h
    cases h
  | succ depth ih =>
    intro T groupId s s' h
    rw [Processing.process] at h ⊢
    split
    · next hgroup =>
      rw [if_pos hgroup] at h
      exact h
    · next hgroup =>
      rw [if_neg hgroup] at h
      obtain ⟨s₁, hentries, rfl⟩ := Option.map_eq_some_iff.mp h
      rw [processEntries_mono ih T.entries s s₁ hentries, Option.map_some]

/-- `Process` returns, with one result from some depth on. -/
theorem exists_process (h : Acyclic p.references) (T : LootTemplate templates) (groupId : UInt8)
    (s : Filling templates) :
    ∃ s' bound, ∀ depth, bound ≤ depth → p.process depth T groupId s = some s' := by
  obtain ⟨bound, hends⟩ := @ends_of_acyclic templates p h T
  obtain ⟨s', hs'⟩ := hends bound (le_refl _) groupId s
  refine ⟨s', bound, fun depth hdepth => ?_⟩
  induction depth, hdepth using Nat.le_induction with
  | base => exact hs'
  | succ depth _ ih => exact process_mono depth T groupId s s' ih

/-! ## The caps -/

/-- No row that the group can select has more entries among the quest items than the cap and
`items` leave it. -/
def Spared (p : Processing templates) (L : Loot) (g : LootTemplate.LootGroup templates) : Prop :=
  ∀ row, Selectable p L g row → entriesIn row.itemid L.quest_items <
    p.maxDuplicates.toNat - entriesIn row.itemid L.items

theorem Spared.entries_lt {L : Loot} (h : Spared p L g) (hsel : Selectable p L g row) :
    L.entries row.itemid < p.maxDuplicates.toNat := by
  have hlt := h row hsel
  unfold Loot.entries
  omega

/-- **The cap on duplicates**, of a roll. -/
theorem roll_capped_iff (p : Processing templates) (g : LootTemplate.LootGroup templates)
    (s : Filling templates) :
    (∀ draws row, (p.roll g { s with draws := draws }).1 = some row →
        s.loot.entries row.itemid < p.maxDuplicates.toNat) ↔ Spared p s.loot g := by
  constructor
  · intro hall row hsel
    grind [Loot.entries, exists_roll]
  · intro hspared draws row hroll
    have hsel := @selectable_of_roll templates p { s with draws := draws } g row hroll
    exact hspared.entries_lt hsel

/-- **Processing respects its caps**, but for duplicates among the quest items. -/
theorem process_caps (hstack : Stackable templates) (p : Processing templates)
    (hmax : p.maxDuplicates ≠ 0) (hacyclic : Acyclic p.references) (T : LootTemplate templates)
    (groupId : UInt8) (s : Filling templates) (hcapped : Capped s) :
    (∃ s' bound, (∀ depth, bound ≤ depth → p.process depth T groupId s = some s') ∧ Capped s' ∧
      ∃ new, s'.drops = s.drops ++ new ∧ Calls p s.loot new s'.loot ∧
        ∀ d ∈ new, InOrder p T groupId d ∧
          ∀ g, d.rolledBy = some g → Spared p d.before g →
            d.before.entries d.row.itemid < p.maxDuplicates.toNat) ∧
      (∀ g (s : Filling templates), (p.processGroup g s).drops = s.drops ∨
        ∃ d, (p.processGroup g s).drops = s.drops ++ [d] ∧ d.rolledBy = some g ∧
          d.before = s.loot ∧ d.row ∈ g.rows) ∧
      ∀ g (s : Filling templates), (∀ draws row, (p.roll g { s with draws := draws }).1 = some row →
        s.loot.entries row.itemid < p.maxDuplicates.toNat) ↔ Spared p s.loot g := by
  refine ⟨?_, fun g s => (processGroup_spec hstack hmax g s).1, fun g s => roll_capped_iff p g s⟩
  obtain ⟨s', bound, hprocess⟩ := exists_process hacyclic T groupId s
  obtain ⟨hcaps, new, hdrops, hcalls, hok⟩ :=
    process_processed hstack hmax bound T groupId s s' (hprocess bound (le_refl _))
  refine ⟨s', bound, hprocess, hcaps hcapped, new, hdrops, hcalls, fun d hd => ?_⟩
  exact ⟨hok d hd, fun g hg hspared => hspared.entries_lt ((hok d hd).selected g hg)⟩

/-! ## A quest item twice -/

/-- One item, which does not stack. -/
def oneItem : Templates := fun itemid => if itemid = 1 then some {} else none

def questRow (groupid : UInt8) : LootRow where
  itemid := 1
  needs_quest := true
  groupid := groupid

/-- Two groups, each of the quest item alone. -/
def questTemplate : LootTemplate oneItem :=
  (LootTemplate.empty.addEntry (questRow 1) (by decide)).addEntry (questRow 2) (by decide)

def plainProcessing : Processing oneItem where
  references := ∅
  owner := none
  group := none
  maxDuplicates := 1
  isInstanceLoot := false
  lootMode := 1
  rate := true
  rateReferenced := 1
  qualityToRate _ := 1
  referencedAmount maxcount := maxcount.toNat

/-- A loot with nothing in it yet. -/
def freshFilling : Filling oneItem where
  loot := {}
  itemIndexes := []
  questItemIndexes := []
  draws _ := { chance := 0, number := 0, chance_nonneg := le_refl _, chance_le := by norm_num }
  drops := []

theorem stackable_oneItem : Stackable oneItem := by
  intro itemid proto hproto
  unfold oneItem at hproto
  split at hproto
  · cases hproto
    exact Nat.one_pos
  · cases hproto

theorem freshFilling_capped : Capped freshFilling := ⟨by decide, by decide, rfl, rfl⟩

theorem acyclic_empty : Acyclic (∅ : LootStore oneItem) := by
  intro a h
  obtain ⟨b, hrefers, -⟩ := Relation.TransGen.head'_iff.mp h
  obtain ⟨T, hget, -⟩ := hrefers
  cases hget

theorem process_caps_fresh :
    ∃ s' bound, (∀ depth, bound ≤ depth →
      plainProcessing.process depth questTemplate 0 freshFilling = some s') ∧ Capped s' := by
  obtain ⟨⟨s', bound, hprocess, hcapped, -⟩, -⟩ := process_caps stackable_oneItem plainProcessing
    (by decide) acyclic_empty questTemplate 0 freshFilling freshFilling_capped
  exact ⟨s', bound, hprocess, hcapped⟩

/-- What the calls of `AddItem` find for their items. -/
def foundEntries (s : Filling oneItem) : List (Bool × Nat) :=
  s.drops.map fun d => (d.rolledBy.isSome, d.before.entries d.row.itemid)

/-- The second group adds the quest item that the first has added. -/
theorem quest_item_twice : ¬∀ (p : Processing oneItem) (T : LootTemplate oneItem)
    (s s' : Filling oneItem) (depth : Nat), p.maxDuplicates ≠ 0 → Acyclic p.references →
      Capped s → s.drops = [] → p.process depth T 0 s = some s' →
      ∀ d ∈ s'.drops, ∀ g, d.rolledBy = some g →
        d.before.entries d.row.itemid < p.maxDuplicates.toNat := by
  intro hall
  have hfound : (plainProcessing.process 1 questTemplate 0 freshFilling).map foundEntries =
      some [(true, 0), (true, 1)] := by decide +kernel
  obtain ⟨s', hprocess, hdrops⟩ := Option.map_eq_some_iff.mp hfound
  have hmem : (true, 1) ∈ foundEntries s' := by
    rw [hdrops]
    decide
  obtain ⟨d, hd, heq⟩ := List.mem_map.mp hmem
  rw [Prod.mk.injEq] at heq
  obtain ⟨g, hg⟩ := Option.isSome_iff_exists.mp heq.1
  have hlt := hall plainProcessing questTemplate freshFilling s' 1 (by decide) acyclic_empty
    freshFilling_capped rfl hprocess d hd g hg
  rw [heq.2] at hlt
  exact absurd hlt (by decide)

end EGServer.Looting
