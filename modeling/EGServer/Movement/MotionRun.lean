import EGServer.Movement.AddSpec

/-!
# What a call does

A call that is delayed only adds to the queue (`Queued`); one that is not works on the container at
once and leaves it whole (`Direct`). Both leave the state of the operation that they are made in
(`Frame`).
-/

namespace EGServer.Movement

open SortedMap (Sorted lowerBound)

namespace MotionMaster

variable {p q r : MotionMaster} {hand dying fresh regs : List Address} {g m : Address}
  {action : DelayedAction} {slot : MovementSlot} {ok : Bool}

/-- The state of the outer operation. -/
structure Frame (p q : MotionMaster) : Prop where
  phase : q.phase = p.phase
  updateInProgress : q.updateInProgress = p.updateInProgress
  initializationPending : q.initializationPending = p.initializationPending
  initializing : q.initializing = p.initializing

theorem Frame.refl (p : MotionMaster) : Frame p p := ⟨rfl, rfl, rfl, rfl⟩

theorem Frame.trans (h : Frame p q) (h' : Frame q r) : Frame p r where
  phase := h'.phase.trans h.phase
  updateInProgress := h'.updateInProgress.trans h.updateInProgress
  initializationPending := h'.initializationPending.trans h.initializationPending
  initializing := h'.initializing.trans h.initializing

theorem Frame.isDelayed (h : Frame p q) : q.isDelayed = p.isDelayed := by
  rw [MotionMaster.isDelayed, MotionMaster.isDelayed, h.updateInProgress, h.initializationPending]

theorem Invariant.congr (h : Invariant fresh hand dying regs p) (hheap : q.heap = p.heap)
    (hnext : q.next = p.next) (hdefault : q.defaultGenerator = p.defaultGenerator)
    (hgen : q.generators = p.generators) (hmap : q.baseUnitStatesMap = p.baseUnitStatesMap)
    (hpending : q.pendingAdds = p.pendingAdds) : Invariant fresh hand dying regs q := by
  have hholds : ∀ g, q.holds g = p.holds g := by
    intro g
    rw [holds, holds, activeGenerators, hpending, hdefault, hgen]
    rfl
  have hactive : q.activeGenerators = p.activeGenerators := by
    rw [activeGenerators, activeGenerators, hgen]
  have hcurrent : q.currentMovementGenerator = p.currentMovementGenerator := by
    rw [currentMovementGenerator, currentMovementGenerator, hgen, hdefault]
  refine ⟨h.filed.congr hgen fun g => by rw [hheap], ?_, ?_, ?_⟩
  · exact h.accounted.pass hheap hnext (fun _ => rfl) fun g _ => by rw [hholds]
  · exact h.registered.congr hmap fun g => by rw [hheap]
  · constructor
    · rw [hheap]
      exact h.calm.kind
    · rw [hheap]
      exact h.calm.pending
    · rw [hheap]
      exact h.calm.deactivated
    · intro g hg
      rw [hpending] at hg
      rw [hheap]
      exact h.calm.fresh g hg
    · intro g hg
      rw [hdefault, hactive] at hg
      rw [hheap, hcurrent]
      exact h.calm.rest g hg

/-! ## The queue -/

theorem pendingAdds_delay (p : MotionMaster) (action : DelayedAction) :
    (p.delay action).pendingAdds = p.pendingAdds ++ action.added.toList := by
  show (p.delayedActions ++ [action]).filterMap DelayedAction.added = _
  rw [List.filterMap_append]
  show _ ++ List.filterMap DelayedAction.added [action] = p.pendingAdds ++ _
  cases hadded : action.added with
  | none =>
    rw [List.filterMap_cons_none hadded]
    rfl
  | some g =>
    rw [List.filterMap_cons_some hadded]
    rfl

theorem Invariant.delay (h : Invariant fresh hand dying regs p) (hnone : action.added = none) :
    Invariant fresh hand dying regs (p.delay action) := by
  refine h.congr (q := p.delay action) rfl rfl rfl rfl rfl ?_
  rw [pendingAdds_delay, hnone, Option.toList_none, List.append_nil]

theorem Invariant.delayAdd (h : Invariant (m :: fresh) hand dying regs p) :
    Invariant fresh hand dying regs (p.delay (.add m slot)) := by
  have hpending : (p.delay (.add m slot)).pendingAdds = p.pendingAdds ++ [m] :=
    pendingAdds_delay p (.add m slot)
  refine ⟨h.filed.congr rfl fun _ => rfl, ?_, h.registered.congr rfl fun _ => rfl, ?_⟩
  · refine h.accounted.pass rfl rfl (fun _ => rfl) ?_
    intro x _
    rw [holds, holds, hpending, List.cons_append, List.count_cons, List.count_append,
      List.count_append, List.count_cons, List.count_nil]
    show _ + (_ + _ + p.defaultGenerator.toList.count x + p.activeGenerators.count x) = _
    omega
  · refine ⟨h.calm.kind, h.calm.pending, h.calm.deactivated, ?_, h.calm.rest⟩
    intro x hx
    apply h.calm.fresh x
    grind

theorem Invariant.takeAction {rest : List DelayedAction} (h : Invariant fresh hand dying regs p)
    (hqueue : p.delayedActions = action :: rest) :
    Invariant (action.added.toList ++ fresh) hand dying regs { p with delayedActions := rest } := by
  have hpending : p.pendingAdds =
      action.added.toList ++ pendingAdds { p with delayedActions := rest } := by
    grind [pendingAdds]
  refine ⟨h.filed.congr rfl fun _ => rfl, ?_, h.registered.congr rfl fun _ => rfl, ?_⟩
  · refine h.accounted.pass rfl rfl (fun _ => rfl) ?_
    intro x _
    rw [holds, holds, hpending]
    simp only [List.count_append]
    show _ + (_ + p.defaultGenerator.toList.count x + p.activeGenerators.count x) = _
    omega
  · refine ⟨h.calm.kind, h.calm.pending, h.calm.deactivated, ?_, h.calm.rest⟩
    intro x hx
    apply h.calm.fresh x
    grind

/-- No action of the queue adds to an invalid slot. -/
def SlotsValid (p : MotionMaster) : Prop := ∀ m, DelayedAction.add m .max ∉ p.delayedActions

theorem SlotsValid.delay (h : p.SlotsValid) (haction : ∀ m, action ≠ .add m .max) :
    (p.delay action).SlotsValid := by
  intro m hm
  rcases List.mem_append.mp hm with hm | hm
  · exact h m hm
  · exact haction m (List.mem_singleton.mp hm).symm

/-! ## Delayed calls -/

/-- A call that is delayed: the container stays what it is. -/
structure Queued (dying regs : List Address) (p q : MotionMaster) : Prop where
  frame : Frame p q
  generators : q.generators = p.generators
  defaultGenerator : q.defaultGenerator = p.defaultGenerator
  inv : Invariant [] [] dying regs q
  slots : q.SlotsValid

theorem Queued.refl (h : Invariant [] [] dying regs p) (hslots : p.SlotsValid) :
    Queued dying regs p p :=
  ⟨Frame.refl p, rfl, rfl, h, hslots⟩

theorem Queued.delay (h : Invariant [] [] dying regs p) (hslots : p.SlotsValid)
    (hnone : action.added = none) : Queued dying regs p (p.delay action) := by
  refine ⟨⟨rfl, rfl, rfl, rfl⟩, rfl, rfl, h.delay hnone, hslots.delay ?_⟩
  intro m hm
  rw [hm] at hnone
  cases hnone

/-! ## Adding a generator -/

theorem Invariant.ne_idle_of_pending (h : Invariant fresh hand dying regs p)
    (hpending : (p.heap m).initializationPending = true) : m ≠ idleGenerator := by
  intro hidle
  rw [hidle, h.calm.pending] at hpending
  cases hpending

/-- `Add` initializes an immediate generator before it takes it. -/
theorem Invariant.initializeImmediate (h : Invariant (m :: fresh) hand dying regs p)
    (himm : (p.heap m).immediate = true) (hm : m ≠ idleGenerator) :
    ∃ e, p.initializeHook m = some (p.after e) ∧
      Invariant (m :: fresh) hand dying regs (p.after e) := by
  have himm' : (p.heap m).onInitialize.immediate = true := himm
  refine ⟨⟨Function.update p.heap m (p.heap m).onInitialize, p.baseUnitStatesMap, p.unitState⟩,
    ?_, ?_⟩
  · rw [MotionMaster.initializeHook, modify_of_deletes h.deletes_of_fresh, setGenerator_eq_after]
  · rw [← setGenerator_eq_after]
    refine ⟨h.filed.setGenerator rfl, ?_, h.registered.setGenerator rfl, ?_⟩
    · apply h.accounted.setGenerator
      · intro hidle
        exact absurd hidle hm
      · intro _
        rfl
      · exact h.accounted.finals m
      · intro x _
        rfl
      · intro x _
        rfl
    · refine h.calm.setGenerator (a := (p.heap m).onInitialize) rfl ?_ ?_ ?_
      · intro hidle
        exact absurd hidle hm
      · intro _ _ hfalse
        rw [himm'] at hfalse
        cases hfalse
      · intro _ _ hfalse
        rw [himm'] at hfalse
        cases hfalse

/-- **The first half of `Add`**: the generator is refused, or it goes on to the queue or the
container. -/
theorem Invariant.add (h : Invariant (m :: fresh) hand dying regs p)
    (hm : slot = .max → m ≠ idleGenerator) :
    (∃ e, p.add m slot ok = some (p.after e) ∧ Invariant fresh hand dying regs (p.after e)) ∨
    slot ≠ .max ∧ ∃ e, p.add m slot ok = (p.after e).file m slot ∧
      Invariant (m :: fresh) hand dying regs (p.after e) := by
  rw [MotionMaster.add]
  by_cases hslot : slot = .max
  · subst hslot
    rw [if_pos (by rfl)]
    exact Or.inl (h.refuse (hm rfl))
  · rw [if_neg (by simp [isInvalidMovementSlot, hslot]), read_of_deletes h.deletes_of_fresh]
    rw [Option.bind_eq_bind, Option.bind_some]
    by_cases hfirst : ((p.heap m).immediate && (p.heap m).initializationPending) = true
    · rw [if_pos hfirst]
      rw [Bool.and_eq_true] at hfirst
      have hne := h.ne_idle_of_pending hfirst.2
      by_cases htop : p.wouldBecomeTop (p.heap m).key = true
      · rw [if_pos htop]
        obtain ⟨e, he, h₁⟩ := h.initializeImmediate hfirst.1 hne
        rw [he, Option.bind_eq_bind, Option.bind_some]
        cases ok with
        | true => exact Or.inr ⟨hslot, e, rfl, h₁⟩
        | false =>
          obtain ⟨e', he', h₂⟩ := h₁.refuse hne
          exact Or.inl ⟨e', he', h₂⟩
      · rw [if_neg htop]
        exact Or.inl (h.refuse hne)
    · rw [if_neg hfirst]
      exact Or.inr ⟨hslot, p.effects, rfl, h⟩

/-- `Add`, delayed. -/
theorem Invariant.add_queued (h : Invariant [m] [] dying regs p) (hslots : p.SlotsValid)
    (hm : slot = .max → m ≠ idleGenerator) (hdelayed : p.isDelayed = true) :
    ∃ q, p.add m slot ok = some q ∧ Queued dying regs p q := by
  obtain ⟨e, he, h₁⟩ | ⟨hslot, e, he, h₁⟩ := @add _ _ _ _ _ _ slot ok h hm
  · exact ⟨p.after e, he, ⟨rfl, rfl, rfl, rfl⟩, rfl, rfl, h₁, hslots⟩
  · refine ⟨(p.after e).delay (.add m slot), ?_, ⟨rfl, rfl, rfl, rfl⟩, rfl, rfl, h₁.delayAdd, ?_⟩
    · rw [he, file]
      exact if_pos hdelayed
    · apply SlotsValid.delay (p := p.after e) hslots
      intro x hx
      cases hx
      exact hslot rfl

/-! ## A new generator -/

theorem heap_create_of_ne {kind : MovementKind} (hg : g ≠ p.next) :
    (p.create kind).heap g = p.heap g :=
  Function.update_of_ne hg _ _

theorem heap_create_self (kind : MovementKind) : (p.create kind).heap p.next = kind.create :=
  Function.update_self ..

theorem Invariant.next_unowned (h : Invariant fresh hand dying regs p) :
    (fresh ++ hand).count p.next = 0 ∧ dying.count p.next = 0 ∧ p.holds p.next = 0 := by
  have hne : p.next ≠ idleGenerator := Nat.ne_of_gt h.accounted.next_pos
  have haccount := h.accounted.account p.next hne
  rw [if_neg (Nat.lt_irrefl _)] at haccount
  omega

theorem Invariant.create (h : Invariant fresh hand dying regs p) (kind : MovementKind)
    (hregs : p.next ∉ regs) : Invariant (p.next :: fresh) hand dying regs (p.create kind) := by
  have hne : p.next ≠ idleGenerator := Nat.ne_of_gt h.accounted.next_pos
  obtain ⟨hhand, hdying, hholds⟩ := h.next_unowned
  have hactive : ∀ g ∈ p.activeGenerators, g ≠ p.next := by
    rintro g hg rfl
    have hpos := holds_of_active hg
    omega
  constructor
  · refine ⟨h.filed.sorted, ?_⟩
    intro node hnode
    obtain ⟨g, hg, hkey⟩ := h.filed.single node hnode
    refine ⟨g, hg, ?_⟩
    rw [heap_create_of_ne]
    · exact hkey
    · apply hactive
      exact List.mem_flatMap.mpr ⟨node, hnode, by rw [hg]; exact List.mem_singleton_self g⟩
  · constructor
    · intro g hg
      have haccount := h.accounted.account g hg
      show ((p.create kind).heap g).deletes + (_ + _ + p.holds g) = if g < p.next + 1 then 1 else 0
      by_cases hgn : g = p.next
      · subst hgn
        rw [heap_create_self, List.cons_append, List.count_cons_self, hhand, hdying, hholds,
          if_pos (Nat.lt_succ_self _)]
        rfl
      · have hlt : g < p.next + 1 ↔ g < p.next :=
          ⟨fun h => Nat.lt_of_le_of_ne (Nat.le_of_lt_succ h) hgn, Nat.lt_succ_of_lt⟩
        rw [heap_create_of_ne hgn, List.cons_append, List.count_cons_of_ne (Ne.symm hgn), haccount]
        simp only [hlt]
    · intro g hg
      by_cases hgn : g = p.next
      · subst hgn
        rw [heap_create_self, hdying]
        rfl
      · rw [heap_create_of_ne hgn]
        exact h.accounted.finals g hg
    · rw [heap_create_of_ne (Ne.symm hne)]
      exact h.accounted.idle
    · exact Nat.lt_succ_of_lt h.accounted.next_pos
  · show p.baseUnitStatesMap.Perm (unitStatesOf (p.create kind).heap regs)
    have hmap : unitStatesOf (p.create kind).heap regs = unitStatesOf p.heap regs := by
      have hregs' : ∀ g ∈ regs, (p.create kind).heap g = p.heap g := by
        intro g hg
        apply heap_create_of_ne
        rintro rfl
        exact hregs hg
      grind [List.map_congr_left, List.filter_congr, unitStatesOf]
    rw [hmap]
    exact h.registered
  · constructor
    · rw [heap_create_of_ne (Ne.symm hne)]
      exact h.calm.kind
    · rw [heap_create_of_ne (Ne.symm hne)]
      exact h.calm.pending
    · rw [heap_create_of_ne (Ne.symm hne)]
      exact h.calm.deactivated
    · intro g hg hidle
      by_cases hgn : g = p.next
      · subst hgn
        rw [heap_create_self]
        intro _
        rfl
      · rw [heap_create_of_ne hgn]
        apply h.calm.fresh g _ hidle
        exact hg.imp_left fun hmem => (List.mem_cons.mp hmem).resolve_left hgn
    · intro g hg hidle
      have hgn : g ≠ p.next := by
        rintro rfl
        have hpos : 0 < p.holds p.next := hg.elim holds_of_default holds_of_active
        omega
      rw [heap_create_of_ne hgn]
      exact h.calm.rest g hg hidle

/-! ## Calls that are not delayed -/

/-- The container is whole. -/
structure Whole (p : MotionMaster) : Prop where
  inv : Invariant [] [] [] p.activeGenerators p
  default : p.defaultGenerator.isSome = true

/-- A call that is not delayed: the container is whole afterwards, and the queue stays. -/
structure Direct (p q : MotionMaster) : Prop where
  frame : Frame p q
  whole : Whole q
  queue : q.delayedActions = p.delayedActions

theorem Direct.refl (h : Whole p) : Direct p p := ⟨Frame.refl p, h, rfl⟩

theorem Whole.next_notMem (h : Invariant [] [] [] p.activeGenerators p) :
    p.next ∉ p.activeGenerators := by
  intro hmem
  have hpos := holds_of_active hmem
  have hzero := h.next_unowned.2.2
  omega

theorem Whole.directClearDefault (h : Whole p) :
    ∃ q, p.directClearDefault = some q ∧ Direct p q := by
  obtain ⟨e, d, b, he, hinv, hsome⟩ := h.inv.directClearDefault
  exact ⟨_, he, ⟨rfl, rfl, rfl, rfl⟩, ⟨hinv, hsome h.default⟩, rfl⟩

theorem Whole.directClear (h : Whole p) : ∃ q, p.directClear = some q ∧ Direct p q := by
  obtain ⟨e, he, hinv⟩ := h.inv.directClear
  exact ⟨_, he, ⟨rfl, rfl, rfl, rfl⟩, ⟨hinv, h.default⟩, rfl⟩

theorem Whole.directClearFilter (h : Whole p) (filter : Address → MovementGenerator → Bool) :
    ∃ q, p.directClearFilter filter = some q ∧ Direct p q := by
  obtain ⟨e, l, he, hinv⟩ := @Invariant.directClearFilter _ _ _ _ filter h.inv
  exact ⟨_, he, ⟨rfl, rfl, rfl, rfl⟩, ⟨hinv, h.default⟩, rfl⟩

theorem Whole.removeGenerator (h : Whole p) {node : (Nat × Nat) × List Address}
    (hnode : node ∈ p.generators) (hg : g ∈ node.2) :
    ∃ q, p.removeGenerator node.1 g = some q ∧ Direct p q := by
  obtain ⟨x, before, rest, hx, hgen⟩ := h.inv.split hnode
  rw [hx] at hg
  obtain rfl := List.mem_singleton.mp hg
  obtain ⟨e, he, hinv⟩ := h.inv.removeGenerator hgen
  exact ⟨_, he, ⟨rfl, rfl, rfl, rfl⟩, ⟨hinv, h.default⟩, rfl⟩

/-- `Add`, not delayed. -/
theorem Invariant.add_direct (h : Invariant [m] [] [] p.activeGenerators p)
    (hdefault : slot ≠ .default → p.defaultGenerator.isSome = true)
    (hm : slot = .max → m ≠ idleGenerator) (hdelayed : p.isDelayed = false) :
    ∃ q, p.add m slot ok = some q ∧ Frame p q ∧ Invariant [] [] [] q.activeGenerators q ∧
      (p.defaultGenerator.isSome = true → q.defaultGenerator.isSome = true) ∧
      q.delayedActions = p.delayedActions := by
  obtain ⟨e, he, h₁⟩ | ⟨hslot, e, he, h₁⟩ := @add _ _ _ _ _ _ slot ok h hm
  · exact ⟨p.after e, he, ⟨rfl, rfl, rfl, rfl⟩, h₁, id, rfl⟩
  · have hfile : (p.after e).file m slot = (p.after e).directAdd m slot := by
      rw [file]
      apply if_neg
      show ¬p.isDelayed = true
      rw [hdelayed]
      exact Bool.false_ne_true
    rw [he, hfile]
    cases slot with
    | default =>
      obtain ⟨e', b, he', h₂⟩ := h₁.directAddDefault
      exact ⟨_, he', ⟨rfl, rfl, rfl, rfl⟩, h₂, fun _ => rfl, rfl⟩
    | active =>
      obtain ⟨e', l, he', h₂⟩ :=
        Invariant.directAddActive (p := p.after e) h₁ (hdefault (by decide))
      exact ⟨_, he', ⟨rfl, rfl, rfl, rfl⟩, h₂, id, rfl⟩
    | max => exact absurd rfl hslot

theorem Invariant.addDefault_direct (h : Invariant [m] [] [] p.activeGenerators p)
    (himm : (p.heap m).immediate = false) (hdelayed : p.isDelayed = false) :
    ∃ q, p.add m .default ok = some q ∧ Direct p q := by
  obtain ⟨e, b, he, hinv⟩ := h.directAddDefault
  refine ⟨after { p with defaultGenerator := some m, staticInitializationPending := b } e, ?_,
    ⟨rfl, rfl, rfl, rfl⟩, ⟨hinv, rfl⟩, rfl⟩
  rw [MotionMaster.add, if_neg (by decide), read_of_deletes h.deletes_of_fresh]
  rw [Option.bind_eq_bind, Option.bind_some, himm, Bool.false_and, if_neg (by decide), file,
    hdelayed]
  exact he

theorem Invariant.directInitialize (h : Invariant [] [] [] p.activeGenerators p)
    (hdelayed : p.isDelayed = false) (type : DefaultMovementType) :
    ∃ q, p.directInitialize type ok = some q ∧ Direct p q := by
  have hfirst : ∃ q, p.directClearDefault = some q ∧ Frame p q ∧
      Invariant [] [] [] q.activeGenerators q ∧ q.delayedActions = p.delayedActions := by
    obtain ⟨e, d, b, he, hinv, -⟩ := h.directClearDefault
    exact ⟨_, he, ⟨rfl, rfl, rfl, rfl⟩, hinv, rfl⟩
  obtain ⟨p₁, hp₁, hframe₁, h₁, hqueue₁⟩ := hfirst
  have hsecond : ∃ q, p₁.directClear = some q ∧ Frame p₁ q ∧
      Invariant [] [] [] q.activeGenerators q ∧ q.delayedActions = p₁.delayedActions := by
    obtain ⟨e, he, hinv⟩ := h₁.directClear
    exact ⟨_, he, ⟨rfl, rfl, rfl, rfl⟩, hinv, rfl⟩
  obtain ⟨p', hp', hframe₂, h₃, hqueue₂⟩ := hsecond
  have hframe : Frame p p' := hframe₁.trans hframe₂
  have hqueue : p'.delayedActions = p.delayedActions := hqueue₂.trans hqueue₁
  rw [MotionMaster.directInitialize, hp₁, Option.bind_eq_bind, Option.bind_some, hp',
    Option.bind_some]
  have hdelayed' : p'.isDelayed = false := hframe.isDelayed.trans hdelayed
  -- the default generator is the idle one, or one that is made for the purpose
  have hnew : ∀ kind : MovementKind, kind.immediate = false →
      ∃ q, (p'.create kind).add p'.next .default ok = some q ∧ Direct p' q := by
    intro kind himm
    have hcreate := h₃.create kind (Whole.next_notMem h₃)
    have himm' : ((p'.create kind).heap p'.next).immediate = false := by
      rw [heap_create_self]
      exact himm
    obtain ⟨q, hq, hdirect⟩ := Invariant.addDefault_direct (p := p'.create kind) hcreate himm'
      hdelayed'
    exact ⟨q, hq, ⟨hdirect.frame.phase, hdirect.frame.updateInProgress,
      hdirect.frame.initializationPending, hdirect.frame.initializing⟩, hdirect.whole,
      hdirect.queue⟩
  have hdefault : ∃ q, p'.initializeDefault type ok = some q ∧ Direct p' q := by
    cases type with
    | idle =>
      exact h₃.cons_idle.addDefault_direct (congrArg MovementKind.immediate h₃.calm.kind) hdelayed'
    | random => exact hnew _ rfl
    | waypoint => exact hnew _ rfl
  obtain ⟨q, hq, hdirect⟩ := hdefault
  exact ⟨q, hq, hframe.trans hdirect.frame, hdirect.whole, hdirect.queue.trans hqueue⟩

theorem Whole.findType (h : Whole p) (type : Nat) {node : (Nat × Nat) × List Address}
    (hnode : node ∈ p.generators) :
    ∃ found, p.findType type node.2 = some found ∧ ∀ x, found = some x → x ∈ node.2 := by
  obtain ⟨g, before, rest, hg, -⟩ := h.inv.split hnode
  have hactive : g ∈ p.activeGenerators :=
    List.mem_flatMap.mpr ⟨node, hnode, by rw [hg]; exact List.mem_singleton_self g⟩
  have hdeletes : (p.heap g).deletes = 0 :=
    h.inv.accounted.deletes_of_owned (Nat.add_pos_right _ (holds_of_active hactive))
  have hfind : p.findType type [g] =
      some (if (p.heap g).type = type then some g else none) := by
    grind [read_of_deletes, MotionMaster.findType]
  grind

/-- `Remove` by pointer reads the generator; the pointer must be good for that. -/
theorem Whole.remove (h : Whole p) (hdelayed : p.isDelayed = false)
    (hlive : slot = .active → p.generators ≠ [] → (p.heap g).deletes = 0) :
    ∃ q, p.remove g slot = some q ∧ Direct p q := by
  have hstay : ∃ q, some p = some q ∧ Direct p q := ⟨p, rfl, Direct.refl h⟩
  unfold MotionMaster.remove
  cases slot with
  | max => exact hstay
  | default =>
    rw [if_neg (by decide), hdelayed, if_neg (by decide)]
    split
    · exact hstay
    · dsimp only
      split
      · exact h.directClearDefault
      · exact hstay
  | active =>
    rw [if_neg (by decide), hdelayed, if_neg (by decide)]
    split
    · exact hstay
    · dsimp only
      split
      · exact hstay
      · rename_i hne
        have hgen : p.generators ≠ [] := by simpa using hne
        rw [read_of_deletes (hlive rfl hgen), Option.bind_eq_bind, Option.bind_some]
        split
        · exact hstay
        · rename_i node hnode
          split
          · rename_i hmem
            exact h.removeGenerator (List.mem_of_find?_eq_some hnode) hmem
          · exact hstay

theorem Whole.removeType (h : Whole p) (hdelayed : p.isDelayed = false) (type : Nat)
    (slot : MovementSlot) (key : Nat × Nat) :
    ∃ q, p.removeType type slot key = some q ∧ Direct p q := by
  have hstay : ∃ q, some p = some q ∧ Direct p q := ⟨p, rfl, Direct.refl h⟩
  unfold MotionMaster.removeType
  split
  · exact hstay
  · rw [hdelayed, if_neg (by decide)]
    split
    · exact hstay
    · cases slot with
      | max => exact hstay
      | default =>
        dsimp only
        split
        · exact hstay
        · rename_i x hx
          have hdeletes : (p.heap x).deletes = 0 :=
            h.inv.accounted.deletes_of_owned (Nat.add_pos_right _ (holds_of_default hx))
          rw [read_of_deletes hdeletes, Option.bind_eq_bind, Option.bind_some]
          split
          · exact h.directClearDefault
          · exact hstay
      | active =>
        dsimp only
        split
        · exact hstay
        · rename_i node hnode
          have hmem := List.mem_of_find?_eq_some hnode
          obtain ⟨found, hfound, hin⟩ := h.findType type hmem
          rw [hfound, Option.bind_eq_bind, Option.bind_some]
          cases found with
          | none => exact hstay
          | some x => exact h.removeGenerator hmem (hin x rfl)

theorem Whole.clear (h : Whole p) (hdelayed : p.isDelayed = false) :
    ∃ q, p.clear = some q ∧ Direct p q := by
  rw [MotionMaster.clear, hdelayed, if_neg (by decide)]
  split
  · exact ⟨p, rfl, Direct.refl h⟩
  · exact h.directClear

theorem Whole.clearSlot (h : Whole p) (hdelayed : p.isDelayed = false) (slot : MovementSlot) :
    ∃ q, p.clearSlot slot = some q ∧ Direct p q := by
  unfold MotionMaster.clearSlot
  cases slot with
  | max => exact ⟨p, rfl, Direct.refl h⟩
  | default =>
    rw [if_neg (by decide), hdelayed, if_neg (by decide)]
    split
    · exact ⟨p, rfl, Direct.refl h⟩
    · exact h.directClearDefault
  | active =>
    rw [if_neg (by decide), hdelayed, if_neg (by decide)]
    split
    · exact ⟨p, rfl, Direct.refl h⟩
    · exact h.directClear

theorem Whole.clearFilter (h : Whole p) (hdelayed : p.isDelayed = false)
    (filter : Address → MovementGenerator → Bool) :
    ∃ q, p.clearFilter filter = some q ∧ Direct p q := by
  rw [MotionMaster.clearFilter, hdelayed, if_neg (by decide)]
  split
  · exact ⟨p, rfl, Direct.refl h⟩
  · exact h.directClearFilter filter

end MotionMaster

end EGServer.Movement

/-!
# Calls of the owner

A call that is delayed keeps the container, and one that is carried out at once leaves it whole.
-/

namespace EGServer.Movement

namespace MotionMaster

variable {p q : MotionMaster} {dying regs : List Address} {g : Address} {answers : Answers}

/-! ## Calls -/

/-- **A call while actions are delayed.** -/
theorem Invariant.call_queued (h : Invariant [] [] dying regs p) (hslots : p.SlotsValid)
    (hnext : p.next ∉ regs) (hdelayed : p.isDelayed = true) (answers : Answers) (c : Call) :
    ∃ q, p.call answers c = some q ∧ Queued dying regs p q := by
  have hstay : ∃ q, some p = some q ∧ Queued dying regs p q := ⟨p, rfl, Queued.refl h hslots⟩
  have hdelay : ∀ action : DelayedAction, action.added = none →
      ∃ q, some (p.delay action) = some q ∧ Queued dying regs p q :=
    fun action hnone => ⟨_, rfl, Queued.delay h hslots hnone⟩
  have hfilter : ∀ filter, ∃ q, p.clearFilter filter = some q ∧ Queued dying regs p q := by
    intro filter
    rw [MotionMaster.clearFilter, if_pos hdelayed]
    exact hdelay _ rfl
  cases c with
  | initializeMotion =>
    show ∃ q, p.initializeMotion answers.select answers.initializeResult = some q ∧ _
    rw [MotionMaster.initializeMotion]
    split
    · exact hstay
    · rename_i hpending
      have hupdate : p.updateInProgress = true := by
        rw [isDelayed, Bool.or_eq_true] at hdelayed
        exact hdelayed.resolve_right hpending
      rw [if_pos hupdate]
      exact hdelay _ rfl
  | add kind slot =>
    have hne : p.next ≠ idleGenerator := Nat.ne_of_gt h.accounted.next_pos
    obtain ⟨q, hq, hqueued⟩ := @add_queued (p.create kind) dying regs p.next slot
      answers.initializeResult (h.create kind hnext) hslots (fun _ => hne) hdelayed
    refine ⟨q, hq, ?_, hqueued.generators, hqueued.defaultGenerator, hqueued.inv, hqueued.slots⟩
    exact ⟨hqueued.frame.phase, hqueued.frame.updateInProgress,
      hqueued.frame.initializationPending, hqueued.frame.initializing⟩
  | moveIdle => exact h.cons_idle.add_queued hslots (fun hmax => by cases hmax) hdelayed
  | remove movement slot =>
    show ∃ q, p.remove movement slot = some q ∧ _
    unfold MotionMaster.remove
    split
    · exact hstay
    · exact hdelay _ rfl
  | removeType type slot key =>
    show ∃ q, p.removeType type slot key = some q ∧ _
    unfold MotionMaster.removeType
    split
    · exact hstay
    · exact hdelay _ rfl
  | clear =>
    show ∃ q, p.clear = some q ∧ _
    rw [MotionMaster.clear, if_pos hdelayed]
    exact hdelay _ rfl
  | clearSlot slot =>
    show ∃ q, p.clearSlot slot = some q ∧ _
    unfold MotionMaster.clearSlot
    split
    · exact hstay
    · exact hdelay _ rfl
  | clearMode mode =>
    show ∃ q, p.clearMode mode = some q ∧ _
    rw [MotionMaster.clearMode]
    split
    · exact hstay
    · exact hfilter _
  | clearPriority priority =>
    show ∃ q, p.clearPriority priority = some q ∧ _
    rw [MotionMaster.clearPriority]
    split
    · exact hstay
    · exact hfilter _
  | clearFilter filter => exact hfilter filter
  | preventStaticInitialization =>
    refine ⟨p.preventStaticInitialization, rfl, ⟨rfl, rfl, rfl, rfl⟩, rfl, rfl, ?_, hslots⟩
    exact h.congr rfl rfl rfl rfl rfl rfl

/-- **A call that is carried out at once.** -/
theorem Whole.call (h : Whole p) (hdelayed : p.isDelayed = false) (answers : Answers) (c : Call)
    (hlive : ∀ g slot, c = .remove g slot → (p.heap g).deletes = 0) :
    ∃ q, p.call answers c = some q ∧ Direct p q := by
  have hstay : ∃ q, some p = some q ∧ Direct p q := ⟨p, rfl, Direct.refl h⟩
  cases c with
  | initializeMotion =>
    show ∃ q, p.initializeMotion answers.select answers.initializeResult = some q ∧ _
    rw [isDelayed, Bool.or_eq_false_iff] at hdelayed
    rw [MotionMaster.initializeMotion, hdelayed.1, hdelayed.2, if_neg (by decide),
      if_neg (by decide)]
    exact h.inv.directInitialize (by rw [isDelayed, hdelayed.1, hdelayed.2]; rfl) answers.select
  | add kind slot =>
    have hne : p.next ≠ idleGenerator := Nat.ne_of_gt h.inv.accounted.next_pos
    obtain ⟨q, hq, hframe, hinv, hdefault, hqueue⟩ := @Invariant.add_direct (p.create kind) p.next
      slot answers.initializeResult (h.inv.create kind (Whole.next_notMem h.inv))
      (fun _ => h.default) (fun _ => hne) hdelayed
    exact ⟨q, hq, ⟨hframe.phase, hframe.updateInProgress, hframe.initializationPending,
      hframe.initializing⟩, ⟨hinv, hdefault h.default⟩, hqueue⟩
  | moveIdle =>
    exact h.inv.cons_idle.addDefault_direct (congrArg MovementKind.immediate h.inv.calm.kind)
      hdelayed
  | remove movement slot => exact h.remove hdelayed fun _ _ => hlive movement slot rfl
  | removeType type slot key => exact h.removeType hdelayed type slot key
  | clear => exact h.clear hdelayed
  | clearSlot slot => exact h.clearSlot hdelayed slot
  | clearMode mode =>
    show ∃ q, p.clearMode mode = some q ∧ _
    rw [MotionMaster.clearMode]
    split
    · exact hstay
    · exact h.clearFilter hdelayed _
  | clearPriority priority =>
    show ∃ q, p.clearPriority priority = some q ∧ _
    rw [MotionMaster.clearPriority]
    split
    · exact hstay
    · exact h.clearFilter hdelayed _
  | clearFilter filter => exact h.clearFilter hdelayed filter
  | preventStaticInitialization =>
    refine ⟨p.preventStaticInitialization, rfl, ⟨rfl, rfl, rfl, rfl⟩, ⟨?_, h.default⟩, rfl⟩
    exact h.inv.congr rfl rfl rfl rfl rfl rfl

end MotionMaster

end EGServer.Movement
