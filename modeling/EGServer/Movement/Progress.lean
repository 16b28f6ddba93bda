import EGServer.Movement.Finalized

/-!
# What the motion master holds, and where it fails

Between two operations the container is whole: every generator made so far is held once or was
deleted once. In the middle of one, the only step that reads a deleted generator is a delayed
`Remove` by pointer: the pointer was good when it was passed, and is not looked at again.
-/

namespace EGServer.Movement

namespace MotionMaster

variable {p q : MotionMaster} {g top : Address} {act : Action} {answers : Answers}

/-! ## Between two operations -/

/-- **The container at rest**, after any operations: a key has one generator; every generator made
so far, the idle one apart, is held once and not finalized, or was deleted once, and finalized once
before unless `Add` refused it; the unit states are those of the active generators; and nobody but
the current generator is awake, the idle one and immediate ones apart. -/
theorem container_at_rest (h : Reaches Step (fun _ _ => True) start p) (hphase : p.phase = .idle) :
    (∀ node ∈ p.generators, ∃ g, node.2 = [g] ∧ node.1 = (p.heap g).key) ∧
      (p.generators.map Prod.fst).Pairwise (fun a b => keyComp a b = true) ∧
      (∀ g, g ≠ idleGenerator → g < p.next → (p.heap g).deletes + p.holds g = 1 ∧
        (p.heap g).finalizes + (p.heap g).refused.toNat = (p.heap g).deletes) ∧
      p.baseUnitStatesMap.Perm (unitStatesOf p.heap p.activeGenerators) ∧
      (p.initializationPending = false → p.defaultGenerator.isSome = true) ∧
      ∀ g, p.defaultGenerator = some g ∨ g ∈ p.activeGenerators → g ≠ idleGenerator →
        (p.heap g).immediate = false → (p.heap g).awake = true →
          p.currentMovementGenerator = some g := by
  obtain ⟨hinv, -, hdefault⟩ := (standing_of_reaches h).idle hphase
  refine ⟨hinv.filed.single, ?_, ?_, hinv.registered, hdefault, hinv.calm.rest⟩
  · exact List.pairwise_map.mpr hinv.filed.sorted
  · intro g hg hlt
    have haccount := hinv.accounted.account g hg
    rw [if_pos hlt] at haccount
    exact ⟨by simpa using haccount, by simpa using hinv.accounted.finals g hg⟩

/-! ## The hooks of `Update` -/

theorem Invariant.live_current (h : Invariant [] [] [] p.activeGenerators p)
    (hcurrent : p.currentMovementGenerator = some g) : (p.heap g).deletes = 0 := by
  apply h.accounted.deletes_of_owned
  rcases held_of_current hcurrent with hg | hg
  · have hpos := holds_of_default hg
    omega
  · have hpos := holds_of_active hg
    omega

theorem Invariant.exists_current (h : Invariant [] [] [] p.activeGenerators p)
    (hdefault : p.defaultGenerator.isSome = true) : ∃ g, p.currentMovementGenerator = some g := by
  unfold currentMovementGenerator
  split
  · exact Option.isSome_iff_exists.mp hdefault
  · next node rest hgen =>
    obtain ⟨g, hg, -⟩ := h.filed.single node (hgen ▸ List.mem_cons_self)
    exact ⟨g, by rw [hg]; rfl⟩

theorem heap_setGenerator_self (p : MotionMaster) (g : Address) (a : MovementGenerator) :
    (p.setGenerator g a).heap g = a := Function.update_self ..

theorem initializeStatic_defined (hlive : (p.heap top).deletes = 0) :
    ∃ q state, p.initializeStatic top = some (q, state) ∧ (q.heap top).deletes = 0 := by
  unfold initializeStatic
  split
  · split
    · exact ⟨_, _, rfl, hlive⟩
    · refine ⟨setGenerator { p with staticInitializationPending := false } top
        (p.heap top).onInitialize, .success, ?_, ?_⟩
      · rw [initializeHook, modify_of_deletes (by exact hlive)]
        rfl
      · rw [heap_setGenerator_self]
        exact hlive
  · exact ⟨_, _, rfl, hlive⟩

theorem initializePending_defined (ok : Bool) (state : InitializationState)
    (hlive : (p.heap top).deletes = 0) :
    ∃ q state', p.initializePending top ok state = some (q, state') ∧ (q.heap top).deletes = 0 ∧
      (q.heap top).initializationPending = false := by
  unfold initializePending
  rw [read_of_deletes hlive]
  cases hpending : (p.heap top).initializationPending with
  | false => exact ⟨p, state, by simp [hpending], hlive, hpending⟩
  | true =>
    refine ⟨p.setGenerator top (p.heap top).onInitialize, if ok then .success else .no, ?_, ?_, ?_⟩
    · rw [initializeHook, modify_of_deletes hlive]
      simp [hpending]
    · rw [heap_setGenerator_self]
      exact hlive
    · rw [heap_setGenerator_self]
      rfl

theorem resetDeactivated_defined (ok : Bool) (state : InitializationState)
    (hlive : (p.heap top).deletes = 0) (hpending : (p.heap top).initializationPending = false) :
    ∃ q state', p.resetDeactivated top ok state = some (q, state') ∧ (q.heap top).deletes = 0 ∧
      (q.heap top).initializationPending = false ∧ (q.heap top).deactivated = false := by
  unfold resetDeactivated
  rw [read_of_deletes hlive]
  cases hdeactivated : (p.heap top).deactivated with
  | false => exact ⟨p, state, by simp [hdeactivated], hlive, hpending, hdeactivated⟩
  | true =>
    refine ⟨p.setGenerator top (p.heap top).onReset, if ok then .success else .no, ?_, ?_, ?_, ?_⟩
    · rw [resetHook, modify_of_deletes hlive]
      simp [hdeactivated]
    · rw [heap_setGenerator_self]
      exact hlive
    · rw [heap_setGenerator_self]
      exact hpending
    · rw [heap_setGenerator_self]
      rfl

/-- `Update` finds its current generator, initialized and active when the assertions are met. -/
theorem Standing.update_defined (h : Standing p) (hphase : p.phase = .idle) :
    ∃ q, p.update answers = some q := by
  obtain ⟨hinv, -, hdefault⟩ := h.idle hphase
  unfold MotionMaster.update
  cases hflags : p.initializationPending || p.initializing with
  | true => exact ⟨p, rfl⟩
  | false =>
    rw [if_neg (by decide)]
    obtain ⟨top, htop⟩ := hinv.exists_current (hdefault (Bool.or_eq_false_iff.mp hflags).1)
    have hlive := hinv.live_current htop
    obtain ⟨p₁, state₁, h₁, hlive₁⟩ :=
      initializeStatic_defined (p := { p with updateInProgress := true }) hlive
    obtain ⟨p₂, state₂, h₂, hlive₂, hpending₂⟩ :=
      initializePending_defined answers.initializeResult state₁ hlive₁
    obtain ⟨p₃, state₃, h₃, hlive₃, hpending₃, hdeactivated₃⟩ :=
      resetDeactivated_defined answers.resetResult state₂ hlive₂ hpending₂
    refine ⟨{ p₃ with phase := .updating top state₃ }, ?_⟩
    simp [htop, h₁, h₂, h₃, read_of_deletes hlive₃, hpending₃, hdeactivated₃]

/-! ## The other steps -/

theorem Standing.addToWorld_defined (h : Standing p) (hphase : p.phase = .idle) :
    ∃ q, p.addToWorld answers = some q := by
  obtain ⟨hinv, hupdate, -⟩ := h.idle hphase
  unfold MotionMaster.addToWorld
  split
  · have hdelayed : isDelayed { p with initializing := true, initializationPending := false } =
        false := by
      show (p.updateInProgress || false) = false
      rw [hupdate]
      rfl
    obtain ⟨r, hr, -⟩ := @Invariant.directInitialize
      { p with initializing := true, initializationPending := false } answers.initializeResult
      (hinv.congr rfl rfl rfl rfl rfl rfl) hdelayed answers.select
    exact ⟨{ r with phase := .resolving }, by rw [hr]; rfl⟩
  · exact ⟨p, rfl⟩

theorem Invariant.next_notMem_popping {m : Address}
    (h : Invariant [] [] [m] (m :: p.activeGenerators) p) : p.next ∉ m :: p.activeGenerators := by
  obtain ⟨-, hdying, hholds⟩ := h.next_unowned
  intro hmem
  rcases List.mem_cons.mp hmem with heq | hmem
  · rw [heq, List.count_singleton_self] at hdying
    cases hdying
  · have hpos := holds_of_active hmem
    omega

theorem Standing.call_defined (h : Standing p) {c : Call} (hresolving : p.phase ≠ .resolving)
    (hlive : ∀ g slot, c = .remove g slot → (p.heap g).deletes = 0) :
    ∃ q, p.call answers c = some q := by
  cases hdelayed : p.isDelayed with
  | false =>
    obtain ⟨q, hq, -⟩ := (h.whole hdelayed).call hdelayed answers c hlive
    exact ⟨q, hq⟩
  | true =>
    -- the call goes to the queue, whatever has been taken out of the container meanwhile
    have hqueued : ∀ {dying regs : List Address}, Invariant [] [] dying regs p → p.next ∉ regs →
        ∃ q, p.call answers c = some q := by
      intro dying regs hinv hnext
      obtain ⟨q, hq, -⟩ := hinv.call_queued h.slots hnext hdelayed answers c
      exact ⟨q, hq⟩
    cases hphase : p.phase with
    | idle =>
      have hinv := (h.idle hphase).1
      exact hqueued hinv (Whole.next_notMem hinv)
    | updating top state =>
      have hinv := (h.updating hphase).1.inv
      exact hqueued hinv (Whole.next_notMem hinv)
    | popping m =>
      have hinv := (h.popping hphase).1
      exact hqueued hinv hinv.next_notMem_popping
    | resolving => exact absurd hphase hresolving

/-- `_Pop` at the end of `Update`. -/
theorem Whole.popTop_defined (h : Whole p) : ∃ q, p.popTop = some q := by
  unfold popTop
  split
  · exact ⟨_, rfl⟩
  · next node rest hgen =>
    have hnode : node ∈ p.generators := hgen ▸ List.mem_cons_self
    obtain ⟨g, hg, -⟩ := h.inv.filed.single node hnode
    have hmem : g ∈ p.activeGenerators :=
      List.mem_flatMap.mpr ⟨node, hnode, hg ▸ List.mem_singleton_self g⟩
    have hlive : ((p.erase node.1 g).heap g).deletes = 0 := by
      apply h.inv.accounted.deletes_of_owned
      have hpos := holds_of_active hmem
      omega
    refine ⟨{ (p.erase node.1 g).setGenerator g (p.heap g).onFinalize with phase := .popping g }, ?_⟩
    rw [hg]
    show ((p.erase node.1 g).finalizeHook g).bind _ = _
    rw [finalizeHook, modify_of_deletes hlive]
    rfl

/-- `Remove` by pointer. -/
theorem Whole.remove_undefined_iff (h : Whole p) (hdelayed : p.isDelayed = false)
    {slot : MovementSlot} : p.remove g slot = none ↔
      slot = .active ∧ p.generators ≠ [] ∧ (p.heap g).deletes ≠ 0 := by
  constructor
  · intro hnone
    by_contra hnot
    have hlive : slot = .active → p.generators ≠ [] → (p.heap g).deletes = 0 :=
      fun hslot hgen => not_not.mp fun hdead => hnot ⟨hslot, hgen, hdead⟩
    obtain ⟨q, hq, -⟩ := h.remove hdelayed hlive
    cases hnone.symm.trans hq
  · rintro ⟨hslot, hgen, hdead⟩
    cases hrun : p.remove g slot with
    | none => rfl
    | some q => exact absurd (deletes_of_remove hdelayed h.default hrun hslot hgen) hdead

theorem Standing.resolve_undefined_iff (h : Standing p) (hphase : p.phase = .resolving)
    {action : DelayedAction} {rest : List DelayedAction}
    (hqueue : p.delayedActions = action :: rest) :
    MotionMaster.resolve { p with delayedActions := rest } answers action = none ↔
      ∃ m, action = .remove m .active ∧ p.generators ≠ [] ∧ (p.heap m).deletes ≠ 0 := by
  obtain ⟨hwhole, hupdate, hpending⟩ := h.resolving hphase
  have hdelayed : isDelayed { p with delayedActions := rest } = false := by
    show (p.updateInProgress || p.initializationPending) = false
    rw [hupdate, hpending]
    rfl
  have htake := hwhole.inv.takeAction hqueue
  have hrest : action.added = none → Whole { p with delayedActions := rest } := by
    intro hnone
    rw [hnone] at htake
    exact ⟨htake, hwhole.default⟩
  -- every other action is carried out, and the right side is false
  have hdefined : (∀ m, action ≠ .remove m .active) →
      (∃ q, MotionMaster.resolve { p with delayedActions := rest } answers action = some q) →
      (MotionMaster.resolve { p with delayedActions := rest } answers action = none ↔
        ∃ m, action = .remove m .active ∧ p.generators ≠ [] ∧ (p.heap m).deletes ≠ 0) := by
    rintro hne ⟨q, hq⟩
    rw [hq]
    refine iff_of_false (Option.some_ne_none q) ?_
    rintro ⟨m, heq, -⟩
    exact hne m heq
  have hdone : (∀ m, action ≠ .remove m .active) →
      (∃ q, MotionMaster.resolve { p with delayedActions := rest } answers action = some q ∧
        Direct { p with delayedActions := rest } q) → _ :=
    fun hne hq => hdefined hne ⟨hq.choose, hq.choose_spec.1⟩
  cases action with
  | initializeMotion =>
    obtain ⟨q, hq, -⟩ := @Invariant.directInitialize { p with delayedActions := rest }
      answers.initializeResult (hrest rfl).inv hdelayed answers.select
    exact hdefined (fun _ heq => by cases heq) ⟨q, (initializeMotion_eq hdelayed).trans hq⟩
  | add m slot =>
    have hslot : slot ≠ .max := by
      rintro rfl
      exact h.slots m (hqueue ▸ List.mem_cons_self)
    obtain ⟨q, hq, -⟩ := @Invariant.add_direct { p with delayedActions := rest } m slot
      answers.initializeResult htake (fun _ => hwhole.default) (fun hmax => absurd hmax hslot)
      hdelayed
    exact hdefined (fun _ heq => by cases heq) ⟨q, hq⟩
  | remove movement slot =>
    refine ((hrest rfl).remove_undefined_iff hdelayed).trans ⟨?_, ?_⟩
    · rintro ⟨rfl, hgen, hdead⟩
      exact ⟨movement, rfl, hgen, hdead⟩
    · rintro ⟨m, heq, hgen, hdead⟩
      cases heq
      exact ⟨rfl, hgen, hdead⟩
  | removeType type slot key =>
    exact hdone (fun _ heq => by cases heq) ((hrest rfl).removeType hdelayed type slot key)
  | clear =>
    exact hdone (fun _ heq => by cases heq) ((hrest rfl).clear hdelayed)
  | clearSlot slot =>
    exact hdone (fun _ heq => by cases heq) ((hrest rfl).clearSlot hdelayed slot)
  | clearFilter filter =>
    exact hdone (fun _ heq => by cases heq) ((hrest rfl).clearFilter hdelayed filter)

/-! ## Every step of every run -/

/-- A `Remove` by pointer is next, among active generators, whose generator was deleted. -/
def RemovesDeleted (p : MotionMaster) : Prop :=
  p.phase = .resolving ∧ p.generators ≠ [] ∧
    ∃ m rest, p.delayedActions = .remove m .active :: rest ∧ (p.heap m).deletes ≠ 0

theorem proceed_resolving {action : DelayedAction} {rest : List DelayedAction}
    (hphase : p.phase = .resolving) (hqueue : p.delayedActions = action :: rest) :
    p.proceed answers = MotionMaster.resolve { p with delayedActions := rest } answers action := by
  cases p
  cases hphase
  cases hqueue
  rfl

theorem Standing.proceed_undefined_iff (h : Standing p) (hphase : p.phase ≠ .idle) :
    p.proceed answers = none ↔ p.RemovesDeleted := by
  have hdefined : p.phase ≠ .resolving → (∃ q, p.proceed answers = some q) →
      (p.proceed answers = none ↔ p.RemovesDeleted) := by
    rintro hne ⟨q, hq⟩
    rw [hq]
    exact iff_of_false (Option.some_ne_none q) fun hbad => hne hbad.1
  cases hcases : p.phase with
  | idle => exact absurd hcases hphase
  | updating top state =>
    obtain ⟨hwhole, -, -, hcurrent⟩ := h.updating hcases
    apply hdefined fun heq => by cases hcases.symm.trans heq
    unfold MotionMaster.proceed
    rw [hcases]
    dsimp only
    rw [if_pos hcurrent]
    split
    · exact hwhole.popTop_defined
    · exact ⟨_, rfl⟩
  | popping m =>
    have hinv := (h.popping hcases).1
    -- what is deleted now is held by nobody
    have hnotMem : m ≠ idleGenerator → m ∉ p.activeGenerators := by
      intro hne hmem
      have haccount := hinv.accounted.account m hne
      grind [holds_of_active]
    obtain ⟨e, he, -⟩ := hinv.release hnotMem
    apply hdefined fun heq => by cases hcases.symm.trans heq
    unfold MotionMaster.proceed
    rw [hcases]
    dsimp only
    rw [he]
    exact ⟨_, rfl⟩
  | resolving =>
    cases hqueue : p.delayedActions with
    | nil =>
      unfold MotionMaster.proceed RemovesDeleted
      rw [hcases, hqueue]
      refine iff_of_false (Option.some_ne_none _) ?_
      rintro ⟨-, -, m, rest, heq, -⟩
      cases heq
    | cons action rest =>
      rw [proceed_resolving hcases hqueue, h.resolve_undefined_iff hcases hqueue]
      constructor
      · rintro ⟨m, rfl, hgen, hdead⟩
        exact ⟨hcases, hgen, m, rest, hqueue, hdead⟩
      · rintro ⟨-, hgen, m, rest', heq, hdead⟩
        exact ⟨m, (List.cons.inj (hqueue.symm.trans heq)).1, hgen, hdead⟩

/-- **The only step that is undefined**, in all runs, is a delayed `Remove` by pointer whose
generator was deleted meanwhile. -/
theorem step_undefined_iff (hreach : Reaches Step (fun _ _ => True) start p)
    (hadmissible : p.Admissible (act, answers)) :
    p.step (act, answers) = none ↔ act = .proceed ∧ p.RemovesDeleted := by
  have h := standing_of_reaches hreach
  have hdefined : act ≠ .proceed → (∃ q, p.step (act, answers) = some q) →
      (p.step (act, answers) = none ↔ act = .proceed ∧ p.RemovesDeleted) := by
    rintro hne ⟨q, hq⟩
    rw [hq]
    exact iff_of_false (Option.some_ne_none q) fun hbad => hne hbad.1
  cases act with
  | addToWorld => exact hdefined (fun heq => by cases heq) (h.addToWorld_defined hadmissible)
  | update => exact hdefined (fun heq => by cases heq) (h.update_defined hadmissible)
  | call c =>
    have hcall : p.phase ≠ .resolving := by
      cases c with
      | remove => exact hadmissible.1
      | _ => exact hadmissible
    refine hdefined (fun heq => by cases heq) (h.call_defined hcall ?_)
    rintro g slot rfl
    exact hadmissible.2.2
  | proceed =>
    rw [eq_self_iff_true, true_and]
    exact h.proceed_undefined_iff hadmissible

/-- While `Update` runs, the upper one of two generators is removed twice, and the first of the two
calls has been carried out. -/
def removedTwice : MotionMaster :=
  let acts : List Action := [.update, .call (.remove 2 .active), .call (.remove 2 .active), .proceed,
    .proceed]
  (acts.foldlM (fun (p : MotionMaster) act => p.step (act, quietAnswers)) twoGenerators).getD start

theorem reaches_removedTwice : Reaches Step (fun _ _ => True) start removedTwice :=
  ((((reaches_twoGenerators.next (a := (Action.update, quietAnswers)) trivial ⟨rfl, rfl⟩).next
    (a := (Action.call (Call.remove 2 .active), quietAnswers)) trivial
    ⟨⟨fun h => Phase.noConfusion h, by decide, rfl⟩, rfl⟩).next
    (a := (Action.call (Call.remove 2 .active), quietAnswers)) trivial
    ⟨⟨fun h => Phase.noConfusion h, by decide, rfl⟩, rfl⟩).next
    (a := (Action.proceed, quietAnswers)) trivial ⟨fun h => Phase.noConfusion h, rfl⟩).next
    (a := (Action.proceed, quietAnswers)) trivial ⟨fun h => Phase.noConfusion h, rfl⟩

theorem removedTwice_undefined : removedTwice.step (.proceed, quietAnswers) = none :=
  (@step_undefined_iff removedTwice Action.proceed quietAnswers reaches_removedTwice
    fun h => Phase.noConfusion h).mpr ⟨rfl, rfl, List.cons_ne_nil _ _, 2, [], rfl, by decide⟩

theorem twoGenerators_at_rest :
    (twoGenerators.heap 2).deletes + twoGenerators.holds 2 = 1 :=
  ((container_at_rest reaches_twoGenerators rfl).2.2.1 2 (by decide) (by decide)).1

end MotionMaster

end EGServer.Movement
