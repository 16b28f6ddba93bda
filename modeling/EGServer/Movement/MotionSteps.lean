import EGServer.Movement.Standing

/-!
# Every step keeps the invariant

A call, a delayed action and each part of `Update` keep `Standing`. What an operation does to the
container is taken from its `Outcome`.
-/

namespace EGServer.Movement

open Logged (Returns)

namespace MotionMaster

variable {p p' q : MotionMaster} {g m top : Address} {answers : Answers}
  {calls : List FinalizeCall}

/-! ## The outcomes of calls and delayed actions -/

/-- The filter by which a call clears. -/
def callFilter (p : MotionMaster) : Call → Option (Address → Bool)
  | .clearMode mode => Traced.filterOf p fun _ a => a.mode = mode
  | .clearPriority priority => Traced.filterOf p fun _ a => a.priority = priority
  | .clearFilter filter => Traced.filterOf p filter
  | _ => none

/-- The filter by which a delayed action clears. -/
def resolveFilter (p : MotionMaster) : DelayedAction → Option (Address → Bool)
  | .clearFilter filter => Traced.filterOf p filter
  | _ => none

theorem Steady.next_unheld (h : Steady p) : p.next ∉ p.held ∧ p.next ≠ idleGenerator := by
  have hholds := h.whole.inv.next_unowned.2.2
  refine ⟨?_, Nat.ne_of_gt h.whole.inv.accounted.next_pos⟩
  grind [held, holds]

theorem Steady.call_outcome (h : Steady p) {c : Call} (hc : c ≠ .initializeMotion)
    (hrun : (Traced.call p answers c).Returns q calls) : Outcome p (p.callFilter c) q calls := by
  cases c with
  | initializeMotion => exact absurd rfl hc
  | add kind slot =>
    exact Traced.add_outcome (p := p.create kind) h ⟨rfl, rfl⟩ (fun _ => h.next_unheld) hrun
  | moveIdle =>
    exact Traced.add_outcome h (Traced.Same.refl p) (fun hslot => absurd rfl hslot) hrun
  | remove movement slot => exact Traced.remove_outcome h hrun
  | removeType type slot key => exact Traced.removeType_outcome h hrun
  | clear => exact Traced.clear_outcome h hrun
  | clearSlot slot => exact Traced.clearSlot_outcome h hrun
  | clearMode mode => exact Traced.clearMode_outcome h hrun
  | clearPriority priority => exact Traced.clearPriority_outcome h hrun
  | clearFilter filter => exact Traced.clearFilter_outcome h hrun
  | preventStaticInitialization =>
    obtain ⟨rfl, rfl⟩ := Returns.pure_iff.mp hrun
    exact .stay rfl rfl

theorem Steady.resolve_outcome (h : Steady p) {action : DelayedAction}
    (hadded : action.added = none) (hinit : action ≠ .initializeMotion)
    (hrun : (Traced.resolve p answers action).Returns q calls) :
    Outcome p (p.resolveFilter action) q calls := by
  cases action with
  | initializeMotion => exact absurd rfl hinit
  | add movement slot => cases hadded
  | remove movement slot => exact Traced.remove_outcome h hrun
  | removeType type slot key => exact Traced.removeType_outcome h hrun
  | clear => exact Traced.clear_outcome h hrun
  | clearSlot slot => exact Traced.clearSlot_outcome h hrun
  | clearFilter filter => exact Traced.clearFilter_outcome h hrun

theorem Steady.pending_unheld (h : Steady p) (hm : m ∈ p.pendingAdds) (hidle : m ≠ idleGenerator) :
    m ∉ p.held := by
  intro hmem
  apply h.whole.inv.notPending_of_held hidle _ hm
  rcases List.mem_append.mp hmem with hdefault | hactive
  · exact .inl (Option.mem_toList.mp hdefault)
  · exact .inr hactive

theorem Standing.add_outcome (h : Standing p) (hphase : p.phase = .resolving) {ok : Bool}
    {slot : MovementSlot} {rest : List DelayedAction}
    (hqueue : p.delayedActions = .add m slot :: rest)
    (hrun : (Traced.add { p with delayedActions := rest } m slot ok).Returns q calls) :
    Outcome p none q calls := by
  have hsteady : Steady p := ⟨(h.resolving hphase).1, h.seated.active⟩
  refine Traced.add_outcome (p := { p with delayedActions := rest }) hsteady ⟨rfl, rfl⟩ ?_ hrun
  intro hslot
  have hidle : m ≠ idleGenerator := by
    rintro rfl
    apply hslot
    apply h.seated.queue
    rw [hqueue]
    exact List.mem_cons_self
  refine ⟨hsteady.pending_unheld ?_ hidle, hidle⟩
  rw [pendingAdds, hqueue]
  exact List.mem_cons_self

/-! ## Operations that are carried out -/

theorem Seated.of_nil (hgen : q.generators = []) (hqueue : q.delayedActions = p.delayedActions)
    (h : Seated p) : Seated q := by
  constructor
  · rw [activeGenerators, hgen]
    exact List.not_mem_nil
  · rw [hqueue]
    exact h.queue

theorem Standing.addToWorld (h : Standing p) (hphase : p.phase = .idle)
    (hrun : p.addToWorld answers = some q) : Standing q := by
  obtain ⟨hinv, hupdate, -⟩ := h.idle hphase
  unfold MotionMaster.addToWorld at hrun
  split at hrun
  · obtain ⟨r, hr, heq⟩ := Option.bind_eq_some_iff.mp hrun
    cases heq
    have hinv' : Invariant [] [] [] p.activeGenerators
        { p with initializing := true, initializationPending := false } :=
      hinv.congr rfl rfl rfl rfl rfl rfl
    have hdelayed : isDelayed { p with initializing := true, initializationPending := false } =
        false := by
      show (p.updateInProgress || false) = false
      rw [hupdate]
      rfl
    obtain ⟨r', hr', hdirect⟩ := @Invariant.directInitialize
      { p with initializing := true, initializationPending := false } answers.initializeResult
      hinv' hdelayed answers.select
    rw [hr] at hr'
    cases hr'
    have hgen := directInitialize_generators
      (p := { p with initializing := true, initializationPending := false }) hinv' hr
    have hqueue : r.delayedActions = p.delayedActions := hdirect.queue
    refine ⟨?_, Seated.of_nil hgen hqueue h.seated, ?_⟩
    · intro m hm
      exact h.slots m (hqueue ▸ hm)
    · refine ⟨⟨hdirect.whole.inv.congr rfl rfl rfl rfl rfl rfl, hdirect.whole.default⟩, ?_, ?_⟩
      · exact hdirect.frame.updateInProgress.trans hupdate
      · exact hdirect.frame.initializationPending
  · cases hrun
    exact h

theorem Standing.update (h : Standing p) (hphase : p.phase = .idle)
    (hrun : p.update answers = some q) : Standing q := by
  obtain ⟨hinv, hupdate, hdefault⟩ := h.idle hphase
  cases hflags : p.initializationPending || p.initializing with
  | true =>
    unfold MotionMaster.update at hrun
    rw [hflags, if_pos rfl] at hrun
    cases hrun
    exact h
  | false =>
    obtain ⟨top, state, r, htop, rfl, hwoken⟩ := update_woken hinv hflags hrun
    rw [Bool.or_eq_false_iff] at hflags
    have hqueue : r.delayedActions = p.delayedActions := hwoken.queue
    refine ⟨?_, ⟨?_, ?_⟩, ?_⟩
    · intro m hm
      exact h.slots m (hqueue ▸ hm)
    · have hgen : r.generators = p.generators := hwoken.generators
      show idleGenerator ∉ r.generators.flatMap Prod.snd
      rw [hgen]
      exact h.seated.active
    · intro slot hm
      exact h.seated.queue slot (hqueue ▸ hm)
    · refine ⟨⟨hwoken.inv.congr rfl rfl rfl rfl rfl rfl, ?_⟩, hwoken.updateInProgress, ?_, ?_⟩
      · show r.defaultGenerator.isSome = true
        rw [hwoken.defaultGenerator]
        exact hdefault hflags.1
      · exact hwoken.initializationPending.trans hflags.1
      · exact hwoken.current.trans htop

theorem Standing.of_direct (h : Standing p) (hdelayed : p.isDelayed = false) (hd : Direct p q)
    (hidle : idleGenerator ∉ q.activeGenerators) : Standing q := by
  refine ⟨?_, ⟨hidle, ?_⟩, ?_⟩
  · intro m hm
    exact h.slots m (hd.queue ▸ hm)
  · intro slot hm
    exact h.seated.queue slot (hd.queue ▸ hm)
  · rw [isDelayed, Bool.or_eq_false_iff] at hdelayed
    have hupdate := hd.frame.updateInProgress.trans hdelayed.1
    have hpending := hd.frame.initializationPending.trans hdelayed.2
    unfold PhaseInvariant
    rw [hd.frame.phase]
    cases hphase : p.phase with
    | idle => exact ⟨hd.whole.inv, hupdate, fun _ => hd.whole.default⟩
    | updating top state =>
      rw [(h.updating hphase).2.1] at hdelayed
      exact absurd hdelayed.1 (by decide)
    | popping m =>
      rw [(h.popping hphase).2.2.1] at hdelayed
      exact absurd hdelayed.1 (by decide)
    | resolving => exact ⟨hd.whole, hupdate, hpending⟩

theorem initializeMotion_eq {type : DefaultMovementType} {ok : Bool}
    (hdelayed : p.isDelayed = false) : p.initializeMotion type ok = p.directInitialize type ok := by
  rw [isDelayed, Bool.or_eq_false_iff] at hdelayed
  unfold MotionMaster.initializeMotion
  rw [if_neg (ne_true_of_eq_false hdelayed.2), if_neg (ne_true_of_eq_false hdelayed.1)]

theorem Standing.call_direct (h : Standing p) (hdelayed : p.isDelayed = false) {c : Call}
    (hlive : ∀ g slot, c = .remove g slot → (p.heap g).deletes = 0)
    (hrun : p.call answers c = some q) : Standing q := by
  have hsteady := h.steady hdelayed
  obtain ⟨q', hq', hdirect⟩ := hsteady.whole.call hdelayed answers c hlive
  rw [hrun] at hq'
  cases hq'
  apply h.of_direct hdelayed hdirect
  by_cases hc : c = .initializeMotion
  · subst hc
    change p.initializeMotion answers.select answers.initializeResult = some q at hrun
    rw [initializeMotion_eq hdelayed] at hrun
    rw [activeGenerators, directInitialize_generators hsteady.whole.inv hrun]
    exact List.not_mem_nil
  · obtain ⟨calls, hcalls⟩ := (Traced.call_erases c).exists_log hrun
    exact (hsteady.call_outcome hc hcalls).idle_notMem hsteady.idle

theorem Standing.of_queued {dying regs : List Address} (h : Standing p)
    (hq : Queued dying regs p q) (hqueues : Queues p q)
    (hphase : q.PhaseInvariant) : Standing q :=
  ⟨hq.slots, h.seated.queues hqueues, hphase⟩

theorem Queued.activeGenerators {dying regs : List Address} (h : Queued dying regs p q) :
    q.activeGenerators = p.activeGenerators := by
  unfold MotionMaster.activeGenerators
  rw [h.generators]

theorem Queued.whole {dying : List Address} (h : Queued dying p.activeGenerators p q) :
    Invariant [] [] dying q.activeGenerators q := by
  rw [h.activeGenerators]
  exact h.inv

theorem Standing.call_delayed (h : Standing p) (hdelayed : p.isDelayed = true) {c : Call}
    (hrun : p.call answers c = some q) : Standing q := by
  have hqueues : p.next ≠ idleGenerator → Queues p q := by
    intro hnext
    obtain ⟨calls, hcalls⟩ := (Traced.call_erases c).exists_log hrun
    exact (MotionMaster.call_delayed hdelayed hnext c hcalls).1
  cases hphase : p.phase with
  | idle =>
    obtain ⟨hinv, hupdate, hdefault⟩ := h.idle hphase
    obtain ⟨q', hq', hqueued⟩ :=
      hinv.call_queued h.slots (Whole.next_notMem hinv) hdelayed answers c
    rw [hrun] at hq'
    cases hq'
    apply h.of_queued hqueued (hqueues (Nat.ne_of_gt hinv.accounted.next_pos))
    unfold PhaseInvariant
    rw [hqueued.frame.phase, hphase]
    refine ⟨hqueued.whole, hqueued.frame.updateInProgress.trans hupdate, ?_⟩
    rw [hqueued.frame.initializationPending, hqueued.defaultGenerator]
    exact hdefault
  | updating top state =>
    obtain ⟨hwhole, hupdate, hpending, hcurrent⟩ := h.updating hphase
    obtain ⟨q', hq', hqueued⟩ :=
      hwhole.inv.call_queued h.slots (Whole.next_notMem hwhole.inv) hdelayed answers c
    rw [hrun] at hq'
    cases hq'
    apply h.of_queued hqueued (hqueues (Nat.ne_of_gt hwhole.inv.accounted.next_pos))
    unfold PhaseInvariant
    rw [hqueued.frame.phase, hphase]
    refine ⟨⟨hqueued.whole, ?_⟩, hqueued.frame.updateInProgress.trans hupdate,
      hqueued.frame.initializationPending.trans hpending, ?_⟩
    · rw [hqueued.defaultGenerator]
      exact hwhole.default
    · rw [currentMovementGenerator, hqueued.generators, hqueued.defaultGenerator]
      exact hcurrent
  | popping m =>
    obtain ⟨hinv, hdefault, hupdate, hpending⟩ := h.popping hphase
    have hnotMem : p.next ∉ m :: p.activeGenerators := by
      intro hmem
      rcases List.mem_cons.mp hmem with heq | hmem
      · have hdying := hinv.next_unowned.2.1
        rw [heq, List.count_singleton_self] at hdying
        cases hdying
      · have hpos := holds_of_active hmem
        have hzero := hinv.next_unowned.2.2
        omega
    obtain ⟨q', hq', hqueued⟩ := hinv.call_queued h.slots hnotMem hdelayed answers c
    rw [hrun] at hq'
    cases hq'
    apply h.of_queued hqueued (hqueues (Nat.ne_of_gt hinv.accounted.next_pos))
    unfold PhaseInvariant
    rw [hqueued.frame.phase, hphase]
    refine ⟨?_, ?_, hqueued.frame.updateInProgress.trans hupdate,
      hqueued.frame.initializationPending.trans hpending⟩
    · rw [hqueued.activeGenerators]
      exact hqueued.inv
    · rw [hqueued.defaultGenerator]
      exact hdefault
  | resolving =>
    obtain ⟨-, hupdate, hpending⟩ := h.resolving hphase
    rw [isDelayed, hupdate, hpending] at hdelayed
    cases hdelayed

/-! ## Delayed actions -/

/-- A `Remove` that went well read a generator that was there. -/
theorem deletes_of_remove {slot : MovementSlot} (hdelayed : p.isDelayed = false)
    (hdefault : p.defaultGenerator.isSome = true) (hrun : p.remove g slot = some q) :
    slot = .active → p.generators ≠ [] → (p.heap g).deletes = 0 := by
  rintro rfl hgen
  have hempty : p.isEmpty = false := by
    rw [isEmpty, ← Option.not_isSome, hdefault]
    rfl
  have hgen' : p.generators.isEmpty = false := by
    cases hcases : p.generators with
    | nil => exact absurd hcases hgen
    | cons node rest => rfl
  unfold MotionMaster.remove at hrun
  rw [if_neg (by decide), hdelayed, if_neg (by decide), hempty, if_neg (by decide)] at hrun
  dsimp only at hrun
  rw [hgen', if_neg (by decide)] at hrun
  obtain ⟨a, ha, -⟩ := Option.bind_eq_some_iff.mp hrun
  exact (Option.ite_none_right_eq_some.mp ha).1

/-- **A delayed action keeps the invariant.** -/
theorem Standing.resolve (h : Standing p) (hphase : p.phase = .resolving) {action : DelayedAction}
    {rest : List DelayedAction} (hqueue : p.delayedActions = action :: rest)
    (hrun : MotionMaster.resolve { p with delayedActions := rest } answers action = some q) :
    Standing q := by
  obtain ⟨hwhole, hupdate, hpending⟩ := h.resolving hphase
  have hdelayed : isDelayed { p with delayedActions := rest } = false := by
    show (p.updateInProgress || p.initializationPending) = false
    rw [hupdate, hpending]
    rfl
  have htake := hwhole.inv.takeAction hqueue
  have hrest : ∀ a ∈ rest, a ∈ p.delayedActions := by
    intro a ha
    rw [hqueue]
    exact List.mem_cons_of_mem _ ha
  -- without the action that is resolved, if it adds nothing
  have hrestStanding : action.added = none → Standing { p with delayedActions := rest } := by
    intro hnone
    rw [hnone] at htake
    exact .of_resolving (fun m hm => h.slots m (hrest _ hm))
      ⟨h.seated.active, fun slot hm => h.seated.queue slot (hrest _ hm)⟩ hphase
      ⟨htake, hwhole.default⟩ hupdate hpending
  have hdone : action.added = none → action ≠ .initializeMotion →
      (∃ r, MotionMaster.resolve { p with delayedActions := rest } answers action = some r ∧
        Direct { p with delayedActions := rest } r) → Standing q := by
    rintro hnone hinit ⟨r, hr, hdirect⟩
    rw [hrun] at hr
    cases hr
    have hstanding := hrestStanding hnone
    have hsteady := hstanding.steady hdelayed
    apply hstanding.of_direct hdelayed hdirect
    obtain ⟨calls, hcalls⟩ := (Traced.resolve_erases action).exists_log hrun
    exact (hsteady.resolve_outcome hnone hinit hcalls).idle_notMem hsteady.idle
  cases action with
  | initializeMotion =>
    have hstanding := hrestStanding rfl
    have hsteady := hstanding.steady hdelayed
    have hrun' : MotionMaster.directInitialize { p with delayedActions := rest } answers.select
        answers.initializeResult = some q := (initializeMotion_eq hdelayed).symm.trans hrun
    obtain ⟨r, hr, hdirect⟩ := @Invariant.directInitialize { p with delayedActions := rest }
      answers.initializeResult hsteady.whole.inv hdelayed answers.select
    rw [hrun'] at hr
    cases hr
    apply hstanding.of_direct hdelayed hdirect
    rw [activeGenerators, directInitialize_generators hsteady.whole.inv hrun']
    exact List.not_mem_nil
  | add m slot =>
    have hslot : slot ≠ .max := by
      rintro rfl
      apply h.slots m
      rw [hqueue]
      exact List.mem_cons_self
    obtain ⟨r, hr, hframe, hinv, hdefault, hqueue'⟩ := @Invariant.add_direct
      { p with delayedActions := rest } m slot answers.initializeResult htake
      (fun _ => hwhole.default) (fun hmax => absurd hmax hslot) hdelayed
    change MotionMaster.add { p with delayedActions := rest } m slot answers.initializeResult =
      some q at hrun
    rw [hrun] at hr
    cases hr
    obtain ⟨calls, hcalls⟩ := Traced.add_erases.exists_log hrun
    have houtcome := h.add_outcome hphase hqueue hcalls
    refine .of_resolving ?_ ⟨houtcome.idle_notMem h.seated.active, ?_⟩ (hframe.phase.trans hphase)
      ⟨hinv, hdefault hwhole.default⟩ (hframe.updateInProgress.trans hupdate)
      (hframe.initializationPending.trans hpending)
    · intro x hx
      rw [hqueue'] at hx
      exact h.slots x (hrest _ hx)
    · intro s hs
      rw [hqueue'] at hs
      exact h.seated.queue s (hrest _ hs)
  | remove movement slot =>
    have hlive := deletes_of_remove hdelayed hwhole.default hrun
    exact hdone rfl (fun heq => by cases heq)
      ((hrestStanding rfl).whole hdelayed |>.remove hdelayed hlive)
  | removeType type slot key =>
    exact hdone rfl (fun heq => by cases heq)
      ((hrestStanding rfl).whole hdelayed |>.removeType hdelayed type slot key)
  | clear =>
    exact hdone rfl (fun heq => by cases heq) ((hrestStanding rfl).whole hdelayed |>.clear hdelayed)
  | clearSlot slot =>
    exact hdone rfl (fun heq => by cases heq)
      ((hrestStanding rfl).whole hdelayed |>.clearSlot hdelayed slot)
  | clearFilter filter =>
    exact hdone rfl (fun heq => by cases heq)
      ((hrestStanding rfl).whole hdelayed |>.clearFilter hdelayed filter)

/-! ## The end of `Update` -/

theorem Standing.updated (h : Standing p) (hinv : Invariant [] [] [] p.activeGenerators p)
    (hdefault : p.defaultGenerator.isSome = true) (hpending : p.initializationPending = false) :
    Standing p.updated :=
  ⟨h.slots, ⟨h.seated.active, h.seated.queue⟩,
    ⟨⟨hinv.congr rfl rfl rfl rfl rfl rfl, hdefault⟩, rfl, hpending⟩⟩

theorem Standing.popTop {state : InitializationState} (h : Standing p)
    (hphase : p.phase = .updating top state) (hrun : p.popTop = some q) : Standing q := by
  obtain ⟨hwhole, hupdate, hpending, -⟩ := h.updating hphase
  unfold MotionMaster.popTop at hrun
  split at hrun
  · cases hrun
    exact h.updated hwhole.inv hwhole.default hpending
  · next node rest hgen =>
    have hnode : node ∈ p.generators := by
      rw [hgen]
      exact List.mem_cons_self
    obtain ⟨g, -, -, hg, -⟩ := hwhole.inv.split hnode
    rw [hg] at hgen hrun
    obtain ⟨x, hx, hrun⟩ := Option.bind_eq_some_iff.mp hrun
    cases hx
    obtain ⟨r, hr, heq⟩ := Option.bind_eq_some_iff.mp hrun
    cases heq
    have htake := @Invariant.take _ _ _ _ _ g [] rest node.1 hwhole.inv hgen
    have herase : p.erase node.1 g = { p with generators := rest } := by
      rw [erase, hgen, Traced.eraseFrom_head]
    rw [herase] at hr
    obtain ⟨hfinalize, hinv⟩ := htake.finalizeHook
    have heq : r = setGenerator { p with generators := rest } g (p.heap g).onFinalize := by
      have hr' := hr.symm.trans hfinalize
      exact Option.some.inj hr'
    have hregs : p.activeGenerators = g :: rest.flatMap Prod.snd := by
      rw [activeGenerators, hgen]
      rfl
    have hsub : ∀ y ∈ rest.flatMap Prod.snd, y ∈ p.activeGenerators := by
      intro y hy
      rw [hregs]
      exact List.mem_cons_of_mem _ hy
    rw [hregs] at hinv
    subst heq
    refine ⟨h.slots, ⟨fun hmem => h.seated.active (hsub _ hmem), h.seated.queue⟩, ?_⟩
    exact ⟨hinv.congr rfl rfl rfl rfl rfl rfl, hwhole.default, hupdate, hpending⟩

theorem Standing.released (h : Standing p) (hphase : p.phase = .popping m)
    (hrun : p.release m = some q) : Standing q.updated := by
  obtain ⟨hinv, hdefault, -, hpending⟩ := h.popping hphase
  have hnotMem : m ≠ idleGenerator → m ∉ p.activeGenerators := by
    intro hne hmem
    have haccount := hinv.accounted.account m hne
    grind [holds_of_active]
  obtain ⟨e, he, hinv'⟩ := hinv.release hnotMem
  rw [hrun] at he
  cases he
  exact ⟨h.slots, ⟨h.seated.active, h.seated.queue⟩,
    ⟨⟨hinv'.congr rfl rfl rfl rfl rfl rfl, hdefault⟩, rfl, hpending⟩⟩

theorem Standing.proceed (h : Standing p) (hrun : p.proceed answers = some q) : Standing q := by
  unfold MotionMaster.proceed at hrun
  split at hrun
  · cases hrun
  · next top state hphase =>
    obtain ⟨hwhole, -, hpending, -⟩ := h.updating hphase
    split at hrun
    · obtain ⟨-, hpop⟩ := Option.ite_none_right_eq_some.mp hrun
      exact h.popTop hphase hpop
    · cases hrun
      exact h.updated hwhole.inv hwhole.default hpending
  · next m hphase =>
    obtain ⟨r, hr, heq⟩ := Option.bind_eq_some_iff.mp hrun
    cases heq
    exact h.released hphase hr
  · next hphase =>
    obtain ⟨hwhole, hupdate, -⟩ := h.resolving hphase
    split at hrun
    · cases hrun
      refine .of_idle h.slots ⟨h.seated.active, h.seated.queue⟩ rfl ?_ hupdate ?_
      · exact hwhole.inv.congr rfl rfl rfl rfl rfl rfl
      · exact fun _ => hwhole.default
    · next action rest hqueue => exact h.resolve hphase hqueue hrun

/-- **The step lemma.** -/
theorem Standing.step {act : Action × Answers} (h : Standing p) (hs : Step p act q) :
    Standing q := by
  obtain ⟨hadmissible, hrun⟩ := hs
  obtain ⟨act, answers⟩ := act
  cases act with
  | addToWorld => exact h.addToWorld hadmissible hrun
  | update => exact h.update hadmissible hrun
  | call c =>
    cases hdelayed : p.isDelayed with
    | true => exact h.call_delayed hdelayed hrun
    | false =>
      apply h.call_direct hdelayed _ hrun
      rintro g slot rfl
      exact hadmissible.2.2
  | proceed => exact h.proceed hrun

/-- **The run lemma.** -/
theorem standing_of_reaches {ok : MotionMaster → Action × Answers → Prop}
    (h : Reaches Step ok start p) : Standing p :=
  h.invariant standing_start fun hs _ hstep => hs.step hstep

end MotionMaster

end EGServer.Movement
