import EGServer.Movement.Truthful

/-!
# Runs of the motion master

`Standing` holds between any two steps, in the middle of an operation too, and every step keeps it.
The idle generator is shared, so that it is not counted; `Seated` says of it that it is never an
active one.
-/

namespace EGServer.Movement

open Logged (Returns)

namespace MotionMaster

variable {p p₀ q r : MotionMaster} {g m top : Address} {answers : Answers}

/-! ## The invariant -/

/-- The idle generator is not active, and will not be. -/
structure Seated (p : MotionMaster) : Prop where
  active : idleGenerator ∉ p.activeGenerators
  queue : ∀ slot, DelayedAction.add idleGenerator slot ∈ p.delayedActions → slot = .default

/-- What holds in a phase. -/
def PhaseInvariant (p : MotionMaster) : Prop :=
  match p.phase with
  | .idle => Invariant [] [] [] p.activeGenerators p ∧ p.updateInProgress = false ∧
      (p.initializationPending = false → p.defaultGenerator.isSome = true)
  | .updating top _ => Whole p ∧ p.updateInProgress = true ∧ p.initializationPending = false ∧
      p.currentMovementGenerator = some top
  | .popping m => Invariant [] [] [m] (m :: p.activeGenerators) p ∧
      p.defaultGenerator.isSome = true ∧ p.updateInProgress = true ∧ p.initializationPending = false
  | .resolving => Whole p ∧ p.updateInProgress = false ∧ p.initializationPending = false

structure Standing (p : MotionMaster) : Prop where
  slots : p.SlotsValid
  seated : p.Seated
  phase : p.PhaseInvariant

theorem Standing.of_idle (hslots : p.SlotsValid) (hseated : p.Seated) (hphase : p.phase = .idle)
    (h : Invariant [] [] [] p.activeGenerators p) (hupdate : p.updateInProgress = false)
    (hdefault : p.initializationPending = false → p.defaultGenerator.isSome = true) :
    Standing p := by
  refine ⟨hslots, hseated, ?_⟩
  unfold PhaseInvariant
  rw [hphase]
  exact ⟨h, hupdate, hdefault⟩

theorem Standing.of_resolving (hslots : p.SlotsValid) (hseated : p.Seated)
    (hphase : p.phase = .resolving) (h : Whole p) (hupdate : p.updateInProgress = false)
    (hpending : p.initializationPending = false) : Standing p := by
  refine ⟨hslots, hseated, ?_⟩
  unfold PhaseInvariant
  rw [hphase]
  exact ⟨h, hupdate, hpending⟩

theorem Standing.idle (h : Standing p) (hphase : p.phase = .idle) :
    Invariant [] [] [] p.activeGenerators p ∧ p.updateInProgress = false ∧
      (p.initializationPending = false → p.defaultGenerator.isSome = true) := by
  have hinv := h.phase
  unfold PhaseInvariant at hinv
  rw [hphase] at hinv
  exact hinv

theorem Standing.updating {state : InitializationState} (h : Standing p)
    (hphase : p.phase = .updating top state) : Whole p ∧ p.updateInProgress = true ∧
      p.initializationPending = false ∧ p.currentMovementGenerator = some top := by
  have hinv := h.phase
  unfold PhaseInvariant at hinv
  rw [hphase] at hinv
  exact hinv

theorem Standing.popping (h : Standing p) (hphase : p.phase = .popping m) :
    Invariant [] [] [m] (m :: p.activeGenerators) p ∧ p.defaultGenerator.isSome = true ∧
      p.updateInProgress = true ∧ p.initializationPending = false := by
  have hinv := h.phase
  unfold PhaseInvariant at hinv
  rw [hphase] at hinv
  exact hinv

theorem Standing.resolving (h : Standing p) (hphase : p.phase = .resolving) :
    Whole p ∧ p.updateInProgress = false ∧ p.initializationPending = false := by
  have hinv := h.phase
  unfold PhaseInvariant at hinv
  rw [hphase] at hinv
  exact hinv

theorem standing_start : Standing start := by
  refine .of_idle ?_ ⟨?_, ?_⟩ rfl ?_ rfl ?_
  · intro m hm
    cases hm
  · intro hm
    cases hm
  · intro slot hm
    cases hm
  · refine ⟨⟨List.Pairwise.nil, ?_⟩, ⟨?_, ?_, rfl, Nat.one_pos⟩, List.Perm.refl _,
      ⟨rfl, rfl, rfl, ?_, ?_⟩⟩
    · intro node hnode
      cases hnode
    · intro g hg
      have hge : ¬g < start.next := fun hlt => hg (Nat.lt_one_iff.mp hlt)
      rw [if_neg hge]
      rfl
    · intro g _
      rfl
    · rintro g (hg | hg)
      · cases hg
      · cases hg
    · rintro g (hg | hg)
      · cases hg
      · cases hg
  · intro hpending
    cases hpending

theorem Standing.whole (h : Standing p) (hdelayed : p.isDelayed = false) : Whole p := by
  rw [isDelayed, Bool.or_eq_false_iff] at hdelayed
  cases hphase : p.phase with
  | idle =>
    obtain ⟨hinv, -, hdefault⟩ := h.idle hphase
    exact ⟨hinv, hdefault hdelayed.2⟩
  | updating top state =>
    exact (h.updating hphase).1
  | popping m =>
    rw [(h.popping hphase).2.2.1] at hdelayed
    exact absurd hdelayed.1 (by decide)
  | resolving => exact (h.resolving hphase).1

theorem Standing.steady (h : Standing p) (hdelayed : p.isDelayed = false) : Steady p :=
  ⟨h.whole hdelayed, h.seated.active⟩

/-! ## Calls -/

theorem Outcome.idle_notMem {cleared : Option (Address → Bool)} {calls : List FinalizeCall}
    (hidle : idleGenerator ∉ p.activeGenerators) (ho : Outcome p cleared q calls) :
    idleGenerator ∉ q.activeGenerators := by
  cases ho with
  | stay hdefault hgen =>
    rw [activeGenerators, hgen]
    exact hidle
  | immediate hm hdefault hgen =>
    rw [activeGenerators, hgen]
    exact hidle
  | replaceDefault hd hdefault hgen =>
    rw [activeGenerators, hgen]
    exact hidle
  | insert hm hp hgen hdefault =>
    grind [activeGenerators]
  | replace hm hp hgen hdefault =>
    grind [activeGenerators]
  | remove hp hgen hdefault =>
    grind [activeGenerators]
  | clear hgen hdefault =>
    rw [activeGenerators, hgen]
    exact List.not_mem_nil
  | clearFilter filtered hgen hdefault =>
    rw [activeGenerators, hgen]
    intro hmem
    obtain ⟨node, hnode, hmem⟩ := List.mem_flatMap.mp hmem
    exact hidle (List.mem_flatMap.mpr ⟨node, (List.mem_filter.mp hnode).1, hmem⟩)

/-- What a delayed call does: it keeps the container and may put an action into the queue. -/
structure Queues (p q : MotionMaster) : Prop where
  same : Traced.Same p q
  queue : ∀ action ∈ q.delayedActions, action ∈ p.delayedActions ∨
    ∀ slot, action = .add idleGenerator slot → slot = .default

theorem Queues.of_same (hsame : Traced.Same p q) (h : q.delayedActions = p.delayedActions) :
    Queues p q :=
  ⟨hsame, fun _ hmem => .inl (h ▸ hmem)⟩

theorem Queues.delay {action : DelayedAction}
    (h : ∀ slot, action = .add idleGenerator slot → slot = .default) :
    Queues p (p.delay action) := by
  refine ⟨⟨rfl, rfl⟩, fun a hmem => ?_⟩
  rcases List.mem_append.mp hmem with hmem | hmem
  · exact .inl hmem
  · rw [List.mem_singleton.mp hmem]
    exact .inr h

theorem modify_queue {f : MovementGenerator → MovementGenerator} (h : p.modify g f = some q) :
    q.delayedActions = p.delayedActions := by
  unfold modify at h
  obtain ⟨a, -, heq⟩ := Option.bind_eq_some_iff.mp h
  cases heq
  rfl

theorem initializeHook_delayed (h : p.initializeHook m = some q) :
    q.delayedActions = p.delayedActions ∧ q.isDelayed = p.isDelayed := by
  obtain ⟨a, -, heq⟩ := Option.bind_eq_some_iff.mp h
  cases heq
  exact ⟨rfl, rfl⟩

theorem add_delayed {slot : MovementSlot} {ok : Bool} {calls : List FinalizeCall}
    (hdelayed : p.isDelayed = true) (hm : m = idleGenerator → slot = .default)
    (h : (Traced.add p m slot ok).Returns q calls) : Queues p q ∧ calls = [] := by
  have hfile : ∀ r : MotionMaster, r.isDelayed = true →
      (Traced.file r m slot).Returns q calls → Queues r q ∧ calls = [] := by
    intro r hr hq
    rw [Traced.file, if_pos hr] at hq
    obtain ⟨rfl, rfl⟩ := Returns.pure_iff.mp hq
    refine ⟨Queues.delay ?_, rfl⟩
    intro s heq
    cases heq
    exact hm rfl
  have hrefuse : ∀ r : MotionMaster, Traced.Same p r → r.delayedActions = p.delayedActions →
      (Logged.lift (r.refuse m) : Traced MotionMaster).Returns q calls →
        Queues p q ∧ calls = [] := by
    intro r hsame hr hq
    obtain ⟨hq', rfl⟩ := Returns.lift_iff.mp hq
    exact ⟨Queues.of_same (hsame.touches (modify_touches hq')) ((modify_queue hq').trans hr), rfl⟩
  unfold Traced.add at h
  split at h
  · exact hrefuse p (Traced.Same.refl p) rfl h
  · obtain ⟨a, -, h⟩ := Returns.lift_bind_iff.mp h
    split at h
    · split at h
      · obtain ⟨r, hr, h⟩ := Returns.lift_bind_iff.mp h
        obtain ⟨hqueue, hdelayed'⟩ := initializeHook_delayed hr
        have hsame := (Traced.Same.refl p).touches (modify_touches hr)
        split at h
        · obtain ⟨hqueues, hcalls⟩ := hfile r (hdelayed'.trans hdelayed) h
          refine ⟨⟨⟨?_, ?_⟩, fun action hmem => ?_⟩, hcalls⟩
          · exact hqueues.same.generators.trans hsame.generators
          · exact hqueues.same.defaultGenerator.trans hsame.defaultGenerator
          · rw [← hqueue]
            exact hqueues.queue action hmem
        · exact hrefuse r hsame hqueue h
      · exact hrefuse p (Traced.Same.refl p) rfl h
    · exact hfile p hdelayed h

/-- **A delayed call** finalizes nothing; it goes to the queue. -/
theorem call_delayed {calls : List FinalizeCall} (hdelayed : p.isDelayed = true)
    (hnext : p.next ≠ idleGenerator) (c : Call)
    (h : (Traced.call p answers c).Returns q calls) : Queues p q ∧ calls = [] := by
  have hstay : (pure p : Traced MotionMaster).Returns q calls → Queues p q ∧ calls = [] := by
    intro hq
    obtain ⟨rfl, rfl⟩ := Returns.pure_iff.mp hq
    exact ⟨Queues.of_same (Traced.Same.refl p) rfl, rfl⟩
  have hdelay : ∀ action : DelayedAction, action.added = none →
      (pure (p.delay action) : Traced MotionMaster).Returns q calls →
        Queues p q ∧ calls = [] := by
    intro action hnone hq
    obtain ⟨rfl, rfl⟩ := Returns.pure_iff.mp hq
    refine ⟨Queues.delay ?_, rfl⟩
    intro slot heq
    rw [heq] at hnone
    cases hnone
  have hfilter : ∀ filter, (Traced.clearFilter p filter).Returns q calls →
      Queues p q ∧ calls = [] := by
    intro filter hq
    rw [Traced.clearFilter, if_pos hdelayed] at hq
    exact hdelay _ rfl hq
  cases c with
  | initializeMotion =>
    change (Traced.initializeMotion p answers.select answers.initializeResult).Returns q calls at h
    unfold Traced.initializeMotion at h
    split at h
    · exact hstay h
    · next hpending =>
      rw [isDelayed, Bool.or_eq_true] at hdelayed
      rw [if_pos (hdelayed.resolve_right hpending)] at h
      exact hdelay _ rfl h
  | add kind slot =>
    obtain ⟨hqueues, hcalls⟩ := @add_delayed (p.create kind) q p.next slot
      answers.initializeResult calls hdelayed (fun heq => absurd heq hnext) h
    exact ⟨⟨⟨hqueues.same.generators, hqueues.same.defaultGenerator⟩, hqueues.queue⟩, hcalls⟩
  | moveIdle => exact add_delayed hdelayed (fun _ => rfl) h
  | remove movement slot =>
    change (Traced.remove p movement slot).Returns q calls at h
    unfold Traced.remove at h
    split at h
    · exact hstay h
    · exact hdelay _ rfl h
  | removeType type slot key =>
    change (Traced.removeType p type slot key).Returns q calls at h
    unfold Traced.removeType at h
    split at h
    · exact hstay h
    · exact hdelay _ rfl h
  | clear =>
    change (Traced.clear p).Returns q calls at h
    rw [Traced.clear, if_pos hdelayed] at h
    exact hdelay _ rfl h
  | clearSlot slot =>
    change (Traced.clearSlot p slot).Returns q calls at h
    unfold Traced.clearSlot at h
    split at h
    · exact hstay h
    · exact hdelay _ rfl h
  | clearMode mode =>
    change (Traced.clearMode p mode).Returns q calls at h
    unfold Traced.clearMode at h
    split at h
    · exact hstay h
    · exact hfilter _ h
  | clearPriority priority =>
    change (Traced.clearPriority p priority).Returns q calls at h
    unfold Traced.clearPriority at h
    split at h
    · exact hstay h
    · exact hfilter _ h
  | clearFilter filter => exact hfilter filter h
  | preventStaticInitialization =>
    obtain ⟨rfl, rfl⟩ := Returns.pure_iff.mp h
    exact ⟨Queues.of_same ⟨rfl, rfl⟩ rfl, rfl⟩

theorem Seated.queues (h : Seated p) (hqueue : Queues p q) : Seated q := by
  constructor
  · rw [activeGenerators, hqueue.same.generators]
    exact h.active
  · intro slot hmem
    rcases hqueue.queue _ hmem with hmem | hdefault
    · exact h.queue slot hmem
    · exact hdefault slot rfl

/-! ## Initialization -/

theorem addDefault_generators {ok : Bool} (h : p.add m .default ok = some q) :
    q.generators = p.generators := by
  have hfile : ∀ r : MotionMaster, r.file m .default = some q → q.generators = r.generators := by
    intro r hq
    unfold file at hq
    split at hq
    · cases hq
      rfl
    · change r.directAddDefault m = some q at hq
      unfold MotionMaster.directAddDefault at hq
      split at hq
      · cases hq
        rfl
      · obtain ⟨r', hr', hq⟩ := Option.bind_eq_some_iff.mp hq
        rw [(pointerDeleter_touches hq).generators]
        exact (modify_touches hr').generators
  unfold MotionMaster.add at h
  split at h
  · exact (modify_touches h).generators
  · obtain ⟨a, -, h⟩ := Option.bind_eq_some_iff.mp h
    split at h
    · split at h
      · obtain ⟨r, hr, h⟩ := Option.bind_eq_some_iff.mp h
        have hgen := (modify_touches hr).generators
        split at h
        · exact (hfile r h).trans hgen
        · exact (modify_touches h).generators.trans hgen
      · exact (modify_touches h).generators
    · exact hfile p h

/-- `_DirectInitialize` leaves the default generator only. -/
theorem directInitialize_generators {type : DefaultMovementType} {ok : Bool}
    (hinv : Invariant [] [] [] p.activeGenerators p) (h : p.directInitialize type ok = some q) :
    q.generators = [] := by
  obtain ⟨p₁, hp₁, h⟩ := Option.bind_eq_some_iff.mp h
  obtain ⟨p₂, hp₂, h⟩ := Option.bind_eq_some_iff.mp h
  obtain ⟨e, d, b, he, h₁, -⟩ := hinv.directClearDefault
  rw [he] at hp₁
  cases hp₁
  obtain ⟨e', he', -⟩ := Invariant.directClear
    (p := after { p with defaultGenerator := d, staticInitializationPending := b } e) h₁
  rw [he'] at hp₂
  cases hp₂
  cases type with
  | idle => exact addDefault_generators h
  | random => exact addDefault_generators h
  | waypoint => exact addDefault_generators h

/-! ## Waking the current generator -/

/-- The hooks of `Update`: the current generator may wake up, and nothing else changes. -/
structure Woken (p q : MotionMaster) : Prop where
  inv : Invariant [] [] [] q.activeGenerators q
  generators : q.generators = p.generators
  defaultGenerator : q.defaultGenerator = p.defaultGenerator
  queue : q.delayedActions = p.delayedActions
  updateInProgress : q.updateInProgress = p.updateInProgress
  initializationPending : q.initializationPending = p.initializationPending

theorem Woken.current (h : Woken p q) :
    q.currentMovementGenerator = p.currentMovementGenerator := by
  rw [currentMovementGenerator, currentMovementGenerator, h.generators, h.defaultGenerator]

theorem held_of_current (h : p.currentMovementGenerator = some g) :
    p.defaultGenerator = some g ∨ g ∈ p.activeGenerators := by
  grind [List.mem_of_head?, activeGenerators, currentMovementGenerator]

theorem Invariant.notPending_of_held (h : Invariant [] [] [] p.activeGenerators p)
    (hg : g ≠ idleGenerator) (hheld : p.defaultGenerator = some g ∨ g ∈ p.activeGenerators) :
    g ∉ p.pendingAdds := by
  intro hpending
  have haccount := h.accounted.account g hg
  grind [holds]

theorem Woken.modify {f : MovementGenerator → MovementGenerator} (h : Woken p q)
    (hcurrent : p.currentMovementGenerator = some g)
    (hkind : ∀ a, (f a).toMovementKind = a.toMovementKind)
    (hcounts : ∀ a, (f a).deletes = a.deletes ∧ (f a).finalizes = a.finalizes ∧
      (f a).refused = a.refused)
    (hidle : ∀ a, a.initializationPending = false →
      (f a).initializationPending = false ∧ (f a).deactivated = false)
    (hmodify : q.modify g f = some r) : Woken p r := by
  have hcurrent' : q.currentMovementGenerator = some g := h.current.trans hcurrent
  have hheld := held_of_current hcurrent'
  have heq : r = q.setGenerator g (f (q.heap g)) := by
    grind [MotionMaster.read, MotionMaster.modify]
  subst heq
  obtain ⟨hdeletes, hfinalizes, hrefused⟩ := hcounts (q.heap g)
  refine ⟨⟨h.inv.filed.setGenerator (hkind _), ?_, h.inv.registered.setGenerator (hkind _), ?_⟩,
    h.generators, h.defaultGenerator, h.queue, h.updateInProgress, h.initializationPending⟩
  · apply h.inv.accounted.setGenerator
    · intro hg
      rw [hdeletes, hg]
      exact h.inv.accounted.idle
    · intro _
      rw [hdeletes]
    · intro hg
      rw [hfinalizes, hrefused, hdeletes]
      exact h.inv.accounted.finals g hg
    · intro x _
      rfl
    · intro x _
      rfl
  · refine h.inv.calm.setGenerator (hkind _) ?_ ?_ ?_
    · intro hg
      exact hidle _ (hg ▸ h.inv.calm.pending)
    · rintro (hfresh | hpending) hne
      · cases hfresh
      · exact absurd hpending (h.inv.notPending_of_held hne hheld)
    · intro _ _ _ _
      exact hcurrent'

theorem Woken.initializeHook (h : Woken p q) (hcurrent : p.currentMovementGenerator = some g)
    (hr : q.initializeHook g = some r) : Woken p r :=
  h.modify (f := MovementGenerator.onInitialize) hcurrent (fun _ => rfl)
    (fun _ => ⟨rfl, rfl, rfl⟩) (fun _ _ => ⟨rfl, rfl⟩) hr

theorem Woken.resetHook (h : Woken p q) (hcurrent : p.currentMovementGenerator = some g)
    (hr : q.resetHook g = some r) : Woken p r :=
  h.modify (f := MovementGenerator.onReset) hcurrent (fun _ => rfl)
    (fun _ => ⟨rfl, rfl, rfl⟩) (fun _ ha => ⟨ha, rfl⟩) hr

/-- The start of `Update`. -/
theorem update_woken (h : Invariant [] [] [] p.activeGenerators p)
    (hpending : (p.initializationPending || p.initializing) = false)
    (hrun : p.update answers = some q) : ∃ top state r,
      p.currentMovementGenerator = some top ∧ q = { r with phase := .updating top state } ∧
        Woken { p with updateInProgress := true } r := by
  unfold MotionMaster.update at hrun
  rw [hpending, if_neg (by decide)] at hrun
  obtain ⟨top, htop, hrun⟩ := Option.bind_eq_some_iff.mp hrun
  obtain ⟨⟨p₁, state₁⟩, h₁, hrun⟩ := Option.bind_eq_some_iff.mp hrun
  obtain ⟨⟨p₂, state₂⟩, h₂, hrun⟩ := Option.bind_eq_some_iff.mp hrun
  obtain ⟨⟨p₃, state₃⟩, h₃, hrun⟩ := Option.bind_eq_some_iff.mp hrun
  obtain ⟨a, -, hrun⟩ := Option.bind_eq_some_iff.mp hrun
  obtain ⟨-, hrun⟩ := Option.ite_none_left_eq_some.mp hrun
  cases hrun
  have htop' : currentMovementGenerator { p with updateInProgress := true } = some top := htop
  have hstart : Woken { p with updateInProgress := true } { p with updateInProgress := true } :=
    ⟨h.congr rfl rfl rfl rfl rfl rfl, rfl, rfl, rfl, rfl, rfl⟩
  have hwoken₁ : Woken { p with updateInProgress := true } p₁ := by
    unfold initializeStatic at h₁
    split at h₁
    · split at h₁
      · cases h₁
        exact ⟨h.congr rfl rfl rfl rfl rfl rfl, rfl, rfl, rfl, rfl, rfl⟩
      · obtain ⟨r, hr, heq⟩ := Option.bind_eq_some_iff.mp h₁
        cases heq
        refine Woken.initializeHook (g := top) ?_ htop' hr
        exact ⟨h.congr rfl rfl rfl rfl rfl rfl, rfl, rfl, rfl, rfl, rfl⟩
    · cases h₁
      exact hstart
  have hwoken₂ : Woken { p with updateInProgress := true } p₂ := by
    obtain ⟨a, -, h₂⟩ := Option.bind_eq_some_iff.mp h₂
    split at h₂
    · obtain ⟨r, hr, heq⟩ := Option.bind_eq_some_iff.mp h₂
      cases heq
      exact hwoken₁.initializeHook htop' hr
    · cases h₂
      exact hwoken₁
  refine ⟨top, state₃, p₃, htop, rfl, ?_⟩
  obtain ⟨a, -, h₃⟩ := Option.bind_eq_some_iff.mp h₃
  split at h₃
  · obtain ⟨r, hr, heq⟩ := Option.bind_eq_some_iff.mp h₃
    cases heq
    exact hwoken₂.resetHook htop' hr
  · cases h₃
    exact hwoken₂

end MotionMaster

end EGServer.Movement
