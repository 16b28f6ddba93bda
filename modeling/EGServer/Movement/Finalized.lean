import EGServer.Movement.MotionSteps

/-!
# Finalizing with the truth

In every run, every operation finalizes the generators that it removes once, and tells them whether
they were current and whether they ended by themselves, unless it clears the two first generators by
a filter. `Initialize`, which is several operations in one, is not looked at here.
-/

namespace EGServer.Movement

open Logged (Returns)

namespace MotionMaster

variable {p q : MotionMaster} {act : Action × Answers} {calls : List FinalizeCall}
  {answers : Answers}

/-- `_DirectInitialize` may be called. -/
def Initializes (p : MotionMaster) : Action → Prop
  | .addToWorld => True
  | .call c => c = .initializeMotion
  | .update => False
  | .proceed => p.phase = .resolving ∧ ∃ rest, p.delayedActions = .initializeMotion :: rest

/-- The generator whose `Update` returned false. -/
def ended (p : MotionMaster) (act : Action × Answers) : Option Address :=
  match act.1, p.phase with
  | .proceed, .updating top state =>
    if state ≠ .success && !act.2.updateResult then some top else none
  | _, _ => none

/-- The filter by which a step clears. -/
def clearedBy (p : MotionMaster) (act : Action) : Option (Address → Bool) :=
  match act, p.phase, p.delayedActions with
  | .call c, _, _ => p.callFilter c
  | .proceed, .resolving, action :: _ => p.resolveFilter action
  | _, _, _ => none

/-! ## The steps that finalize nothing -/

theorem truthful_of_same {ended : Option Address} (h : Traced.Same p q) :
    Truthful p q ended [] := by
  apply truthful_nil
  intro g hg
  rw [held_congr h.defaultGenerator h.generators]
  exact hg

theorem callFilter_of_delayed (hdelayed : p.isDelayed = true) (c : Call) :
    p.callFilter c = none := by
  cases c with
  | clearMode mode => exact if_pos hdelayed
  | clearPriority priority => exact if_pos hdelayed
  | clearFilter filter => exact if_pos hdelayed
  | _ => rfl

theorem Standing.next_ne_idle (h : Standing p) : p.next ≠ idleGenerator := by
  apply Nat.ne_of_gt
  cases hphase : p.phase with
  | idle => exact (h.idle hphase).1.accounted.next_pos
  | updating top state => exact (h.updating hphase).1.inv.accounted.next_pos
  | popping m => exact (h.popping hphase).1.accounted.next_pos
  | resolving => exact (h.resolving hphase).1.inv.accounted.next_pos

theorem Standing.update_same (h : Standing p) (hphase : p.phase = .idle)
    (hrun : p.update answers = some q) : Traced.Same p q := by
  cases hflags : p.initializationPending || p.initializing with
  | true =>
    unfold MotionMaster.update at hrun
    rw [hflags, if_pos rfl] at hrun
    cases hrun
    exact Traced.Same.refl p
  | false =>
    obtain ⟨top, state, r, -, rfl, hwoken⟩ := update_woken (h.idle hphase).1 hflags hrun
    exact ⟨hwoken.generators, hwoken.defaultGenerator⟩

/-! ## Calls, delayed actions and the pop -/

theorem Standing.call_truthful_iff (h : Standing p) {c : Call}
    (hc : c ≠ .initializeMotion) (hrun : (Traced.call p answers c).Returns q calls) :
    Truthful p q none calls ↔
      ∀ filtered, p.callFilter c = some filtered → ¬ClearsTwo p filtered := by
  cases hdelayed : p.isDelayed with
  | true =>
    obtain ⟨hqueues, rfl⟩ := MotionMaster.call_delayed hdelayed h.next_ne_idle c hrun
    rw [callFilter_of_delayed hdelayed]
    exact ⟨fun _ _ heq => (by cases heq), fun _ => truthful_of_same hqueues.same⟩
  | false => exact ((h.steady hdelayed).call_outcome hc hrun).truthful_iff (h.steady hdelayed)

theorem Standing.resolve_truthful_iff (h : Standing p) (hphase : p.phase = .resolving)
    {action : DelayedAction} {rest : List DelayedAction}
    (hqueue : p.delayedActions = action :: rest) (hinit : action ≠ .initializeMotion)
    (hrun : (Traced.resolve { p with delayedActions := rest } answers action).Returns q calls) :
    Truthful p q none calls ↔
      ∀ filtered, p.resolveFilter action = some filtered → ¬ClearsTwo p filtered := by
  have hwhole := (h.resolving hphase).1
  cases hadded : action.added with
  | some m =>
    have hadd : ∃ slot, action = .add m slot := by
      cases action with
      | add movement slot =>
        cases hadded
        exact ⟨slot, rfl⟩
      | _ => cases hadded
    obtain ⟨slot, rfl⟩ := hadd
    exact (h.add_outcome hphase hqueue hrun).truthful_iff ⟨hwhole, h.seated.active⟩
  | none =>
    have htake := hwhole.inv.takeAction hqueue
    rw [hadded] at htake
    have hsteady : Steady { p with delayedActions := rest } :=
      ⟨⟨htake, hwhole.default⟩, h.seated.active⟩
    have hiff := (hsteady.resolve_outcome hadded hinit hrun).truthful_iff hsteady
    -- the queue is not looked at
    have hqueueFree : Truthful p q none calls ↔
        Truthful { p with delayedActions := rest } q none calls :=
      ⟨fun ht => ⟨ht.once, ht.active, ht.inform, ht.single⟩,
        fun ht => ⟨ht.once, ht.active, ht.inform, ht.single⟩⟩
    exact hqueueFree.trans hiff

/-- `_Pop(true, true)`: the generator that ended was current. -/
theorem Standing.popTop_truthful {top : Address} {state : InitializationState} (h : Standing p)
    (hphase : p.phase = .updating top state) (hrun : (Traced.popTop p).Returns q calls) :
    Truthful p q (some top) calls := by
  obtain ⟨hwhole, -, -, hcurrent⟩ := h.updating hphase
  unfold Traced.popTop at hrun
  split at hrun
  · obtain ⟨rfl, rfl⟩ := Returns.pure_iff.mp hrun
    exact truthful_of_same ⟨rfl, rfl⟩
  · next node rest hgen =>
    have hnode : node ∈ p.generators := by
      rw [hgen]
      exact List.mem_cons_self
    obtain ⟨g, -, -, hg, -⟩ := hwhole.inv.split hnode
    rw [hg] at hgen hrun
    obtain ⟨x, hx, hrun⟩ := Returns.lift_bind_iff.mp hrun
    cases hx
    obtain ⟨r, l₁, l₂, hfinalize, hreturn, rfl⟩ := Returns.bind_iff.mp hrun
    obtain ⟨rfl, rfl⟩ := Returns.pure_iff.mp hreturn
    obtain ⟨htouch, rfl⟩ := Traced.finalizeHook_returns hfinalize
    have htop : top = g := by
      rw [currentMovementGenerator_of_cons hgen] at hcurrent
      exact (Option.some.inj hcurrent).symm
    subst htop
    have hrest : r.generators = rest := by
      rw [htouch.generators]
      show eraseFrom node.1 top p.generators = rest
      rw [hgen, Traced.eraseFrom_head]
    rw [List.append_nil]
    have hdefault : r.defaultGenerator = p.defaultGenerator := htouch.defaultGenerator
    refine truthful_of_call ?_ ⟨fun _ => hcurrent, fun _ => rfl⟩ ⟨fun _ => rfl, fun _ => rfl⟩
    intro x hx hq
    obtain ⟨hactive, hgone⟩ := active_of_removed (q := r) hdefault hx hq
    grind [activeGenerators]

/-! ## Every step of every run -/

theorem Standing.proceed_truthful_iff (h : Standing p) (hact : ¬Initializes p .proceed)
    (hrun : (Traced.proceed p answers).Returns q calls) :
    Truthful p q (p.ended (.proceed, answers)) calls ↔
      ∀ filtered, p.clearedBy .proceed = some filtered → ¬ClearsTwo p filtered := by
  have hfree : ∀ {e : Option Address}, Truthful p q e calls → (Truthful p q e calls ↔
      ∀ filtered, (none : Option (Address → Bool)) = some filtered → ¬ClearsTwo p filtered) :=
    fun ht => ⟨fun _ _ heq => (by cases heq), fun _ => ht⟩
  unfold Traced.proceed at hrun
  unfold ended clearedBy
  cases hphase : p.phase with
  | idle =>
    rw [hphase] at hrun
    obtain ⟨hnone, -⟩ := Returns.lift_iff.mp hrun
    cases hnone
  | updating top state =>
    rw [hphase] at hrun
    dsimp only at hrun ⊢
    apply hfree
    split at hrun
    · next hended =>
      rw [if_pos hended]
      split at hrun
      · exact h.popTop_truthful hphase hrun
      · obtain ⟨hnone, -⟩ := Returns.lift_iff.mp hrun
        cases hnone
    · next hended =>
      rw [if_neg hended]
      obtain ⟨rfl, rfl⟩ := Returns.pure_iff.mp hrun
      exact truthful_of_same ⟨rfl, rfl⟩
  | popping m =>
    rw [hphase] at hrun
    apply hfree
    obtain ⟨r, hr, hreturn⟩ := Returns.lift_bind_iff.mp hrun
    obtain ⟨rfl, rfl⟩ := Returns.pure_iff.mp hreturn
    have htouch := release_touches hr
    exact truthful_of_same ⟨htouch.generators, htouch.defaultGenerator⟩
  | resolving =>
    cases hqueue : p.delayedActions with
    | nil =>
      simp only [hphase, hqueue] at hrun
      apply hfree
      obtain ⟨rfl, rfl⟩ := Returns.pure_iff.mp hrun
      exact truthful_of_same ⟨rfl, rfl⟩
    | cons action rest =>
      have hinit : action ≠ .initializeMotion := by
        rintro rfl
        exact hact ⟨hphase, rest, hqueue⟩
      have hrun' : (Traced.resolve { p with delayedActions := rest } answers action).Returns
          q calls := by
        split at hrun
        · next heq => cases hphase.symm.trans heq
        · next heq => cases hphase.symm.trans heq
        · next heq => cases hphase.symm.trans heq
        · grind
      exact h.resolve_truthful_iff hphase hqueue hinit hrun'

/-- **Generators are finalized with the truth**, in every state of every run, exactly if the step
does not clear the two first generators by a filter. -/
theorem finalize_truthful_iff (hreach : Reaches Step (fun _ _ => True) start p)
    (hadmissible : p.Admissible act) (hact : ¬Initializes p act.1)
    (hrun : (Traced.step p act).Returns q calls) :
    Truthful p q (p.ended act) calls ↔
      ∀ filtered, p.clearedBy act.1 = some filtered → ¬ClearsTwo p filtered := by
  have h := standing_of_reaches hreach
  obtain ⟨act, answers⟩ := act
  cases act with
  | addToWorld => exact absurd trivial hact
  | update =>
    obtain ⟨hupdate, rfl⟩ := Returns.lift_iff.mp hrun
    exact ⟨fun _ _ heq => (by cases heq),
      fun _ => truthful_of_same (h.update_same hadmissible hupdate)⟩
  | call c => exact h.call_truthful_iff hact hrun
  | proceed => exact h.proceed_truthful_iff hact hrun

/-! ## Two generators -/

def pointKind (priority : Nat) : MovementKind where
  mode := motionModeDefault
  priority := priority
  type := 8
  baseUnitState := 0
  immediate := false

def quietAnswers : Answers where
  initializeResult := true
  resetResult := true
  updateResult := true
  select := .idle

/-- Two active generators of one mode, the one made second on top. -/
def twoGenerators : MotionMaster :=
  let acts : List Action := [.addToWorld, .proceed, .call (.add (pointKind 1) .active),
    .call (.add (pointKind 2) .active)]
  (acts.foldlM (fun (p : MotionMaster) act => p.step (act, quietAnswers)) start).getD start

theorem reaches_twoGenerators : Reaches Step (fun _ _ => True) start twoGenerators :=
  ((((Reaches.refl start).next (a := (.addToWorld, quietAnswers)) trivial ⟨rfl, rfl⟩).next
    (a := (.proceed, quietAnswers)) trivial ⟨fun h => Phase.noConfusion h, rfl⟩).next
    (a := (.call (.add (pointKind 1) .active), quietAnswers)) trivial
    ⟨fun h => Phase.noConfusion h, rfl⟩).next
    (a := (.call (.add (pointKind 2) .active), quietAnswers)) trivial
    ⟨fun h => Phase.noConfusion h, rfl⟩

/-- All generators are cleared: the one on top is told that it was active. -/
theorem finalize_truthful_iff_clear : ∃ q calls,
    (Traced.step twoGenerators (.call .clear, quietAnswers)).Returns q calls ∧
      Truthful twoGenerators q none calls ∧
      calls = [⟨2, true, false⟩, ⟨1, false, false⟩] := by
  refine ⟨_, _, show _ = some _ from rfl, ?_, rfl⟩
  refine (@finalize_truthful_iff twoGenerators _ (.call .clear, quietAnswers) _
    reaches_twoGenerators (fun h => Phase.noConfusion h) (fun h => Call.noConfusion h)
    (show _ = some _ from rfl)).mpr ?_
  intro filtered h
  cases h

/-- The generators are cleared by their mode: the one that was waiting is told so too. -/
theorem waiting_finalized_active :
    twoGenerators.activeGenerators = [2, 1] ∧ twoGenerators.currentMovementGenerator = some 2 ∧
      ∃ q calls, (Traced.step twoGenerators (.call (.clearMode 0), quietAnswers)).Returns q calls ∧
        calls = [⟨2, true, false⟩, ⟨1, true, false⟩] ∧ ¬Truthful twoGenerators q none calls := by
  refine ⟨rfl, rfl, _, _, show _ = some _ from rfl, rfl, fun ht => ?_⟩
  have hcall := ht.active ⟨1, true, false⟩ (List.mem_cons_of_mem _ List.mem_cons_self)
    (mem_held_of_active (List.mem_cons_of_mem _ List.mem_cons_self))
  have hcurrent : twoGenerators.currentMovementGenerator = some 1 := hcall.mp rfl
  cases hcurrent

end MotionMaster

end EGServer.Movement
