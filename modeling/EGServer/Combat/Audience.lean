import EGServer.Combat.RunSpec
import Mathlib.Data.List.Sort

/-!
# Consistency at the hand-off to an AI

An AI hook may call `SetInCombatWith`, so the managers must be consistent whenever they hand
off. They are in every run whose erasing operations are quiet (`quietRun_consistent`). An
operation that is not quiet shows the AI a world in which one side of a combat reference is
gone, and an AI that starts combat there trips the duplicate-reference assertion.
-/

set_option linter.unusedSectionVars false

namespace EGServer.Combat

open StateExcept

variable {U F : Type} [DecidableEq U] [RoundedArith F]

/-! ## AIs that start combat -/

/-- What an AI decides to do in a hook: a list of `SetInCombatWith` calls. -/
abbrev Script (U F : Type) := Hook U → World U F → List (U × U × Bool)

/-- The AI that follows a script, also in the hooks that its own calls cause, `depth` deep. -/
def scriptedAI (env : Env U F) (script : Script U F) : Nat → AI U F
  | 0 => silentAI
  | depth + 1 => fun hook => do
    forEach (script hook (← get)) fun call => do
      let _ ← setInCombatWith env (scriptedAI env script depth) call.1 call.2.1 call.2.2

variable {E : Abort → Prop} {strict : Prop}

theorem scriptedAI_contract (env : Env U F) (script : Script U F) (depth : Nat) :
    AIContract strict E (scriptedAI env script depth) := by
  induction depth with
  | zero => exact silentAI_contract
  | succ depth ih =>
    intro hook w inv
    simp only [scriptedAI, wp_bind, wp_get]
    refine wp_forEach_inv (Hooked strict w) _ (fun call _ w₁ h₁ => ?_) w (Hooked.refl inv)
    rw [wp_bind]
    exact (setInCombatWith_spec ih h₁.inv _ _ _).mono fun _ _ h => h₁.trans h.1

/-! ## Quiet runs -/

/-- A run each of whose steps is quiet in the state before it. -/
inductive QuietRun (ai : Env U F → AI U F) : World U F → World U F → Prop
  | nil (w : World U F) : QuietRun ai w w
  | cons (step : Step U F) {w w' w'' : World U F} : QuietOp step.env step.op w →
      (exec step.env (ai step.env) step.op).run w = .ok ((), w') →
      QuietRun ai w' w'' → QuietRun ai w w''

/-- **The run lemma** for AIs that keep the contract and watch. -/
theorem QuietRun.inv {ai : Env U F → AI U F} {w w' : World U F}
    (hai : ∀ env, AIContract True (· = .outOfFuel) (ai env)) (h : QuietRun ai w w')
    (inv : WorldInv True w) : WorldInv True w' := by
  induction h with
  | nil w => exact inv
  | cons step hq hrun _ ih =>
    exact ih ((exec_spec (hai _) rfl inv _ (Or.inr hq)).of_ok hrun).1

/-- **Consistency at hand-off.** Let the AIs start any combat they like in their hooks. In
every run of quiet steps, every world handed to an AI was consistent, and the next quiet step
trips no assertion either, the AI's own calls included. -/
theorem quietRun_consistent (script : Env U F → Script U F) (depth : Nat) {w : World U F}
    (h : QuietRun (fun env => scriptedAI env (script env) depth) World.init w) :
    (∀ handed ∈ w.handOffs, handed.Consistent) ∧
      ∀ step : Step U F, QuietOp step.env step.op w → ∀ e,
        (exec step.env (scriptedAI step.env (script step.env) depth) step.op).run w = .error e →
          e = .outOfFuel := by
  have inv := h.inv (fun env => scriptedAI_contract env (script env) depth) WorldInv.init
  refine ⟨inv.logged trivial, fun step hq e he => ?_⟩
  have hstep := exec_spec (E := (· = .outOfFuel))
    (scriptedAI_contract step.env (script step.env) depth) rfl inv step.op (Or.inr hq)
  exact hstep.of_error he

/-- The world after a step that returns. -/
def after (ai : Env U F → AI U F) (step : Step U F) (w : World U F) : World U F :=
  match (exec step.env (ai step.env) step.op).run w with
  | .ok (_, w') => w'
  | .error _ => w

theorem run_after (ai : Env U F → AI U F) (step : Step U F) (w : World U F)
    (h : ((exec step.env (ai step.env) step.op).run w).isOk = true) :
    (exec step.env (ai step.env) step.op).run w = .ok ((), after ai step w) := by
  unfold after
  split
  · next w' hrun => exact hrun
  · next e hrun =>
    rw [hrun] at h
    cases h

/-! ## A small server -/

/-- A heap that iterates from the highest key down. -/
def byKey (entries : List (ThreatId × Key F)) : List ThreatId :=
  (entries.insertionSort fun a b => a.2.lt b.2 = false).map Prod.fst

theorem byKey_perm (entries : List (ThreatId × Key F)) :
    (byKey entries).Perm (entries.map Prod.fst) :=
  (List.perm_insertionSort _ entries).map Prod.fst

/-- An environment with the given units in which nothing special happens: everyone may fight,
nobody is controlled by a player, and every unit has an AI and a threat list. -/
def Env.plain (units : List U) (complete : ∀ u, u ∈ units) (nodup : units.Nodup) : Env U F where
  fuel := 10
  isValidCombat _ _ := true
  isControlledByPlayer _ := false
  isImmuneToPC _ := false
  isImmuneToNPC _ := false
  isPlayerControlled _ := false
  isWithinDistInMap _ _ := true
  hasAI _ := true
  canHaveThreatList _ := true
  shouldBeOffline _ _ := false
  isImmuneOrBreakableCC _ _ := false
  hasDetauntFrom _ _ := false
  isWithinMeleeRange _ _ := false
  isEngaged _ := true
  vehicleBase _ := none
  isAccessory _ := false
  privateObjectOwner _ _ := none
  redirectInfo _ := []
  getUnit _ guid := some guid
  getUnit_eq h := (Option.some.inj h).symm
  calculateModifiedThreat amount _ _ := amount
  tauntCasters _ := []
  threatAuras _ := []
  isUnderControl _ := false
  combatOrder _ _ _ := units
  mem_combatOrder _ _ _ := complete
  nodup_combatOrder _ _ _ := nodup
  threatOrder _ _ _ := units
  mem_threatOrder _ _ _ := complete
  nodup_threatOrder _ _ _ := nodup
  heapOrder t u := byKey (t.sorted u)
  heapOrder_perm _ _ := byKey_perm _

/-- A boss and the two players it fights. -/
inductive Fighter where
  | boss
  | tank
  | rogue
  deriving DecidableEq

/-- Fighters on open ground. -/
def Env.arena : Env Fighter ℚ :=
  Env.plain [.boss, .tank, .rogue] (fun u => by cases u <;> decide) (by decide)

/-- The rogue cannot be seen. -/
def Env.stealthed : Env Fighter ℚ :=
  { Env.arena with shouldBeOffline := fun _ victim => victim = .rogue }

/-- The rogue ran out of range. -/
def Env.fleeing : Env Fighter ℚ :=
  { Env.arena with isWithinDistInMap := fun u v => u ≠ .rogue ∧ v ≠ .rogue }

/-- The tank ran out of range, and everyone can be seen. -/
def Env.scattered : Env Fighter ℚ :=
  { Env.arena with isWithinDistInMap := fun u v => u ≠ .tank ∧ v ≠ .tank }

/-- The AI that answers a unit that starts threatening it by attacking the tank. -/
def attackTank : Script Fighter ℚ := fun hook _ =>
  match hook with
  | .justStartedThreateningMe me .rogue => [(me, .tank, false)]
  | _ => []

/-- The boss fights the tank, hears of the rogue and so attacks the tank again, and the rogue,
which is not its victim, leaves. -/
def fleeingRogue : Step Fighter ℚ × Step Fighter ℚ × Step Fighter ℚ :=
  (⟨.arena, .addThreat .boss .tank 10 none true true⟩,
   ⟨.arena, .addThreat .boss .rogue 5 none true true⟩,
   ⟨.fleeing, .endCombatBeyondRange .boss false⟩)

theorem fleeingRogue_consistent : ∃ w, w.handOffs.length = 6 ∧
    QuietRun (fun env => scriptedAI env attackTank 1) World.init w ∧
      ∀ handed ∈ w.handOffs, handed.Consistent := by
  let ai : Env Fighter ℚ → AI Fighter ℚ := fun env => scriptedAI env attackTank 1
  let w₁ := after ai fleeingRogue.1 World.init
  let w₂ := after ai fleeingRogue.2.1 w₁
  let w₃ := after ai fleeingRogue.2.2 w₂
  have hquiet : QuietRefs Env.fleeing w₂ false .boss fun q => beyondRange Env.fleeing q = true := by
    intro v i q he hq hexp
    cases v with
    | boss =>
      have hi : w₂.combat.combatRefs false .boss .boss = none := by decide +kernel
      rw [hi] at he
      cases he
    | tank =>
      -- the tank is in range
      have hi : w₂.combat.combatRefs false .boss .tank = some 0 := by decide +kernel
      have hr : (w₂.combat.refs 0).map (beyondRange Env.fleeing) = some false := by decide +kernel
      rw [hi] at he
      cases he
      rw [hq] at hr
      simp [hexp] at hr
    | rogue =>
      refine ⟨Or.inr (Or.inr (Or.inl ⟨0, ?_, ?_⟩)), Or.inr (Or.inl ?_)⟩ <;> decide +kernel
  have hrun : QuietRun ai World.init w₃ :=
    .cons fleeingRogue.1 trivial (run_after ai _ _ (by decide +kernel))
      (.cons fleeingRogue.2.1 trivial (run_after ai _ _ (by decide +kernel))
        (.cons fleeingRogue.2.2 ⟨hquiet, fun h => nomatch h⟩
          (run_after ai _ _ (by decide +kernel)) (.nil _)))
  exact ⟨w₃, by decide +kernel, hrun, (quietRun_consistent (fun _ => attackTank) 1 hrun).1⟩

/-- The boss has the tank as its victim when the tank leaves. The rogue was stealthed when it
came onto the list, and so is offline there until the boss looks again. -/
def stealthedRogue : List (Step Fighter ℚ) :=
  [⟨.stealthed, .addThreat .boss .tank 10 none true true⟩,
   ⟨.stealthed, .addThreat .boss .rogue 5 none true true⟩,
   ⟨.scattered, .endCombatBeyondRange .boss false⟩]

/-- Some hook was shown a world in which only one of boss and tank is in combat with the other. -/
def handedTorn (w : World Fighter ℚ) : Bool :=
  w.handOffs.any fun h => (h.combat.combatRefs false .boss .tank).isSome !=
    (h.combat.combatRefs false .tank .boss).isSome

theorem not_consistent_of_handedTorn {w : World Fighter ℚ} (h : handedTorn w = true) :
    ∃ handed ∈ w.handOffs, ¬handed.Consistent := by
  obtain ⟨handed, hmem, hne⟩ := List.any_eq_true.mp h
  refine ⟨handed, hmem, fun hc => ?_⟩
  rw [hc.symmetric false .boss .tank] at hne
  simp at hne

/-- **The boss hears of the rogue while it is only half out of combat with the tank.** When the
tank's reference is ended, the boss selects a new victim before the tank has forgotten the
boss; an AI that attacks the tank there runs into the duplicate assertion. -/
theorem stealthedRogue_torn :
    (∃ w, (run (fun _ => silentAI) stealthedRogue).run World.init = .ok ((), w) ∧
      ∃ handed ∈ w.handOffs, ¬handed.Consistent) ∧
    ∃ e, (run (fun env => scriptedAI env attackTank 1) stealthedRogue).run World.init = .error e ∧
      e = .duplicate := by
  have hsilent : (match (run (fun _ => silentAI) stealthedRogue).run World.init with
      | .ok (_, w) => handedTorn w
      | .error _ => false) = true := by decide +kernel
  have hscript : (match (run (fun env => scriptedAI env attackTank 1) stealthedRogue).run
      World.init with
      | .ok _ => false
      | .error e => decide (e = .duplicate)) = true := by decide +kernel
  constructor
  · grind [not_consistent_of_handedTorn]
  · split at hscript
    · cases hscript
    · next e hrun => exact ⟨e, hrun, of_decide_eq_true hscript⟩

end EGServer.Combat
