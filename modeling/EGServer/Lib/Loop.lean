import Mathlib.Logic.Basic

/-!
# Loops that are left

A loop is its body: a turn of it goes on with a new state or leaves the loop with a result. It is run
for a number of turns at most. A measure that every turn lowers says how many are enough.
-/

namespace Loop

variable {σ τ : Type}

/-- What a turn of a loop does. -/
inductive Turn (σ τ : Type) where
  | again (state : σ)
  | leave (result : τ)

/-- The loop, for `turns` turns at most. -/
def run (body : σ → Turn σ τ) : Nat → σ → Option τ
  | 0, _ => none
  | turns + 1, s =>
    match body s with
    | .again s' => run body turns s'
    | .leave t => some t

variable {body : σ → Turn σ τ} {s s' : σ} {t : τ} {turns : Nat}

theorem run_of_again (h : body s = .again s') : run body (turns + 1) s = run body turns s' := by
  rw [run, h]

theorem run_of_leave (h : body s = .leave t) : run body (turns + 1) s = some t := by
  rw [run, h]

/-- **The loop rule.** A turn keeps the invariant and lowers the measure, or it leaves with the
postcondition: then the loop is left, with the postcondition. -/
theorem exists_run {I : σ → Prop} {P : τ → Prop} (measure : σ → Nat)
    (hturn : ∀ s, I s → (∃ s', body s = .again s' ∧ I s' ∧ measure s' < measure s) ∨
      ∃ t, body s = .leave t ∧ P t)
    (h : I s) (hturns : measure s < turns) : ∃ t, run body turns s = some t ∧ P t := by
  induction turns generalizing s with
  | zero => exact (Nat.not_lt_zero _ hturns).elim
  | succ turns ih =>
    grind [run_of_leave, run_of_again]

end Loop
