import Mathlib.Logic.Relation

/-!
# Runs under a condition

The states a system reaches by steps that each meet a condition on the state they are taken
in. With the condition `fun _ _ => True` these are all runs.
-/

/-- `t` is reached from `s` by steps that each meet `ok` where they are taken. -/
def Reaches {σ τ : Type} (step : σ → τ → σ → Prop) (ok : σ → τ → Prop) : σ → σ → Prop :=
  Relation.ReflTransGen fun s t => ∃ a, ok s a ∧ step s a t

namespace Reaches

variable {σ τ : Type} {step : σ → τ → σ → Prop} {ok ok' : σ → τ → Prop} {s t u : σ}

theorem refl (s : σ) : Reaches step ok s s := Relation.ReflTransGen.refl

theorem next {a : τ} (h : Reaches step ok s t) (hok : ok t a) (hs : step t a u) :
    Reaches step ok s u :=
  Relation.ReflTransGen.tail h ⟨a, hok, hs⟩

/-- **The invariant rule.** What holds first and is kept by every step that meets the
condition holds of every state reached. -/
theorem invariant {I : σ → Prop} (h : Reaches step ok s t) (h0 : I s)
    (hstep : ∀ {s t a}, I s → ok s a → step s a t → I t) : I t := by
  induction h with
  | refl => exact h0
  | tail _ hs ih =>
    obtain ⟨a, hok, hs⟩ := hs
    exact hstep ih hok hs

end Reaches
