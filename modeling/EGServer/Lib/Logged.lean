import Mathlib.Logic.Basic

/-!
# Computations with a log

A computation that may fail and that writes a log. `Erases` says that without its log it is another
computation, and it goes through the steps of a program; `Returns` takes a run apart.
-/

/-- The result and what was logged, or a failure. -/
structure Logged (ε α : Type) where
  run : Option (α × List ε)

namespace Logged

variable {ε α β : Type}

instance : Monad (Logged ε) where
  pure a := ⟨some (a, [])⟩
  bind t k := ⟨t.run.bind fun r => (k r.1).run.map fun s => (s.1, r.2 ++ s.2)⟩

/-- A computation that logs nothing. -/
def lift (r : Option α) : Logged ε α := ⟨r.map fun a => (a, [])⟩

instance : MonadLift Option (Logged ε) := ⟨lift⟩

/-- A computation that logs one entry. -/
def log (entry : ε) (r : Option α) : Logged ε α := ⟨r.map fun a => (a, [entry])⟩

/-! ## Runs -/

/-- The computation succeeds with a result and a log. -/
def Returns (t : Logged ε α) (a : α) (l : List ε) : Prop := t.run = some (a, l)

namespace Returns

variable {t t' : Logged ε α} {k : α → Logged ε β} {r : Option α} {a a' : α} {b : β} {l : List ε}
  {entry : ε}

theorem pure_iff : (pure a' : Logged ε α).Returns a l ↔ a' = a ∧ l = [] := by
  show some (a', []) = some (a, l) ↔ _
  rw [Option.some.injEq, Prod.mk.injEq]
  exact and_congr_right fun _ => eq_comm

theorem lift_iff : (lift r : Logged ε α).Returns a l ↔ r = some a ∧ l = [] := by
  unfold Returns lift
  constructor
  · intro h
    obtain ⟨a', hr, heq⟩ := Option.map_eq_some_iff.mp h
    cases heq
    exact ⟨hr, rfl⟩
  · rintro ⟨rfl, rfl⟩
    rfl

theorem log_iff : (log entry r).Returns a l ↔ r = some a ∧ l = [entry] := by
  unfold Returns log
  constructor
  · intro h
    obtain ⟨a', hr, heq⟩ := Option.map_eq_some_iff.mp h
    cases heq
    exact ⟨hr, rfl⟩
  · rintro ⟨rfl, rfl⟩
    rfl

theorem bind_iff : (t >>= k).Returns b l ↔
    ∃ a l₁ l₂, t.Returns a l₁ ∧ (k a).Returns b l₂ ∧ l = l₁ ++ l₂ := by
  show (t.run.bind _) = some (b, l) ↔ _
  rw [Option.bind_eq_some_iff]
  constructor
  · rintro ⟨⟨a, l₁⟩, ht, hk⟩
    obtain ⟨⟨b', l₂⟩, hrun, heq⟩ := Option.map_eq_some_iff.mp hk
    cases heq
    exact ⟨a, l₁, l₂, ht, hrun, rfl⟩
  · rintro ⟨a, l₁, l₂, ht, hk, rfl⟩
    exact ⟨(a, l₁), ht, Option.map_eq_some_iff.mpr ⟨(b, l₂), hk, rfl⟩⟩

theorem lift_bind_iff : (lift r >>= k).Returns b l ↔ ∃ a, r = some a ∧ (k a).Returns b l := by
  rw [bind_iff]
  constructor
  · rintro ⟨a, l₁, l₂, ht, hk, rfl⟩
    obtain ⟨hr, rfl⟩ := lift_iff.mp ht
    exact ⟨a, hr, hk⟩
  · rintro ⟨a, hr, hk⟩
    exact ⟨a, [], l, lift_iff.mpr ⟨hr, rfl⟩, hk, rfl⟩

end Returns

/-! ## Without the log -/

/-- Without its log, `t` is `r`. -/
def Erases (t : Logged ε α) (r : Option α) : Prop := t.run.map Prod.fst = r

namespace Erases

variable {t t' : Logged ε α} {r r' : Option α} {k : α → Logged ε β} {k' : α → Option β} {a : α}
  {l : List ε}

theorem pure (a : α) : (Pure.pure a : Logged ε α).Erases (some a) := rfl

theorem lift (r : Option α) : (Logged.lift r : Logged ε α).Erases r := by
  cases r with
  | none => rfl
  | some a => rfl

theorem log (entry : ε) (r : Option α) : (Logged.log entry r).Erases r := by
  cases r with
  | none => rfl
  | some a => rfl

theorem bind (ht : t.Erases r) (hk : ∀ a, (k a).Erases (k' a)) :
    (t >>= k).Erases (r >>= k') := by
  unfold Erases at ht
  subst ht
  show (t.run.bind fun p => (k p.1).run.map fun s => (s.1, p.2 ++ s.2)).map Prod.fst =
    (t.run.map Prod.fst).bind k'
  cases t.run with
  | none => rfl
  | some p =>
    have hrun : (k p.1).run.map Prod.fst = k' p.1 := hk p.1
    show ((k p.1).run.map fun s => (s.1, p.2 ++ s.2)).map Prod.fst = k' p.1
    rw [← hrun, Option.map_map]
    rfl

theorem ite {c : Prop} [Decidable c] (h : t.Erases r) (h' : t'.Erases r') :
    (if c then t else t').Erases (if c then r else r') := by
  split
  · exact h
  · exact h'

/-- Every result has a log. -/
theorem exists_log (h : t.Erases r) (hr : r = some a) : ∃ l, t.Returns a l := by
  unfold Erases at h
  rw [hr] at h
  obtain ⟨⟨a', l⟩, ht, rfl⟩ := Option.map_eq_some_iff.mp h
  exact ⟨l, ht⟩

end Erases

end Logged
