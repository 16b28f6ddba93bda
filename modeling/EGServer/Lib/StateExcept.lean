import Mathlib.Tactic.Common

/-!
# Weakest preconditions for stateful code that may abort

Imperative code with assertions is embedded as `StateT σ (Except ε)`: it reads and
writes a state, and an assertion that fails (or a pointer that dangles) is an `error`.

`wp E m s Q` says that running `m` from `s` either returns and establishes `Q`, or aborts
with an error that `E` tolerates. With `E = fun _ => False` it is total correctness; a
development whose loops are unrolled on fuel tolerates exactly its own out-of-fuel error.

The connectives compute (`wp_bind`, `wp_get`, …), so a proof about a program text is a
walk along it: `simp` takes the primitive steps, and `wp.mono` plugs in the
specification of a call. Loops come with one rule each, over the list still to be visited.
-/

namespace StateExcept

variable {σ τ ε α β : Type}

/-! ## The predicate transformer -/

/-- Running `m` from `s` establishes `Q`, or aborts with an error that `E` tolerates. -/
def wp (E : ε → Prop) (m : StateT σ (Except ε) α) (s : σ) (Q : α → σ → Prop) : Prop :=
  match m.run s with
  | .ok (a, s') => Q a s'
  | .error e => E e

variable {E : ε → Prop} {m : StateT σ (Except ε) α} {Q Q' : α → σ → Prop} {s s' : σ}

theorem wp_of_run_ok {a : α} (h : m.run s = .ok (a, s')) : wp E m s Q ↔ Q a s' := by
  unfold wp; rw [h]

/-- What `wp` says of a run that returned. -/
theorem wp.of_ok {a : α} (hm : wp E m s Q) (h : m.run s = .ok (a, s')) : Q a s' :=
  (wp_of_run_ok h).mp hm

/-- What `wp` says of a run that aborted. -/
theorem wp.of_error {e : ε} (hm : wp E m s Q) (h : m.run s = .error e) : E e := by
  unfold wp at hm; rw [h] at hm; exact hm

/-- Where no error is tolerated, the run returns. -/
theorem wp.returns (hm : wp (fun _ => False) m s Q) : ∃ a s', m.run s = .ok (a, s') ∧ Q a s' := by
  unfold wp at hm
  grind

/-- Where every error is tolerated, what a run that returned is known by is itself. -/
theorem wp_run (m : StateT σ (Except ε) α) (s : σ) :
    wp (fun _ => True) m s fun a s' => m.run s = .ok (a, s') := by
  unfold wp
  split
  · next h => exact h
  · exact trivial

/-- **Consequence.** The rule by which a caller uses the specification of a callee. -/
theorem wp.mono (hm : wp E m s Q) (hQ : ∀ a s', Q a s' → Q' a s') : wp E m s Q' := by
  grind [wp]

theorem wp.and (h₁ : wp E m s Q) (h₂ : wp E m s Q') :
    wp E m s fun a t => Q a t ∧ Q' a t := by
  grind [wp]

/-! ## Primitive steps -/

@[simp] theorem wp_pure (a : α) (Q : α → σ → Prop) (s : σ) :
    wp E (pure a : StateT σ (Except ε) α) s Q ↔ Q a s := Iff.rfl

@[simp] theorem wp_bind (m : StateT σ (Except ε) α) (f : α → StateT σ (Except ε) β)
    (Q : β → σ → Prop) (s : σ) :
    wp E (m >>= f) s Q ↔ wp E m s fun a s' => wp E (f a) s' Q := by
  unfold wp
  rw [StateT.run_bind]
  cases m.run s with
  | error e => exact Iff.rfl
  | ok r => exact Iff.rfl

@[simp] theorem wp_get (Q : σ → σ → Prop) (s : σ) :
    wp E (get : StateT σ (Except ε) σ) s Q ↔ Q s s := Iff.rfl

@[simp] theorem wp_modify (f : σ → σ) (Q : PUnit → σ → Prop) (s : σ) :
    wp E (modify f : StateT σ (Except ε) PUnit) s Q ↔ Q ⟨⟩ (f s) := Iff.rfl

theorem wp_ite {c : Prop} [Decidable c] {m₁ m₂ : StateT σ (Except ε) α}
    (h₁ : c → wp E m₁ s Q) (h₂ : ¬c → wp E m₂ s Q) :
    wp E (if c then m₁ else m₂) s Q := by
  split
  · next h => exact h₁ h
  · next h => exact h₂ h

/-! ## Running code on a component of the state -/

/-- Run `m` on the component of the state that `view` reads and `update` writes. -/
def zoom (view : σ → τ) (update : τ → σ → σ) (m : StateT τ (Except ε) α) :
    StateT σ (Except ε) α := fun s =>
  match m.run (view s) with
  | .ok (a, t) => .ok (a, update t s)
  | .error e => .error e

/-- Code that is zoomed in on a component leaves the rest of the state alone. -/
@[simp] theorem wp_zoom {view : σ → τ} {update : τ → σ → σ} {m : StateT τ (Except ε) α} :
    wp E (zoom view update m) s Q ↔ wp E m (view s) fun a t => Q a (update t s) := by
  unfold wp zoom
  simp only [StateT.run]
  cases m (view s) with
  | error e => exact Iff.rfl
  | ok r => exact Iff.rfl

/-! ## Loops -/

/-- Visit the elements of a list in order. -/
def forEach (l : List α) (body : α → StateT σ (Except ε) Unit) : StateT σ (Except ε) Unit :=
  match l with
  | [] => pure ()
  | a :: l => do body a; forEach l body

/-- **Loop rule.** `I l s` is the invariant when the elements of `l` are still to be visited. -/
theorem wp_forEach {body : α → StateT σ (Except ε) Unit} (I : List α → σ → Prop)
    (step : ∀ a l s, I (a :: l) s → wp E (body a) s fun _ => I l) :
    ∀ (l : List α) (s : σ), I l s → wp E (forEach l body) s fun _ => I []
  | [], _, h => h
  | a :: l, s, h => by
    rw [forEach, wp_bind]
    exact (step a l s h).mono fun _ s' h' => wp_forEach I step l s' h'

/-- The loop rule for an invariant that does not look at the list. -/
theorem wp_forEach_inv {body : α → StateT σ (Except ε) Unit} (I : σ → Prop) (l : List α)
    (step : ∀ a ∈ l, ∀ s, I s → wp E (body a) s fun _ => I) (s : σ) (h : I s) :
    wp E (forEach l body) s fun _ => I := by
  let J : List α → σ → Prop := fun l' s => (∀ a ∈ l', a ∈ l) ∧ I s
  refine (wp_forEach J ?_ l s ⟨fun _ ha => ha, h⟩).mono fun _ _ h => h.2
  · rintro a l' s' ⟨hl, hs⟩
    refine (step a (hl a (List.mem_cons_self ..)) s' hs).mono fun _ s'' h' => ⟨?_, h'⟩
    exact fun b hb => hl b (List.mem_cons_of_mem _ hb)

/-- Does some element of the list pass the test? Stops at the first that does. -/
def anyOf (l : List α) (test : α → StateT σ (Except ε) Bool) : StateT σ (Except ε) Bool :=
  match l with
  | [] => pure false
  | a :: l => do if ← test a then pure true else anyOf l test

/-- A test that only reads the state is an `any` over the list. -/
theorem wp_anyOf {test : α → StateT σ (Except ε) Bool} (p : α → Bool) (l : List α)
    (h : ∀ a ∈ l, wp E (test a) s fun b t => b = p a ∧ t = s) :
    wp E (anyOf l test) s fun b t => b = l.any p ∧ t = s := by
  induction l with
  | nil => exact ⟨rfl, rfl⟩
  | cons a l ih =>
    rw [anyOf, wp_bind]
    refine (h a (List.mem_cons_self ..)).mono ?_
    rintro b t ⟨rfl, rfl⟩
    cases hp : p a with
    | true => simp [hp]
    | false =>
      have hl := ih fun b hb => h b (List.mem_cons_of_mem _ hb)
      simpa [hp] using hl

/-- `while (there is a next element) body`, unrolled at most `fuel` times. -/
def whileSome (outOfFuel : ε) (next : σ → Option α) (body : α → StateT σ (Except ε) Unit) :
    Nat → StateT σ (Except ε) Unit
  | 0 => do if (next (← get)).isSome then throw outOfFuel else pure ()
  | fuel + 1 => do
    match next (← get) with
    | none => pure ()
    | some a => body a; whileSome outOfFuel next body fuel

/-- **While rule.** The loop keeps its invariant, and ends with nothing left to visit. -/
theorem wp_whileSome {outOfFuel : ε} {next : σ → Option α}
    {body : α → StateT σ (Except ε) Unit} (I : σ → Prop) (hE : E outOfFuel)
    (step : ∀ a s, I s → next s = some a → wp E (body a) s fun _ => I) :
    ∀ (fuel : Nat) (s : σ), I s →
      wp E (whileSome outOfFuel next body fuel) s fun _ s' => I s' ∧ next s' = none
  | 0, s, h => by
    rw [whileSome, wp_bind, wp_get]
    cases hn : next s with
    | none => exact ⟨h, hn⟩
    | some a => exact hE
  | fuel + 1, s, h => by
    rw [whileSome, wp_bind, wp_get]
    cases hn : next s with
    | none => exact ⟨h, hn⟩
    | some a =>
      simp only [wp_bind]
      exact (step a s h hn).mono fun _ s' h' => wp_whileSome I hE step fuel s' h'

/-- `while (there is a next element) acc = body(acc)`, unrolled at most `fuel` times. -/
def whileAcc (outOfFuel : ε) (next : σ → Option α) (body : α → β → StateT σ (Except ε) β) :
    Nat → β → StateT σ (Except ε) β
  | 0, acc => do if (next (← get)).isSome then throw outOfFuel else pure acc
  | fuel + 1, acc => do
    match next (← get) with
    | none => pure acc
    | some a => do
      let acc ← body a acc
      whileAcc outOfFuel next body fuel acc

/-- **Total while rule.** A measure that every turn lowers is enough fuel: the loop ends with
nothing left to visit, and no fuel error is tolerated. -/
theorem wp_whileAcc (outOfFuel : ε) (next : σ → Option α)
    (body : α → β → StateT σ (Except ε) β) (I : β → σ → Prop) (measure : σ → Nat)
    (hdone : ∀ s, measure s = 0 → next s = none)
    (step : ∀ a acc s, I acc s → next s = some a →
      wp E (body a acc) s fun acc' s' => I acc' s' ∧ measure s' < measure s) :
    ∀ (fuel : Nat) (acc : β) (s : σ), I acc s → measure s ≤ fuel →
      wp E (whileAcc outOfFuel next body fuel acc) s fun acc' s' => I acc' s' ∧ next s' = none
  | 0, acc, s => by
    intro h hfuel
    have hn : next s = none := hdone s (Nat.le_zero.mp hfuel)
    rw [whileAcc, wp_bind, wp_get, hn]
    exact ⟨h, hn⟩
  | fuel + 1, acc, s => by
    intro h hfuel
    rw [whileAcc, wp_bind, wp_get]
    cases hn : next s with
    | none => exact ⟨h, hn⟩
    | some a =>
      simp only [wp_bind]
      apply (step a acc s h hn).mono
      rintro acc' s' ⟨h', hlt⟩
      exact wp_whileAcc outOfFuel next body I measure hdone step fuel acc' s' h' (by omega)

end StateExcept
