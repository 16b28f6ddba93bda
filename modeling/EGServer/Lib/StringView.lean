import Mathlib.Data.List.Basic
import Mathlib.Tactic

/-!
# Scanning a string view

A scanner reads a view of a string by index and cuts prefixes off it. It may reject the string,
and it may make an access outside the view: `Scan` keeps the two apart, so that a scanner can be
shown never to do the latter. `bindMem` is the `bind` for scanners that call themselves on what an
earlier step has left.
-/

/-- What a scanner ends with. -/
inductive Scan (α : Type) where
  /-- an access outside the view -/
  | outOfRange
  | reject
  | done (a : α)

namespace Scan

variable {α β : Type}

def bind (x : Scan α) (f : α → Scan β) : Scan β :=
  match x with
  | outOfRange => outOfRange
  | reject => reject
  | done a => f a

instance : Monad Scan where
  pure := done
  bind := bind

/-- Go on only where `p` holds. -/
def require (p : Prop) [Decidable p] : Scan Unit := if p then done () else reject

/-- Go on with what is there. -/
def ofOption : Option α → Scan α
  | none => reject
  | some a => done a

/-- `bind` that tells the continuation where its argument comes from. -/
def bindMem (x : Scan α) (f : (a : α) → x = done a → Scan β) : Scan β :=
  match x, f with
  | outOfRange, _ => outOfRange
  | reject, _ => reject
  | done a, f => f a rfl

@[simp] theorem done_bind (a : α) (f : α → Scan β) : (done a >>= f) = f a := rfl

@[simp] theorem reject_bind (f : α → Scan β) : (reject >>= f) = reject := rfl

@[simp] theorem bindMem_eq (x : Scan α) (f : α → Scan β) :
    (x.bindMem fun a _ => f a) = x >>= f := by
  cases x with
  | outOfRange => rfl
  | reject => rfl
  | done a => rfl

theorem bind_eq_done {x : Scan α} {f : α → Scan β} {b : β} :
    (x >>= f) = done b ↔ ∃ a, x = done a ∧ f a = done b := by
  cases x with
  | outOfRange =>
    constructor
    · rintro ⟨⟩
    · rintro ⟨a, ⟨⟩, -⟩
  | reject =>
    constructor
    · rintro ⟨⟩
    · rintro ⟨a, ⟨⟩, -⟩
  | done a =>
    constructor
    · intro h
      exact ⟨a, rfl, h⟩
    · rintro ⟨a, ⟨⟩, h⟩
      exact h

/-- A scanner stays in range if its first step does, and then the rest. -/
theorem bind_inRange {x : Scan α} {f : α → Scan β} (hx : x ≠ outOfRange)
    (hf : ∀ a, x = done a → f a ≠ outOfRange) : (x >>= f) ≠ outOfRange := by
  cases x with
  | outOfRange => exact absurd rfl hx
  | reject => rintro ⟨⟩
  | done a => exact hf a rfl

theorem require_inRange (p : Prop) [Decidable p] : require p ≠ outOfRange := by
  unfold require
  split <;> rintro ⟨⟩

theorem require_eq_done {p : Prop} [Decidable p] : require p = done () ↔ p := by
  unfold require
  grind

theorem ofOption_inRange (o : Option α) : ofOption o ≠ outOfRange := by
  cases o with
  | none => rintro ⟨⟩
  | some a => rintro ⟨⟩

theorem ofOption_eq_done {o : Option α} {a : α} : ofOption o = done a ↔ o = some a := by
  cases o with
  | none =>
    constructor
    · rintro ⟨⟩
    · rintro ⟨⟩
  | some b =>
    constructor
    · rintro ⟨⟩
      rfl
    · rintro ⟨⟩
      rfl

end Scan

namespace StringView

open Scan

variable {α : Type} {s t : List α} {c : α} {i n : Nat}

/-- Subtraction of `size_t`, which wraps. -/
def sizeSub (a b : Nat) : Nat := if b ≤ a then a - b else 2 ^ 64 + a - b

/-- `s[i]` -/
def charAt (s : List α) (i : Nat) : Scan α :=
  match s[i]? with
  | some c => done c
  | none => outOfRange

/-- `s.substr(pos, count)`, which throws when `pos` lies outside. -/
def substr (s : List α) (pos count : Nat) : Scan (List α) :=
  if s.length < pos then outOfRange else done ((s.drop pos).take count)

/-- `s.substr(pos)` -/
def substrFrom (s : List α) (pos : Nat) : Scan (List α) :=
  if s.length < pos then outOfRange else done (s.drop pos)

/-- `s.remove_prefix(n)` -/
def removePrefix (s : List α) (n : Nat) : Scan (List α) :=
  if s.length < n then outOfRange else done (s.drop n)

/-! ## Reading -/

theorem charAt_eq_done : charAt s i = done c ↔ s[i]? = some c := by
  grind [charAt]

theorem charAt_inRange (h : i < s.length) : charAt s i ≠ outOfRange := by
  unfold charAt
  rw [List.getElem?_eq_getElem h]
  rintro ⟨⟩

/-! ## Cutting -/

theorem substr_eq (h : i ≤ s.length) : substr s i n = done ((s.drop i).take n) :=
  if_neg (by omega)

theorem substrFrom_eq (h : i ≤ s.length) : substrFrom s i = done (s.drop i) := if_neg (by omega)

theorem removePrefix_eq (h : i ≤ s.length) : removePrefix s i = done (s.drop i) :=
  if_neg (by omega)

theorem substrFrom_eq_done : substrFrom s i = done t ↔ i ≤ s.length ∧ t = s.drop i := by
  unfold substrFrom
  grind

/-! ## Finding -/

variable [DecidableEq α]

/-- `s.find(c)`, `none` for `npos` -/
def find (s : List α) (c : α) : Option Nat := s.findIdx? (· = c)

/-- `s.find(c, pos)` -/
def findFrom (s : List α) (c : α) (pos : Nat) : Option Nat := (find (s.drop pos) c).map (· + pos)

theorem find_append (h : c ∉ s) : find (s ++ c :: t) c = some s.length := by
  unfold find
  induction s with
  | nil => rw [List.nil_append, List.findIdx?_cons, if_pos (by simp)]; rfl
  | cons d s ih =>
    grind

theorem find_eq_none : find s c = none ↔ c ∉ s := by
  unfold find
  grind

/-- What is found is the first: it cuts the string. -/
theorem find_eq_some : find s c = some i ↔ ∃ a b, s = a ++ c :: b ∧ a.length = i ∧ c ∉ a := by
  constructor
  · intro h
    have hmem : c ∈ s := by
      by_contra hc
      rw [find_eq_none.mpr hc] at h
      cases h
    obtain ⟨a, b, rfl, ha⟩ := List.eq_append_cons_of_mem hmem
    rw [find_append ha, Option.some.injEq] at h
    exact ⟨a, b, rfl, h, ha⟩
  · rintro ⟨a, b, rfl, rfl, ha⟩
    exact find_append ha

/-! ## Steps of a scanner -/

/-- Take the text `lit` off the front. -/
def expect (lit s : List α) : Scan (List α) := do
  let front ← substr s 0 lit.length
  require (front = lit)
  removePrefix s lit.length

/-- Take what stands before the first `c` off the front, and `c`. -/
def upTo (c : α) (s : List α) : Scan (List α × List α) := do
  let pos ← ofOption (find s c)
  let front ← substr s 0 pos
  let rest ← removePrefix s (pos + 1)
  return (front, rest)

theorem expect_append (lit s : List α) : expect lit (lit ++ s) = done s := by
  unfold expect
  rw [substr_eq (Nat.zero_le _), done_bind, List.drop_zero, List.take_left,
    require_eq_done.mpr rfl, done_bind, removePrefix_eq (by rw [List.length_append]; omega),
    List.drop_left]

theorem expect_eq_done {lit s t : List α} : expect lit s = done t ↔ s = lit ++ t := by
  constructor
  · intro h0
    obtain ⟨front, hfront, h⟩ := bind_eq_done.mp h0
    obtain ⟨⟨⟩, hlit, -⟩ := bind_eq_done.mp h
    rw [substr_eq (Nat.zero_le _), List.drop_zero] at hfront
    cases hfront
    have hs : s = lit ++ s.drop lit.length := by
      conv_lhs => rw [← List.take_append_drop lit.length s, require_eq_done.mp hlit]
    rw [hs, expect_append] at h0
    rw [hs]
    cases h0
    rfl
  · rintro rfl
    exact expect_append lit t

theorem expect_inRange (lit s : List α) : expect lit s ≠ outOfRange := by
  refine bind_inRange (by rw [substr_eq (Nat.zero_le _)]; rintro ⟨⟩) ?_
  intro front hfront
  rw [substr_eq (Nat.zero_le _), List.drop_zero] at hfront
  cases hfront
  refine bind_inRange (require_inRange _) ?_
  intro _ hlit
  have hlength := congrArg List.length (require_eq_done.mp hlit)
  rw [List.length_take] at hlength
  rw [removePrefix_eq (by omega)]
  rintro ⟨⟩

theorem upTo_append {c : α} {a b : List α} (h : c ∉ a) : upTo c (a ++ c :: b) = done (a, b) := by
  unfold upTo
  rw [find_append h, ofOption, done_bind, substr_eq (Nat.zero_le _), done_bind, List.drop_zero,
    List.take_left, removePrefix_eq (by rw [List.length_append, List.length_cons]; omega),
    done_bind, List.append_cons, ← List.length_singleton (a := c), ← List.length_append,
    List.drop_left]
  rfl

theorem upTo_eq_done {c : α} {s a b : List α} :
    upTo c s = done (a, b) ↔ s = a ++ c :: b ∧ c ∉ a := by
  constructor
  · intro h
    obtain ⟨pos, hpos, -⟩ := bind_eq_done.mp h
    obtain ⟨a', b', rfl, -, ha'⟩ := find_eq_some.mp (ofOption_eq_done.mp hpos)
    rw [upTo_append ha'] at h
    cases h
    exact ⟨rfl, ha'⟩
  · rintro ⟨rfl, ha⟩
    exact upTo_append ha

theorem upTo_inRange (c : α) (s : List α) : upTo c s ≠ outOfRange := by
  refine bind_inRange (ofOption_inRange _) ?_
  intro pos hpos
  obtain ⟨a, b, rfl, rfl, ha⟩ := find_eq_some.mp (ofOption_eq_done.mp hpos)
  rw [substr_eq (Nat.zero_le _), done_bind,
    removePrefix_eq (by rw [List.length_append, List.length_cons]; omega)]
  rintro ⟨⟩

end StringView
