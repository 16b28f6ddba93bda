import Mathlib

/-!
# Stacks of items in slots

Slots that hold stacks of items: a stack has an identity, an entry that says what it is a
stack of, and a count. Stacks are put away by a plan, a list of slots with the number of
items each is to take: into an occupied slot they are merged, into an empty one goes a clone
with a fresh identity, and the stack itself where the plan ends. A plan that fits conserves
the items of every entry, keeps every stack within its bounds and every identity in one slot.
-/

/-- What a stack of items shows. -/
class StackItem (I : Type) where
  guid : I → ℕ
  entry : I → ℕ
  count : I → ℕ
  setCount : I → ℕ → I
  clone : I → ℕ → ℕ → I
  guid_setCount : ∀ i n, guid (setCount i n) = guid i
  entry_setCount : ∀ i n, entry (setCount i n) = entry i
  count_setCount : ∀ i n, count (setCount i n) = n
  guid_clone : ∀ i g n, guid (clone i g n) = g
  entry_clone : ∀ i g n, entry (clone i g n) = entry i
  count_clone : ∀ i g n, count (clone i g n) = n

attribute [simp] StackItem.guid_setCount StackItem.entry_setCount StackItem.count_setCount
  StackItem.guid_clone StackItem.entry_clone StackItem.count_clone

namespace Stacks

open StackItem

variable {ι I : Type}

/-- Slots, and the identity that the next new stack will have. -/
@[ext] structure Shelf (ι I : Type) where
  contents : ι → Option I
  next : ℕ

namespace Shelf

section Set

variable [DecidableEq ι] {s : Shelf ι I} {i : I} {p q : ι}

def set (s : Shelf ι I) (p : ι) (v : Option I) : Shelf ι I :=
  { s with contents := Function.update s.contents p v }

@[simp] theorem contents_set_self (v : Option I) : (s.set p v).contents p = v :=
  Function.update_self _ _ _

theorem contents_set_ne (v : Option I) (h : q ≠ p) : (s.set p v).contents q = s.contents q :=
  Function.update_of_ne h _ _

theorem mem_set_cases {v : Option I} (h : (s.set p v).contents q = some i) :
    q = p ∧ v = some i ∨ q ≠ p ∧ s.contents q = some i := by
  by_cases hq : q = p
  · subst hq
    rw [contents_set_self] at h
    exact Or.inl ⟨rfl, h⟩
  · rw [contents_set_ne v hq] at h
    exact Or.inr ⟨hq, h⟩

end Set

end Shelf

variable [StackItem I]

/-! ## Totals -/

/-- How many items of an entry a slot holds. -/
def amount (e : ℕ) : Option I → ℕ
  | none => 0
  | some i => if entry i = e then count i else 0

@[simp] theorem amount_none (e : ℕ) : amount e (none : Option I) = 0 := rfl

theorem amount_some (e : ℕ) (i : I) : amount e (some i) = if entry i = e then count i else 0 := rfl

/-- How many items of an entry there are in all slots. -/
def total [Fintype ι] (c : ι → Option I) (e : ℕ) : ℕ := ∑ p, amount e (c p)

/-- Changing one slot changes the total by what that slot gains or loses. -/
theorem total_update [Fintype ι] [DecidableEq ι] (c : ι → Option I) (p : ι) (v : Option I) (e : ℕ) :
    total (Function.update c p v) e + amount e (c p) = total c e + amount e v := by
  have hcomp : (fun q => amount e (Function.update c p v q)) =
      Function.update (fun q => amount e (c q)) p (amount e v) := by
    funext q
    exact Function.apply_update (fun _ => amount e) c p v q
  grind [total, Finset.sum_update_of_mem, Finset.sum_eq_add_sum_sdiff_singleton_of_mem]

/-! ## Sound shelves -/

/-- Every stack is between 1 and its maximum, identities have been given out, and every
identity is in one slot. -/
structure Sound (maxStack : ℕ → ℕ) (s : Shelf ι I) : Prop where
  pos : ∀ p i, s.contents p = some i → 1 ≤ count i
  le_max : ∀ p i, s.contents p = some i → count i ≤ maxStack (entry i)
  guid_lt : ∀ p i, s.contents p = some i → guid i < s.next
  inj : ∀ p q i j, s.contents p = some i → s.contents q = some j → guid i = guid j → p = q

/-- `item` is a sound stack that is in no slot. -/
structure Loose (maxStack : ℕ → ℕ) (s : Shelf ι I) (item : I) : Prop where
  pos : 1 ≤ count item
  le_max : count item ≤ maxStack (entry item)
  guid_lt : guid item < s.next
  notIn : ∀ p i, s.contents p = some i → guid i ≠ guid item

namespace Shelf

variable [DecidableEq ι] {maxStack : ℕ → ℕ} {s : Shelf ι I} {item i : I} {p q : ι} {n : ℕ}

/-- A slot may be emptied. -/
theorem sound_clear (h : Sound maxStack s) : Sound maxStack (s.set p none) := by
  have hold : ∀ {q i}, (s.set p none).contents q = some i → s.contents q = some i := by
    intro q i hq
    rcases mem_set_cases hq with ⟨-, hv⟩ | ⟨-, hq⟩
    · cases hv
    · exact hq
  exact ⟨fun q i hq => h.pos q i (hold hq), fun q i hq => h.le_max q i (hold hq),
    fun q i hq => h.guid_lt q i (hold hq),
    fun q r i j hq hr he => h.inj q r i j (hold hq) (hold hr) he⟩

/-- What was taken out of a slot is loose. -/
theorem loose_clear (h : Sound maxStack s) (hp : s.contents p = some i) :
    Loose maxStack (s.set p none) i where
  pos := h.pos p i hp
  le_max := h.le_max p i hp
  guid_lt := h.guid_lt p i hp
  notIn q j hq := by
    rcases mem_set_cases hq with ⟨-, hv⟩ | ⟨hne, hq⟩
    · cases hv
    · intro he
      exact hne (h.inj q p j i hq hp he)

/-- A stack stays loose while other stacks are put into slots or taken out. -/
theorem loose_set {v : Option I} (hl : Loose maxStack s item)
    (hv : ∀ j, v = some j → guid j ≠ guid item) : Loose maxStack (s.set p v) item where
  pos := hl.pos
  le_max := hl.le_max
  guid_lt := hl.guid_lt
  notIn q j hq := by
    rcases mem_set_cases hq with ⟨-, hv'⟩ | ⟨-, hq'⟩
    · exact hv j hv'
    · exact hl.notIn q j hq'

/-- A slot may hold a stack of the same identity with another sound count. -/
theorem sound_setCount (h : Sound maxStack s) (hp : s.contents p = some i) (hpos : 1 ≤ n)
    (hmax : n ≤ maxStack (entry i)) : Sound maxStack (s.set p (some (setCount i n))) := by
  have hold : ∀ {q j}, (s.set p (some (setCount i n))).contents q = some j →
      ∃ j₀, s.contents q = some j₀ ∧ guid j = guid j₀ ∧ entry j = entry j₀ ∧
        (1 ≤ count j ∧ count j ≤ maxStack (entry j₀)) := by
    intro q j hq
    rcases mem_set_cases hq with ⟨rfl, hv⟩ | ⟨-, hq⟩
    · grind [count_setCount, entry_setCount, guid_setCount]
    · exact ⟨j, hq, rfl, rfl, h.pos q j hq, h.le_max q j hq⟩
  refine ⟨?_, ?_, ?_, ?_⟩
  · intro q j hq
    obtain ⟨j₀, -, -, -, hc, -⟩ := hold hq
    exact hc
  · intro q j hq
    obtain ⟨j₀, -, -, he, -, hc⟩ := hold hq
    rw [he]
    exact hc
  · intro q j hq
    obtain ⟨j₀, hj, hg, -, -⟩ := hold hq
    rw [hg]
    exact h.guid_lt q j₀ hj
  · intro q r j k hq hr he
    obtain ⟨j₀, hj, hgj, -, -⟩ := hold hq
    obtain ⟨k₀, hk, hgk, -, -⟩ := hold hr
    exact h.inj q r j₀ k₀ hj hk (by rw [← hgj, ← hgk, he])

/-- An empty slot may take a stack that is in no other. -/
theorem sound_place (h : Sound maxStack s) (hl : Loose maxStack s item) :
    Sound maxStack (s.set p (some item)) := by
  refine ⟨?_, ?_, ?_, ?_⟩
  · intro q j hq
    rcases mem_set_cases hq with ⟨-, hv⟩ | ⟨-, hq⟩
    · cases hv
      exact hl.pos
    · exact h.pos q j hq
  · intro q j hq
    rcases mem_set_cases hq with ⟨-, hv⟩ | ⟨-, hq⟩
    · cases hv
      exact hl.le_max
    · exact h.le_max q j hq
  · intro q j hq
    rcases mem_set_cases hq with ⟨-, hv⟩ | ⟨-, hq⟩
    · cases hv
      exact hl.guid_lt
    · exact h.guid_lt q j hq
  · intro q r j k hq hr he
    rcases mem_set_cases hq with ⟨hqp, hv⟩ | ⟨-, hq'⟩ <;>
      rcases mem_set_cases hr with ⟨hrp, hw⟩ | ⟨-, hr'⟩
    · exact hqp.trans hrp.symm
    · cases hv
      exact absurd he.symm (hl.notIn r k hr')
    · cases hw
      exact absurd he (hl.notIn q j hq')
    · exact h.inj q r j k hq' hr' he

omit [DecidableEq ι] in
/-- Giving out an identity keeps a shelf sound. -/
theorem sound_next (h : Sound maxStack s) : Sound maxStack { s with next := s.next + 1 } :=
  ⟨h.pos, h.le_max, fun q i hq => Nat.lt_succ_of_lt (h.guid_lt q i hq), h.inj⟩

omit [DecidableEq ι] in
/-- A new stack is loose once its identity has been given out. -/
theorem loose_clone (h : Sound maxStack s) (hpos : 1 ≤ n) (hmax : n ≤ maxStack (entry item)) :
    Loose maxStack { s with next := s.next + 1 } (clone item s.next n) where
  pos := by
    rw [count_clone]
    exact hpos
  le_max := by
    rw [count_clone, entry_clone]
    exact hmax
  guid_lt := by
    rw [guid_clone]
    exact Nat.lt_succ_self _
  notIn q j hq := by
    rw [guid_clone]
    exact (h.guid_lt q j hq).ne

/-! ## Storing by a plan -/

/-- Put `n` items of `item` into slot `p`. -/
def put (s : Shelf ι I) (item : I) (last : Bool) (p : ι) (n : ℕ) : Shelf ι I :=
  match s.contents p with
  | some d => s.set p (some (setCount d (count d + n)))
  | none =>
    if last then s.set p (some (setCount item n))
    else { s with next := s.next + 1 }.set p (some (clone item s.next n))

/-- Put `item` away by a plan; the stack itself is used up by its last entry. -/
def store (s : Shelf ι I) (item : I) : List (ι × ℕ) → Shelf ι I
  | [] => s
  | [(p, n)] => s.put item true p n
  | (p, n) :: rest => (s.put item false p n).store item rest

/-- A slot has room for `n` items of `item`. -/
def Room (maxStack : ℕ → ℕ) (s : Shelf ι I) (item : I) (p : ι) (n : ℕ) : Prop :=
  1 ≤ n ∧ match s.contents p with
    | none => n ≤ maxStack (entry item)
    | some d => entry d = entry item ∧ count d + n ≤ maxStack (entry item)

/-- The slots of a plan are distinct and have room. -/
structure Fits (maxStack : ℕ → ℕ) (s : Shelf ι I) (item : I) (plan : List (ι × ℕ)) : Prop where
  distinct : (plan.map (·.1)).Nodup
  room : ∀ x ∈ plan, s.Room maxStack item x.1 x.2

/-- The items a plan places. -/
def planned (plan : List (ι × ℕ)) : ℕ := (plan.map (·.2)).sum

theorem put_last_empty (hp : s.contents p = none) :
    s.put item true p n = s.set p (some (setCount item n)) := by
  unfold put
  rw [hp]
  rfl

theorem put_ne {last : Bool} (h : q ≠ p) : (s.put item last p n).contents q = s.contents q := by
  grind [contents_set_ne, put]

theorem put_amount {last : Bool} (hr : s.Room maxStack item p n) (e : ℕ) :
    amount e ((s.put item last p n).contents p) =
      amount e (s.contents p) + if entry item = e then n else 0 := by
  obtain ⟨-, hroom⟩ := hr
  unfold put
  split at hroom
  · next hp =>
    rw [hp]
    simp only
    split
    · rw [contents_set_self, amount_some, entry_setCount, count_setCount, amount_none, Nat.zero_add]
    · rw [contents_set_self, amount_some, entry_clone, count_clone, amount_none, Nat.zero_add]
  · grind [amount_some, count_setCount, entry_setCount, contents_set_self]

theorem put_total [Fintype ι] {last : Bool} (hr : s.Room maxStack item p n) (e : ℕ) :
    total (s.put item last p n).contents e = total s.contents e + if entry item = e then n else 0 := by
  have hupd : (s.put item last p n).contents =
      Function.update s.contents p ((s.put item last p n).contents p) := by
    grind [put_ne]
  have ht := total_update s.contents p ((s.put item last p n).contents p) e
  rw [← hupd, put_amount hr e] at ht
  omega

/-- Putting a part of a loose stack away keeps the shelf sound. -/
theorem put_sound {last : Bool} (h : Sound maxStack s) (hl : Loose maxStack s item)
    (hr : s.Room maxStack item p n) : Sound maxStack (s.put item last p n) := by
  obtain ⟨hpos, hroom⟩ := hr
  unfold put
  split at hroom
  · next hp =>
    rw [hp]
    simp only
    split
    · apply sound_place h
      exact ⟨by rwa [count_setCount], by rwa [count_setCount, entry_setCount],
        by rw [guid_setCount]; exact hl.guid_lt, by rw [guid_setCount]; exact hl.notIn⟩
    · exact sound_place (sound_next h) (loose_clone h hpos hroom)
  · grind [sound_setCount]

/-- While a plan goes on, the stack stays loose. -/
theorem put_loose (hl : Loose maxStack s item) :
    Loose maxStack (s.put item false p n) item := by
  refine ⟨hl.pos, hl.le_max, ?_, ?_⟩
  · unfold put
    split
    · exact hl.guid_lt
    · rw [if_neg Bool.false_ne_true]
      exact Nat.lt_succ_of_lt hl.guid_lt
  · intro q j hq
    by_cases hqp : q = p
    · subst hqp
      unfold put at hq
      split at hq
      · next d hd =>
        rw [contents_set_self] at hq
        cases hq
        rw [guid_setCount]
        exact hl.notIn q d hd
      · rw [if_neg Bool.false_ne_true, contents_set_self] at hq
        cases hq
        rw [guid_clone]
        exact hl.guid_lt.ne'
    · rw [put_ne hqp] at hq
      exact hl.notIn q j hq

theorem Fits.tail {plan : List (ι × ℕ)} {last : Bool} (h : Fits maxStack s item ((p, n) :: plan)) :
    Fits maxStack (s.put item last p n) item plan := by
  have hd := List.nodup_cons.mp h.distinct
  refine ⟨hd.2, ?_⟩
  intro x hx
  have hne : x.1 ≠ p := by
    intro he
    exact hd.1 (List.mem_map.mpr ⟨x, hx, he⟩)
  have hroom := h.room x (List.mem_cons_of_mem _ hx)
  unfold Room at hroom ⊢
  rw [put_ne hne]
  exact hroom

/-- **A plan that fits keeps the shelf sound.** -/
theorem store_sound {plan : List (ι × ℕ)} (h : Sound maxStack s) (hl : Loose maxStack s item)
    (hf : Fits maxStack s item plan) : Sound maxStack (s.store item plan) := by
  induction plan generalizing s with
  | nil => exact h
  | cons x plan ih =>
    have hr := hf.room x List.mem_cons_self
    cases plan with
    | nil => exact put_sound h hl hr
    | cons y rest => exact ih (put_sound h hl hr) (put_loose hl) hf.tail

/-- **A plan that fits adds what it places** and nothing else. -/
theorem store_total [Fintype ι] {plan : List (ι × ℕ)} (hf : Fits maxStack s item plan) (e : ℕ) :
    total (s.store item plan).contents e =
      total s.contents e + if entry item = e then planned plan else 0 := by
  induction plan generalizing s with
  | nil =>
    show total s.contents e = total s.contents e + if entry item = e then 0 else 0
    rw [ite_self, Nat.add_zero]
  | cons x plan ih =>
    have hr := hf.room x List.mem_cons_self
    cases plan with
    | nil => exact put_total hr e
    | cons y rest =>
      show total ((s.put item false x.1 x.2).store item (y :: rest)).contents e = _
      rw [ih hf.tail, put_total hr e]
      grind [planned]

end Shelf

end Stacks
