import Mathlib.Data.List.Basic
import Mathlib.Data.List.Nodup
import Mathlib.Data.List.Perm.Basic

/-!
# Tables with a key

A container of records of which no two have the same key, walked through in an order of
its own: what `std::unordered_map` is to the code that uses it. An insertion may rearrange
the whole order, as a rehash does, so it takes the arrangement as an argument; erasing and
changing records in place keep it.
-/

/-- An order that a container of `α` may be in after an insertion. -/
structure Arrangement (α : Type) where
  arrange : List α → List α
  perm : ∀ l, (arrange l).Perm l

/-- The order of insertion. -/
def Arrangement.id (α : Type) : Arrangement α where
  arrange l := l
  perm l := List.Perm.refl l

/-- Records with pairwise distinct keys, in the order of the walk. -/
structure Table {κ α : Type} (key : α → κ) where
  rows : List α
  nodup : (rows.map key).Nodup

namespace Table

variable {κ α : Type} {key : α → κ}

instance : Membership α (Table key) := ⟨fun t a => a ∈ t.rows⟩

instance : EmptyCollection (Table key) := ⟨⟨[], List.nodup_nil⟩⟩

theorem mem_def {t : Table key} {a : α} : a ∈ t ↔ a ∈ t.rows := Iff.rfl

@[simp] theorem not_mem_empty (a : α) : a ∉ (∅ : Table key) := List.not_mem_nil

theorem ext {t t' : Table key} (h : t.rows = t'.rows) : t = t' := by
  cases t
  cases t'
  cases h
  rfl

/-- A key belongs to one record. -/
theorem eq_of_key {t : Table key} {a b : α} (ha : a ∈ t) (hb : b ∈ t) (h : key a = key b) :
    a = b :=
  List.inj_on_of_nodup_map t.nodup ha hb h

/-! ## Changing every record in place -/

def map (t : Table key) (f : α → α) (hf : ∀ a, key (f a) = key a) : Table key where
  rows := t.rows.map f
  nodup := by
    have h : (t.rows.map f).map key = t.rows.map key := by
      rw [List.map_map]
      exact List.map_congr_left fun a _ => hf a
    rw [h]
    exact t.nodup

variable [DecidableEq κ]

/-! ## Looking up -/

def get? (t : Table key) (k : κ) : Option α :=
  t.rows.find? fun a => decide (key a = k)

theorem get?_eq_some {t : Table key} {k : κ} {a : α} : t.get? k = some a ↔ a ∈ t ∧ key a = k := by
  constructor
  · intro h
    exact ⟨List.mem_of_find?_eq_some h, by simpa using List.find?_some h⟩
  · rintro ⟨ha, rfl⟩
    cases hf : t.rows.find? fun b => decide (key b = key a) with
    | none => exact absurd (decide_eq_true rfl) (List.find?_eq_none.mp hf a ha)
    | some b =>
      have hb : key b = key a := by simpa using List.find?_some hf
      exact hf.trans (congrArg some (t.eq_of_key (List.mem_of_find?_eq_some hf) ha hb))

theorem get?_key {t : Table key} {a : α} (ha : a ∈ t) : t.get? (key a) = some a :=
  get?_eq_some.mpr ⟨ha, rfl⟩

theorem get?_eq_none {t : Table key} {k : κ} : t.get? k = none ↔ ∀ a ∈ t, key a ≠ k := by
  rw [get?, List.find?_eq_none]
  simp only [decide_eq_true_eq, mem_def, ne_eq]

/-! ## Changing a record in place -/

variable {f : α → α}

def modify (t : Table key) (k : κ) (f : α → α) (hf : ∀ a, key (f a) = key a) : Table key where
  rows := t.rows.map fun a => if key a = k then f a else a
  nodup := by
    have h : (t.rows.map fun a => if key a = k then f a else a).map key = t.rows.map key := by
      rw [List.map_map]
      apply List.map_congr_left
      intro a _
      rw [Function.comp_apply]
      split
      · exact hf a
      · rfl
    rw [h]
    exact t.nodup

theorem mem_modify {t : Table key} {k : κ} {hf : ∀ a, key (f a) = key a} {a : α} :
    a ∈ t.modify k f hf ↔ ∃ b ∈ t, (if key b = k then f b else b) = a :=
  List.mem_map

/-- What the change does not touch is as it was, record by record. -/
theorem map_modify {β : Type} {g : α → β} (t : Table key) (k : κ) (hf : ∀ a, key (f a) = key a)
    (hg : ∀ a, g (f a) = g a) : (t.modify k f hf).rows.map g = t.rows.map g := by
  show (t.rows.map fun a => if key a = k then f a else a).map g = t.rows.map g
  rw [List.map_map]
  apply List.map_congr_left
  intro a _
  rw [Function.comp_apply]
  split
  · exact hg a
  · rfl

@[simp] theorem length_modify (t : Table key) (k : κ) (hf : ∀ a, key (f a) = key a) :
    (t.modify k f hf).rows.length = t.rows.length :=
  List.length_map _

theorem get?_modify_self (t : Table key) (k : κ) (hf : ∀ a, key (f a) = key a) :
    (t.modify k f hf).get? k = (t.get? k).map f := by
  cases h : t.get? k with
  | none =>
    rw [get?_eq_none] at h
    apply get?_eq_none.mpr
    intro a ha
    obtain ⟨b, hb, rfl⟩ := mem_modify.mp ha
    rw [if_neg (h b hb)]
    exact h b hb
  | some a =>
    obtain ⟨ha, hk⟩ := get?_eq_some.mp h
    apply get?_eq_some.mpr
    exact ⟨mem_modify.mpr ⟨a, ha, if_pos hk⟩, (hf a).trans hk⟩

theorem get?_modify_ne (t : Table key) {k k' : κ} (hf : ∀ a, key (f a) = key a) (h : k' ≠ k) :
    (t.modify k f hf).get? k' = t.get? k' := by
  apply Option.ext
  intro a
  rw [get?_eq_some, get?_eq_some]
  constructor
  · rintro ⟨ha, rfl⟩
    obtain ⟨b, hb, rfl⟩ := mem_modify.mp ha
    grind
  · rintro ⟨ha, rfl⟩
    exact ⟨mem_modify.mpr ⟨a, ha, if_neg h⟩, rfl⟩

/-- There is nothing to change under a key that no record has. -/
theorem rows_modify_of_none {t : Table key} {k : κ} (hf : ∀ a, key (f a) = key a)
    (h : t.get? k = none) : (t.modify k f hf).rows = t.rows := by
  show t.rows.map (fun a => if key a = k then f a else a) = t.rows
  rw [List.map_congr_left fun a ha => if_neg (get?_eq_none.mp h a ha), List.map_id']

/-! ## Erasing -/

def erase (t : Table key) (k : κ) : Table key where
  rows := t.rows.filter fun a => decide (key a ≠ k)
  nodup := t.nodup.sublist (List.filter_sublist.map key)

@[simp] theorem mem_erase {t : Table key} {k : κ} {a : α} : a ∈ t.erase k ↔ a ∈ t ∧ key a ≠ k := by
  rw [mem_def, erase, List.mem_filter, decide_eq_true_eq]
  exact Iff.rfl

theorem erase_of_none {t : Table key} {k : κ} (h : t.get? k = none) : t.erase k = t :=
  ext (List.filter_eq_self.mpr fun a ha => decide_eq_true (get?_eq_none.mp h a ha))

@[simp] theorem get?_erase_self (t : Table key) (k : κ) : (t.erase k).get? k = none := by
  apply get?_eq_none.mpr
  intro a ha
  exact (mem_erase.mp ha).2

theorem get?_erase_ne (t : Table key) {k k' : κ} (h : k' ≠ k) :
    (t.erase k).get? k' = t.get? k' := by
  apply Option.ext
  intro a
  rw [get?_eq_some, get?_eq_some, mem_erase]
  grind

/-! ## Inserting -/

/-- `try_emplace`: nothing is inserted when the key is there already. -/
def tryEmplace (t : Table key) (order : Arrangement α) (a : α) : Option (Table key) :=
  if h : t.get? (key a) = none then
    some {
      rows := order.arrange (a :: t.rows)
      nodup := by
        rw [((order.perm _).map key).nodup_iff, List.map_cons, List.nodup_cons]
        refine ⟨?_, t.nodup⟩
        intro hm
        obtain ⟨b, hb, hk⟩ := List.mem_map.mp hm
        exact get?_eq_none.mp h b hb hk }
  else none

theorem mem_tryEmplace {t t' : Table key} {order : Arrangement α} {a b : α}
    (h : t.tryEmplace order a = some t') : b ∈ t' ↔ b = a ∨ b ∈ t := by
  unfold tryEmplace at h
  split at h
  · cases h
    exact (order.perm _).mem_iff.trans List.mem_cons
  · cases h

theorem get?_of_tryEmplace {t t' : Table key} {order : Arrangement α} {a : α}
    (h : t.tryEmplace order a = some t') : t.get? (key a) = none := by
  unfold tryEmplace at h
  split at h
  · next hn => exact hn
  · cases h

theorem get?_tryEmplace_self {t t' : Table key} {order : Arrangement α} {a : α}
    (h : t.tryEmplace order a = some t') : t'.get? (key a) = some a :=
  get?_key ((mem_tryEmplace h).mpr (Or.inl rfl))

theorem get?_tryEmplace_ne {t t' : Table key} {order : Arrangement α} {a : α} {k : κ}
    (h : t.tryEmplace order a = some t') (hk : k ≠ key a) : t'.get? k = t.get? k := by
  apply Option.ext
  intro b
  rw [get?_eq_some, get?_eq_some, mem_tryEmplace h]
  grind

/-- `map[key] = a`: an old record of the key is replaced. -/
def insertOrAssign (t : Table key) (a : α) : Table key where
  rows := (t.erase (key a)).rows ++ [a]
  nodup := by
    rw [List.map_append, List.map_singleton, List.nodup_append_comm, List.singleton_append,
      List.nodup_cons]
    refine ⟨?_, (t.erase (key a)).nodup⟩
    intro hm
    obtain ⟨b, hb, hk⟩ := List.mem_map.mp hm
    exact (mem_erase.mp hb).2 hk

theorem mem_insertOrAssign {t : Table key} {a b : α} :
    b ∈ t.insertOrAssign a ↔ b = a ∨ b ∈ t ∧ key b ≠ key a := by
  show b ∈ (t.erase (key a)).rows ++ [a] ↔ _
  rw [List.mem_append, List.mem_singleton, ← mem_def, mem_erase, or_comm]

@[simp] theorem get?_insertOrAssign_self (t : Table key) (a : α) :
    (t.insertOrAssign a).get? (key a) = some a :=
  get?_key (mem_insertOrAssign.mpr (Or.inl rfl))

/-- A new key comes last. -/
theorem rows_insertOrAssign_of_none {t : Table key} {a : α} (h : t.get? (key a) = none) :
    (t.insertOrAssign a).rows = t.rows ++ [a] := by
  show t.rows.filter (fun b => decide (key b ≠ key a)) ++ [a] = _
  rw [List.filter_eq_self.mpr fun b hb => decide_eq_true (get?_eq_none.mp h b hb)]

theorem get?_insertOrAssign_ne (t : Table key) {a : α} {k : κ} (h : k ≠ key a) :
    (t.insertOrAssign a).get? k = t.get? k := by
  apply Option.ext
  intro b
  rw [get?_eq_some, get?_eq_some, mem_insertOrAssign]
  grind

/-- `map[key] = a` of a hash map: a record that is there is replaced in place, and only an
insertion may rearrange. -/
def assign (t : Table key) (order : Arrangement α) (a : α) : Table key :=
  (t.tryEmplace order a).getD
    (t.modify (key a) (fun b => if key b = key a then a else b) fun b => by
      split
      · next h => exact h.symm
      · rfl)

/-! ## Around one record -/

/-- Split at the record of a key: the others have other keys. -/
theorem rows_split {t : Table key} {k : κ} {a : α} (h : t.get? k = some a) :
    ∃ before after, t.rows = before ++ a :: after ∧ key a = k ∧ ∀ b ∈ before ++ after, key b ≠ k := by
  obtain ⟨hmem, rfl⟩ := get?_eq_some.mp h
  obtain ⟨before, after, hsplit⟩ := List.append_of_mem hmem
  refine ⟨before, after, hsplit, rfl, ?_⟩
  have hnodup := t.nodup
  grind

theorem rows_modify {t : Table key} {k : κ} {a : α} {hf : ∀ a, key (f a) = key a}
    {before after : List α} (hrows : t.rows = before ++ a :: after) (hk : key a = k)
    (hother : ∀ b ∈ before ++ after, key b ≠ k) :
    (t.modify k f hf).rows = before ++ f a :: after := by
  have hsame : ∀ l : List α, (∀ b ∈ l, key b ≠ k) →
      l.map (fun a => if key a = k then f a else a) = l := by
    intro l hl
    rw [List.map_congr_left fun b hb => if_neg (hl b hb), List.map_id']
  show t.rows.map (fun a => if key a = k then f a else a) = _
  rw [hrows, List.map_append, List.map_cons, if_pos hk,
    hsame before fun b hb => hother b (List.mem_append_left after hb),
    hsame after fun b hb => hother b (List.mem_append_right before hb)]

theorem rows_erase {t : Table key} {k : κ} {a : α} {before after : List α}
    (hrows : t.rows = before ++ a :: after) (hk : key a = k)
    (hother : ∀ b ∈ before ++ after, key b ≠ k) : (t.erase k).rows = before ++ after := by
  have hsame : ∀ l : List α, (∀ b ∈ l, key b ≠ k) →
      l.filter (fun a => decide (key a ≠ k)) = l := by
    intro l hl
    exact List.filter_eq_self.mpr fun b hb => decide_eq_true (hl b hb)
  show t.rows.filter (fun a => decide (key a ≠ k)) = _
  grind

variable {p : α → Bool}

theorem countP_modify {t : Table key} {k : κ} {a : α} (hf : ∀ a, key (f a) = key a)
    (h : t.get? k = some a) :
    (t.modify k f hf).rows.countP p + (p a).toNat = t.rows.countP p + (p (f a)).toNat := by
  obtain ⟨before, after, hrows, hk, hother⟩ := rows_split h
  grind [rows_modify]

theorem countP_erase {t : Table key} {k : κ} {a : α} (h : t.get? k = some a) :
    (t.erase k).rows.countP p + (p a).toNat = t.rows.countP p := by
  obtain ⟨before, after, hrows, hk, hother⟩ := rows_split h
  grind [rows_erase]

theorem countP_tryEmplace {t t' : Table key} {order : Arrangement α} {a : α}
    (h : t.tryEmplace order a = some t') : t'.rows.countP p = t.rows.countP p + (p a).toNat := by
  unfold tryEmplace at h
  split at h
  · cases h
    rw [(order.perm _).countP_eq, List.countP_cons]
    cases p a <;> rfl
  · cases h

theorem length_erase {t : Table key} {k : κ} {a : α} (h : t.get? k = some a) :
    (t.erase k).rows.length + 1 = t.rows.length := by
  obtain ⟨before, after, hrows, hk, hother⟩ := rows_split h
  rw [rows_erase hrows hk hother, hrows, List.length_append, List.length_append, List.length_cons]
  omega

theorem length_tryEmplace {t t' : Table key} {order : Arrangement α} {a : α}
    (h : t.tryEmplace order a = some t') : t'.rows.length = t.rows.length + 1 := by
  unfold tryEmplace at h
  split at h
  · cases h
    rw [(order.perm _).length_eq, List.length_cons]
  · cases h

end Table
