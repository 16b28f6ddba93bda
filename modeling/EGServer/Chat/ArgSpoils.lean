import EGServer.Chat.CommandArgs

/-!
# What an attempt leaves in an argument

The result of consuming an argument does not depend on its old value. The new value does where the
argument is a quoted string, or an array with elements of that type: a text in quotes is pushed to the
back of what an earlier attempt has left.
-/

namespace EGServer.Chat

section

variable {ν : Type} {messages : Messages} {s t args : Text}

/-! ## Quoted strings -/

/-- The text starts with a quote. -/
def Quoted (args : Text) : Prop := args.head? = some QUOTE ∨ args.head? = some APOSTROPHE

/-- An attempt at the text leaves characters in a quoted string. -/
def Leaves (args : Text) : Prop := (consumeQuoted [] args).2 ≠ []

theorem readQuoted_append (quote : UInt8) (rest s : Text) :
    readQuoted quote rest s =
      ((readQuoted quote rest []).1, s ++ (readQuoted quote rest []).2) := by
  induction hn : rest.length using Nat.strong_induction_on generalizing rest s with
  | _ n ih =>
    cases rest with
    | nil => simp [readQuoted]
    | cons c rest =>
      unfold readQuoted
      grind

theorem quoted_cons {c : UInt8} {rest : Text} : Quoted (c :: rest) ↔ ¬(c ≠ QUOTE ∧ c ≠ APOSTROPHE) := by
  rw [Quoted, List.head?_cons, Option.some.injEq, Option.some.injEq]
  tauto

theorem consumeQuoted_of_quoted (h : Quoted args) (s : Text) :
    consumeQuoted s args = ((consumeQuoted [] args).1, s ++ (consumeQuoted [] args).2) := by
  cases args with
  | nil =>
    rcases h with h | h
    · cases h
    · cases h
  | cons c rest =>
    rw [consumeQuoted, consumeQuoted, if_neg (quoted_cons.mp h), if_neg (quoted_cons.mp h)]
    exact readQuoted_append c rest s

theorem consumeQuoted_of_not_quoted (h : ¬Quoted args) (s : Text) :
    consumeQuoted s args = if (consumeQuoted [] args).2 = [] then ((consumeQuoted [] args).1, s)
      else consumeQuoted [] args := by
  cases args with
  | nil => rfl
  | cons c rest =>
    rw [quoted_cons, not_not] at h
    rw [consumeQuoted, consumeQuoted, if_pos h, if_pos h, consumeString, consumeString]
    grind

theorem fst_consumeQuoted (s args : Text) : (consumeQuoted s args).1 = (consumeQuoted [] args).1 := by
  by_cases h : Quoted args
  · rw [consumeQuoted_of_quoted h]
  · rw [consumeQuoted_of_not_quoted h]
    split <;> rfl

theorem snd_consumeQuoted_ne_nil :
    (consumeQuoted s args).2 ≠ [] ↔ s ≠ [] ∨ Leaves args := by
  unfold Leaves
  by_cases h : Quoted args
  · rw [consumeQuoted_of_quoted h, ne_eq, List.append_eq_nil_iff]
    tauto
  · grind [consumeQuoted_of_not_quoted]

theorem exists_token_of_success (h : (consumeQuoted [] args).1 = .success t) (hq : ¬Quoted args) :
    (consumeQuoted [] args).2 ≠ [] := by
  cases args with
  | nil => cases h
  | cons c rest =>
    rw [quoted_cons, not_not] at hq
    rw [consumeQuoted, if_pos hq, consumeString] at h ⊢
    split at h
    · cases h
    · rename_i htoken
      rw [if_neg htoken]
      exact htoken

theorem snd_consumeQuoted_eq (h : (consumeQuoted [] args).1 = .success t) :
    (consumeQuoted s args).2 = (consumeQuoted [] args).2 ↔ ¬(Quoted args ∧ s ≠ []) := by
  by_cases hq : Quoted args
  · rw [consumeQuoted_of_quoted hq]
    simp [hq]
  · rw [consumeQuoted_of_not_quoted hq, if_neg (exists_token_of_success h hq)]
    simp [hq]

/-! ## Arrays -/

section Arrays

variable (element : Value ν → Text → ChatCommandResult × Value ν) (fresh : Value ν)

/-- An element of the array has text from before, and is to consume a text in quotes. -/
def ClashIn (Clash : Value ν → Text → Prop) : List (Value ν) → Text → Prop
  | [], _ => False
  | v :: vals, args =>
    Clash v args ∨ ∃ next, (element fresh args).1 = .success next ∧ ClashIn Clash vals next

/-- An attempt at `old` leaves characters in an element that is to consume a text in quotes out of
`args`. -/
def SpoilsIn (Spoils : Text → Text → Prop) : Nat → Text → Text → Prop
  | 0, _, _ => False
  | n + 1, old, args =>
    Spoils old args ∨ ∃ next' next, (element fresh old).1 = .success next' ∧
      (element fresh args).1 = .success next ∧ SpoilsIn Spoils n next' next

end Arrays

/-! ## All types -/

def Clash (messages : Messages) : ArgType ν → Value ν → Text → Prop
  | .quotedString, val, args => Quoted args ∧ val.str ≠ []
  | .array type _, val, args =>
    ClashIn (tryConsume messages type) type.fresh (Clash messages type) val.elements args
  | _, _, _ => False

/-- **An attempt spoils a later one**: the first is at `old`, and the later one is at `args`. -/
def Spoils (messages : Messages) : ArgType ν → Text → Text → Prop
  | .quotedString, old, args => Quoted args ∧ Leaves old
  | .array type size, old, args =>
    SpoilsIn (tryConsume messages type) type.fresh (Spoils messages type) size old args
  | _, _, _ => False

/-- A value of the type, as far as it matters. -/
def Shape : ArgType ν → Value ν → Prop
  | .exactSequence _, val => val = .exact
  | .array type size, val => val.elements.length = size ∧ ∀ v ∈ val.elements, Shape type v
  | _, _ => True

/-- What holds of every type. -/
structure Behaves (messages : Messages) (type : ArgType ν) : Prop where
  shape : Shape type type.fresh
  keeps : ∀ v args, Shape type v → Shape type (tryConsume messages type v args).2
  result : ∀ v args, Shape type v →
    (tryConsume messages type v args).1 = (tryConsume messages type type.fresh args).1
  value : ∀ v args next, Shape type v →
    (tryConsume messages type type.fresh args).1 = .success next →
    ((tryConsume messages type v args).2 = (tryConsume messages type type.fresh args).2 ↔
      ¬Clash messages type v args)
  clash : ∀ v old args, Shape type v →
    (Clash messages type (tryConsume messages type v old).2 args ↔
      Clash messages type v args ∨ Spoils messages type old args)
  fresh : ∀ args, ¬Clash messages type type.fresh args

theorem Behaves.quotedString (messages : Messages) : Behaves messages (.quotedString : ArgType ν) where
  shape := trivial
  keeps := fun _ _ _ => trivial
  result := by
    intro v args _
    rw [tryConsume, tryConsume]
    exact fst_consumeQuoted v.str args
  value := by
    intro v args next _ hnext
    rw [tryConsume] at hnext
    rw [tryConsume, tryConsume, Value.text.injEq]
    exact snd_consumeQuoted_eq hnext
  clash := by
    intro v old args _
    rw [tryConsume]
    show Quoted args ∧ (consumeQuoted v.str old).2 ≠ [] ↔
      Quoted args ∧ v.str ≠ [] ∨ Quoted args ∧ Leaves old
    rw [snd_consumeQuoted_ne_nil, and_or_left]
  fresh := by
    intro args h
    rw [ArgType.fresh] at h
    exact h.2 rfl

/-! ## Arrays of such a type -/

section

variable {type : ArgType ν} {vals : List (Value ν)}

theorem Behaves.keeps_array (h : Behaves messages type) (hv : ∀ v ∈ vals, Shape type v) (args : Text) :
    (consumeArray (tryConsume messages type) vals args).2.length = vals.length ∧
      ∀ v ∈ (consumeArray (tryConsume messages type) vals args).2, Shape type v := by
  induction vals generalizing args with
  | nil => exact ⟨rfl, hv⟩
  | cons v vals ih =>
    have hhead := h.keeps v args (hv v List.mem_cons_self)
    have htail := fun v' hv' => hv v' (List.mem_cons_of_mem v hv')
    rw [consumeArray]
    grind

theorem consumeArray_cons_of_success {element : Value ν → Text → ChatCommandResult × Value ν} {v : Value ν}
    {next : Text} (hnext : (element v args).1 = .success next) :
    consumeArray element (v :: vals) args =
      ((consumeArray element vals next).1, (element v args).2 :: (consumeArray element vals next).2) := by
  grind [consumeArray]

theorem consumeArray_cons_of_not_success {element : Value ν → Text → ChatCommandResult × Value ν}
    {v : Value ν} (hno : ∀ next, (element v args).1 ≠ .success next) :
    consumeArray element (v :: vals) args = ((element v args).1, (element v args).2 :: vals) := by
  grind [consumeArray]

theorem Behaves.result_array (h : Behaves messages type) (hv : ∀ v ∈ vals, Shape type v) (args : Text) :
    (consumeArray (tryConsume messages type) vals args).1 =
      (consumeArray (tryConsume messages type) (List.replicate vals.length type.fresh) args).1 := by
  induction vals generalizing args with
  | nil => rfl
  | cons v vals ih =>
    have htail := fun v' hv' => hv v' (List.mem_cons_of_mem v hv')
    have hresult := h.result v args (hv v List.mem_cons_self)
    rw [List.length_cons, List.replicate_succ]
    by_cases hnext : ∃ next, (tryConsume messages type type.fresh args).1 = .success next
    · obtain ⟨next, hnext⟩ := hnext
      rw [consumeArray_cons_of_success hnext, consumeArray_cons_of_success (hresult.trans hnext)]
      exact ih htail next
    · grind [consumeArray_cons_of_not_success]

theorem Behaves.value_array (h : Behaves messages type) (hv : ∀ v ∈ vals, Shape type v)
    (hend : (consumeArray (tryConsume messages type) (List.replicate vals.length type.fresh) args).1 =
      .success t) :
    (consumeArray (tryConsume messages type) vals args).2 =
        (consumeArray (tryConsume messages type) (List.replicate vals.length type.fresh) args).2 ↔
      ¬ClashIn (tryConsume messages type) type.fresh (Clash messages type) vals args := by
  induction vals generalizing args with
  | nil => simp [consumeArray, ClashIn]
  | cons v vals ih =>
    have htail := fun v' hv' => hv v' (List.mem_cons_of_mem v hv')
    have hresult := h.result v args (hv v List.mem_cons_self)
    rw [List.length_cons, List.replicate_succ] at hend ⊢
    by_cases hnext : ∃ next, (tryConsume messages type type.fresh args).1 = .success next
    · obtain ⟨next, hnext⟩ := hnext
      rw [consumeArray_cons_of_success hnext] at hend
      rw [consumeArray_cons_of_success hnext, consumeArray_cons_of_success (hresult.trans hnext),
        List.cons.injEq, h.value v args next (hv v List.mem_cons_self) hnext, ih htail hend, ClashIn, not_or]
      refine and_congr_right fun _ => not_congr ?_
      simp [hnext]
    · rw [consumeArray_cons_of_not_success (not_exists.mp hnext)] at hend
      exact (hnext ⟨t, hend⟩).elim

theorem Behaves.clash_array (h : Behaves messages type) (hv : ∀ v ∈ vals, Shape type v) (old args : Text) :
    ClashIn (tryConsume messages type) type.fresh (Clash messages type)
        (consumeArray (tryConsume messages type) vals old).2 args ↔
      ClashIn (tryConsume messages type) type.fresh (Clash messages type) vals args ∨
        SpoilsIn (tryConsume messages type) type.fresh (Spoils messages type) vals.length old args := by
  induction vals generalizing old args with
  | nil => simp [consumeArray, ClashIn, SpoilsIn]
  | cons v vals ih =>
    have htail := fun v' hv' => hv v' (List.mem_cons_of_mem v hv')
    have hresult := h.result v old (hv v List.mem_cons_self)
    have hclash := h.clash v old args (hv v List.mem_cons_self)
    rw [List.length_cons, SpoilsIn]
    by_cases hnext : ∃ next, (tryConsume messages type type.fresh old).1 = .success next
    · obtain ⟨next', hnext⟩ := hnext
      rw [consumeArray_cons_of_success (hresult.trans hnext)]
      simp only [ClashIn, hclash, ih htail, hnext, ChatCommandResult.success.injEq, exists_and_left,
        exists_eq_left', and_or_left, exists_or]
      exact or_or_or_comm
    · rw [consumeArray_cons_of_not_success (by rw [hresult]; exact not_exists.mp hnext)]
      have hnone : ¬∃ next' next, (tryConsume messages type type.fresh old).1 = .success next' ∧
          (tryConsume messages type type.fresh args).1 = .success next ∧
          SpoilsIn (tryConsume messages type) type.fresh (Spoils messages type) vals.length next' next := by
        rintro ⟨next', _, hnext', _⟩
        exact hnext ⟨next', hnext'⟩
      rw [ClashIn, hclash, ClashIn, or_iff_left hnone]
      exact or_right_comm

theorem Behaves.fresh_array (h : Behaves messages type) (size : Nat) (args : Text) :
    ¬ClashIn (tryConsume messages type) type.fresh (Clash messages type)
      (List.replicate size type.fresh) args := by
  induction size generalizing args with
  | zero => exact id
  | succ size ih =>
    rw [List.replicate_succ, ClashIn, not_or]
    refine ⟨h.fresh args, ?_⟩
    rintro ⟨next, _, hclash⟩
    exact ih next hclash

end

theorem tryConsume_array (type : ArgType ν) (size : Nat) (v : Value ν) (args : Text) :
    tryConsume messages (.array type size) v args =
      ((consumeArray (tryConsume messages type) v.elements args).1,
        .list (consumeArray (tryConsume messages type) v.elements args).2) := by
  rw [tryConsume]

theorem elements_fresh_array (type : ArgType ν) (size : Nat) :
    (ArgType.array type size).fresh.elements = List.replicate size type.fresh := by
  rw [ArgType.fresh, Value.elements]

theorem Behaves.array {type : ArgType ν} (h : Behaves messages type) (size : Nat) :
    Behaves messages (.array type size) where
  shape := by
    rw [Shape, elements_fresh_array]
    refine ⟨List.length_replicate, ?_⟩
    intro v hv
    rw [List.eq_of_mem_replicate hv]
    exact h.shape
  keeps := by
    intro v args hv
    rw [tryConsume_array]
    obtain ⟨hlength, hall⟩ := h.keeps_array hv.2 args
    exact ⟨hlength.trans hv.1, hall⟩
  result := by
    intro v args hv
    rw [tryConsume_array, tryConsume_array, elements_fresh_array, ← hv.1]
    exact h.result_array hv.2 args
  value := by
    intro v args next hv hnext
    rw [tryConsume_array, elements_fresh_array, ← hv.1] at hnext
    rw [tryConsume_array, tryConsume_array, elements_fresh_array, ← hv.1, Value.list.injEq, Clash]
    exact h.value_array hv.2 hnext
  clash := by
    intro v old args hv
    rw [tryConsume_array, Clash, Clash, Spoils, ← hv.1]
    exact h.clash_array hv.2 old args
  fresh := by
    intro args
    rw [Clash, elements_fresh_array]
    exact h.fresh_array size args

/-! ## The other types -/

theorem Behaves.of_overwrites {type : ArgType ν} (hshape : ∀ v, Shape type v)
    (hsame : ∀ v args, (tryConsume messages type v args).1 = (tryConsume messages type type.fresh args).1 ∧
      ∀ next, (tryConsume messages type type.fresh args).1 = .success next →
        (tryConsume messages type v args).2 = (tryConsume messages type type.fresh args).2)
    (hclash : ∀ v args, ¬Clash messages type v args)
    (hspoils : ∀ old args, ¬Spoils messages type old args) : Behaves messages type where
  shape := hshape _
  keeps := fun _ _ _ => hshape _
  result := fun v args _ => (hsame v args).1
  value := fun v args next _ hnext => iff_of_true ((hsame v args).2 next hnext) (hclash v args)
  clash := fun v old args _ => iff_of_false (hclash _ args) (not_or.mpr ⟨hclash v args, hspoils old args⟩)
  fresh := hclash _

theorem Behaves.number (messages : Messages) (type : NumberType ν) : Behaves messages (.number type) := by
  refine .of_overwrites (fun _ => trivial) ?_ (fun _ _ h => h) (fun _ _ h => h)
  intro v args
  rw [tryConsume, tryConsume]
  grind

theorem Behaves.string (messages : Messages) : Behaves messages (.string : ArgType ν) := by
  refine .of_overwrites (fun _ => trivial) ?_ (fun _ _ h => h) (fun _ _ h => h)
  intro v args
  rw [tryConsume, tryConsume, consumeString, consumeString]
  split
  · exact ⟨rfl, fun next hnext => by cases hnext⟩
  · exact ⟨rfl, fun _ _ => rfl⟩

theorem Behaves.tail (messages : Messages) : Behaves messages (.tail : ArgType ν) := by
  refine .of_overwrites (fun _ => trivial) ?_ (fun _ _ h => h) (fun _ _ h => h)
  intro v args
  rw [tryConsume, tryConsume]
  exact ⟨rfl, fun _ _ => rfl⟩

theorem Behaves.vector (messages : Messages) (type : ArgType ν) : Behaves messages (.vector type) := by
  refine .of_overwrites (fun _ => trivial) ?_ (fun _ _ h => h) (fun _ _ h => h)
  intro v args
  rw [tryConsume, tryConsume]
  exact ⟨rfl, fun _ _ => rfl⟩

theorem Behaves.variant (messages : Messages) (types : List (ArgType ν)) :
    Behaves messages (.variant types) := by
  refine .of_overwrites (fun _ => trivial) ?_ (fun _ _ h => h) (fun _ _ h => h)
  intro v args
  rw [tryConsume, tryConsume]
  cases types with
  | nil =>
    rw [tryAtIndex, tryAtIndex]
    exact ⟨rfl, fun next hnext => by cases hnext⟩
  | cons type types =>
    rw [tryAtIndex, tryAtIndex]
    exact ⟨rfl, fun _ _ => rfl⟩

theorem Behaves.exactSequence (messages : Messages) (sequence : Text) :
    Behaves messages (.exactSequence sequence : ArgType ν) where
  shape := by
    rw [Shape, ArgType.fresh]
  keeps := by
    intro v args hv
    rw [tryConsume]
    exact hv
  result := by
    intro v args _
    rw [tryConsume, tryConsume]
  value := by
    intro v args next hv _
    rw [tryConsume, tryConsume]
    refine iff_of_true ?_ id
    rw [ArgType.fresh]
    exact hv
  clash := by
    intro v old args _
    exact iff_of_false id (not_or.mpr ⟨id, id⟩)
  fresh := fun _ h => h

/-- **All types behave.** The recursion is through the arrays alone. -/
theorem ArgType.behaves (messages : Messages) : ∀ type : ArgType ν, Behaves messages type
  | .number type => .number messages type
  | .string => .string messages
  | .quotedString => .quotedString messages
  | .tail => .tail messages
  | .exactSequence sequence => .exactSequence messages sequence
  | .vector type => .vector messages type
  | .array type size => (ArgType.behaves messages type).array size
  | .variant types => .variant messages types

end

end EGServer.Chat
