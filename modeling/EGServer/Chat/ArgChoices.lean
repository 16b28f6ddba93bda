import EGServer.Chat.ArgSpoils

/-!
# The choices of a command handler

What a choice of present and absent optional parameters means on its own, with a newly constructed
tuple, and how the one tuple of `ConsumeFromOffset` compares to it.
-/

namespace EGServer.Chat

section

variable {ν : Type} (messages : Messages)

/-! ## A choice on its own -/

/-- What a choice gives: the arguments of the handler, a parameter that cannot be consumed, or a
vector without end. -/
inductive Outcome (ν : Type) where
  | done (arguments : List (Option (Value ν)))
  | fails
  | endless

def Outcome.cons (value : Option (Value ν)) : Outcome ν → Outcome ν
  | .done arguments => .done (value :: arguments)
  | outcome => outcome

/-- **The choices for the parameters**, in order. A parameter that is not optional is present. -/
def argChoices : List (Parameter ν) → List (List Bool)
  | [] => [[]]
  | p :: params =>
    if p.optional then (argChoices params).map (true :: ·) ++ (argChoices params).map (false :: ·)
    else (argChoices params).map (true :: ·)

/-- **The outcome of a choice**, where every parameter is newly constructed. -/
def freshRun : List (Parameter ν) → List Bool → Text → Outcome ν
  | [], _, args => if args = [] then .done [] else .fails
  | _ :: _, [], _ => .fails
  | p :: params, true :: c, args =>
    match tryConsume messages p.type p.type.fresh args with
    | (.success next, v) => (freshRun params c next).cons (some v)
    | (.failure _, _) => .fails
    | (.endless, _) => .endless
  | _ :: params, false :: c, args => (freshRun params c args).cons none

/-- What is left of the text after a parameter. -/
def after (p : Parameter ν) (present : Bool) (args : Text) : Option Text :=
  if present then
    match (tryConsume messages p.type p.type.fresh args).1 with
    | .success next => some next
    | _ => none
  else some args

/-! ## What is in the way of a choice -/

/-- The tuple has text from before in a parameter that the choice lets consume a text in quotes. -/
def Clashes : List (Parameter ν) → List (Option (Value ν)) → List Bool → Text → Prop
  | p :: params, slot :: slots, x :: c, args =>
    (p.optional = false ∧ Clash messages p.type (slot.getD p.type.fresh) args) ∨
      ∃ next, after messages p x args = some next ∧ Clashes params slots c next
  | _, _, _, _ => False

/-- The two choices, each at its own text, come to a parameter that is not optional, and there the
attempt of the first one spoils the attempt of the second one. -/
def Meets : List (Parameter ν) → List Bool → Text → List Bool → Text → Prop
  | p :: params, x :: b, old, y :: c, args =>
    (p.optional = false ∧ Spoils messages p.type old args) ∨
      ∃ next' next, after messages p x old = some next' ∧ after messages p y args = some next ∧
        Meets params b next' c next
  | _, _, _, _, _ => False

/-- One of the choices meets the choice. -/
def Disturbs (params : List (Parameter ν)) (earlier : List (List Bool)) (old : Text) (c : List Bool)
    (args : Text) : Prop :=
  ∃ b ∈ earlier, Meets messages params b old c args

/-- **An abandoned attempt disturbs the choice**: for an optional parameter that the choice leaves out,
everything was tried with its argument before. -/
def Abandoned : List (Parameter ν) → List Bool → Text → Prop
  | p :: params, true :: c, args =>
    ∃ next, after messages p true args = some next ∧ Abandoned params c next
  | p :: params, false :: c, args =>
    (∃ next, after messages p true args = some next ∧
      Disturbs messages params (argChoices params) next c args) ∨ Abandoned params c args
  | _, _, _ => False

/-- The tuple has a value for every parameter that is not optional. -/
def SlotsOk : List (Parameter ν) → List (Option (Value ν)) → Prop :=
  List.Forall₂ fun p slot => p.optional = false → ∃ v, slot = some v ∧ Shape p.type v

/-! ## What `ConsumeFromOffset` does -/

/-- The choice is the first one that does not fail. -/
def First (params : List (Parameter ν)) (cs : List (List Bool)) (args : Text) (c : List Bool) : Prop :=
  ∃ before rest, cs = before ++ c :: rest ∧ ∀ b ∈ before, freshRun messages params b args = .fails

/-- What the result and the tuple say of the choices. -/
def Follows (params : List (Parameter ν)) (cs : List (List Bool)) (slots : List (Option (Value ν)))
    (args : Text) : ChatCommandResult × List (Option (Value ν)) → Prop
  | (.success _, slots') => ∃ c values, First messages params cs args c ∧
      freshRun messages params c args = .done values ∧
      (slots' = values ↔ ¬(Clashes messages params slots c args ∨ Abandoned messages params c args))
  | (.failure _, slots') => (∀ c ∈ cs, freshRun messages params c args = .fails) ∧
      SlotsOk params slots' ∧ ∀ c a, Clashes messages params slots' c a ↔
        Clashes messages params slots c a ∨ Disturbs messages params cs args c a
  | (.endless, _) => ∃ c, First messages params cs args c ∧ freshRun messages params c args = .endless

end

section

variable {ν : Type} {messages : Messages} {p : Parameter ν} {params : List (Parameter ν)}
  {slot : Option (Value ν)} {slots : List (Option (Value ν))} {args next : Text} {c : List Bool}
  {cs : List (List Bool)} {v : Value ν}

theorem argChoices_ne_nil : ∀ params : List (Parameter ν), argChoices params ≠ []
  | [] => List.cons_ne_nil _ _
  | p :: params => by
    rw [argChoices]
    split
    · simp [argChoices_ne_nil params]
    · simp [argChoices_ne_nil params]

@[simp] theorem Outcome.cons_eq_fails {value : Option (Value ν)} {o : Outcome ν} :
    o.cons value = .fails ↔ o = .fails := by
  cases o <;> simp [Outcome.cons]

@[simp] theorem Outcome.cons_eq_endless {value : Option (Value ν)} {o : Outcome ν} :
    o.cons value = .endless ↔ o = .endless := by
  cases o <;> simp [Outcome.cons]

theorem after_false (p : Parameter ν) (args : Text) : after messages p false args = some args := rfl

theorem after_true (h : (tryConsume messages p.type p.type.fresh args).1 = .success next) :
    after messages p true args = some next := by
  simp [after, h]

theorem after_true_eq_none (h : ∀ next, (tryConsume messages p.type p.type.fresh args).1 ≠ .success next) :
    after messages p true args = none := by
  rw [after, if_pos rfl]
  split
  · rename_i next hnext
    exact (h next hnext).elim
  · rfl

theorem freshRun_true (h : (tryConsume messages p.type p.type.fresh args).1 = .success next) :
    freshRun messages (p :: params) (true :: c) args = (freshRun messages params c next).cons
      (some (tryConsume messages p.type p.type.fresh args).2) := by
  grind [freshRun]

theorem freshRun_of_failure {message : Option Text}
    (h : (tryConsume messages p.type p.type.fresh args).1 = .failure message) :
    freshRun messages (p :: params) (true :: c) args = .fails := by
  grind [freshRun]

theorem freshRun_of_endless (h : (tryConsume messages p.type p.type.fresh args).1 = .endless) :
    freshRun messages (p :: params) (true :: c) args = .endless := by
  grind [freshRun]

/-! ## With a parameter -/

theorem First.present (h : First messages params cs next c)
    (hnext : (tryConsume messages p.type p.type.fresh args).1 = .success next) :
    First messages (p :: params) (cs.map (true :: ·)) args (true :: c) := by
  obtain ⟨before, rest, rfl, hbefore⟩ := h
  refine ⟨before.map (true :: ·), rest.map (true :: ·), by simp, ?_⟩
  intro b hb
  obtain ⟨b', hb', rfl⟩ := List.mem_map.mp hb
  rw [freshRun_true hnext, Outcome.cons_eq_fails]
  exact hbefore b' hb'

theorem First.append (h : First messages params cs args c) (cs' : List (List Bool)) :
    First messages params (cs ++ cs') args c := by
  obtain ⟨before, rest, rfl, hbefore⟩ := h
  exact ⟨before, rest ++ cs', by simp, hbefore⟩

theorem First.after_failures {earlier : List (List Bool)} (h : First messages params cs args c)
    (hfails : ∀ b ∈ earlier, freshRun messages params b args = .fails) :
    First messages params (earlier ++ cs) args c := by
  obtain ⟨before, rest, rfl, hbefore⟩ := h
  refine ⟨earlier ++ before, rest, by simp, ?_⟩
  intro b hb
  rcases List.mem_append.mp hb with hb | hb
  · exact hfails b hb
  · exact hbefore b hb

theorem First.map_false (h : First messages params cs args c) :
    First messages (p :: params) (cs.map (false :: ·)) args (false :: c) := by
  obtain ⟨before, rest, rfl, hbefore⟩ := h
  refine ⟨before.map (false :: ·), rest.map (false :: ·), by simp, ?_⟩
  intro b hb
  obtain ⟨b', hb', rfl⟩ := List.mem_map.mp hb
  rw [freshRun, Outcome.cons_eq_fails]
  exact hbefore b' hb'

theorem disturbs_present {old : Text} {y : Bool} (hcs : cs ≠ []) :
    Disturbs messages (p :: params) (cs.map (true :: ·)) old (y :: c) args ↔
      (p.optional = false ∧ Spoils messages p.type old args) ∨
        ∃ next' next, after messages p true old = some next' ∧ after messages p y args = some next ∧
          Disturbs messages params cs next' c next := by
  constructor
  · rintro ⟨b, hb, hmeets⟩
    obtain ⟨b, hb', rfl⟩ := List.mem_map.mp hb
    rcases hmeets with hspoils | ⟨next', next, hold, hargs, hmeets⟩
    · exact .inl hspoils
    · exact .inr ⟨next', next, hold, hargs, b, hb', hmeets⟩
  · rintro (hspoils | ⟨next', next, hold, hargs, b, hb, hmeets⟩)
    · obtain ⟨b, hb⟩ := List.exists_mem_of_ne_nil cs hcs
      exact ⟨true :: b, List.mem_map_of_mem hb, .inl hspoils⟩
    · exact ⟨true :: b, List.mem_map_of_mem hb, .inr ⟨next', next, hold, hargs, hmeets⟩⟩

theorem disturbs_absent {old : Text} {y : Bool} (hp : p.optional = true) :
    Disturbs messages (p :: params) (cs.map (false :: ·)) old (y :: c) args ↔
      ∃ next, after messages p y args = some next ∧ Disturbs messages params cs old c next := by
  constructor
  · rintro ⟨b, hb, hmeets⟩
    obtain ⟨b, hb', rfl⟩ := List.mem_map.mp hb
    rcases hmeets with ⟨hno, _⟩ | ⟨next', next, hold, hargs, hmeets⟩
    · rw [hp] at hno
      cases hno
    · cases hold
      exact ⟨next, hargs, b, hb', hmeets⟩
  · rintro ⟨next, hargs, b, hb, hmeets⟩
    exact ⟨false :: b, List.mem_map_of_mem hb, .inr ⟨old, next, rfl, hargs, hmeets⟩⟩

theorem disturbs_append {earlier : List (List Bool)} {old : Text} :
    Disturbs messages params (earlier ++ cs) old c args ↔
      Disturbs messages params earlier old c args ∨ Disturbs messages params cs old c args := by
  simp only [Disturbs, List.mem_append, or_and_right, exists_or]

/-! ## The attempt at a parameter -/

/-- The value in which a parameter is consumed. -/
def Parameter.start (p : Parameter ν) (slot : Option (Value ν)) : Value ν :=
  if p.optional then p.type.fresh else slot.getD p.type.fresh

/-- A parameter is consumed, and then the ones after it. -/
def attempt (messages : Messages) (p : Parameter ν) (params : List (Parameter ν)) (v : Value ν)
    (slots : List (Option (Value ν))) (args : Text) : ChatCommandResult × List (Option (Value ν)) :=
  match tryConsume messages p.type v args with
  | (.success next, v) =>
    ((consumeFrom messages params slots next).1, some v :: (consumeFrom messages params slots next).2)
  | (result, v) => (result, some v :: slots)

theorem consumeFrom_cons (p : Parameter ν) (params : List (Parameter ν)) (slot : Option (Value ν))
    (slots : List (Option (Value ν))) (args : Text) :
    consumeFrom messages (p :: params) (slot :: slots) args =
      if p.optional then
        match (attempt messages p params (p.start slot) slots args).1 with
        | .failure message1 =>
          match (consumeFrom messages params
              (attempt messages p params (p.start slot) slots args).2.tail args).1 with
          | .failure message2 => (optionalResult messages message1 message2, none ::
              (consumeFrom messages params
                (attempt messages p params (p.start slot) slots args).2.tail args).2)
          | result => (result, none :: (consumeFrom messages params
              (attempt messages p params (p.start slot) slots args).2.tail args).2)
        | _ => attempt messages p params (p.start slot) slots args
      else attempt messages p params (p.start slot) slots args := rfl

theorem attempt_of_success (h : (tryConsume messages p.type v args).1 = .success next) :
    attempt messages p params v slots args = ((consumeFrom messages params slots next).1,
      some (tryConsume messages p.type v args).2 :: (consumeFrom messages params slots next).2) := by
  grind [attempt]

theorem attempt_of_not_success (h : ∀ next, (tryConsume messages p.type v args).1 ≠ .success next) :
    attempt messages p params v slots args =
      ((tryConsume messages p.type v args).1, some (tryConsume messages p.type v args).2 :: slots) := by
  grind [attempt]

theorem Parameter.shape_start (messages : Messages) (h : p.optional = false → ∃ v, slot = some v ∧ Shape p.type v) :
    Shape p.type (p.start slot) := by
  rw [Parameter.start]
  split
  · exact (p.type.behaves messages).shape
  · rename_i hno
    obtain ⟨v, rfl, hv⟩ := h (Bool.eq_false_iff.mpr hno)
    exact hv

theorem Parameter.clash_start (messages : Messages) (p : Parameter ν) (slot : Option (Value ν))
    (args : Text) :
    Clash messages p.type (p.start slot) args ↔
      p.optional = false ∧ Clash messages p.type (slot.getD p.type.fresh) args := by
  rw [Parameter.start]
  split
  · rename_i hopt
    simp [hopt, (p.type.behaves messages).fresh args]
  · rename_i hno
    simp [Bool.eq_false_iff.mpr hno]

/-- **The attempt follows the choices where the parameter is present**, if the rest follows its own. -/
theorem follows_attempt (hslot : p.optional = false → ∃ v, slot = some v ∧ Shape p.type v)
    (hslots : SlotsOk params slots)
    (ih : ∀ next, Follows messages params (argChoices params) slots next (consumeFrom messages params slots next)) :
    Follows messages (p :: params) ((argChoices params).map (true :: ·)) (slot :: slots) args
      (attempt messages p params (p.start slot) slots args) := by
  have hbehaves := p.type.behaves messages
  have hshape := Parameter.shape_start messages hslot
  have hresult := hbehaves.result (p.start slot) args hshape
  have hkeeps : p.optional = false → ∃ v, some (tryConsume messages p.type (p.start slot) args).2 = some v ∧
      Shape p.type v := fun _ => ⟨_, rfl, hbehaves.keeps _ args hshape⟩
  have hhead : ∀ a, (p.optional = false ∧
        Clash messages p.type (tryConsume messages p.type (p.start slot) args).2 a) ↔
      (p.optional = false ∧ Clash messages p.type (slot.getD p.type.fresh) a) ∨
        (p.optional = false ∧ Spoils messages p.type args a) := by
    intro a
    rw [hbehaves.clash (p.start slot) args a hshape, p.clash_start, and_or_left, ← and_assoc, and_self]
  cases hnext : (tryConsume messages p.type p.type.fresh args).1 with
  | success next =>
    rw [attempt_of_success (hresult.trans hnext)]
    have hfollows := ih next
    revert hfollows
    generalize consumeFrom messages params slots next = r
    obtain ⟨result, slots'⟩ := r
    cases result with
    | success tail =>
      rintro ⟨c, values, hfirst, hdone, hvalues⟩
      refine ⟨true :: c, some (tryConsume messages p.type p.type.fresh args).2 :: values,
        hfirst.present hnext, ?_, ?_⟩
      · rw [freshRun_true hnext, hdone]
        rfl
      · have hvalue := hbehaves.value (p.start slot) args next hshape hnext
        rw [List.cons.injEq, Option.some.injEq, hvalue, hvalues, p.clash_start, Clashes, Abandoned,
          after_true hnext]
        simp only [Option.some.injEq, exists_eq_left']
        rw [← not_or, or_assoc]
    | failure message =>
      rintro ⟨hfails, hok, hclashes⟩
      refine ⟨?_, .cons hkeeps hok, ?_⟩
      · intro c hc
        obtain ⟨c', hc', rfl⟩ := List.mem_map.mp hc
        rw [freshRun_true hnext, Outcome.cons_eq_fails]
        exact hfails c' hc'
      · intro c a
        cases c with
        | nil => simp [Clashes, Disturbs, Meets]
        | cons y c =>
          rw [Clashes, Clashes, disturbs_present (argChoices_ne_nil params), Option.getD_some, hhead]
          simp only [hclashes, after_true hnext, Option.some.injEq, exists_and_left, exists_eq_left',
            and_or_left, exists_or]
          exact or_or_or_comm
    | endless =>
      rintro ⟨c, hfirst, hendless⟩
      refine ⟨true :: c, hfirst.present hnext, ?_⟩
      rw [freshRun_true hnext, Outcome.cons_eq_endless]
      exact hendless
  | failure message =>
    have hno : ∀ next, (tryConsume messages p.type p.type.fresh args).1 ≠ .success next := by
      rw [hnext]
      exact fun _ h => by cases h
    rw [attempt_of_not_success (by rw [hresult]; exact hno), hresult, hnext]
    refine ⟨?_, .cons hkeeps hslots, ?_⟩
    · intro c hc
      obtain ⟨c', _, rfl⟩ := List.mem_map.mp hc
      exact freshRun_of_failure hnext
    · intro c a
      cases c with
      | nil => simp [Clashes, Disturbs, Meets]
      | cons y c =>
        rw [Clashes, Clashes, disturbs_present (argChoices_ne_nil params), Option.getD_some, hhead,
          after_true_eq_none hno]
        simp only [reduceCtorEq, false_and, exists_false, or_false]
        exact or_right_comm
  | endless =>
    rw [attempt_of_not_success (by rw [hresult, hnext]; exact fun _ h => by cases h), hresult, hnext]
    obtain ⟨c, cs, hcs⟩ := List.exists_cons_of_ne_nil (argChoices_ne_nil params)
    refine ⟨true :: c, ⟨[], cs.map (true :: ·), by rw [hcs]; rfl, fun _ hb => by cases hb⟩, ?_⟩
    exact freshRun_of_endless hnext

/-! ## All parameters -/

theorem clashes_optional (hp : p.optional = true) {y : Bool} :
    Clashes messages (p :: params) (slot :: slots) (y :: c) args ↔
      ∃ next, after messages p y args = some next ∧ Clashes messages params slots c next := by
  simp [Clashes, hp]

theorem optionalResult_eq (messages : Messages) (message1 message2 : Option Text) :
    ∃ message, optionalResult messages message1 message2 = .failure message := by
  cases message1 with
  | none => exact ⟨message2, rfl⟩
  | some message1 =>
    cases message2 with
    | none => exact ⟨some message1, rfl⟩
    | some message2 => exact ⟨_, rfl⟩

theorem follows_again {s : Option (Value ν)} {slots' : List (Option (Value ν))} {message1 : Option Text}
    {r : ChatCommandResult × List (Option (Value ν))} (hopt : p.optional = true)
    (hfails : ∀ c ∈ (argChoices params).map (true :: ·), freshRun messages (p :: params) c args = .fails)
    (hclashes : ∀ c a, Clashes messages (p :: params) (s :: slots') c a ↔
      Clashes messages (p :: params) (slot :: slots) c a ∨
        Disturbs messages (p :: params) ((argChoices params).map (true :: ·)) args c a)
    (h : Follows messages params (argChoices params) slots' args r) :
    Follows messages (p :: params) ((argChoices params).map (true :: ·) ++ (argChoices params).map (false :: ·))
      (slot :: slots) args
      (match r.1 with
        | .failure message2 => (optionalResult messages message1 message2, none :: r.2)
        | result => (result, none :: r.2)) := by
  obtain ⟨result, slots2⟩ := r
  cases result with
  | success tail =>
    obtain ⟨c, values, hfirst, hdone, hvalues⟩ := h
    refine ⟨false :: c, none :: values, hfirst.map_false.after_failures hfails, ?_, ?_⟩
    · rw [freshRun, hdone]
      rfl
    · have hclash := hclashes (false :: c) args
      rw [disturbs_present (argChoices_ne_nil params), clashes_optional hopt, after_false] at hclash
      simp only [hopt, Option.some.injEq, exists_eq_left', Bool.true_eq_false, false_and, false_or,
        exists_and_left] at hclash
      rw [List.cons.injEq, hvalues, hclash, Abandoned, or_assoc]
      exact and_iff_right rfl
  | failure message2 =>
    obtain ⟨hfails2, hok, hclashes2⟩ := h
    obtain ⟨message, hmessage⟩ := optionalResult_eq messages message1 message2
    dsimp only
    rw [hmessage]
    refine ⟨?_, .cons (fun hno => by rw [hopt] at hno; cases hno) hok, ?_⟩
    · intro c hc
      rcases List.mem_append.mp hc with hc | hc
      · exact hfails c hc
      · obtain ⟨c', hc', rfl⟩ := List.mem_map.mp hc
        rw [freshRun, Outcome.cons_eq_fails]
        exact hfails2 c' hc'
    · intro c a
      cases c with
      | nil => simp [Clashes, Disturbs, Meets]
      | cons y c =>
        have hclash := hclashes (y :: c) a
        rw [clashes_optional hopt] at hclash
        rw [clashes_optional hopt, disturbs_append, ← or_assoc, ← hclash, disturbs_absent hopt]
        simp only [hclashes2, and_or_left, exists_or]
  | endless =>
    obtain ⟨c, hfirst, hendless⟩ := h
    refine ⟨false :: c, hfirst.map_false.after_failures hfails, ?_⟩
    rw [freshRun, Outcome.cons_eq_endless]
    exact hendless

/-- **`ConsumeFromOffset` follows the choices**: it stops at the first one that does not fail, and it
tells what the tuple holds then. -/
theorem consumeFrom_follows (hslots : SlotsOk params slots) (args : Text) :
    Follows messages params (argChoices params) slots args (consumeFrom messages params slots args) := by
  induction params generalizing slots args with
  | nil =>
    cases hslots
    rw [consumeFrom]
    split
    · rename_i hargs
      refine ⟨[], [], ⟨[], [], rfl, fun _ hb => by cases hb⟩, if_pos hargs, ?_⟩
      simp [Clashes, Abandoned]
    · rename_i hargs
      refine ⟨fun _ _ => if_neg hargs, .nil, ?_⟩
      simp [Clashes, Disturbs, Meets]
  | cons p params ih =>
    obtain ⟨slot, slots, hslot, hrest, rfl⟩ := List.forall₂_cons_left_iff.mp hslots
    have hpresent : Follows messages (p :: params) ((argChoices params).map (true :: ·)) (slot :: slots) args
        (attempt messages p params (p.start slot) slots args) := follows_attempt hslot hrest (ih hrest)
    rw [consumeFrom_cons, argChoices]
    by_cases hopt : p.optional = true
    · rw [if_pos hopt, if_pos hopt]
      revert hpresent
      generalize attempt messages p params (p.start slot) slots args = r
      obtain ⟨result, slots'⟩ := r
      cases result with
      | success tail =>
        rintro ⟨c, values, hfirst, hdone, hvalues⟩
        exact ⟨c, values, hfirst.append _, hdone, hvalues⟩
      | endless =>
        rintro ⟨c, hfirst, hendless⟩
        exact ⟨c, hfirst.append _, hendless⟩
      | failure message1 =>
        rintro ⟨hfails, hok, hclashes⟩
        cases hok with
        | cons _ hok => exact follows_again hopt hfails hclashes (ih hok args)
    · rw [if_neg hopt, if_neg hopt]
      exact hpresent

end

end EGServer.Chat
