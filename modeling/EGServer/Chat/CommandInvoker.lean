import EGServer.Chat.ArgChoices

/-!
# `CommandInvoker`

The handler is called if there is a choice of present and absent optional parameters that consumes the
whole string, and with what the first one gives. It is so unless an abandoned attempt has spoiled a
parameter of that choice, or an earlier attempt has not come to an end.
-/

namespace EGServer.Chat

section

variable {ν : Type} (messages : Messages) (params : List (Parameter ν)) (args : Text)

def Outcome.isDone : Outcome ν → Bool
  | .done _ => true
  | _ => false

def Outcome.isFailure : Outcome ν → Bool
  | .fails => true
  | _ => false

/-- The first choice that consumes the whole string. -/
def firstChoice : Option (List Bool) :=
  (argChoices params).find? fun c => (freshRun messages params c args).isDone

/-- The first choice that does not fail. -/
def firstStop : Option (List Bool) :=
  (argChoices params).find? fun c => !(freshRun messages params c args).isFailure

/-- **Clean backtracking**: the handler is called if and only if some choice consumes the string, and
then with the arguments that the first such choice has on its own. -/
structure ParsesCleanly : Prop where
  succeeds : (∃ arguments, commandInvoker messages params args = .called arguments) ↔
    ∃ c ∈ argChoices params, ∃ arguments, freshRun messages params c args = .done arguments
  first : ∀ c arguments, firstChoice messages params args = some c →
    freshRun messages params c args = .done arguments →
    commandInvoker messages params args = .called arguments

end

section

variable {ν : Type} {messages : Messages} {params : List (Parameter ν)} {args : Text} {c : List Bool}

theorem Outcome.isDone_iff {o : Outcome ν} : o.isDone = true ↔ ∃ arguments, o = .done arguments := by
  cases o <;> simp [Outcome.isDone]

theorem Outcome.isFailure_iff {o : Outcome ν} : o.isFailure = true ↔ o = .fails := by
  cases o <;> simp [Outcome.isFailure]

theorem firstChoice_eq_none : firstChoice messages params args = none ↔
    ¬∃ c ∈ argChoices params, ∃ arguments, freshRun messages params c args = .done arguments := by
  simp only [firstChoice, List.find?_eq_none, Outcome.isDone_iff, not_exists, not_and]

theorem freshRun_firstChoice (h : firstChoice messages params args = some c) :
    c ∈ argChoices params ∧ ∃ arguments, freshRun messages params c args = .done arguments :=
  ⟨List.mem_of_find?_eq_some h,
    Outcome.isDone_iff.mp (List.find?_some (p := fun c => (freshRun messages params c args).isDone) h)⟩

/-- The first choice that does not fail, as `ConsumeFromOffset` finds it. -/
theorem First.firstStop_eq (h : First messages params (argChoices params) args c)
    (hc : freshRun messages params c args ≠ .fails) : firstStop messages params args = some c := by
  obtain ⟨before, rest, hsplit, hbefore⟩ := h
  rw [firstStop, List.find?_eq_some_iff_append]
  refine ⟨?_, before, rest, hsplit, ?_⟩
  · rw [Bool.not_eq_true', Bool.eq_false_iff, ne_eq, Outcome.isFailure_iff]
    exact hc
  · intro b hb
    rw [Bool.not_not, Outcome.isFailure_iff]
    exact hbefore b hb

theorem First.firstChoice_eq {arguments : List (Option (Value ν))}
    (h : First messages params (argChoices params) args c)
    (hc : freshRun messages params c args = .done arguments) :
    firstChoice messages params args = some c := by
  obtain ⟨before, rest, hsplit, hbefore⟩ := h
  rw [firstChoice, List.find?_eq_some_iff_append]
  refine ⟨Outcome.isDone_iff.mpr ⟨arguments, hc⟩, before, rest, hsplit, ?_⟩
  intro b hb
  rw [hbefore b hb]
  rfl

/-! ## The tuple at the start -/

theorem slotsOk_fresh (params : List (Parameter ν)) : SlotsOk params (params.map Parameter.fresh) := by
  induction params with
  | nil => exact .nil
  | cons p params ih =>
    refine .cons ?_ ih
    intro hno
    refine ⟨p.type.fresh, ?_, (p.type.behaves ⟨[], [], fun _ _ => [], fun _ _ => []⟩).shape⟩
    rw [Parameter.fresh, hno]
    rfl

theorem not_clashes_fresh (messages : Messages) (params : List (Parameter ν)) (c : List Bool)
    (args : Text) : ¬Clashes messages params (params.map Parameter.fresh) c args := by
  induction params generalizing c args with
  | nil => exact id
  | cons p params ih =>
    cases c with
    | nil => exact id
    | cons y c =>
      rw [List.map_cons, Clashes, not_or]
      constructor
      · rintro ⟨hno, hclash⟩
        rw [Parameter.fresh, hno] at hclash
        exact (p.type.behaves messages).fresh args hclash
      · rintro ⟨next, _, hclash⟩
        exact ih c next hclash

/-! ## The whole string -/

theorem follows_fresh (messages : Messages) (params : List (Parameter ν)) (args : Text) :
    Follows messages params (argChoices params) (params.map Parameter.fresh) args
      (consumeFrom messages params (params.map Parameter.fresh) args) :=
  consumeFrom_follows (slotsOk_fresh params) args

section

variable {arguments : List (Option (Value ν))}

theorem commandInvoker_of_success {tail : Text}
    (h : consumeFrom messages params (params.map Parameter.fresh) args = (.success tail, arguments)) :
    commandInvoker messages params args = .called arguments := by
  rw [commandInvoker, h]

theorem commandInvoker_of_failure {message : Option Text}
    (h : consumeFrom messages params (params.map Parameter.fresh) args = (.failure message, arguments)) :
    commandInvoker messages params args = .refused message := by
  rw [commandInvoker, h]

theorem commandInvoker_of_endless
    (h : consumeFrom messages params (params.map Parameter.fresh) args = (.endless, arguments)) :
    commandInvoker messages params args = .endless := by
  rw [commandInvoker, h]

end

/-- **The arguments are parsed cleanly if and only if** no attempt before the first choice that consumes
the string goes on for ever, and none of them spoils a parameter of that choice. -/
theorem parsesCleanly_iff (messages : Messages) (params : List (Parameter ν)) (args : Text) :
    ParsesCleanly messages params args ↔ ∀ c, firstChoice messages params args = some c →
      firstStop messages params args = some c ∧ ¬Abandoned messages params c args := by
  have hfollows := follows_fresh messages params args
  cases hresult : consumeFrom messages params (params.map Parameter.fresh) args with
  | mk result slots =>
  rw [hresult] at hfollows
  cases result with
  | success tail =>
    have hinvoker := commandInvoker_of_success hresult
    obtain ⟨c, arguments, hfirst, hdone, hvalues⟩ := hfollows
    have hchoice := hfirst.firstChoice_eq hdone
    rw [or_iff_right (not_clashes_fresh messages params c args)] at hvalues
    constructor
    · intro hclean d hd
      cases hchoice.symm.trans hd
      refine ⟨hfirst.firstStop_eq (by rw [hdone]; exact fun h => by cases h), hvalues.mp ?_⟩
      have hcalled := hinvoker.symm.trans (hclean.first c arguments hchoice hdone)
      cases hcalled
      rfl
    · intro hclean
      have hslots := hvalues.mpr (hclean c hchoice).2
      subst hslots
      refine ⟨iff_of_true ⟨slots, hinvoker⟩ ?_, ?_⟩
      · exact ⟨c, (freshRun_firstChoice hchoice).1, slots, hdone⟩
      · grind
  | failure message =>
    have hinvoker := commandInvoker_of_failure hresult
    obtain ⟨hfails, _, _⟩ := hfollows
    have hnone : ¬∃ c ∈ argChoices params, ∃ arguments, freshRun messages params c args = .done arguments := by
      rintro ⟨c, hc, arguments, hdone⟩
      rw [hfails c hc] at hdone
      cases hdone
    have hchoice := firstChoice_eq_none.mpr hnone
    refine iff_of_true ⟨iff_of_false ?_ hnone, ?_⟩ ?_
    · rintro ⟨arguments, hcalled⟩
      cases hinvoker.symm.trans hcalled
    · intro c arguments hc
      cases hchoice.symm.trans hc
    · intro c hc
      cases hchoice.symm.trans hc
  | endless =>
    have hinvoker := commandInvoker_of_endless hresult
    obtain ⟨c, hfirst, hendless⟩ := hfollows
    have hstop := hfirst.firstStop_eq (by rw [hendless]; exact fun h => by cases h)
    constructor
    · intro hclean d hd
      obtain ⟨_, arguments, hdone⟩ := freshRun_firstChoice hd
      cases hinvoker.symm.trans (hclean.first d arguments hd hdone)
    · intro hclean
      have hchoice : firstChoice messages params args = none := by
        cases hd : firstChoice messages params args with
        | none => rfl
        | some d =>
          obtain ⟨_, arguments, hdone⟩ := freshRun_firstChoice hd
          cases hstop.symm.trans (hclean d hd).1
          cases hendless.symm.trans hdone
      refine ⟨iff_of_false ?_ (firstChoice_eq_none.mp hchoice), ?_⟩
      · rintro ⟨arguments, hcalled⟩
        cases hinvoker.symm.trans hcalled
      · intro d arguments hd
        cases hchoice.symm.trans hd

end

/-! ## A text that is left in a quoted string -/

section

variable {ν : Type}

/-- The texts of the arguments. -/
def textsOf (arguments : List (Option (Value ν))) : List Text :=
  arguments.map fun value => (value.map Value.str).getD []

def Outcome.texts : Outcome ν → List Text
  | .done arguments => textsOf arguments
  | _ => []

def Invocation.texts : Invocation ν → List Text
  | .called arguments => textsOf arguments
  | _ => []

/-- The signature `(Optional<std::string>, QuotedString)`. -/
def stringThenQuoted : List (Parameter Nat) :=
  [⟨.string, true⟩, ⟨.quotedString, false⟩]

/-- `"it 'is"`, quotes and all. -/
def itIs : Text := [34, 105, 116, 32, 39, 105, 115, 34]

def noMessages : Messages := ⟨[], [], fun _ _ => [], fun _ _ => []⟩

/-- The string is omitted, and the quoted string has `is"` from the attempt with it. -/
theorem not_parsesCleanly :
    ¬∀ (messages : Messages) (params : List (Parameter Nat)) (args : Text),
      ParsesCleanly messages params args := by
  intro h
  have hchoice : firstChoice noMessages stringThenQuoted itIs = some [false, true] := by decide +kernel
  obtain ⟨_, arguments, hdone⟩ := freshRun_firstChoice hchoice
  have hcalled := (h noMessages stringThenQuoted itIs).first [false, true] arguments hchoice hdone
  have htexts : (commandInvoker noMessages stringThenQuoted itIs).texts =
      (freshRun noMessages stringThenQuoted [false, true] itIs).texts := by
    rw [hcalled, hdone]
    rfl
  have hdiffer : (commandInvoker noMessages stringThenQuoted itIs).texts ≠
      (freshRun noMessages stringThenQuoted [false, true] itIs).texts := by decide +kernel
  exact hdiffer htexts

end

end EGServer.Chat
