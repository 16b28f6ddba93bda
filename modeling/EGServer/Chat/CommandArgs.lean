import EGServer.Chat.ChatCommand

/-!
# The arguments of a command handler

`ArgInfo<T>::TryConsume` for the types that a handler may have, and `ConsumeFromOffset`, which goes
through the parameters and tries an `Optional` one first with its argument and then without. Every
attempt is given the same tuple, so what an attempt has left in it is what the next one finds.

The conversion of a text to a number is a parameter of its type. Left out are wide strings,
enumerations, identifiers, links and what is looked up in a store.
-/

namespace EGServer.Chat

/-! ## Types and values -/

/-- A number type: its name, `StringTo<T>(token, 0)`, and `std::isfinite`, which holds of every value
of an integral type. -/
structure NumberType (ν : Type) where
  typeName : Text
  zero : ν
  stringTo : Text → Option ν
  isfinite : ν → Bool := fun _ => true

inductive ArgType (ν : Type) where
  | number (type : NumberType ν)
  | string
  | quotedString
  | tail
  | exactSequence (sequence : Text)
  | vector (type : ArgType ν)
  | array (type : ArgType ν) (size : Nat)
  | variant (types : List (ArgType ν))

inductive Value (ν : Type) where
  | number (value : ν)
  | text (value : Text)
  | exact
  | list (values : List (Value ν))
  | variant (index : Nat) (value : Value ν)

/-- `ChatCommandResult`. The last one is no result: the loop of a vector goes on for ever. -/
inductive ChatCommandResult where
  | success (tail : Text)
  | failure (message : Option Text)
  | endless
  deriving DecidableEq

/-- The messages of a handler. -/
structure Messages where
  LANG_CMDPARSER_EITHER : Text
  LANG_CMDPARSER_OR : Text
  LANG_CMDPARSER_STRING_VALUE_INVALID : Text → Text → Text
  LANG_CMDPARSER_EXACT_SEQ_MISMATCH : Text → Text → Text

def QUOTE : UInt8 := 34

def APOSTROPHE : UInt8 := 39

def BACKSLASH : UInt8 := 92

def NEWLINE : UInt8 := 10

section

variable {ν : Type}

mutual

/-- A value-initialised parameter. -/
def ArgType.fresh : ArgType ν → Value ν
  | .number type => .number type.zero
  | .string => .text []
  | .quotedString => .text []
  | .tail => .text []
  | .exactSequence _ => .exact
  | .vector _ => .list []
  | .array type size => .list (List.replicate size type.fresh)
  | .variant types => .variant 0 (ArgType.freshFirst types)

def ArgType.freshFirst : List (ArgType ν) → Value ν
  | [] => .exact
  | type :: _ => type.fresh

end

/-- The text of a string. -/
def Value.str : Value ν → Text
  | .text value => value
  | _ => []

/-- The elements of an array. -/
def Value.elements : Value ν → List (Value ν)
  | .list values => values
  | _ => []

/-! ## Strings -/

/-- The body of a quoted string: its characters are pushed to the back of the text. -/
def readQuoted (quote : UInt8) : Text → Text → ChatCommandResult × Text
  | [], s => (.failure none, s)
  | c :: rest, s =>
    if c = quote then
      if (tokenize rest).1 = [] then (.success (tokenize rest).2, s) else (.failure none, s)
    else if c = BACKSLASH then
      match rest with
      | [] => (.failure none, s)
      | escaped :: rest => readQuoted quote rest (s ++ [escaped])
    else readQuoted quote rest (s ++ [c])

/-- `ArgInfo<std::string>`, which leaves the old text where there is no token. -/
def consumeString (s args : Text) : ChatCommandResult × Text :=
  if (tokenize args).1 = [] then (.failure none, s) else (.success (tokenize args).2, (tokenize args).1)

/-- `QuotedString::TryConsume` -/
def consumeQuoted (s : Text) : Text → ChatCommandResult × Text
  | [] => (.failure none, s)
  | c :: rest =>
    if c ≠ QUOTE ∧ c ≠ APOSTROPHE then consumeString s (c :: rest) else readQuoted c rest s

def consumeExact (messages : Messages) (sequence args : Text) : ChatCommandResult :=
  if args = [] then .failure none
  else
    let start := args.take sequence.length
    if stringEqualI start sequence then
      let remainingToken := (tokenize (args.drop sequence.length)).1
      if remainingToken = [] then .success (tokenize (args.drop sequence.length)).2
      else
        .failure (some (messages.LANG_CMDPARSER_EXACT_SEQ_MISMATCH sequence
          (args.take (sequence.length + remainingToken.length))))
    else .failure (some (messages.LANG_CMDPARSER_EXACT_SEQ_MISMATCH sequence start))

/-! ## Containers -/

/-- The `while` loop of a vector, with `fuel` characters left at most. After an element that has
consumed nothing the next one consumes nothing either. -/
def consumeMore (element : Text → ChatCommandResult × Value ν) :
    Nat → List (Value ν) → Text → ChatCommandResult × List (Value ν)
  | 0, vals, args =>
    match element args with
    | (.success _, _) => (.endless, vals)
    | (.endless, _) => (.endless, vals)
    | (.failure _, _) => (.success args, vals)
  | fuel + 1, vals, args =>
    match element args with
    | (.success next, v) =>
      if next.length < args.length then consumeMore element fuel (vals ++ [v]) next
      else (.endless, vals)
    | (.endless, _) => (.endless, vals)
    | (.failure _, _) => (.success args, vals)

/-- A vector has one element at least. -/
def consumeVector (element : Text → ChatCommandResult × Value ν) (args : Text) :
    ChatCommandResult × List (Value ν) :=
  match element args with
  | (.success next, v) => consumeMore element next.length [v] next
  | (result, v) => (result, [v])

/-- The elements of an array are consumed in place. -/
def consumeArray (element : Value ν → Text → ChatCommandResult × Value ν) :
    List (Value ν) → Text → ChatCommandResult × List (Value ν)
  | [], args => (.success args, [])
  | v :: vals, args =>
    match element v args with
    | (.success next, v) =>
      ((consumeArray element vals next).1, v :: (consumeArray element vals next).2)
    | (result, v) => (result, v :: vals)

/-- What `TryAtIndex` answers when an alternative has failed. -/
def eitherResult (messages : Messages) (thisMessage : Option Text) (nested : ChatCommandResult) :
    ChatCommandResult :=
  match thisMessage, nested with
  | some this, .failure (some nested) =>
    if nested.head? = some QUOTE then
      .failure (some ([QUOTE] ++ this ++ [QUOTE, NEWLINE] ++ messages.LANG_CMDPARSER_OR ++
        [COMMAND_DELIMITER] ++ nested))
    else
      .failure (some ([QUOTE] ++ this ++ [QUOTE, NEWLINE] ++ messages.LANG_CMDPARSER_OR ++
        [COMMAND_DELIMITER, QUOTE] ++ nested ++ [QUOTE]))
  | some this, .failure none => .failure (some this)
  | _, nested => nested

/-- What `TryConsume` makes of the result for a variant. -/
def variantResult (messages : Messages) : ChatCommandResult → ChatCommandResult
  | .failure (some message) =>
    if NEWLINE ∈ message then
      .failure (some (messages.LANG_CMDPARSER_EITHER ++ [COMMAND_DELIMITER] ++ message))
    else .failure (some message)
  | result => result

/-! ## One argument -/

mutual

def tryConsume (messages : Messages) : ArgType ν → Value ν → Text → ChatCommandResult × Value ν
  | .number type, val, args =>
    if (tokenize args).1 = [] then (.failure none, val)
    else
      match type.stringTo (tokenize args).1 with
      | none =>
        (.failure (some (messages.LANG_CMDPARSER_STRING_VALUE_INVALID (tokenize args).1 type.typeName)),
          val)
      | some v =>
        if type.isfinite v then (.success (tokenize args).2, .number v)
        else
          (.failure (some (messages.LANG_CMDPARSER_STRING_VALUE_INVALID (tokenize args).1
            type.typeName)), .number v)
  | .string, val, args => ((consumeString val.str args).1, .text (consumeString val.str args).2)
  | .quotedString, val, args => ((consumeQuoted val.str args).1, .text (consumeQuoted val.str args).2)
  | .tail, _, args => (.success [], .text args)
  | .exactSequence sequence, val, args => (consumeExact messages sequence args, val)
  | .vector type, _, args =>
    ((consumeVector (fun args => tryConsume messages type type.fresh args) args).1,
      .list (consumeVector (fun args => tryConsume messages type type.fresh args) args).2)
  | .array type _, val, args =>
    ((consumeArray (fun val args => tryConsume messages type val args) val.elements args).1,
      .list (consumeArray (fun val args => tryConsume messages type val args) val.elements args).2)
  | .variant types, val, args =>
    (variantResult messages (tryAtIndex messages 0 types val args).1,
      (tryAtIndex messages 0 types val args).2)

def tryAtIndex (messages : Messages) (index : Nat) :
    List (ArgType ν) → Value ν → Text → ChatCommandResult × Value ν
  | [], val, _ => (.failure none, val)
  | type :: types, _, args =>
    match tryConsume messages type type.fresh args with
    | (.failure message, v) =>
      (eitherResult messages message (tryAtIndex messages (index + 1) types (.variant index v) args).1,
        (tryAtIndex messages (index + 1) types (.variant index v) args).2)
    | (result, v) => (result, .variant index v)

end

/-! ## All arguments -/

/-- A parameter of a handler, which may be `Optional`. -/
structure Parameter (ν : Type) where
  type : ArgType ν
  optional : Bool

def Parameter.fresh (p : Parameter ν) : Option (Value ν) := if p.optional then none else some p.type.fresh

/-- What is answered for an `Optional` when neither way leads to the end. -/
def optionalResult (messages : Messages) (message1 message2 : Option Text) : ChatCommandResult :=
  match message1, message2 with
  | some message1, some message2 =>
    .failure (some (messages.LANG_CMDPARSER_EITHER ++ [COMMAND_DELIMITER, QUOTE] ++ message2 ++
      [QUOTE, NEWLINE] ++ messages.LANG_CMDPARSER_OR ++ [COMMAND_DELIMITER, QUOTE] ++ message1 ++
      [QUOTE]))
  | some message1, none => .failure (some message1)
  | none, message2 => .failure message2

/-- `ConsumeFromOffset`, with the parameters from the offset on and their elements of the tuple. -/
def consumeFrom (messages : Messages) : List (Parameter ν) → List (Option (Value ν)) → Text →
    ChatCommandResult × List (Option (Value ν))
  | [], slots, args => (if args = [] then .success args else .failure none, slots)
  | _ :: _, [], _ => (.failure none, [])
  | p :: params, slot :: slots, args =>
    let attempt := match tryConsume messages p.type
        (if p.optional then p.type.fresh else slot.getD p.type.fresh) args with
      | (.success next, v) =>
        ((consumeFrom messages params slots next).1,
          some v :: (consumeFrom messages params slots next).2)
      | (result, v) => (result, some v :: slots)
    if p.optional then
      match attempt.1 with
      | .failure message1 =>
        -- "try again omitting the argument"
        let again := consumeFrom messages params attempt.2.tail args
        match again.1 with
        | .failure message2 => (optionalResult messages message1 message2, none :: again.2)
        | result => (result, none :: again.2)
      | _ => attempt
    else attempt

/-- What `CommandInvoker` does: it calls the handler with the arguments, or says that it cannot. -/
inductive Invocation (ν : Type) where
  | called (arguments : List (Option (Value ν)))
  | refused (message : Option Text)
  | endless

def commandInvoker (messages : Messages) (params : List (Parameter ν)) (argsStr : Text) : Invocation ν :=
  match consumeFrom messages params (params.map Parameter.fresh) argsStr with
  | (.success _, arguments) => .called arguments
  | (.failure message, _) => .refused message
  | (.endless, _) => .endless

end

end EGServer.Chat
