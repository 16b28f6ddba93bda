import EGServer.Lib.PrefixSearch
import Mathlib.Data.List.DropRight
import Mathlib.Data.UInt

/-!
# Chat commands

The tree of the chat commands, the walk of `TryExecuteCommand` through it and the walk of
`GetAutoCompletionsFor`, which is a copy of the first one that writes down the names it passes.

Strings are lists of bytes. What is printed is left out, except for the possibilities that are
listed when a command is ambiguous.
-/

namespace EGServer.Chat

abbrev Text := List UInt8

def COMMAND_DELIMITER : UInt8 := 32

/-! ## Comparing without regard to case -/

/-- `std::tolower` of a `char`, which is signed, in the "C" locale. -/
def tolower (c : UInt8) : Int := if 65 ≤ c ∧ c ≤ 90 then c.toNat + 32 else c.toInt8.toInt

def stringEqualI : Text → Text → Bool
  | [], [] => true
  | c1 :: a, c2 :: b => tolower c1 = tolower c2 && stringEqualI a b
  | _, _ => false

def stringCompareLessI : Text → Text → Bool
  | _, [] => false
  | [], _ :: _ => true
  | c1 :: a, c2 :: b =>
    if tolower c1 < tolower c2 then true
    else if tolower c2 < tolower c1 then false
    else stringCompareLessI a b

def stringStartsWithI (haystack needle : Text) : Bool :=
  stringEqualI (haystack.take needle.length) needle

/-! ## The tree -/

structure CommandPermissions where
  RequiredPermission : UInt32
  AllowConsole : Bool

/-- `ChatHandler`, as far as it is asked whether it may see a command. -/
structure ChatHandler where
  isConsole : Bool
  hasPermission : UInt32 → Bool

/-- A node with the name under which it is kept in the map of its parent; `ι` is the type of
the command handlers. A map is the list of its entries in the order of the map. -/
inductive ChatCommandNode (ι : Type) where
  | mk (first : Text) (_invoker : Option ι) (_permission : CommandPermissions)
      (_subCommands : List (ChatCommandNode ι))

namespace ChatCommandNode

variable {ι : Type}

def first : ChatCommandNode ι → Text
  | mk first _ _ _ => first

def invoker : ChatCommandNode ι → Option ι
  | mk _ invoker _ _ => invoker

def permission : ChatCommandNode ι → CommandPermissions
  | mk _ _ permission _ => permission

def subCommands : ChatCommandNode ι → List (ChatCommandNode ι)
  | mk _ _ _ subCommands => subCommands

def isInvokerVisible (who : ChatHandler) (cmd : ChatCommandNode ι) : Bool :=
  if cmd.invoker.isNone then false
  else if who.isConsole && !cmd.permission.AllowConsole then false
  else who.hasPermission cmd.permission.RequiredPermission

mutual

def isVisible (who : ChatHandler) : ChatCommandNode ι → Bool
  | mk first invoker permission subCommands =>
    (mk first invoker permission subCommands).isInvokerVisible who || anyVisible who subCommands

/-- The loop of `HasVisibleSubCommands`. -/
def anyVisible (who : ChatHandler) : List (ChatCommandNode ι) → Bool
  | [] => false
  | cmd :: rest => cmd.isVisible who || anyVisible who rest

end

def hasVisibleSubCommands (who : ChatHandler) (cmd : ChatCommandNode ι) : Bool :=
  anyVisible who cmd.subCommands

end ChatCommandNode

/-- What the loader makes sure of, for a map and all maps below it: the order of the map, in
which no two names are equal, and names without the delimiter, which it has split them at. -/
inductive Loaded {ι : Type} : List (ChatCommandNode ι) → Prop where
  | intro (map : List (ChatCommandNode ι))
      (sorted : map.Pairwise fun a b => stringCompareLessI a.first b.first = true)
      (names : ∀ cmd ∈ map, cmd.first ≠ [] ∧ COMMAND_DELIMITER ∉ cmd.first)
      (below : ∀ cmd ∈ map, Loaded cmd.subCommands) : Loaded map

/-! ## `FilteredCommandListIterator`

An iterator is the rest of the map from where it stands; at the end there is none. -/

section Filtered

variable {ι : Type} (who : ChatHandler) (token : Text)

/-- `std::map::lower_bound`. -/
def lowerBound (map : List (ChatCommandNode ι)) : List (ChatCommandNode ι) :=
  map.dropWhile fun cmd => stringCompareLessI cmd.first token

/-- The end is jumped to when the name does not start with the token. -/
def orEnd : List (ChatCommandNode ι) → List (ChatCommandNode ι)
  | [] => []
  | cmd :: rest => if stringStartsWithI cmd.first token then cmd :: rest else []

/-- The loop of `_skip`. -/
def skipInvisible : List (ChatCommandNode ι) → List (ChatCommandNode ι)
  | [] => []
  | cmd :: rest =>
    if cmd.isVisible who then cmd :: rest
    else match rest with
      | [] => []
      | next :: _ =>
        if stringStartsWithI next.first token then skipInvisible rest else []

def skip (it : List (ChatCommandNode ι)) : List (ChatCommandNode ι) :=
  skipInvisible who token (orEnd token it)

def filteredBegin (map : List (ChatCommandNode ι)) : List (ChatCommandNode ι) :=
  skip who token (lowerBound token map)

/-- `operator++`. -/
def filteredNext : List (ChatCommandNode ι) → List (ChatCommandNode ι)
  | [] => []
  | _ :: rest => skip who token rest

theorem length_skipInvisible_le (it : List (ChatCommandNode ι)) :
    (skipInvisible who token it).length ≤ it.length := by
  induction it with
  | nil => exact Nat.le_refl _
  | cons cmd rest ih =>
    rw [skipInvisible.eq_def]
    grind

theorem length_skip_le (it : List (ChatCommandNode ι)) :
    (skip who token it).length ≤ it.length := by
  have horEnd : (orEnd token it).length ≤ it.length := by
    cases it with
    | nil => exact Nat.le_refl _
    | cons cmd rest =>
      rw [orEnd]
      split
      · exact Nat.le_refl _
      · exact Nat.zero_le _
  exact (length_skipInvisible_le who token _).trans horEnd

/-- The entries that `++it` comes to, beginning with the one it stands at. -/
def visited (it : List (ChatCommandNode ι)) : List (ChatCommandNode ι) :=
  match it with
  | [] => []
  | cmd :: rest => cmd :: visited (skip who token rest)
termination_by it.length
decreasing_by exact Nat.lt_succ_of_le (length_skip_le who token rest)

end Filtered

/-! ## Tokens -/

/-- The delimiters in front and at the back are cut off. -/
def strip (cmdStr : Text) : Text :=
  (cmdStr.dropWhile (· = COMMAND_DELIMITER)).rdropWhile (· = COMMAND_DELIMITER)

/-- The token up to the first delimiter, and the tail from the first byte after it on that is
none. -/
def tokenize (args : Text) : Text × Text :=
  (args.takeWhile (· ≠ COMMAND_DELIMITER),
    (args.dropWhile (· ≠ COMMAND_DELIMITER)).dropWhile (· = COMMAND_DELIMITER))

theorem length_dropWhile_lt {p : UInt8 → Bool} {c : UInt8} {s : Text} (h : p c = true) :
    ((c :: s).dropWhile p).length < (c :: s).length := by
  rw [List.dropWhile_cons_of_pos h]
  exact Nat.lt_succ_of_le (List.length_dropWhile_le p s)

theorem length_tokenize_lt {s : Text} (h : s ≠ []) : (tokenize s).2.length < s.length := by
  obtain ⟨c, rest, rfl⟩ := List.exists_cons_of_ne_nil h
  by_cases hc : c = COMMAND_DELIMITER
  · have hkeep : (c :: rest).dropWhile (· ≠ COMMAND_DELIMITER) = c :: rest :=
      List.dropWhile_cons_of_neg (by simp [hc])
    show (((c :: rest).dropWhile (· ≠ COMMAND_DELIMITER)).dropWhile _).length < _
    rw [hkeep]
    exact length_dropWhile_lt (by simp [hc])
  · exact (List.length_dropWhile_le _ _).trans_lt (length_dropWhile_lt (by simp [hc]))

/-! ## `TryExecuteCommand` -/

section Execute

variable {ι : Type} (who : ChatHandler)

/-- How the loop ends: at a command with the rest of the input, or with several entries that
the token may stand for, and what comes after the token. -/
inductive WalkEnd (ι : Type) where
  | reached (cmd : Option (ChatCommandNode ι)) (oldTail : Text)
  | ambiguous (possibilities : List (ChatCommandNode ι)) (newTail : Text)

/-- The loop of `TryExecuteCommand`; `none` when the assertion fails. -/
def executeLoop (cmd : Option (ChatCommandNode ι)) (map : List (ChatCommandNode ι))
    (oldTail : Text) : Option (WalkEnd ι) :=
  if _h : oldTail = [] then some (.reached cmd oldTail)
  else
    let token := (tokenize oldTail).1
    let newTail := (tokenize oldTail).2
    if token = [] then none
    else
      let it1 := filteredBegin who token map
      match it1 with
      | [] => some (.reached cmd oldTail)
      | node :: _ =>
        let it2 := filteredNext who token it1
        if !stringEqualI node.first token && !it2.isEmpty then some (.ambiguous (node :: visited who token it2) newTail)
        else executeLoop (some node) node.subCommands newTail
termination_by oldTail.length
decreasing_by exact length_tokenize_lt ‹_›

/-- What `TryExecuteCommand` does: the value it returns, the handlers it calls with their
arguments, the possibilities it lists, and whether it logs the command and shows its help. -/
structure Execution (ι : Type) where
  returned : Bool
  invoked : List (ι × Text) := []
  listed : List (ChatCommandNode ι) := []
  logged : Bool := false
  helped : Bool := false

/-- A handler answers whether it has succeeded and whether it has sent an error message. -/
def invoke (run : ι → Text → Bool × Bool) (cmd : ChatCommandNode ι) (oldTail : Text) :
    Execution ι :=
  if cmd.isInvokerVisible who then
    match cmd.invoker with
    | none => { returned := true, helped := true }
    | some handler =>
      { returned := true
        invoked := [(handler, oldTail)]
        logged := (run handler oldTail).1 && !who.isConsole
        helped := !(run handler oldTail).1 && !(run handler oldTail).2 }
  else { returned := true, helped := true }

def tryExecuteCommand (top : List (ChatCommandNode ι)) (run : ι → Text → Bool × Bool)
    (cmdStr : Text) : Option (Execution ι) :=
  match executeLoop who none top (strip cmdStr) with
  | none => none
  | some (.ambiguous possibilities _) => some { returned := true, listed := possibilities }
  | some (.reached none _) => some { returned := false }
  | some (.reached (some cmd) oldTail) => some (invoke who run cmd oldTail)

end Execute

/-! ## `GetAutoCompletionsFor` -/

section Complete

variable {ι : Type} (who : ChatHandler)

/-- `path` with a delimiter and `name` behind it, or `name` alone while there is no path. -/
def joinPath (path name : Text) : Text :=
  if path = [] then name else path ++ COMMAND_DELIMITER :: name

/-- What is returned behind the loop. -/
def completeEnd (path : Text) (cmd : Option (ChatCommandNode ι)) (map : List (ChatCommandNode ι))
    (oldTail : Text) : List Text :=
  if oldTail ≠ [] then
    match cmd with
    | some _ => [path ++ COMMAND_DELIMITER :: oldTail]
    | none => []
  else (visited who [] (filteredBegin who [] map)).map fun node => joinPath path node.first

/-- The loop of `GetAutoCompletionsFor`, with what is returned inside it and behind it; `none`
when the assertion fails. -/
def completeLoop (path : Text) (cmd : Option (ChatCommandNode ι))
    (map : List (ChatCommandNode ι)) (oldTail : Text) : Option (List Text) :=
  if _h : oldTail = [] then some (completeEnd who path cmd map oldTail)
  else
    let token := (tokenize oldTail).1
    let newTail := (tokenize oldTail).2
    if token = [] then none
    else
      let it1 := filteredBegin who token map
      match it1 with
      | [] => some (completeEnd who path cmd map oldTail)
      | node :: _ =>
        let it2 := filteredNext who token it1
        if !stringEqualI node.first token && !it2.isEmpty then
          some ((node :: visited who token it2).map fun node =>
            joinPath path node.first ++ COMMAND_DELIMITER :: newTail)
        else completeLoop (joinPath path node.first) (some node) node.subCommands newTail
termination_by oldTail.length
decreasing_by exact length_tokenize_lt ‹_›

def getAutoCompletionsFor (top : List (ChatCommandNode ι)) (cmdStr : Text) :
    Option (List Text) :=
  completeLoop who [] none top (strip cmdStr)

end Complete

end EGServer.Chat
