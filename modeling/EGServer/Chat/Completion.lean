import EGServer.Chat.CommandWalk

/-!
# Commands and their completions

Both loops follow the declared walk. A completion is the names of the entries that the walk has
passed, the name that is suggested and what is left of the input; given as a command, it leads
along the same names to the suggested entry, because every name in it is spelled out.
-/

namespace EGServer.Chat

variable {ι : Type} {who : ChatHandler} {top : List (ChatCommandNode ι)}

/-! ## One round of the loops -/

theorem look {s : WalkState ι} (hmap : Loaded (mapAt top s.1)) (hs : s.2 ≠ []) :
    let token := (tokenize s.2).1
    let it1 := filteredBegin who token (mapAt top s.1)
    (it1 = [] ∧ Ends who top s (.reached s.1 s.2)) ∨
    ∃ node rest, it1 = node :: rest ∧ node ∈ choices who top s ∧
      ((!stringEqualI node.first token && !(filteredNext who token it1).isEmpty) = true →
        choices who top s = node :: visited who token (filteredNext who token it1) ∧
        Ends who top s (.ambiguous (choices who top s) (tokenize s.2).2)) ∧
      ((!stringEqualI node.first token && !(filteredNext who token it1).isEmpty) = false →
        Takes who top s (some node, (tokenize s.2).2)) := by
  intro token it1
  rcases @filteredBegin_spec _ who _ hmap token with ⟨hbegin, hnone⟩ | ⟨node, rest, hbegin, hsome⟩
  · exact Or.inl ⟨hbegin, Ends.stop hs hnone⟩
  · right
    have hchoices : choices who top s = node :: visited who token (skip who token rest) := hsome
    have hnext : filteredNext who token it1 = skip who token rest := by
      show filteredNext who token (filteredBegin who token (mapAt top s.1)) = _
      rw [hbegin, filteredNext]
    have hmem : node ∈ choices who top s := hchoices ▸ List.mem_cons_self
    refine ⟨node, rest, hbegin, hmem, ?_, ?_⟩
    · rw [hnext, Bool.and_eq_true]
      intro hmany
      refine ⟨hchoices, Ends.several hs ?_ ?_⟩
      · -- the second iterator is not at its end
        have hne : visited who token (skip who token rest) ≠ [] := by
          intro hnil
          rw [visited_eq_nil.mp hnil] at hmany
          simp at hmany
        rw [hchoices, List.length_cons]
        exact Nat.succ_lt_succ (List.length_pos_iff.mpr hne)
      · grind [eq_head_of_equalI]
    · rw [hnext]
      intro hfew
      by_cases hequal : stringEqualI node.first token = true
      · exact Takes.exact hs hmem hequal
      · have hend : skip who token rest = [] := by simpa [hequal] using hfew
        apply Takes.only hs
        rw [hchoices, hend, visited]

/-! ## Executing -/

section Equations

variable {cmd : Option (ChatCommandNode ι)} {map rest : List (ChatCommandNode ι)}
  {node : ChatCommandNode ι} {oldTail path : Text}

theorem executeLoop_nil : executeLoop who cmd map [] = some (.reached cmd []) := by
  rw [executeLoop, dif_pos rfl]

theorem executeLoop_end (hs : oldTail ≠ []) (htoken : (tokenize oldTail).1 ≠ [])
    (hbegin : filteredBegin who (tokenize oldTail).1 map = []) :
    executeLoop who cmd map oldTail = some (.reached cmd oldTail) := by
  rw [executeLoop, dif_neg hs]
  simp only [if_neg htoken, hbegin]

theorem executeLoop_next (hs : oldTail ≠ []) (htoken : (tokenize oldTail).1 ≠ [])
    (hbegin : filteredBegin who (tokenize oldTail).1 map = node :: rest) :
    executeLoop who cmd map oldTail =
      if !stringEqualI node.first (tokenize oldTail).1 &&
          !(filteredNext who (tokenize oldTail).1 (node :: rest)).isEmpty then
        some (.ambiguous (node :: visited who (tokenize oldTail).1
          (filteredNext who (tokenize oldTail).1 (node :: rest))) (tokenize oldTail).2)
      else executeLoop who (some node) node.subCommands (tokenize oldTail).2 := by
  rw [executeLoop, dif_neg hs]
  simp only [if_neg htoken, hbegin]

theorem completeLoop_nil :
    completeLoop who path cmd map [] = some (completeEnd who path cmd map []) := by
  rw [completeLoop, dif_pos rfl]

theorem completeLoop_end (hs : oldTail ≠ []) (htoken : (tokenize oldTail).1 ≠ [])
    (hbegin : filteredBegin who (tokenize oldTail).1 map = []) :
    completeLoop who path cmd map oldTail = some (completeEnd who path cmd map oldTail) := by
  rw [completeLoop, dif_neg hs]
  simp only [if_neg htoken, hbegin]

theorem completeLoop_next (hs : oldTail ≠ []) (htoken : (tokenize oldTail).1 ≠ [])
    (hbegin : filteredBegin who (tokenize oldTail).1 map = node :: rest) :
    completeLoop who path cmd map oldTail =
      if !stringEqualI node.first (tokenize oldTail).1 &&
          !(filteredNext who (tokenize oldTail).1 (node :: rest)).isEmpty then
        some ((node :: visited who (tokenize oldTail).1
          (filteredNext who (tokenize oldTail).1 (node :: rest))).map fun node =>
            joinPath path node.first ++ COMMAND_DELIMITER :: (tokenize oldTail).2)
      else completeLoop who (joinPath path node.first) (some node) node.subCommands
        (tokenize oldTail).2 := by
  rw [completeLoop, dif_neg hs]
  simp only [if_neg htoken, hbegin]

end Equations

theorem executeLoop_spec (s : WalkState ι) (hmap : Loaded (mapAt top s.1)) (hs : Trimmed s.2) :
    ∃ e, executeLoop who s.1 (mapAt top s.1) s.2 = some e ∧ Walks who top s e := by
  induction hn : s.2.length using Nat.strong_induction_on generalizing s with
  | _ n ih =>
    by_cases hnil : s.2 = []
    · refine ⟨.reached s.1 s.2, ?_, s, Relation.ReflTransGen.refl, Ends.done hnil⟩
      rw [hnil]
      exact executeLoop_nil
    · have htoken := token_ne_nil hs hnil
      rcases @look _ who _ _ hmap hnil with ⟨hbegin, hends⟩ | ⟨node, rest, hbegin, -, hmany, hfew⟩
      · exact ⟨_, executeLoop_end hnil htoken hbegin, s, Relation.ReflTransGen.refl, hends⟩
      · rw [executeLoop_next hnil htoken hbegin]
        rw [hbegin] at hmany hfew
        split
        · next h =>
          obtain ⟨hchoices, hends⟩ := hmany h
          exact ⟨_, by rw [hchoices], s, Relation.ReflTransGen.refl, hends⟩
        · next h =>
          have htakes := hfew (by simpa using h)
          have hlen := length_tokenize_lt hnil
          obtain ⟨e, hloop, hwalks⟩ := ih _ (hn ▸ hlen) (some node, (tokenize s.2).2)
            (loaded_mapAt hmap htakes) (trimmed_tail hs) rfl
          exact ⟨e, hloop, hwalks.head htakes⟩

/-! ## Spelling out a path -/

/-- `rest` behind `path`, with a delimiter when there is something on either side. -/
def behind (path rest : Text) : Text :=
  if path = [] then rest else if rest = [] then path else path ++ COMMAND_DELIMITER :: rest

/-- `path` is the names, one behind the other, of visible entries that lead down to `cmd`. -/
inductive Path (who : ChatHandler) (top : List (ChatCommandNode ι)) :
    Text → Option (ChatCommandNode ι) → Prop where
  | root : Path who top [] none
  | down {path : Text} {cmd : Option (ChatCommandNode ι)} {node : ChatCommandNode ι}
      (hpath : Path who top path cmd) (hmap : Loaded (mapAt top cmd)) (hnode : node ∈ mapAt top cmd)
      (hvisible : node.isVisible who = true) : Path who top (joinPath path node.first) (some node)

theorem trimmed_of_not_mem {name : Text} (h : COMMAND_DELIMITER ∉ name) : Trimmed name :=
  ⟨fun hfront => h (List.mem_of_mem_head? hfront), fun hback => h (List.mem_of_getLast? hback)⟩

theorem Trimmed.append {a b : Text} (ha : Trimmed a) (hb : Trimmed b) (hane : a ≠ [])
    (hbne : b ≠ []) : Trimmed (a ++ COMMAND_DELIMITER :: b) := by
  constructor
  · rw [List.head?_append_of_ne_nil _ hane]
    exact ha.front
  · rw [List.getLast?_append_of_ne_nil _ (List.cons_ne_nil _ _), List.getLast?_cons_of_ne_nil hbne]
    exact hb.back

theorem Trimmed.behind {a b : Text} (ha : Trimmed a) (hb : Trimmed b) : Trimmed (behind a b) := by
  unfold Chat.behind
  split
  · exact hb
  · split
    · exact ha
    · exact ha.append hb ‹_› ‹_›

theorem strip_of_trimmed {s : Text} (h : Trimmed s) : strip s = s := by
  have hfront : s.dropWhile (· = COMMAND_DELIMITER) = s := by
    cases s with
    | nil => rfl
    | cons c rest =>
      apply List.dropWhile_cons_of_neg
      simpa using fun heq : c = COMMAND_DELIMITER => h.front (congrArg some heq)
  rw [strip, hfront, List.rdropWhile_eq_self_iff]
  intro hne hlast
  apply h.back
  rw [List.getLast?_eq_some_getLast hne]
  simpa using hlast

theorem strip_concat {s : Text} (h : Trimmed s) : strip (s ++ [COMMAND_DELIMITER]) = s := by
  cases s with
  | nil => rfl
  | cons c rest =>
    have hc : c ≠ COMMAND_DELIMITER := fun heq => h.front (congrArg some heq)
    have hself := strip_of_trimmed h
    have hfront : ∀ t : Text, (c :: t).dropWhile (· = COMMAND_DELIMITER) = c :: t :=
      fun t => List.dropWhile_cons_of_neg (by simpa using hc)
    grind [List.rdropWhile_concat_pos, strip]

theorem strip_append_tail {path tail : Text} (hpath : Trimmed path) (htail : Trimmed tail)
    (hne : path ≠ []) : strip (path ++ COMMAND_DELIMITER :: tail) = behind path tail := by
  rw [behind, if_neg hne]
  split
  · next h =>
    rw [h]
    exact strip_concat hpath
  · next h => exact strip_of_trimmed (hpath.append htail hne h)

theorem joinPath_ne_nil {path name : Text} (h : name ≠ []) : joinPath path name ≠ [] := by
  unfold joinPath
  split
  · exact h
  · exact List.append_ne_nil_of_right_ne_nil _ (List.cons_ne_nil _ _)

theorem behind_joinPath {path name rest : Text} (h : name ≠ []) :
    behind (joinPath path name) rest = behind path (behind name rest) := by
  have hbehind : behind name rest ≠ [] := by
    rw [behind, if_neg h]
    split
    · exact h
    · exact List.append_ne_nil_of_left_ne_nil h _
  by_cases hpath : path = []
  · subst hpath
    simp [behind, joinPath]
  · rw [behind, if_neg (joinPath_ne_nil h), joinPath, if_neg hpath]
    conv_rhs => rw [behind, if_neg hpath, if_neg hbehind, behind, if_neg h]
    split
    · rfl
    · rw [List.append_assoc, List.cons_append]

theorem tokenize_behind {name rest : Text} (hname : COMMAND_DELIMITER ∉ name) (hrest : Trimmed rest)
    (hne : name ≠ []) : tokenize (behind name rest) = (name, rest) := by
  have hall : ∀ c ∈ name, decide (c ≠ COMMAND_DELIMITER) = true := by
    intro c hc
    exact decide_eq_true fun heq => hname (heq ▸ hc)
  have htail : rest.dropWhile (· = COMMAND_DELIMITER) = rest := by
    cases rest with
    | nil => rfl
    | cons c tail =>
      apply List.dropWhile_cons_of_neg
      simpa using fun heq : c = COMMAND_DELIMITER => hrest.front (congrArg some heq)
  rw [behind, if_neg hne]
  split
  · next hnil =>
    rw [tokenize, List.takeWhile_eq_self_iff.mpr hall, List.dropWhile_eq_nil_iff.mpr hall, hnil]
    rfl
  · rw [tokenize, List.takeWhile_append_of_pos hall, List.dropWhile_append_of_pos hall]
    simp [htail]

namespace Path

theorem trimmed {path : Text} {cmd : Option (ChatCommandNode ι)} (h : Path who top path cmd) :
    Trimmed path := by
  induction h with
  | root => exact trimmed_nil
  | down hpath hmap hnode hvisible ih =>
    obtain ⟨hne, hname⟩ := hmap.names hnode
    unfold joinPath
    split
    · exact trimmed_of_not_mem hname
    · exact ih.append (trimmed_of_not_mem hname) ‹_› hne

theorem ne_nil {path : Text} {node : ChatCommandNode ι} (h : Path who top path (some node)) :
    path ≠ [] := by
  cases h with
  | down hpath hmap hnode hvisible => exact joinPath_ne_nil (hmap.names hnode).1

/-- **A path spelled out** is followed name by name, whatever comes behind it. -/
theorem takes {path : Text} {cmd : Option (ChatCommandNode ι)} (h : Path who top path cmd)
    {rest : Text} (hrest : Trimmed rest) :
    Relation.ReflTransGen (Takes who top) (none, behind path rest) (cmd, rest) := by
  induction h generalizing rest with
  | root => exact Relation.ReflTransGen.refl
  | @down path cmd node hpath hmap hnode hvisible ih =>
    obtain ⟨hne, hname⟩ := hmap.names hnode
    have htoken := tokenize_behind hname hrest hne
    have hequal : stringEqualI node.first node.first = true := stringEqualI_iff.mpr rfl
    rw [behind_joinPath hne]
    apply Relation.ReflTransGen.tail (ih ((trimmed_of_not_mem hname).behind hrest))
    have hchoice : node ∈ choices who top (cmd, behind node.first rest) := by
      apply List.mem_filter.mpr
      simp only [htoken]
      exact ⟨hnode, by simp [hvisible, stringStartsWithI_of_equalI hequal]⟩
    have hbehind : behind node.first rest ≠ [] := by
      intro hnil
      rw [hnil] at htoken
      exact hne (Prod.mk.inj htoken).1.symm
    have hstep : Takes who top (cmd, behind node.first rest)
        (some node, (tokenize (behind node.first rest)).2) :=
      Takes.exact hbehind hchoice (by simpa only [htoken] using hequal)
    simpa only [htoken] using hstep

end Path

/-! ## Completing -/

variable (who top) in
/-- The entries that are suggested where the walk has ended, each with what comes behind it. -/
def Suggests (e : WalkEnd ι) (node : ChatCommandNode ι) (tail : Text) : Prop :=
  match e with
  | .ambiguous possibilities newTail => node ∈ possibilities ∧ tail = newTail
  | .reached cmd oldTail =>
    if oldTail = [] then node ∈ mapAt top cmd ∧ node.isVisible who = true ∧ tail = []
    else cmd = some node ∧ tail = oldTail

/-- Given as a command, the text leads to the entry with the tail left over. -/
def Leads (who : ChatHandler) (top : List (ChatCommandNode ι)) (str : Text)
    (node : ChatCommandNode ι) (tail : Text) : Prop :=
  Relation.ReflTransGen (Takes who top) (none, strip str) (some node, tail)

theorem Path.leads {path : Text} {node : ChatCommandNode ι} (h : Path who top path (some node)) :
    Leads who top path node [] := by
  rw [Leads, strip_of_trimmed h.trimmed]
  have htakes := h.takes trimmed_nil
  rwa [behind, if_neg h.ne_nil, if_pos rfl] at htakes

theorem Path.leads_append {path tail : Text} {node : ChatCommandNode ι}
    (h : Path who top path (some node)) (htail : Trimmed tail) :
    Leads who top (path ++ COMMAND_DELIMITER :: tail) node tail := by
  rw [Leads, strip_append_tail h.trimmed htail h.ne_nil]
  exact h.takes htail

theorem completeEnd_spec {path : Text} {s : WalkState ι} (hpath : Path who top path s.1)
    (hmap : Loaded (mapAt top s.1)) (hs : Trimmed s.2) {str : Text}
    (hstr : str ∈ completeEnd who path s.1 (mapAt top s.1) s.2) :
    ∃ node tail, Suggests who top (.reached s.1 s.2) node tail ∧ Leads who top str node tail := by
  unfold completeEnd at hstr
  split at hstr
  · next hne =>
    -- there is trailing text, which stays behind the command
    cases hcmd : s.1 with
    | none =>
      rw [hcmd] at hstr
      exact absurd hstr List.not_mem_nil
    | some cmd =>
      rw [hcmd] at hstr hpath
      obtain rfl := List.mem_singleton.mp hstr
      exact ⟨cmd, s.2, by simp [Suggests, hne], hpath.leads_append hs⟩
  · next hnil =>
    -- all subcommands are offered
    have hnil' : s.2 = [] := not_not.mp hnil
    rw [visited_filteredBegin hmap, List.mem_map] at hstr
    obtain ⟨node, hnode, rfl⟩ := hstr
    obtain ⟨hmem, hboth⟩ := List.mem_filter.mp hnode
    have hvisible := (Bool.and_eq_true_iff.mp hboth).1
    exact ⟨node, [], by simp [Suggests, hnil', hmem, hvisible],
      (Path.down hpath hmap hmem hvisible).leads⟩

theorem completeLoop_spec (s : WalkState ι) {path : Text} (hpath : Path who top path s.1)
    (hmap : Loaded (mapAt top s.1)) (hs : Trimmed s.2) :
    ∃ e vec, Walks who top s e ∧ completeLoop who path s.1 (mapAt top s.1) s.2 = some vec ∧
      ∀ str ∈ vec, ∃ node tail, Suggests who top e node tail ∧ Leads who top str node tail := by
  induction hn : s.2.length using Nat.strong_induction_on generalizing s path with
  | _ n ih =>
    by_cases hnil : s.2 = []
    · refine ⟨.reached s.1 s.2, _, ⟨s, Relation.ReflTransGen.refl, Ends.done hnil⟩, ?_,
        fun str hstr => completeEnd_spec hpath hmap hs hstr⟩
      rw [hnil]
      exact completeLoop_nil
    · have htoken := token_ne_nil hs hnil
      rcases @look _ who _ _ hmap hnil with ⟨hbegin, hends⟩ | ⟨node, rest, hbegin, hnode, hmany, hfew⟩
      · exact ⟨_, _, ⟨s, Relation.ReflTransGen.refl, hends⟩, completeLoop_end hnil htoken hbegin,
          fun str hstr => completeEnd_spec hpath hmap hs hstr⟩
      · rw [completeLoop_next hnil htoken hbegin]
        rw [hbegin] at hmany hfew
        have hdown : ∀ cmd ∈ choices who top s, Path who top (joinPath path cmd.first) (some cmd) := by
          intro cmd hcmd
          obtain ⟨hmem, hboth⟩ := List.mem_filter.mp hcmd
          exact Path.down hpath hmap hmem (Bool.and_eq_true_iff.mp hboth).1
        split
        · next h =>
          obtain ⟨hchoices, hends⟩ := hmany h
          refine ⟨_, _, ⟨s, Relation.ReflTransGen.refl, hends⟩, rfl, ?_⟩
          intro str hstr
          rw [← hchoices] at hstr
          obtain ⟨cmd, hcmd, rfl⟩ := List.mem_map.mp hstr
          exact ⟨cmd, _, ⟨hcmd, rfl⟩, (hdown cmd hcmd).leads_append (trimmed_tail hs)⟩
        · next h =>
          have htakes := hfew (by simpa using h)
          have hlen := length_tokenize_lt hnil
          obtain ⟨e, vec, hwalks, hloop, hall⟩ := ih _ (hn ▸ hlen) (some node, (tokenize s.2).2)
            (hdown node hnode) (loaded_mapAt hmap htakes) (trimmed_tail hs) rfl
          exact ⟨e, vec, hwalks.head htakes, hloop, hall⟩

/-! ## Commands resolve as declared -/

/-- The map of all commands. -/
structure CommandMap (ι : Type) where
  nodes : List (ChatCommandNode ι)
  loaded : Loaded nodes

/-- What the command that the walk has reached is asked to do. -/
def calls (who : ChatHandler) : WalkEnd ι → List (ι × Text)
  | .ambiguous _ _ => []
  | .reached none _ => []
  | .reached (some cmd) oldTail =>
    if cmd.isInvokerVisible who then (cmd.invoker.map fun handler => (handler, oldTail)).toList else []

theorem invoked_invoke (run : ι → Text → Bool × Bool) (cmd : ChatCommandNode ι) (oldTail : Text) :
    (invoke who run cmd oldTail).invoked = calls who (.reached (some cmd) oldTail) := by
  by_cases hvisible : cmd.isInvokerVisible who = true
  · rw [invoke, if_pos hvisible, calls, if_pos hvisible]
    cases cmd.invoker <;> rfl
  · rw [invoke, if_neg hvisible, calls, if_neg hvisible]

end EGServer.Chat
