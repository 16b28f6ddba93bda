import EGServer.Chat.ChatCommand

/-!
# The walk through the commands

The filtered iterator goes through the visible entries whose name starts with the token, and
`TryExecuteCommand` walks as declared: down to the entry with exactly that name, else to the
only one there is.
-/

namespace EGServer.Chat

variable {ι : Type} {who : ChatHandler} {token : Text}

/-! ## Comparing -/

/-- A text as it is compared. -/
def fold (s : Text) : List Int := s.map tolower

theorem stringEqualI_iff {a b : Text} : stringEqualI a b = true ↔ fold a = fold b := by
  induction a generalizing b with
  | nil => cases b <;> simp [stringEqualI, fold]
  | cons c a ih =>
    cases b with
    | nil => simp [stringEqualI, fold]
    | cons c' b =>
      grind [fold, stringEqualI]

theorem stringCompareLessI_iff {a b : Text} :
    stringCompareLessI a b = true ↔ fold a < fold b := by
  induction a generalizing b with
  | nil => cases b <;> simp [stringCompareLessI, fold]
  | cons c a ih =>
    cases b with
    | nil => simp [stringCompareLessI, fold]
    | cons c' b =>
      grind [List.cons_lt_cons_iff, fold, stringCompareLessI]

theorem stringStartsWithI_iff {haystack needle : Text} :
    stringStartsWithI haystack needle = true ↔ fold needle <+: fold haystack := by
  rw [stringStartsWithI, stringEqualI_iff, List.prefix_iff_eq_take, eq_comm]
  simp [fold, List.map_take]

theorem stringStartsWithI_of_equalI {a b : Text} (h : stringEqualI a b = true) :
    stringStartsWithI a b = true := by
  rw [stringStartsWithI_iff, stringEqualI_iff.mp h]

/-! ## The iterator -/

/-- The visible entries whose name starts with the token. -/
def candidates (who : ChatHandler) (token : Text) (map : List (ChatCommandNode ι)) :
    List (ChatCommandNode ι) :=
  map.filter fun cmd => cmd.isVisible who && stringStartsWithI cmd.first token

/-- What the iterator is still to come to from a place in the map. -/
def shows (who : ChatHandler) (token : Text) (it : List (ChatCommandNode ι)) :
    List (ChatCommandNode ι) :=
  (it.takeWhile fun cmd => stringStartsWithI cmd.first token).filter fun cmd => cmd.isVisible who

theorem shows_cons_of_not {cmd : ChatCommandNode ι} {rest : List (ChatCommandNode ι)}
    (h : ¬ stringStartsWithI cmd.first token = true) : shows who token (cmd :: rest) = [] := by
  rw [shows, List.takeWhile_cons, if_neg h, List.filter_nil]

theorem shows_cons {cmd : ChatCommandNode ι} {rest : List (ChatCommandNode ι)}
    (h : stringStartsWithI cmd.first token = true) : shows who token (cmd :: rest) =
      if cmd.isVisible who then cmd :: shows who token rest else shows who token rest := by
  rw [shows, List.takeWhile_cons, if_pos h, List.filter_cons]
  rfl

theorem skipInvisible_spec {it : List (ChatCommandNode ι)}
    (h : ∀ cmd ∈ it.head?, stringStartsWithI cmd.first token = true) :
    (skipInvisible who token it = [] ∧ shows who token it = []) ∨
    ∃ cmd rest, skipInvisible who token it = cmd :: rest ∧
      shows who token it = cmd :: shows who token rest := by
  induction it with
  | nil => exact Or.inl ⟨rfl, rfl⟩
  | cons cmd rest ih =>
    rw [shows_cons (h cmd rfl)]
    by_cases hvisible : cmd.isVisible who = true
    · exact Or.inr ⟨cmd, rest, by rw [skipInvisible.eq_def]; simp [hvisible], if_pos hvisible⟩
    · rw [if_neg hvisible]
      cases rest with
      | nil => exact Or.inl ⟨by rw [skipInvisible.eq_def]; simp [hvisible], rfl⟩
      | cons next rest' =>
        grind [shows_cons_of_not, skipInvisible]

theorem skip_spec (it : List (ChatCommandNode ι)) :
    (skip who token it = [] ∧ shows who token it = []) ∨
    ∃ cmd rest, skip who token it = cmd :: rest ∧
      shows who token it = cmd :: shows who token rest := by
  cases it with
  | nil => exact Or.inl ⟨rfl, rfl⟩
  | cons cmd rest =>
    by_cases hstart : stringStartsWithI cmd.first token = true
    · have horEnd : orEnd token (cmd :: rest) = cmd :: rest := if_pos hstart
      rw [skip, horEnd]
      apply skipInvisible_spec
      intro c hc
      cases hc
      exact hstart
    · have horEnd : orEnd token (cmd :: rest) = [] := if_neg hstart
      left
      rw [skip, horEnd]
      exact ⟨rfl, shows_cons_of_not hstart⟩

theorem visited_skip (it : List (ChatCommandNode ι)) :
    visited who token (skip who token it) = shows who token it := by
  induction hn : it.length using Nat.strong_induction_on generalizing it with
  | _ n ih =>
    rcases @skip_spec _ who token it with ⟨hskip, hshows⟩ | ⟨cmd, rest, hskip, hshows⟩
    · rw [hskip, hshows, visited.eq_def]
    · have hlen := length_skip_le who token it
      rw [hskip, List.length_cons] at hlen
      rw [hskip, hshows, visited.eq_def]
      simp only
      rw [ih rest.length (by omega) rest rfl]

/-! ## The map -/

theorem Loaded.sorted {map : List (ChatCommandNode ι)} (h : Loaded map) :
    PrefixSearch.Sorted (fun cmd => fold cmd.first) map := by
  cases h with
  | intro _ hsorted _ _ => exact hsorted.imp fun hlt => stringCompareLessI_iff.mp hlt

theorem Loaded.names {map : List (ChatCommandNode ι)} (h : Loaded map) {cmd : ChatCommandNode ι}
    (hcmd : cmd ∈ map) : cmd.first ≠ [] ∧ COMMAND_DELIMITER ∉ cmd.first := by
  cases h with
  | intro _ _ hnames _ => exact hnames cmd hcmd

theorem Loaded.subCommands {map : List (ChatCommandNode ι)} (h : Loaded map) {cmd : ChatCommandNode ι}
    (hcmd : cmd ∈ map) : Loaded cmd.subCommands := by
  cases h with
  | intro _ _ _ hbelow => exact hbelow cmd hcmd

/-- **The iterator** goes through the visible entries that start with the token. -/
theorem shows_lowerBound {map : List (ChatCommandNode ι)} (h : Loaded map) (token : Text) :
    shows who token (lowerBound token map) = candidates who token map := by
  have hless : (fun cmd : ChatCommandNode ι => stringCompareLessI cmd.first token) =
      fun cmd => decide (fold cmd.first < fold token) := by
    funext cmd
    rw [Bool.eq_iff_iff, stringCompareLessI_iff, decide_eq_true_eq]
  have hstart : (fun cmd : ChatCommandNode ι => stringStartsWithI cmd.first token) =
      fun cmd => decide (fold token <+: fold cmd.first) := by
    funext cmd
    rw [Bool.eq_iff_iff, stringStartsWithI_iff, decide_eq_true_eq]
  have hsearch := PrefixSearch.filter_eq (t := fold token) h.sorted
  rw [← hstart, ← hless] at hsearch
  rw [shows, lowerBound, ← hsearch, candidates, List.filter_filter]

theorem filteredBegin_spec {map : List (ChatCommandNode ι)} (h : Loaded map) (token : Text) :
    (filteredBegin who token map = [] ∧ candidates who token map = []) ∨
    ∃ cmd rest, filteredBegin who token map = cmd :: rest ∧
      candidates who token map = cmd :: visited who token (skip who token rest) := by
  rw [← shows_lowerBound h]
  rcases @skip_spec _ who token (lowerBound token map) with hend | ⟨cmd, rest, hskip, hshows⟩
  · exact Or.inl hend
  · exact Or.inr ⟨cmd, rest, hskip, by rw [hshows, visited_skip]⟩

theorem visited_filteredBegin {map : List (ChatCommandNode ι)} (h : Loaded map) (token : Text) :
    visited who token (filteredBegin who token map) = candidates who token map := by
  rw [filteredBegin, visited_skip, shows_lowerBound h]

theorem visited_eq_nil {it : List (ChatCommandNode ι)} :
    visited who token it = [] ↔ it = [] := by
  cases it with
  | nil => simp [visited]
  | cons cmd rest => simp [visited]

theorem eq_head_of_equalI {map : List (ChatCommandNode ι)} (h : Loaded map)
    {cmd exact : ChatCommandNode ι} {rest : List (ChatCommandNode ι)}
    (hcandidates : candidates who token map = cmd :: rest)
    (hmem : exact ∈ candidates who token map) (hequal : stringEqualI exact.first token = true) :
    exact = cmd := by
  have hsorted : PrefixSearch.Sorted (fun cmd => fold cmd.first) (candidates who token map) :=
    h.sorted.sublist List.filter_sublist
  rw [hcandidates] at hsorted hmem
  have hcmd : cmd ∈ candidates who token map := hcandidates ▸ List.mem_cons_self
  have hstart := (Bool.and_eq_true_iff.mp (List.mem_filter.mp hcmd).2).2
  exact PrefixSearch.eq_head_of_key_eq hsorted (stringStartsWithI_iff.mp hstart) hmem
    (stringEqualI_iff.mp hequal)

/-! ## Tokens -/

/-- No delimiter in front or at the back. -/
structure Trimmed (s : Text) : Prop where
  front : s.head? ≠ some COMMAND_DELIMITER
  back : s.getLast? ≠ some COMMAND_DELIMITER

theorem head?_dropWhile_delimiter (s : Text) :
    (s.dropWhile (· = COMMAND_DELIMITER)).head? ≠ some COMMAND_DELIMITER := by
  grind [List.head?_dropWhile_not]

theorem trimmed_nil : Trimmed [] := ⟨nofun, nofun⟩

theorem trimmed_strip (s : Text) : Trimmed (strip s) := by
  constructor
  · intro h
    have hpre := List.rdropWhile_prefix (fun c : UInt8 => decide (c = COMMAND_DELIMITER))
      (s.dropWhile (· = COMMAND_DELIMITER))
    obtain ⟨rest, hrest⟩ := hpre
    obtain ⟨tail, htail⟩ := List.head?_eq_some_iff.mp h
    apply head?_dropWhile_delimiter s
    rw [← hrest]
    have hstrip : List.rdropWhile (fun c : UInt8 => decide (c = COMMAND_DELIMITER))
        (s.dropWhile (· = COMMAND_DELIMITER)) = COMMAND_DELIMITER :: tail := htail
    rw [hstrip]
    rfl
  · intro h
    obtain ⟨front, hfront⟩ := List.getLast?_eq_some_iff.mp h
    have hne : strip s ≠ [] := by
      rw [hfront]
      exact List.append_ne_nil_of_right_ne_nil _ (List.cons_ne_nil _ _)
    grind [List.getLast_append_singleton, strip, List.rdropWhile_last_not]

theorem trimmed_tail {s : Text} (h : Trimmed s) : Trimmed (tokenize s).2 := by
  constructor
  · exact head?_dropWhile_delimiter _
  · intro hlast
    have hsuffix : (tokenize s).2 <:+ s :=
      (List.dropWhile_suffix _).trans (List.dropWhile_suffix _)
    obtain ⟨front, hfront⟩ := hsuffix
    apply h.back
    rw [← hfront, List.getLast?_append, hlast]
    rfl

theorem token_ne_nil {s : Text} (h : Trimmed s) (hs : s ≠ []) : (tokenize s).1 ≠ [] := by
  obtain ⟨c, rest, rfl⟩ := List.exists_cons_of_ne_nil hs
  have hc : c ≠ COMMAND_DELIMITER := fun heq => h.front (congrArg some heq)
  simp [tokenize, hc]

/-! ## The walk as declared -/

/-- Where a walk stands: at a command or still above all of them, with the rest of the input. -/
abbrev WalkState (ι : Type) := Option (ChatCommandNode ι) × Text

/-- The map that the next token is looked up in. -/
def mapAt (top : List (ChatCommandNode ι)) : Option (ChatCommandNode ι) → List (ChatCommandNode ι)
  | none => top
  | some cmd => cmd.subCommands

variable (who : ChatHandler) (top : List (ChatCommandNode ι))

/-- The entries that the next token may stand for. -/
def choices (s : WalkState ι) : List (ChatCommandNode ι) :=
  candidates who (tokenize s.2).1 (mapAt top s.1)

/-- One step down, to the entry with exactly the name or to the only candidate. -/
inductive Takes : WalkState ι → WalkState ι → Prop where
  | exact {s : WalkState ι} {cmd : ChatCommandNode ι} (hs : s.2 ≠ []) (hcmd : cmd ∈ choices who top s)
      (hequal : stringEqualI cmd.first (tokenize s.2).1 = true) :
      Takes s (some cmd, (tokenize s.2).2)
  | only {s : WalkState ι} {cmd : ChatCommandNode ι} (hs : s.2 ≠ []) (hcmd : choices who top s = [cmd]) :
      Takes s (some cmd, (tokenize s.2).2)

/-- The walk stops: nothing is left, there is no candidate, or there are several of which none
has exactly the name. -/
inductive Ends : WalkState ι → WalkEnd ι → Prop where
  | done {s : WalkState ι} (hs : s.2 = []) : Ends s (.reached s.1 s.2)
  | stop {s : WalkState ι} (hs : s.2 ≠ []) (hnone : choices who top s = []) : Ends s (.reached s.1 s.2)
  | several {s : WalkState ι} (hs : s.2 ≠ []) (hmany : 1 < (choices who top s).length)
      (hexact : ∀ cmd ∈ choices who top s, stringEqualI cmd.first (tokenize s.2).1 = false) :
      Ends s (.ambiguous (choices who top s) (tokenize s.2).2)

def Walks (s : WalkState ι) (e : WalkEnd ι) : Prop :=
  ∃ s', Relation.ReflTransGen (Takes who top) s s' ∧ Ends who top s' e

variable {who top}

theorem Walks.head {s s' : WalkState ι} {e : WalkEnd ι} (h : Takes who top s s')
    (hwalks : Walks who top s' e) : Walks who top s e := by
  obtain ⟨t, hsteps, hends⟩ := hwalks
  exact ⟨t, Relation.ReflTransGen.head h hsteps, hends⟩

/-! ### There is one walk -/

theorem loaded_mapAt {s s' : WalkState ι} (hmap : Loaded (mapAt top s.1))
    (h : Takes who top s s') : Loaded (mapAt top s'.1) := by
  have hmem : ∀ cmd ∈ choices who top s, Loaded cmd.subCommands := fun cmd hcmd =>
    hmap.subCommands (List.mem_filter.mp hcmd).1
  cases h with
  | exact hs hcmd hequal => exact hmem _ hcmd
  | only hs hcmd => exact hmem _ (hcmd ▸ List.mem_cons_self)

theorem Takes.unique {s t u : WalkState ι} (hmap : Loaded (mapAt top s.1))
    (ht : Takes who top s t) (hu : Takes who top s u) : t = u := by
  have hexact : ∀ a ∈ choices who top s, ∀ b ∈ choices who top s,
      stringEqualI a.first (tokenize s.2).1 = true → stringEqualI b.first (tokenize s.2).1 = true →
      a = b := by
    intro a ha b hb hae hbe
    cases hc : choices who top s with
    | nil =>
      rw [hc] at ha
      exact absurd ha List.not_mem_nil
    | cons cmd rest =>
      exact (eq_head_of_equalI hmap hc ha hae).trans (eq_head_of_equalI hmap hc hb hbe).symm
  cases ht with
  | exact hs ha hae =>
    cases hu with
    | exact _ hb hbe => rw [hexact _ ha _ hb hae hbe]
    | only _ hb =>
      rw [hb, List.mem_singleton] at ha
      rw [ha]
  | only hs ha =>
    cases hu with
    | exact _ hb hbe =>
      rw [ha, List.mem_singleton] at hb
      rw [hb]
    | only _ hb =>
      rw [ha] at hb
      rw [(List.cons.inj hb).1]

theorem Ends.not_takes {s t : WalkState ι} {e : WalkEnd ι} (h : Ends who top s e) :
    ¬ Takes who top s t := by
  intro ht
  cases h with
  | done hs => cases ht <;> contradiction
  | stop hs hnone =>
    cases ht with
    | exact _ hcmd _ =>
      rw [hnone] at hcmd
      exact absurd hcmd List.not_mem_nil
    | only _ hcmd => exact absurd (hnone.symm.trans hcmd) (List.cons_ne_nil _ _).symm
  | several hs hmany hexact =>
    cases ht with
    | exact _ hcmd hequal =>
      rw [hexact _ hcmd] at hequal
      cases hequal
    | only _ hcmd =>
      rw [hcmd] at hmany
      exact absurd hmany (Nat.lt_irrefl 1)

theorem Ends.unique {s : WalkState ι} {e e' : WalkEnd ι} (h : Ends who top s e)
    (h' : Ends who top s e') : e = e' := by
  have hsome : choices who top s = [] → ¬ 1 < (choices who top s).length := by
    intro hnone
    rw [hnone]
    exact Nat.not_lt_zero 1
  cases h with
  | done hs =>
    cases h' with
    | done _ => rfl
    | stop hs' _ => exact absurd hs hs'
    | several hs' _ _ => exact absurd hs hs'
  | stop hs hnone =>
    cases h' with
    | done _ => rfl
    | stop _ _ => rfl
    | several _ hmany _ => exact absurd hmany (hsome hnone)
  | several hs hmany _ =>
    cases h' with
    | done hs' => exact absurd hs' hs
    | stop _ hnone => exact absurd hmany (hsome hnone)
    | several _ _ _ => rfl

theorem Walks.unique {s : WalkState ι} {e e' : WalkEnd ι} (hmap : Loaded (mapAt top s.1)) (h : Walks who top s e) (h' : Walks who top s e') :
    e = e' := by
  obtain ⟨t, hst, ht⟩ := h
  obtain ⟨u, hsu, hu⟩ := h'
  induction hst using Relation.ReflTransGen.head_induction_on with
  | refl =>
    cases hsu using Relation.ReflTransGen.head_induction_on with
    | refl => exact ht.unique hu
    | head hstep _ => exact absurd hstep ht.not_takes
  | head hstep hrest ih =>
    cases hsu using Relation.ReflTransGen.head_induction_on with
    | refl => exact absurd hstep hu.not_takes
    | head hstep' hrest' =>
      have heq := hstep.unique hmap hstep'
      subst heq
      exact ih (loaded_mapAt hmap hstep) hrest'

end EGServer.Chat
