import EGServer.Chat.Hyperlinks

/-!
# `CheckAllLinks` accepts its grammar

The first pass takes each `|` together with the character behind it. So do the escaped pipe and the
link, hence the second pass, which looks at the character behind a `|` without a test, meets the
same pairs.
-/

namespace EGServer.Chat

open Scan StringView

/-! ## The two passes -/

theorem findFrom_bounds {str : List Char} {c : Char} {pos found : Nat}
    (h : findFrom str c pos = some found) : pos ≤ found ∧ found < str.length := by
  obtain ⟨i, hi, rfl⟩ := Option.map_eq_some_iff.mp h
  obtain ⟨a, b, hdrop, rfl, -⟩ := find_eq_some.mp hi
  have hlength := congrArg List.length hdrop
  rw [List.length_drop, List.length_append, List.length_cons] at hlength
  omega

/-- Step 1: disallow all control sequences except `||`, `|H`, `|h`, `|c` and `|r`. -/
def checkControls (str : List Char) (pos : Nat) : Scan Unit :=
  match h : findFrom str '|' pos with
  | none => done ()
  | some found => do
    require (found + 1 ≠ str.length)
    let next ← charAt str (found + 1)
    require (next = 'H' ∨ next = 'h' ∨ next = 'c' ∨ next = 'r' ∨ next = '|')
    checkControls str (found + 2)
termination_by str.length - pos
decreasing_by
  have hbounds := findFrom_bounds h
  omega

/-- Step 2: parse all link sequences. -/
def checkLinks (ValidateLinkInfo : HyperlinkInfo → Bool) (str : List Char) : Scan Unit :=
  match find str '|' with
  | none => done ()
  | some pos => do
    let next ← charAt str (pos + 1)
    if next = '|' then
      -- this is an escaped pipe character (||)
      (substrFrom str (pos + 2)).bindMem fun rest _ => checkLinks ValidateLinkInfo rest
    else
      (substrFrom str pos).bindMem fun link _ => (ParseSingleHyperlink link).bindMem fun info _ => do
        require (ValidateLinkInfo info = true)
        -- tag is fine, find the next one
        checkLinks ValidateLinkInfo info.tail
termination_by str.length
decreasing_by
  · rename_i hrest
    obtain ⟨hle, rfl⟩ := substrFrom_eq_done.mp hrest
    rw [List.length_drop]
    omega
  · rename_i hlink hinfo
    obtain ⟨hle, rfl⟩ := substrFrom_eq_done.mp hlink
    have hlt := length_tail_lt hinfo
    rw [List.length_drop] at hlt
    omega

/-- `true` is `done`, `false` is `reject`. -/
def CheckAllLinks (ValidateLinkInfo : HyperlinkInfo → Bool) (str : List Char) : Scan Unit := do
  checkControls str 0
  checkLinks ValidateLinkInfo str

/-! ## What they accept -/

/-- The messages that may be sent. -/
inductive Accepted (ValidateLinkInfo : HyperlinkInfo → Bool) : List Char → Prop where
  | nil : Accepted ValidateLinkInfo []
  | char {c : Char} {str : List Char} (hc : c ≠ '|') (h : Accepted ValidateLinkInfo str) :
      Accepted ValidateLinkInfo (c :: str)
  | pipe {str : List Char} (h : Accepted ValidateLinkInfo str) :
      Accepted ValidateLinkInfo ('|' :: '|' :: str)
  | link (L : Link) {str : List Char} (hvalid : ValidateLinkInfo (L.info str) = true)
      (h : Accepted ValidateLinkInfo str) : Accepted ValidateLinkInfo (L.render str)

/-- Every `|` comes with a character that may stand behind it. -/
inductive InPhase : List Char → Prop where
  | nil : InPhase []
  | char {c : Char} {str : List Char} (hc : c ≠ '|') (h : InPhase str) : InPhase (c :: str)
  | control {c : Char} {str : List Char}
      (hc : c = 'H' ∨ c = 'h' ∨ c = 'c' ∨ c = 'r' ∨ c = '|') (h : InPhase str) :
      InPhase ('|' :: c :: str)

theorem inPhase_char {c : Char} {str : List Char} (hc : c ≠ '|') :
    InPhase (c :: str) ↔ InPhase str := by
  constructor
  · intro h
    cases h with
    | char _ h => exact h
    | control _ _ => exact absurd rfl hc
  · intro h
    exact .char hc h

theorem inPhase_append {a b : List Char} (ha : '|' ∉ a) : InPhase (a ++ b) ↔ InPhase b := by
  induction a with
  | nil => exact Iff.rfl
  | cons c a ih =>
    rw [List.mem_cons, not_or] at ha
    rw [List.cons_append, inPhase_char (Ne.symm ha.1), ih ha.2]

theorem inPhase_pipe {b : List Char} : InPhase ('|' :: b) ↔ ∃ c str, b = c :: str ∧
    (c = 'H' ∨ c = 'h' ∨ c = 'c' ∨ c = 'r' ∨ c = '|') ∧ InPhase str := by
  constructor
  · intro h
    cases h with
    | char hc _ => exact absurd rfl hc
    | control hc h => exact ⟨_, _, rfl, hc, h⟩
  · rintro ⟨c, str, rfl, hc, h⟩
    exact .control hc h

theorem inPhase_control {c : Char} {str : List Char}
    (hc : c = 'H' ∨ c = 'h' ∨ c = 'c' ∨ c = 'r' ∨ c = '|') :
    InPhase ('|' :: c :: str) ↔ InPhase str := by
  rw [inPhase_pipe]
  grind

theorem Link.plain_color (L : Link) : '|' ∉ L.color := by
  intro hmem
  rcases L.hex_color _ hmem with h | h
  · exact absurd h (by decide)
  · exact absurd h (by decide)

theorem inPhase_render (L : Link) (str : List Char) : InPhase (L.render str) ↔ InPhase str := by
  unfold Link.render
  simp only [List.cons_append, List.nil_append]
  rw [inPhase_control (.inr (.inr (.inl rfl))), inPhase_append L.plain_color,
    inPhase_control (.inl rfl), inPhase_append L.plain_tagData,
    inPhase_control (.inr (.inl rfl)), inPhase_append L.plain_bracketed,
    inPhase_control (.inr (.inl rfl)), inPhase_control (.inr (.inr (.inr (.inl rfl))))]

theorem inPhase_of_accepted {V : HyperlinkInfo → Bool} {str : List Char} (h : Accepted V str) :
    InPhase str := by
  induction h with
  | nil => exact .nil
  | char hc _ ih => exact .char hc ih
  | pipe _ ih => exact .control (by decide) ih
  | link L _ _ ih => exact (inPhase_render L _).mpr ih

theorem checkControls_spec (str : List Char) (pos : Nat) : checkControls str pos ≠ outOfRange ∧
    (checkControls str pos = done () ↔ InPhase (str.drop pos)) := by
  induction pos using checkControls.induct str with
  | case1 pos hnone =>
    have hplain := find_eq_none.mp (Option.map_eq_none_iff.mp hnone)
    have hphase := (inPhase_append (b := []) hplain).mpr .nil
    rw [List.append_nil] at hphase
    have hdone : checkControls str pos = done () := by
      rw [checkControls]
      split
      · rfl
      · rename_i h
        rw [hnone] at h
        cases h
    rw [hdone]
    exact ⟨by rintro ⟨⟩, fun _ => hphase, fun _ => rfl⟩
  | case2 pos found hfound ih =>
    obtain ⟨i, hi, rfl⟩ := Option.map_eq_some_iff.mp hfound
    obtain ⟨a, b, hdrop, rfl, hplain⟩ := find_eq_some.mp hi
    have hunfold : checkControls str pos = (do
        require (a.length + pos + 1 ≠ str.length)
        let next ← charAt str (a.length + pos + 1)
        require (next = 'H' ∨ next = 'h' ∨ next = 'c' ∨ next = 'r' ∨ next = '|')
        checkControls str (a.length + pos + 2)) := by
      grind [checkControls]
    have hlength := congrArg List.length hdrop
    rw [List.length_drop, List.length_append, List.length_cons] at hlength
    rw [hunfold, hdrop, inPhase_append hplain, inPhase_pipe]
    cases b with
    | nil =>
      rw [List.length_nil] at hlength
      have hend : require (a.length + pos + 1 ≠ str.length) = reject := if_neg (by omega)
      grind [reject_bind]
    | cons next b =>
      rw [List.length_cons] at hlength
      have hat : charAt str (a.length + pos + 1) = done next := by
        have hget : (str.drop pos)[a.length + 1]? = (a ++ '|' :: next :: b)[a.length + 1]? := by
          rw [hdrop]
        grind [charAt_eq_done]
      have hrest : str.drop (a.length + pos + 2) = b := by
        have hcut := congrArg (List.drop (a.length + 2)) hdrop
        rw [List.drop_drop, List.drop_length_add_append] at hcut
        rw [show a.length + pos + 2 = pos + (a.length + 2) by omega, hcut]
        rfl
      rw [hrest] at ih
      rw [require_eq_done.mpr (by omega), done_bind, hat, done_bind]
      constructor
      · exact bind_inRange (require_inRange _) fun _ _ => ih.1
      · rw [bind_eq_done]
        constructor
        · rintro ⟨⟨⟩, hc, h⟩
          exact ⟨next, b, rfl, require_eq_done.mp hc, ih.2.mp h⟩
        · rintro ⟨c, str', heq, hc, h⟩
          cases heq
          exact ⟨(), require_eq_done.mpr hc, ih.2.mpr h⟩

/-! ## The links -/

variable {V : HyperlinkInfo → Bool}

theorem accepted_char {c : Char} {str : List Char} (hc : c ≠ '|') :
    Accepted V (c :: str) ↔ Accepted V str := by
  constructor
  · intro h
    generalize hs : c :: str = s at h
    cases h with
    | nil => cases hs
    | char _ h =>
      cases hs
      exact h
    | pipe _ =>
      cases hs
      exact absurd rfl hc
    | link L _ _ =>
      cases hs
      exact absurd rfl hc
  · intro h
    exact .char hc h

theorem accepted_append {a b : List Char} (ha : '|' ∉ a) :
    Accepted V (a ++ b) ↔ Accepted V b := by
  induction a with
  | nil => exact Iff.rfl
  | cons c a ih =>
    rw [List.mem_cons, not_or] at ha
    rw [List.cons_append, accepted_char (Ne.symm ha.1), ih ha.2]

theorem accepted_pipe {str : List Char} : Accepted V ('|' :: '|' :: str) ↔ Accepted V str := by
  constructor
  · intro h
    generalize hs : '|' :: '|' :: str = s at h
    cases h with
    | nil => cases hs
    | char hc _ =>
      cases hs
      exact absurd rfl hc
    | pipe h =>
      cases hs
      exact h
    | link L _ _ => cases hs
  · intro h
    exact .pipe h

/-- A `|` that is not escaped starts a link: the one that is read there. -/
theorem accepted_link {c : Char} {str : List Char} (hc : c ≠ '|') :
    Accepted V ('|' :: c :: str) ↔ ∃ info, ParseSingleHyperlink ('|' :: c :: str) = done info ∧
      V info = true ∧ Accepted V info.tail := by
  constructor
  · intro h
    generalize hs : '|' :: c :: str = s at h ⊢
    cases h with
    | nil => cases hs
    | char hc' _ =>
      cases hs
      exact absurd rfl hc'
    | pipe _ =>
      cases hs
      exact absurd rfl hc
    | link L hvalid h => exact ⟨_, ParseSingleHyperlink_render L _, hvalid, h⟩
  · rintro ⟨info, hparse, hvalid, h⟩
    obtain ⟨L, hs, hinfo⟩ := eq_render_of_ParseSingleHyperlink hparse
    rw [hs]
    rw [hinfo] at hvalid
    exact .link L hvalid h

theorem checkLinks_spec (n : Nat) (str : List Char) (hn : str.length ≤ n) (h : InPhase str) :
    checkLinks V str ≠ outOfRange ∧ (checkLinks V str = done () ↔ Accepted V str) := by
  induction n generalizing str with
  | zero =>
    rw [List.eq_nil_of_length_eq_zero (Nat.le_zero.mp hn)]
    rw [checkLinks]
    exact ⟨by rintro ⟨⟩, fun _ => .nil, fun _ => rfl⟩
  | succ n ih =>
    rw [checkLinks]
    cases hfind : find str '|' with
    | none =>
      have haccepted := (accepted_append (V := V) (b := []) (find_eq_none.mp hfind)).mpr .nil
      rw [List.append_nil] at haccepted
      exact ⟨by rintro ⟨⟩, fun _ => haccepted, fun _ => rfl⟩
    | some pos =>
      obtain ⟨a, b, rfl, rfl, hplain⟩ := find_eq_some.mp hfind
      rw [inPhase_append hplain] at h
      obtain ⟨next, rest, rfl, -, hrest⟩ := inPhase_pipe.mp h
      have hlength : (a ++ '|' :: next :: rest).length = a.length + rest.length + 2 := by
        rw [List.length_append, List.length_cons, List.length_cons]
        omega
      have hat : charAt (a ++ '|' :: next :: rest) (a.length + 1) = done next := by
        rw [charAt_eq_done, List.getElem?_append_right (by omega), Nat.add_sub_cancel_left]
        rfl
      simp only [bindMem_eq]
      rw [hat, done_bind, accepted_append hplain]
      by_cases hnext : next = '|'
      · rw [if_pos hnext, substrFrom_eq (by omega), done_bind, List.drop_length_add_append]
        subst hnext
        rw [accepted_pipe]
        exact ih rest (by omega) hrest
      · have htail : ∀ info, ParseSingleHyperlink ('|' :: next :: rest) = done info →
            checkLinks V info.tail ≠ outOfRange ∧
              (checkLinks V info.tail = done () ↔ Accepted V info.tail) := by
          intro info hparse
          obtain ⟨L, hs, -⟩ := eq_render_of_ParseSingleHyperlink hparse
          have hlt := length_tail_lt hparse
          grind [inPhase_render]
        rw [if_neg hnext, substrFrom_eq (by omega), done_bind, List.drop_left, accepted_link hnext]
        constructor
        · grind [require_inRange, bind_inRange, ParseSingleHyperlink_inRange]
        · rw [bind_eq_done]
          constructor
          · rintro ⟨info, hparse, hlinks⟩
            obtain ⟨⟨⟩, hvalid, hlinks⟩ := bind_eq_done.mp hlinks
            exact ⟨info, hparse, require_eq_done.mp hvalid, (htail info hparse).2.mp hlinks⟩
          · rintro ⟨info, hparse, hvalid, haccepted⟩
            exact ⟨info, hparse, bind_eq_done.mpr
              ⟨(), require_eq_done.mpr hvalid, (htail info hparse).2.mpr haccepted⟩⟩

/-- **The link checker accepts exactly its grammar** and never reads outside the message, whatever
`ValidateLinkInfo` is; and a link is read as its parts. -/
theorem CheckAllLinks_spec (ValidateLinkInfo : HyperlinkInfo → Bool) (str : List Char) :
    CheckAllLinks ValidateLinkInfo str ≠ outOfRange ∧
    (CheckAllLinks ValidateLinkInfo str = done () ↔ Accepted ValidateLinkInfo str) ∧
    (∀ (L : Link) (tail : List Char),
      ParseSingleHyperlink (L.render tail) = done (L.info tail)) ∧
    ParseSingleHyperlink str ≠ outOfRange := by
  obtain ⟨hrange, hcontrols⟩ := checkControls_spec str 0
  rw [List.drop_zero] at hcontrols
  refine ⟨?_, ?_, ParseSingleHyperlink_render, ParseSingleHyperlink_inRange str⟩
  · refine bind_inRange hrange ?_
    intro _ hdone
    exact (checkLinks_spec _ str le_rfl (hcontrols.mp hdone)).1
  · unfold CheckAllLinks
    rw [bind_eq_done]
    constructor
    · rintro ⟨⟨⟩, hdone, hlinks⟩
      exact (checkLinks_spec _ str le_rfl (hcontrols.mp hdone)).2.mp hlinks
    · intro haccepted
      have hphase := inPhase_of_accepted haccepted
      exact ⟨(), hcontrols.mpr hphase, (checkLinks_spec _ str le_rfl hphase).2.mpr haccepted⟩

end EGServer.Chat
