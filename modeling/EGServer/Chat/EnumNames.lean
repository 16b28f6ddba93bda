import EGServer.Chat.CommandWalk

/-!
# The names of an enumeration

`ArgInfo<T>::MakeSearchMap` for an enumeration `T`, and `Match`, which looks for the value that a
command argument names. A value has a title and the name of its constant. Both of the insertions of
`MakeSearchMap` take the title for the key.
-/

namespace EGServer.Chat

/-- `EnumText`, without the description. -/
structure EnumText where
  Constant : Text
  Title : Text

/-- What `EnumUtils` knows about an enumeration. -/
structure EnumUtils (T : Type) where
  iterate : List T
  nodup : iterate.Nodup
  toString : T → EnumText

/-- A `std::map` under `StringCompareLessI_T`. -/
abbrev SearchMap (T : Type) := List (Text × Option T)

/-- `try_emplace`, and no value for a key that is not new. -/
def SearchMap.tryEmplace {T : Type} (map : SearchMap T) (key : Text) (val : T) : SearchMap T :=
  PrefixSearch.upsert (fun a b => stringCompareLessI a.1 b.1) (key, some val) (fun e => (e.1, none)) map

namespace EnumUtils

variable {T : Type} (d : EnumUtils T)

def title (val : T) : Text := (d.toString val).Title

def constant (val : T) : Text := (d.toString val).Constant

/-- The body of the loop of `MakeSearchMap`. -/
def addKeys (map : SearchMap T) (val : T) : SearchMap T :=
  let map := map.tryEmplace (d.title val) val
  -- the key of the second insertion is the title again
  if d.title val ≠ d.constant val then map.tryEmplace (d.title val) val else map

def makeSearchMap : SearchMap T := d.iterate.foldl d.addKeys []

/-- `Match` -/
def searchMatch (s : Text) : Option T :=
  match d.makeSearchMap.dropWhile fun e => stringCompareLessI e.1 s with
  | [] => none
  | it :: rest =>
    if !stringStartsWithI it.1 s then none
    else if stringEqualI it.1 s then it.2
    else
      match rest with
      | [] => it.2
      | it2 :: _ => if stringStartsWithI it2.1 s then none else it.2

/-! ## The search map -/

variable {d} {map : SearchMap T} {v w : T} {s : Text}

/-- What the search map says once the values `l` have been added: a key is a title, and it finds a
value if the title is that value's only, and is the name of its constant too. -/
structure Indexes (d : EnumUtils T) (l : List T) (map : SearchMap T) : Prop where
  sorted : PrefixSearch.Sorted (fun e => fold e.1) map
  titled : ∀ e ∈ map, ∃ v ∈ l, fold e.1 = fold (d.title v)
  covers : ∀ v ∈ l, ∃ e ∈ map, fold e.1 = fold (d.title v)
  value : ∀ e ∈ map, ∀ v, e.2 = some v ↔ v ∈ l ∧ d.title v = d.constant v ∧
    fold (d.title v) = fold e.1 ∧ ∀ w ∈ l, fold (d.title w) = fold e.1 → w = v

theorem before_iff (a b : Text × Option T) :
    stringCompareLessI a.1 b.1 = true ↔ fold a.1 < fold b.1 :=
  stringCompareLessI_iff

theorem sorted_tryEmplace (h : PrefixSearch.Sorted (fun e : Text × Option T => fold e.1) map)
    (key : Text) (val : T) :
    PrefixSearch.Sorted (fun e : Text × Option T => fold e.1) (map.tryEmplace key val) :=
  PrefixSearch.Sorted.upsert before_iff h fun _ => rfl

theorem mem_tryEmplace (h : PrefixSearch.Sorted (fun e : Text × Option T => fold e.1) map)
    {key : Text} {val : T} {e : Text × Option T} : e ∈ map.tryEmplace key val ↔
      e ∈ map ∧ fold e.1 ≠ fold key ∨ e = (key, some val) ∧ (∀ a ∈ map, fold a.1 ≠ fold key) ∨
        ∃ a ∈ map, fold a.1 = fold key ∧ e = (a.1, none) :=
  PrefixSearch.mem_upsert before_iff h

/-- **What a value does to the map**: the keys of the others stay, and its title finds it only if it
is new and the name of its constant. -/
theorem mem_addKeys (h : PrefixSearch.Sorted (fun e : Text × Option T => fold e.1) map)
    {e : Text × Option T} : e ∈ d.addKeys map v ↔
      e ∈ map ∧ fold e.1 ≠ fold (d.title v) ∨
      (e.1 = d.title v ∧ ∀ a ∈ map, fold a.1 ≠ fold (d.title v)) ∧
        e.2 = (if d.title v = d.constant v then some v else none) ∨
      ∃ a ∈ map, fold a.1 = fold (d.title v) ∧ e = (a.1, none) := by
  rw [addKeys]
  by_cases hsame : d.title v = d.constant v
  · rw [if_neg (not_not_intro hsame), mem_tryEmplace h, if_pos hsame]
    simp only [Prod.ext_iff]
    tauto
  · -- the second insertion finds the key of the first
    rw [if_pos hsame, mem_tryEmplace (sorted_tryEmplace h _ _), if_neg hsame]
    simp only [mem_tryEmplace h]
    constructor
    · rintro (⟨hold, hne⟩ | ⟨-, hnone⟩ | ⟨a, ha, hkey, rfl⟩)
      · grind
      · exfalso
        by_cases hold : ∃ a ∈ map, fold a.1 = fold (d.title v)
        · obtain ⟨a, ha, hkey⟩ := hold
          exact hnone (a.1, none) (Or.inr (Or.inr ⟨a, ha, hkey, rfl⟩)) hkey
        · refine hnone (d.title v, some v) (Or.inr (Or.inl ⟨rfl, ?_⟩)) rfl
          intro a ha hkey
          exact hold ⟨a, ha, hkey⟩
      · grind
    · rintro (hold | ⟨⟨htitle, hnew⟩, hnone⟩ | ⟨a, ha, hkey, rfl⟩)
      · exact Or.inl ⟨Or.inl hold, hold.2⟩
      · refine Or.inr (Or.inr ⟨(d.title v, some v), Or.inr (Or.inl ⟨rfl, hnew⟩), rfl, ?_⟩)
        exact Prod.ext htitle hnone
      · exact Or.inr (Or.inr ⟨(a.1, none), Or.inr (Or.inr ⟨a, ha, hkey, rfl⟩), hkey, rfl⟩)

theorem sorted_addKeys (h : PrefixSearch.Sorted (fun e : Text × Option T => fold e.1) map) (v : T) :
    PrefixSearch.Sorted (fun e : Text × Option T => fold e.1) (d.addKeys map v) := by
  grind [sorted_tryEmplace, addKeys]

theorem Indexes.nil : d.Indexes [] [] where
  sorted := List.Pairwise.nil
  titled := fun _ he => nomatch he
  covers := fun _ hv => nomatch hv
  value := fun _ he => nomatch he

theorem Indexes.addKeys {l : List T} (h : d.Indexes l map) (hv : v ∉ l) :
    d.Indexes (v :: l) (d.addKeys map v) := by
  have hmem := fun e => @mem_addKeys T d map v h.sorted e
  refine ⟨sorted_addKeys h.sorted v, ?_, ?_, ?_⟩
  · intro e he
    rcases (hmem e).mp he with ⟨hold, -⟩ | ⟨⟨htitle, -⟩, -⟩ | ⟨a, -, hkey, rfl⟩
    · obtain ⟨u, hu, hkey⟩ := h.titled e hold
      exact ⟨u, List.mem_cons_of_mem _ hu, hkey⟩
    · exact ⟨v, List.mem_cons_self, congrArg fold htitle⟩
    · exact ⟨v, List.mem_cons_self, hkey⟩
  · intro u hu
    by_cases hkey : fold (d.title u) = fold (d.title v)
    · by_cases hold : ∃ a ∈ map, fold a.1 = fold (d.title v)
      · obtain ⟨a, ha, hkeya⟩ := hold
        exact ⟨(a.1, none), (hmem _).mpr (Or.inr (Or.inr ⟨a, ha, hkeya, rfl⟩)), hkeya.trans hkey.symm⟩
      · refine ⟨(d.title v, if d.title v = d.constant v then some v else none),
          (hmem _).mpr (Or.inr (Or.inl ⟨⟨rfl, ?_⟩, rfl⟩)), hkey.symm⟩
        intro a ha hkeya
        exact hold ⟨a, ha, hkeya⟩
    · have hu : u ∈ l := by
        rcases List.mem_cons.mp hu with rfl | hu
        · exact absurd rfl hkey
        · exact hu
      obtain ⟨e, he, hkeye⟩ := h.covers u hu
      refine ⟨e, (hmem e).mpr (Or.inl ⟨he, ?_⟩), hkeye⟩
      rw [hkeye]
      exact hkey
  · intro e he u
    rcases (hmem e).mp he with ⟨hold, hne⟩ | ⟨⟨htitle, hnew⟩, hvalue⟩ | ⟨a, ha, hkey, rfl⟩
    · -- the key of another title
      rw [h.value e hold u]
      grind
    · -- a new key: no value before has this title
      have hother : ∀ w ∈ l, fold (d.title w) ≠ fold (d.title v) := by
        intro w hw heq
        obtain ⟨a, ha, hkey⟩ := h.covers w hw
        exact hnew a ha (hkey.trans heq)
      grind
    · -- an old key: another value before has this title
      constructor
      · intro hsome
        cases hsome
      · rintro ⟨-, -, hkeyu, hsole⟩
        obtain ⟨w, hw, hkeyw⟩ := h.titled a ha
        grind

theorem indexes_foldl (rest l : List T) (h : d.Indexes l map) (hnodup : (rest.reverse ++ l).Nodup) :
    d.Indexes (rest.reverse ++ l) (rest.foldl d.addKeys map) := by
  induction rest generalizing l map with
  | nil => exact h
  | cons v rest ih =>
    rw [List.reverse_cons, List.append_assoc] at hnodup ⊢
    refine ih (v :: l) (h.addKeys ?_) hnodup
    exact (List.nodup_cons.mp (List.nodup_append.mp hnodup).2.1).1

/-- **The search map of an enumeration.** -/
theorem indexes_makeSearchMap (d : EnumUtils T) : d.Indexes d.iterate.reverse d.makeSearchMap := by
  have h := indexes_foldl (d := d) d.iterate [] Indexes.nil (by simpa using d.nodup)
  rwa [List.append_nil] at h

/-! ## Looking for a name -/

/-- The text is the title of the value, or the name of its constant. -/
def HasName (d : EnumUtils T) (v : T) (s : Text) : Prop :=
  stringEqualI (d.title v) s ∨ stringEqualI (d.constant v) s

/-- What `Match` looks at are the keys that start with the text. -/
theorem searchMatch_eq (d : EnumUtils T) (s : Text) : d.searchMatch s =
    match d.makeSearchMap.filter fun e => decide (fold s <+: fold e.1) with
    | [] => none
    | it :: rest => if fold it.1 = fold s then it.2 else if rest = [] then it.2 else none := by
  have hsearch := PrefixSearch.filter_eq (t := fold s) (indexes_makeSearchMap d).sorted
  have hless : (fun e : Text × Option T => stringCompareLessI e.1 s) =
      fun e => decide (fold e.1 < fold s) := by
    funext e
    rw [Bool.eq_iff_iff, stringCompareLessI_iff, decide_eq_true_eq]
  have htake : ∀ (e : Text × Option T) l,
      (e :: l).takeWhile (fun e => decide (fold s <+: fold e.1)) =
        if stringStartsWithI e.1 s then e :: l.takeWhile fun e => decide (fold s <+: fold e.1)
        else [] := by
    intro e l
    rw [List.takeWhile_cons]
    simp only [decide_eq_true_eq, stringStartsWithI_iff]
  rw [hsearch, searchMatch, hless]
  cases d.makeSearchMap.dropWhile fun e => decide (fold e.1 < fold s) with
  | nil => rfl
  | cons it rest =>
    rw [htake]
    dsimp only
    cases stringStartsWithI it.1 s with
    | false => rfl
    | true =>
      simp only [Bool.not_true, Bool.false_eq_true, if_false, if_true, stringEqualI_iff]
      cases rest with
      | nil => rfl
      | cons it2 rest =>
        grind

/-- **What `Match` finds**: a value whose title is the name of its constant and no other title, where
the text is the title, or no other title starts with it. -/
theorem searchMatch_iff : d.searchMatch s = some v ↔
    v ∈ d.iterate ∧ d.title v = d.constant v ∧ stringStartsWithI (d.title v) s = true ∧
      ((stringEqualI (d.title v) s = true ∧
          ∀ w ∈ d.iterate, w ≠ v → ¬stringEqualI (d.title w) s = true) ∨
        (¬stringEqualI (d.title v) s = true ∧
          ∀ w ∈ d.iterate, w ≠ v → ¬stringStartsWithI (d.title w) s = true)) := by
  have hindex := indexes_makeSearchMap d
  simp only [stringEqualI_iff, stringStartsWithI_iff]
  have hvalue : ∀ e ∈ d.makeSearchMap, ∀ v, e.2 = some v ↔ v ∈ d.iterate ∧ d.title v = d.constant v ∧
      fold (d.title v) = fold e.1 ∧ ∀ w ∈ d.iterate, fold (d.title w) = fold e.1 → w = v := by
    simpa only [List.mem_reverse] using hindex.value
  have hmem : ∀ e, e ∈ d.makeSearchMap.filter (fun e => decide (fold s <+: fold e.1)) ↔
      e ∈ d.makeSearchMap ∧ fold s <+: fold e.1 := by
    intro e
    rw [List.mem_filter, decide_eq_true_eq]
  have hsorted : PrefixSearch.Sorted (fun e : Text × Option T => fold e.1)
      (d.makeSearchMap.filter fun e => decide (fold s <+: fold e.1)) :=
    hindex.sorted.filter _
  rw [searchMatch_eq]
  revert hmem hsorted
  generalize (d.makeSearchMap.filter fun e => decide (fold s <+: fold e.1)) = found
  intro hmem hsorted
  constructor
  · intro hfound
    cases found with
    | nil => cases hfound
    | cons it rest =>
      dsimp only at hfound
      obtain ⟨hit, hstart⟩ := (hmem it).mp List.mem_cons_self
      split at hfound
      · grind
      · rename_i hequal
        split at hfound
        · rename_i hrest
          obtain ⟨hv, hsame, hkey, hsole⟩ := (hvalue it hit v).mp hfound
          rw [hkey]
          refine ⟨hv, hsame, hstart, Or.inr ⟨hequal, ?_⟩⟩
          intro w hw hne hstartw
          obtain ⟨e, he, hkeye⟩ := hindex.covers w (List.mem_reverse.mpr hw)
          grind
        · cases hfound
  · intro h
    obtain ⟨hv, hsame, hstart, hcases⟩ := h
    obtain ⟨e, he, hkey⟩ := hindex.covers v (List.mem_reverse.mpr hv)
    have hsole : ∀ w ∈ d.iterate, fold (d.title w) = fold e.1 → w = v := by
      grind
    have hevalue : e.2 = some v := (hvalue e he v).mpr ⟨hv, hsame, hkey.symm, hsole⟩
    have hefound := (hmem e).mpr ⟨he, hkey ▸ hstart⟩
    cases found with
    | nil => cases hefound
    | cons it rest =>
      obtain ⟨hit, hstartit⟩ := (hmem it).mp List.mem_cons_self
      dsimp only
      rcases hcases with ⟨hequal, -⟩ | ⟨hequal, hother⟩
      · -- the key that is the text is the first of those that start with it
        have heit : e = it :=
          PrefixSearch.eq_head_of_key_eq hsorted hstartit hefound (hkey.trans hequal)
        rw [← heit, if_pos (hkey.trans hequal)]
        exact hevalue
      · have honly : ∀ a ∈ it :: rest, a = e := by
          intro a ha
          obtain ⟨hamap, hstarta⟩ := (hmem a).mp ha
          obtain ⟨w, hw, hkeya⟩ := hindex.titled a hamap
          grind [PrefixSearch.eq_of_key_eq]
        have hrest : rest = [] := by
          apply List.eq_nil_iff_forall_not_mem.mpr
          intro a ha
          have hlt := (List.pairwise_cons.mp hsorted).1 a ha
          rw [honly a (List.mem_cons_of_mem _ ha), honly it List.mem_cons_self] at hlt
          exact lt_irrefl _ hlt
        grind

/-! ## What is found by its name -/

/-- **Values are found by name.** -/
structure FoundByName (d : EnumUtils T) : Prop where
  /-- A name that one value has finds that value. -/
  exact : ∀ s, ∀ v ∈ d.iterate, d.HasName v s → (∀ w ∈ d.iterate, w ≠ v → ¬d.HasName w s) →
    d.searchMatch s = some v
  /-- A part of a name finds a value only if there is one name that starts with it. -/
  part : ∀ s v, d.searchMatch s = some v → (∀ w ∈ d.iterate, ¬d.HasName w s) →
    ∃ key, ∀ w ∈ d.iterate, ∀ name ∈ [d.title w, d.constant w], stringStartsWithI name s = true →
      w = v ∧ stringEqualI name key = true
  /-- A name of two values finds nothing. -/
  ambiguous : ∀ s, ∀ v ∈ d.iterate, ∀ w ∈ d.iterate, v ≠ w → d.HasName v s → d.HasName w s →
    d.searchMatch s = none

/-- When the names of the constants do not matter. -/
structure TitlesSuffice (d : EnumUtils T) : Prop where
  /-- A value with two names shares both of them. -/
  shared : ∀ v ∈ d.iterate, d.title v ≠ d.constant v → ∀ name ∈ [d.title v, d.constant v],
    ∃ w ∈ d.iterate, w ≠ v ∧ d.HasName w name
  /-- What is one value's title only is no other constant. -/
  apart : ∀ v ∈ d.iterate, d.title v = d.constant v →
    (∀ w ∈ d.iterate, w ≠ v → ¬stringEqualI (d.title w) (d.title v) = true) →
    ∀ w ∈ d.iterate, w ≠ v → ¬stringEqualI (d.constant w) (d.title v) = true
  /-- With a part that one title starts with, no other constant starts. -/
  parts : ∀ v ∈ d.iterate, d.title v = d.constant v → ∀ s, stringStartsWithI (d.title v) s = true →
    ¬stringEqualI (d.title v) s = true →
    (∀ w ∈ d.iterate, w ≠ v → ¬stringStartsWithI (d.title w) s = true) →
    ∀ w ∈ d.iterate, w ≠ v → ¬stringStartsWithI (d.constant w) s = true

theorem FoundByName.titlesSuffice (h : d.FoundByName) : d.TitlesSuffice := by
  have hshared : ∀ v ∈ d.iterate, d.title v ≠ d.constant v →
      ∀ name ∈ [d.title v, d.constant v], ∃ w ∈ d.iterate, w ≠ v ∧ d.HasName w name := by
    intro v hv hne name hname
    by_contra hnone
    have hhas : d.HasName v name := by
      rcases List.mem_cons.mp hname with rfl | hname
      · exact Or.inl (stringEqualI_iff.mpr rfl)
      · rw [List.mem_singleton.mp hname]
        exact Or.inr (stringEqualI_iff.mpr rfl)
    have hfound := h.exact name v hv hhas fun w hw hwv hhasw => hnone ⟨w, hw, hwv, hhasw⟩
    exact hne (searchMatch_iff.mp hfound).2.1
  refine ⟨hshared, ?_, ?_⟩
  · intro v hv hsame hsole w hw hwv hequal
    have hself : stringEqualI (d.title v) (d.title v) = true := stringEqualI_iff.mpr rfl
    have hfound : d.searchMatch (d.title v) = some v :=
      searchMatch_iff.mpr ⟨hv, hsame, stringStartsWithI_of_equalI hself, Or.inl ⟨hself, hsole⟩⟩
    rw [h.ambiguous (d.title v) v hv w hw (Ne.symm hwv) (Or.inl hself) (Or.inr hequal)] at hfound
    cases hfound
  · intro v hv hsame s hstart hequal hsole w hw hwv hstartw
    have hfound : d.searchMatch s = some v :=
      searchMatch_iff.mpr ⟨hv, hsame, hstart, Or.inr ⟨hequal, hsole⟩⟩
    by_cases hnamed : ∃ u ∈ d.iterate, d.HasName u s
    · -- the text is a constant, of two values then
      obtain ⟨u, hu, hhas⟩ := hnamed
      have htitle : ¬stringEqualI (d.title u) s = true := by
        grind [stringStartsWithI_of_equalI]
      have hconstant : stringEqualI (d.constant u) s = true := hhas.resolve_left htitle
      have htwo : d.title u ≠ d.constant u := fun heq => htitle (heq ▸ hconstant)
      obtain ⟨u', hu', hne, hhas'⟩ := hshared u hu htwo (d.constant u) (by simp)
      have hhas' : d.HasName u' s := by
        grind [stringEqualI_iff, HasName]
      rw [h.ambiguous s u hu u' hu' (Ne.symm hne) hhas hhas'] at hfound
      cases hfound
    · obtain ⟨key, hkey⟩ := h.part s v hfound fun u hu hhas => hnamed ⟨u, hu, hhas⟩
      exact hwv (hkey w hw (d.constant w) (by simp) hstartw).1

theorem TitlesSuffice.foundByName (h : d.TitlesSuffice) : d.FoundByName := by
  constructor
  · intro s v hv hhas hsole
    have hsame : d.title v = d.constant v := by
      by_contra hne
      rcases hhas with heq | heq
      · obtain ⟨w, hw, hwv, hhasw⟩ := h.shared v hv hne (d.title v) (by simp)
        grind [stringEqualI_iff, HasName]
      · obtain ⟨w, hw, hwv, hhasw⟩ := h.shared v hv hne (d.constant v) (by simp)
        grind [stringEqualI_iff, HasName]
    have hequal : stringEqualI (d.title v) s = true := by
      rcases hhas with heq | heq
      · exact heq
      · exact hsame ▸ heq
    refine searchMatch_iff.mpr ⟨hv, hsame, stringStartsWithI_of_equalI hequal, Or.inl ⟨hequal, ?_⟩⟩
    intro w hw hwv heq
    exact hsole w hw hwv (Or.inl heq)
  · intro s v hfound hnamed
    obtain ⟨hv, hsame, hstart, hcases⟩ := searchMatch_iff.mp hfound
    rcases hcases with ⟨hequal, -⟩ | ⟨hequal, hsole⟩
    · exact absurd (Or.inl hequal) (hnamed v hv)
    · refine ⟨d.title v, ?_⟩
      intro w hw name hname hstartw
      have hwv : w = v := by
        by_contra hne
        rcases List.mem_cons.mp hname with rfl | hname
        · exact hsole w hw hne hstartw
        · rw [List.mem_singleton.mp hname] at hstartw
          exact h.parts v hv hsame s hstart hequal hsole w hw hne hstartw
      refine ⟨hwv, ?_⟩
      rw [hwv, ← hsame] at hname
      have hname : name = d.title v := by simpa using hname
      rw [hname]
      exact stringEqualI_iff.mpr rfl
  · intro s v hv w hw hvw hhasv hhasw
    apply Option.eq_none_iff_forall_ne_some.mpr
    intro u hfound
    obtain ⟨hu, hsame, hstart, hcases⟩ := searchMatch_iff.mp hfound
    -- one of the two is not the one that is found
    have hother : ∃ x ∈ d.iterate, x ≠ u ∧ d.HasName x s := by
      grind
    obtain ⟨x, hx, hxu, hhas⟩ := hother
    rcases hcases with ⟨hequal, hsole⟩ | ⟨hequal, hsole⟩
    · have hconstant := hhas.resolve_left (hsole x hx hxu)
      simp only [stringEqualI_iff] at hconstant hequal
      refine h.apart u hu hsame ?_ x hx hxu (stringEqualI_iff.mpr (hconstant.trans hequal.symm))
      intro w hw hwu heq
      exact hsole w hw hwu (stringEqualI_iff.mpr ((stringEqualI_iff.mp heq).trans hequal))
    · have hconstant := hhas.resolve_left fun heq =>
        hsole x hx hxu (stringStartsWithI_of_equalI heq)
      exact h.parts u hu hsame s hstart hequal hsole x hx hxu (stringStartsWithI_of_equalI hconstant)

/-- **When values are found by name**: exactly when the names of the constants do not matter. -/
theorem foundByName_iff (d : EnumUtils T) : d.FoundByName ↔ d.TitlesSuffice :=
  ⟨FoundByName.titlesSuffice, TitlesSuffice.foundByName⟩

/-- Two difficulties, the first with a title of its own: `"Normal"` and `"HEROIC"`. -/
def difficulties : EnumUtils Bool where
  iterate := [false, true]
  nodup := by decide
  toString
    | false => ⟨[78, 79, 82, 77, 65, 76, 95, 49], [78, 111, 114, 109, 97, 108]⟩
    | true => ⟨[72, 69, 82, 79, 73, 67], [72, 69, 82, 79, 73, 67]⟩

/-- Neither the title nor the constant of the first is found. -/
theorem difficulties_not_found :
    difficulties.searchMatch [110, 111, 114, 109, 97, 108] = none ∧
      difficulties.searchMatch [110, 111, 114, 109, 97, 108, 95, 49] = none ∧
      difficulties.searchMatch [104, 101, 114] = some true ∧ ¬difficulties.FoundByName := by
  have htitle : difficulties.searchMatch [110, 111, 114, 109, 97, 108] = none := by decide
  refine ⟨htitle, by decide, by decide, ?_⟩
  intro h
  have hfound := h.exact [110, 111, 114, 109, 97, 108] false (by decide) (Or.inl (by decide)) ?_
  · rw [htitle] at hfound
    cases hfound
  · intro w _ hwv hhas
    cases w with
    | false => exact hwv rfl
    | true =>
      rcases hhas with h | h
      · revert h
        decide
      · revert h
        decide

end EnumUtils

end EGServer.Chat
