import Mathlib.Data.List.Nodup
import Mathlib.Data.List.Perm.Subperm
import Mathlib.Logic.Relation
import Mathlib.Tactic.Common

/-!
# Breaking cycles by cutting links

Every node has one link at most, so its links lead to a node without one, or around a cycle. The
walk along the links of a node ends at a link back to a node that has been passed. Where such a link
is cut for one start after the other, every cycle loses exactly one link, and nothing else is lost.
-/

namespace LinkCuts

variable {α : Type} {next next' : α → Option α} {a b c r start : α}

def Link (next : α → Option α) (a b : α) : Prop := next a = some b

def Reach (next : α → Option α) : α → α → Prop := Relation.ReflTransGen (Link next)

def Cyclic (next : α → Option α) (a : α) : Prop := Relation.TransGen (Link next) a a

/-- The links of the node lead to a node without a link. -/
def Settled (next : α → Option α) (a : α) : Prop := ∃ e, Reach next a e ∧ next e = none

/-! ## Cycles -/

theorem link_unique (hb : Link next a b) (hc : Link next a c) : b = c :=
  Option.some.inj (hb.symm.trans hc)

theorem Cyclic.exists_link (h : Cyclic next a) : ∃ b, Link next a b ∧ Reach next b a :=
  Relation.TransGen.head'_iff.mp h

theorem Cyclic.ne_none (h : Cyclic next a) : next a ≠ none := by
  obtain ⟨b, hlink, -⟩ := h.exists_link
  intro hnone
  cases hnone.symm.trans hlink

/-- What is reached from a cycle is on it. -/
theorem Cyclic.of_reach (h : Cyclic next a) (hreach : Reach next a b) :
    Cyclic next b ∧ Reach next b a := by
  induction hreach with
  | refl => exact ⟨h, Relation.ReflTransGen.refl⟩
  | @tail b c _ hlink ih =>
    obtain ⟨c', hlink', hback⟩ := ih.1.exists_link
    cases link_unique hlink hlink'
    exact ⟨Relation.TransGen.tail' hback hlink, hback.trans ih.2⟩

/-- From a node whose links end no cycle is reached. -/
theorem Settled.not_cyclic (h : Settled next a) (hreach : Reach next a b) : ¬Cyclic next b := by
  obtain ⟨e, hend, hnone⟩ := h
  have hunique : Relator.RightUnique (Link next) := fun _ _ _ => link_unique
  intro hcyclic
  rcases Relation.ReflTransGen.total_of_right_unique hunique hreach hend with hbe | heb
  · exact (hcyclic.of_reach hbe).1.ne_none hnone
  · rcases Relation.ReflTransGen.cases_head heb with rfl | ⟨c, hlink, -⟩
    · exact hcyclic.ne_none hnone
    · cases hnone.symm.trans hlink

/-- A cycle that is left is a cycle of the original, and all of its links are left. -/
theorem reach_of_cyclic (hsub : ∀ a b, Link next' a b → Link next a b) (h : Cyclic next' r)
    (hreach : Reach next r a) : Reach next' r a := by
  induction hreach with
  | refl => exact Relation.ReflTransGen.refl
  | @tail b c _ hlink ih =>
    obtain ⟨c', hlink', -⟩ := (h.of_reach ih).1.exists_link
    cases link_unique hlink (hsub b c' hlink')
    exact ih.tail hlink'

/-! ## Cutting -/

section

variable [DecidableEq α]

/-- The links without that of `r`. -/
def cut (next : α → Option α) (r : α) : α → Option α := Function.update next r none

theorem cut_self (next : α → Option α) (r : α) : cut next r r = none := Function.update_self ..

theorem cut_of_ne (h : a ≠ r) : cut next r a = next a := Function.update_of_ne h ..

theorem link_cut : Link (cut next r) a b ↔ a ≠ r ∧ Link next a b := by
  by_cases h : a = r
  · rw [Link, h, cut_self]
    simp
  · rw [Link, Link, cut_of_ne h]
    simp [h]

/-- A cut leaves the links of no node without an end. -/
theorem Settled.cut (h : Settled next a) (r : α) : Settled (cut next r) a := by
  obtain ⟨e, hend, hnone⟩ := h
  induction hend using Relation.ReflTransGen.head_induction_on with
  | refl =>
    refine ⟨e, Relation.ReflTransGen.refl, ?_⟩
    by_cases her : e = r
    · rw [her, cut_self]
    · rw [cut_of_ne her, hnone]
  | @head a b hlink _ ih =>
    by_cases har : a = r
    · refine ⟨a, Relation.ReflTransGen.refl, ?_⟩
      rw [har, cut_self]
    · obtain ⟨e', hend', hnone'⟩ := ih
      exact ⟨e', Relation.ReflTransGen.head (link_cut.mpr ⟨har, hlink⟩) hend', hnone'⟩

end

/-! ## What is left -/

/-- Links have been cut on cycles only, and of every cycle one link at most. -/
structure Broken (next next' : α → Option α) : Prop where
  sub : ∀ a b, Link next' a b → Link next a b
  cyclic : ∀ a b, Link next a b → next' a = none → Cyclic next a
  single : ∀ a b, Cyclic next a → Reach next a b → next' a = none → next' b = none → a = b

/-- **A link of a cycle may be cut.** -/
theorem Broken.cut [DecidableEq α] (h : Broken next next') (hr : Cyclic next' r) :
    Broken next (cut next' r) := by
  have hfull : ∀ b, Reach next r b → next' b ≠ none := by
    intro b hreach
    exact (hr.of_reach (reach_of_cyclic h.sub hr hreach)).1.ne_none
  constructor
  · intro a b hlink
    exact h.sub a b (link_cut.mp hlink).2
  · intro a b hlink hnone
    by_cases har : a = r
    · rw [har]
      exact Relation.TransGen.mono h.sub r r hr
    · rw [cut_of_ne har] at hnone
      exact h.cyclic a b hlink hnone
  · intro a b ha hreach hnone hnone'
    by_cases har : a = r
    · grind [cut_of_ne]
    · rw [cut_of_ne har] at hnone
      by_cases hbr : b = r
      · exact absurd hnone (hfull a (hbr ▸ (ha.of_reach hreach).2))
      · rw [cut_of_ne hbr] at hnone'
        exact h.single a b ha hreach hnone hnone'

/-- **Exactly one link of every cycle has been cut**, once no cycle is left. -/
theorem Broken.existsUnique (h : Broken next next') (hacyclic : ∀ a, ¬Cyclic next' a)
    (ha : Cyclic next a) : ∃! r, Reach next a r ∧ next' r = none := by
  have hexists : ∃ r, Reach next a r ∧ next' r = none := by
    by_contra hnone
    -- with all of its links the cycle is still there
    have hleft : ∀ b, Relation.TransGen (Link next) a b → Relation.TransGen (Link next') a b := by
      intro b hb
      have hlink : ∀ c d, Reach next a c → Link next c d → Link next' c d := by
        intro c d hreach hlink
        cases hc : next' c with
        | none => exact absurd ⟨c, hreach, hc⟩ hnone
        | some d' =>
          cases link_unique hlink (h.sub c d' hc)
          exact hc
      induction hb with
      | single hab => exact Relation.TransGen.single (hlink _ _ Relation.ReflTransGen.refl hab)
      | tail hab hbc ih => exact ih.tail (hlink _ _ hab.to_reflTransGen hbc)
    exact hacyclic a (hleft a ha)
  obtain ⟨r, hreach, hnone⟩ := hexists
  refine ⟨r, ⟨hreach, hnone⟩, ?_⟩
  intro b hb
  obtain ⟨hr, hback⟩ := ha.of_reach hreach
  exact (h.single r b hr (hback.trans hb.1) hnone hb.2).symm

/-! ## The walks -/

variable {visited : List α}

/-- The nodes `visited` have been passed on the way from the start to `a`. -/
structure Passed (next : α → Option α) (start : α) (visited : List α) (a : α) : Prop where
  way : Relation.ReflTransGen (fun x y => Link next x y ∧ x ∈ visited) start a
  fresh : a ∉ visited
  back : ∀ v ∈ visited, Relation.TransGen (Link next) v a

theorem Passed.initial (next : α → Option α) (a : α) : Passed next a [] a where
  way := Relation.ReflTransGen.refl
  fresh := List.not_mem_nil
  back := fun _ hv => nomatch hv

theorem Passed.step (h : Passed next start visited a) (hlink : Link next a b)
    (hb : b ∉ a :: visited) : Passed next start (a :: visited) b where
  way := Relation.ReflTransGen.tail
    (Relation.ReflTransGen.mono (fun _ _ hxy => ⟨hxy.1, List.mem_cons_of_mem a hxy.2⟩) _ _ h.way)
    ⟨hlink, List.mem_cons_self⟩
  fresh := hb
  back := by
    intro v hv
    rcases List.mem_cons.mp hv with rfl | hv
    · exact Relation.TransGen.single hlink
    · exact (h.back v hv).tail hlink

section

variable [DecidableEq α] {n : Nat}

/-- Follows the links until there is none, or until one leads back to a node that has been passed:
the answer is the node with that link. -/
def follow (next : α → Option α) : Nat → List α → α → Option (Option α)
  | 0, _, _ => none
  | n + 1, visited, a =>
    match next a with
    | none => some none
    | some b => if b ∈ a :: visited then some (some a) else follow next n (a :: visited) b

/-- What a walk finds: the links of its start end, or do so once the link that is found, which is
one of a cycle, has been cut. -/
def Found (next : α → Option α) (start : α) : Option α → Prop
  | none => Settled next start
  | some r => Cyclic next r ∧ Settled (cut next r) start

theorem Passed.follow {result : Option α} (h : Passed next start visited a)
    (hresult : follow next n visited a = some result) : Found next start result := by
  induction n generalizing visited a with
  | zero => cases hresult
  | succ n ih =>
    rw [LinkCuts.follow] at hresult
    cases hnext : next a with
    | none =>
      rw [hnext] at hresult
      cases hresult
      exact ⟨a, Relation.ReflTransGen.mono (fun _ _ hxy => hxy.1) _ _ h.way, hnext⟩
    | some b =>
      rw [hnext] at hresult
      dsimp only at hresult
      split at hresult
      · rename_i hb
        cases hresult
        constructor
        · rcases List.mem_cons.mp hb with rfl | hb
          · exact Relation.TransGen.single hnext
          · exact (h.back b hb).head hnext
        · refine ⟨a, Relation.ReflTransGen.mono ?_ _ _ h.way, cut_self next a⟩
          intro x y hxy
          exact link_cut.mpr ⟨fun hxa => h.fresh (hxa ▸ hxy.2), hxy.1⟩
      · rename_i hb
        exact ih (h.step hnext hb) hresult

/-- **A walk ends**: it passes nodes with links only, and none of them twice. -/
theorem follow_ne_none {keys : List α} (hkeys : ∀ a, next a ≠ none → a ∈ keys)
    (hvisited : ∀ v ∈ visited, v ∈ keys) (hnodup : visited.Nodup) (ha : a ∉ visited)
    (hn : keys.length < n + visited.length) : follow next n visited a ≠ none := by
  induction n generalizing visited a with
  | zero =>
    have hle : visited.length ≤ keys.length := (List.subperm_of_subset hnodup hvisited).length_le
    omega
  | succ n ih =>
    rw [follow]
    grind

/-! ## All starts -/

/-- One walk for every start, each with a cut if it finds a link back. -/
def breakCycles (fuel : Nat) (next : α → Option α) : List α → Option (α → Option α)
  | [] => some next
  | a :: starts =>
    match follow next fuel [] a with
    | none => none
    | some none => breakCycles fuel next starts
    | some (some r) => breakCycles fuel (cut next r) starts

theorem Settled.breakCycles {fuel : Nat} {starts : List α} {final : α → Option α}
    (h : Settled next a) (hrun : breakCycles fuel next starts = some final) : Settled final a := by
  induction starts generalizing next with
  | nil =>
    cases hrun
    exact h
  | cons start starts ih =>
    rw [LinkCuts.breakCycles] at hrun
    cases hwalk : follow next fuel [] start with
    | none =>
      rw [hwalk] at hrun
      cases hrun
    | some result =>
      rw [hwalk] at hrun
      cases result with
      | none => exact ih h hrun
      | some r => exact ih (h.cut r) hrun

/-- The links of `next` are among `keys`: what is left of them is as well. -/
theorem keys_cut {keys : List α} (hkeys : ∀ a, next a ≠ none → a ∈ keys) (r : α) :
    ∀ a, cut next r a ≠ none → a ∈ keys := by
  grind [cut_of_ne, cut_self]

/-- **The walks break every cycle of which they get a start.** -/
theorem Broken.breakCycles {original : α → Option α} {keys : List α} {fuel : Nat}
    (h : Broken original next) (hkeys : ∀ a, next a ≠ none → a ∈ keys) (hfuel : keys.length < fuel)
    (starts : List α) :
    ∃ final, breakCycles fuel next starts = some final ∧ Broken original final ∧
      ∀ a ∈ starts, Settled final a := by
  induction starts generalizing next with
  | nil => exact ⟨next, rfl, h, fun a ha => nomatch ha⟩
  | cons start starts ih =>
    rw [LinkCuts.breakCycles]
    cases hwalk : follow next fuel [] start with
    | none =>
      exact absurd hwalk (follow_ne_none hkeys (fun v hv => nomatch hv) List.nodup_nil
        List.not_mem_nil hfuel)
    | some result =>
      have hfound := (Passed.initial next start).follow hwalk
      cases result with
      | none =>
        obtain ⟨final, hrun, hbroken, hsettled⟩ := ih h hkeys
        refine ⟨final, hrun, hbroken, ?_⟩
        intro a ha
        rcases List.mem_cons.mp ha with rfl | ha
        · exact hfound.breakCycles hrun
        · exact hsettled a ha
      | some r =>
        obtain ⟨final, hrun, hbroken, hsettled⟩ := ih (h.cut hfound.1) (keys_cut hkeys r)
        refine ⟨final, hrun, hbroken, ?_⟩
        intro a ha
        rcases List.mem_cons.mp ha with rfl | ha
        · exact hfound.2.breakCycles hrun
        · exact hsettled a ha

end

end LinkCuts
