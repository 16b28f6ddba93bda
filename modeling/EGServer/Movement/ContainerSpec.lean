import EGServer.Movement.GeneratorSpec

/-!
# Taking generators out of the container

Every node of the map has one generator, so to take it out erases the node. What `_Remove`,
`_Pop`, `_DirectClear` and `_DeleteDefault` do to the invariant follows from that and from what
`_Delete` does.
-/

namespace EGServer.Movement

open SortedMap (Sorted)

theorem isComparator_keyComp : IsComparator keyComp := by
  constructor
  · intro a
    simp [keyComp]
  · intro a b c hab hbc
    unfold keyComp at hab hbc ⊢
    grind
  · grind [keyComp]

theorem eraseFrom_split {before rest : MotionMasterContainer} {k : Nat × Nat} {g : Address}
    (h : Sorted keyComp (before ++ (k, [g]) :: rest)) :
    eraseFrom k g (before ++ (k, [g]) :: rest) = before ++ rest := by
  induction before with
  | nil =>
    rw [List.nil_append, eraseFrom, if_pos rfl]
    simp
  | cons node before ih =>
    have hne : node.1 ≠ k := by
      intro heq
      have hlt := (List.pairwise_cons.mp h).1 (k, [g]) (by simp)
      rw [heq, isComparator_keyComp.irrefl] at hlt
      cases hlt
    rw [List.cons_append, eraseFrom, if_neg hne, ih (List.pairwise_cons.mp h).2]
    rfl

namespace MotionMaster

variable {p q : MotionMaster} {hand dying fresh regs : List Address} {g x d : Address}
  {before rest : MotionMasterContainer} {k : Nat × Nat}

theorem activeGenerators_of_split (hgen : p.generators = before ++ (k, [g]) :: rest) :
    p.activeGenerators.Perm (g :: (before ++ rest).flatMap Prod.snd) := by
  grind [activeGenerators]

theorem Invariant.split (h : Invariant fresh hand dying regs p) {node : (Nat × Nat) × List Address}
    (hnode : node ∈ p.generators) :
    ∃ g before rest, node = (node.1, [g]) ∧ p.generators = before ++ (node.1, [g]) :: rest := by
  obtain ⟨g, hg, -⟩ := h.filed.single node hnode
  obtain ⟨before, rest, hsplit⟩ := List.append_of_mem hnode
  grind

theorem Invariant.holds_of_hand (h : Invariant fresh (g :: hand) dying regs p)
    (hg : g ≠ idleGenerator) : p.holds g = 0 := by
  have haccount := h.accounted.account g hg
  rw [List.count_append, List.count_cons_self] at haccount
  split at haccount
  · omega
  · omega

/-! ## The map -/

theorem currentMovementGenerator_of_nil (hgen : p.generators = []) :
    p.currentMovementGenerator = p.defaultGenerator := by
  rw [currentMovementGenerator, hgen]

theorem currentMovementGenerator_of_cons (hgen : p.generators = (k, [g]) :: rest) :
    p.currentMovementGenerator = some g := by
  rw [currentMovementGenerator, hgen]
  rfl

theorem currentMovementGenerator_congr {node : (Nat × Nat) × List Address}
    {rest' : MotionMasterContainer} (hp : p.generators = node :: rest)
    (hq : q.generators = node :: rest') :
    q.currentMovementGenerator = p.currentMovementGenerator := by
  rw [currentMovementGenerator, currentMovementGenerator, hp, hq]

theorem Filed.take (h : p.Filed) (hgen : p.generators = before ++ (k, [g]) :: rest) :
    Filed { p with generators := before ++ rest } := by
  have hsub : (before ++ rest).Sublist p.generators := by
    rw [hgen]
    exact (List.Sublist.refl _).append (List.sublist_cons_self _ _)
  exact ⟨h.sorted.sublist hsub, fun node hnode => h.single node (hsub.subset hnode)⟩

theorem Invariant.take (h : Invariant fresh hand dying regs p)
    (hgen : p.generators = before ++ (k, [g]) :: rest) :
    Invariant fresh (g :: hand) dying regs { p with generators := before ++ rest } := by
  have hperm := activeGenerators_of_split hgen
  have haccounted : Accounted (fresh ++ g :: hand) dying { p with generators := before ++ rest } := by
    refine h.accounted.pass rfl rfl (fun _ => rfl) ?_
    intro x _
    have hcount := hperm.count_eq x
    rw [List.count_cons] at hcount
    rw [List.count_append, List.count_append, List.count_cons]
    show _ + (p.pendingAdds.count x + p.defaultGenerator.toList.count x +
      ((before ++ rest).flatMap Prod.snd).count x) = _ + _ + (_ + _ + p.activeGenerators.count x)
    omega
  refine ⟨h.filed.take hgen, haccounted, h.registered, ?_⟩
  refine ⟨h.calm.kind, h.calm.pending, h.calm.deactivated, h.calm.fresh, ?_⟩
  intro x hx hne himm hawake
  have hx' : p.defaultGenerator = some x ∨ x ∈ p.activeGenerators :=
    hx.imp_right fun hmem => hperm.mem_iff.mpr (List.mem_cons_of_mem _ hmem)
  have hcurrent := h.calm.rest x hx' hne himm hawake
  cases before with
  | nil =>
    -- the current generator is the one taken out, which has no other owner
    rw [currentMovementGenerator_of_cons hgen] at hcurrent
    cases hcurrent
    have haccount := haccounted.account g hne
    rw [List.count_append, List.count_cons_self] at haccount
    have hpos : 0 < holds { p with generators := [] ++ rest } g := by
      grind [holds_of_active, holds_of_default]
    split at haccount
    · omega
    · omega
  | cons node before =>
    rw [← hcurrent]
    exact currentMovementGenerator_congr hgen rfl

/-- `_Remove` -/
theorem Invariant.removeGenerator (h : Invariant fresh hand dying p.activeGenerators p)
    (hgen : p.generators = before ++ (k, [g]) :: rest) :
    ∃ e, p.removeGenerator k g = some (after { p with generators := before ++ rest } e) ∧
      Invariant fresh hand dying ((before ++ rest).flatMap Prod.snd)
        (after { p with generators := before ++ rest } e) := by
  have htake := h.take hgen
  have hreg := htake.registered.perm (activeGenerators_of_split hgen)
  have hsorted := h.filed.sorted
  rw [hgen] at hsorted
  have herase : p.erase k g = { p with generators := before ++ rest } := by
    unfold erase
    rw [hgen, eraseFrom_split hsorted]
  rw [MotionMaster.removeGenerator, herase]
  apply Invariant.delete ⟨htake.filed, htake.accounted, hreg, htake.calm⟩
  intro hne hmem
  have hholds := htake.holds_of_hand hne
  have hpos : 0 < holds { p with generators := before ++ rest } g := holds_of_active hmem
  omega

theorem Invariant.pop (h : Invariant fresh hand dying p.activeGenerators p)
    {node : (Nat × Nat) × List Address} (hgen : p.generators = node :: rest) :
    ∃ e, p.pop = some (after { p with generators := rest } e) ∧
      Invariant fresh hand dying (rest.flatMap Prod.snd)
        (after { p with generators := rest } e) := by
  obtain ⟨g, hg, -⟩ := h.filed.single node (by rw [hgen]; exact List.mem_cons_self)
  have hnode : node = (node.1, [g]) := Prod.ext rfl hg
  rw [hnode] at hgen
  obtain ⟨e, he, hinv⟩ := @removeGenerator _ _ _ _ _ [] _ _ h hgen
  refine ⟨e, ?_, hinv⟩
  rw [MotionMaster.pop, hgen]
  exact he

/-- The loop of `_DirectClear` empties the map. -/
theorem Invariant.popAll {n : Nat} (h : Invariant fresh hand dying p.activeGenerators p)
    (hn : p.generators.length ≤ n) :
    ∃ e, MotionMaster.popAll n p = some (after { p with generators := [] } e) ∧
      Invariant fresh hand dying [] (after { p with generators := [] } e) := by
  induction n generalizing p with
  | zero =>
    have hgen : p.generators = [] := List.length_eq_zero_iff.mp (by omega)
    have hp : p = after { p with generators := [] } p.effects := by
      rw [← hgen]
      rfl
    grind [activeGenerators, MotionMaster.popAll]
  | succ n ih =>
    cases hgen : p.generators with
    | nil =>
      have hp : p = after { p with generators := [] } p.effects := by
        rw [← hgen]
        rfl
      grind [activeGenerators, MotionMaster.popAll]
    | cons node rest =>
      obtain ⟨e, he, hinv⟩ := h.pop hgen
      have hlen : rest.length ≤ n := by
        rw [hgen, List.length_cons] at hn
        omega
      obtain ⟨e', he', hinv'⟩ := ih (p := after { p with generators := rest } e) hinv hlen
      refine ⟨e', ?_, hinv'⟩
      rw [MotionMaster.popAll, hgen, he]
      exact he'

theorem length_flatMap_of_single {l : MotionMasterContainer}
    (h : ∀ node ∈ l, ∃ g, node.2 = [g]) : (l.flatMap Prod.snd).length = l.length := by
  induction l with
  | nil => rfl
  | cons node l ih =>
    grind [List.mem_cons_self]

theorem Filed.length_activeGenerators (h : p.Filed) :
    p.activeGenerators.length = p.generators.length := by
  apply length_flatMap_of_single
  intro node hnode
  obtain ⟨g, hg, -⟩ := h.single node hnode
  exact ⟨g, hg⟩

theorem Invariant.directClear (h : Invariant fresh hand dying p.activeGenerators p) :
    ∃ e, p.directClear = some (after { p with generators := [] } e) ∧
      Invariant fresh hand dying [] (after { p with generators := [] } e) := by
  obtain ⟨e, he, hinv⟩ := h.popAll h.filed.length_activeGenerators.ge
  rw [MotionMaster.directClear, he]
  exact ⟨⟨e.heap, [], _⟩, rfl, hinv.setStates (List.Perm.refl _)⟩

/-! ## The default slot -/

theorem Invariant.cons_idle (h : Invariant fresh hand dying regs p) :
    Invariant (idleGenerator :: fresh) hand dying regs p := by
  refine ⟨h.filed, ?_, h.registered, ?_⟩
  · apply h.accounted.pass rfl rfl fun _ => rfl
    intro x hx
    rw [List.cons_append, List.count_cons_of_ne (Ne.symm hx)]
  · refine ⟨h.calm.kind, h.calm.pending, h.calm.deactivated, ?_, h.calm.rest⟩
    intro x hx hne
    apply h.calm.fresh x _ hne
    obtain hx | hx := hx
    · exact Or.inl ((List.mem_cons.mp hx).resolve_left hne)
    · exact Or.inr hx

theorem Invariant.replaceDefault {static : Bool} (h : Invariant (d :: fresh) hand dying regs p) :
    Invariant fresh (p.defaultGenerator.toList ++ hand) dying regs
      { p with defaultGenerator := some d, staticInitializationPending := static } := by
  refine ⟨h.filed.congr rfl fun _ => rfl, ?_, h.registered, ?_⟩
  · refine h.accounted.pass rfl rfl (fun _ => rfl) ?_
    intro x _
    rw [List.count_append, List.count_append, List.cons_append, List.count_cons, List.count_append]
    show _ + (p.pendingAdds.count x + (some d).toList.count x + p.activeGenerators.count x) =
      _ + (_ + p.defaultGenerator.toList.count x + _)
    rw [Option.toList_some, List.count_cons, List.count_nil]
    omega
  · refine ⟨h.calm.kind, h.calm.pending, h.calm.deactivated, ?_, ?_⟩
    · intro x hx
      exact h.calm.fresh x (hx.imp_left (List.mem_cons_of_mem _))
    · intro x hx hne himm hawake
      obtain hx | hx := hx
      · cases hx
        have hinit := h.calm.fresh d (Or.inl List.mem_cons_self) hne himm
        unfold MovementGenerator.awake at hawake
        rw [hinit] at hawake
        cases hawake
      · have hcurrent := h.calm.rest x (Or.inr hx) hne himm hawake
        cases hgen : p.generators with
        | nil =>
          rw [hgen] at hx
          cases hx
        | cons node rest =>
          rw [← hcurrent]
          exact currentMovementGenerator_congr hgen rfl

theorem Invariant.finalizeDefault {static : Bool} (h : Invariant (d :: fresh) hand dying regs p)
    (hg : p.defaultGenerator = some g) :
    ∃ e, (do
      let q ← p.finalizeHook g
      MotionMaster.pointerDeleter
        { q with defaultGenerator := some d, staticInitializationPending := static } g) =
        some (after { p with
          defaultGenerator := some d, staticInitializationPending := static } e) ∧
      Invariant fresh hand dying regs
        (after { p with defaultGenerator := some d, staticInitializationPending := static } e) := by
  have hinv := @replaceDefault _ _ _ _ _ _ static h
  rw [hg] at hinv
  obtain ⟨he, h₁⟩ := @finalizeHook _ hand _ _ _ _ hinv
  obtain ⟨e, he', h₂⟩ := h₁.pointerDeleter
  refine ⟨e, ?_, h₂⟩
  have hdeletes : (p.heap g).deletes = 0 :=
    h.accounted.deletes_of_owned (Nat.add_pos_right _ (holds_of_default hg))
  rw [MotionMaster.finalizeHook, modify_of_deletes hdeletes]
  exact he'

theorem Invariant.directClearDefault (h : Invariant fresh hand dying regs p) :
    ∃ e d b, p.directClearDefault =
        some (after { p with defaultGenerator := d, staticInitializationPending := b } e) ∧
      Invariant fresh hand dying regs
        (after { p with defaultGenerator := d, staticInitializationPending := b } e) ∧
      (p.defaultGenerator.isSome → d.isSome) := by
  cases hdefault : p.defaultGenerator with
  | none =>
    have hp : after { p with defaultGenerator := none } p.effects = p := by
      rw [← hdefault]
      rfl
    grind [MotionMaster.directClearDefault]
  | some g =>
    obtain ⟨e, he, hinv⟩ := @finalizeDefault _ _ _ _ _ _ _ true h.cons_idle hdefault
    refine ⟨e, some idleGenerator, true, ?_, hinv, fun _ => rfl⟩
    rw [MotionMaster.directClearDefault, hdefault]
    exact he

theorem Invariant.directAddDefault (h : Invariant (d :: fresh) hand dying regs p) :
    ∃ e b, p.directAddDefault d =
        some (after { p with defaultGenerator := some d, staticInitializationPending := b } e) ∧
      Invariant fresh hand dying regs
        (after { p with defaultGenerator := some d, staticInitializationPending := b } e) := by
  cases hdefault : p.defaultGenerator with
  | none =>
    have hinv := @replaceDefault _ _ _ _ _ _ (p.staticInitializationPending || isStatic d) h
    rw [hdefault] at hinv
    refine ⟨p.effects, _, ?_, hinv⟩
    rw [MotionMaster.directAddDefault, hdefault]
    rfl
  | some g =>
    obtain ⟨e, he, hinv⟩ :=
      @finalizeDefault _ _ _ _ _ _ _ (p.staticInitializationPending || isStatic d) h hdefault
    refine ⟨e, _, ?_, hinv⟩
    have hdeletes : (p.heap g).deletes = 0 :=
      h.accounted.deletes_of_owned (Nat.add_pos_right _ (holds_of_default hdefault))
    rw [MotionMaster.finalizeHook, modify_of_deletes hdeletes] at he
    rw [MotionMaster.directAddDefault, hdefault]
    show (do (← p.finalizeHook g).setDefault d |>.pointerDeleter g) = _
    rw [MotionMaster.finalizeHook, modify_of_deletes hdeletes]
    exact he

end MotionMaster

end EGServer.Movement
