import EGServer.Combat.Audience

/-!
# The heap keeps its order

A heap that is told of a change in the wrong direction, or not at all, loses its order.
Every notification is honest in every run whose updates of temporary modifiers are honest
(`honestRun_heap`); then the heap has seen every key, so if it iterates in the order of the
keys it has seen, the threat list is sorted and its top is a maximum.

`UpdateMyTempModifiers` decides on a direction by its first reference and announces it for
all of them; a reference created after the aura still has modifier `0`, and the direction
can be wrong for it.
-/

set_option linter.unusedSectionVars false

namespace EGServer.Combat

open StateExcept

variable {U F : Type} [DecidableEq U] [RoundedArith F]

/-! ## Runs over threat lists -/

/-- A call into the managers, or into one of their references. -/
inductive HeapOp (U F : Type) where
  | call (op : Op U F)
  | updateOffline (owner victim : U)
  | updateTauntState (owner victim : U) (state : Nat)

/-- Call `f` on the threat reference of two units, if there is one. -/
def withThreat (owner victim : U) (f : ThreatId → ThreatM U F Unit) : ThreatM U F Unit := do
  match (← get).myThreat owner victim with
  | none => pure ()
  | some id => f id

/-- Whoever calls `UpdateOffline` has to process the AI updates before leaving the manager. -/
def HeapOp.exec (env : Env U F) (ai : AI U F) : HeapOp U F → WorldM U F Unit
  | .call op => Combat.exec env ai op
  | .updateOffline owner victim => do
    onThreat (withThreat owner victim (ThreatReference.updateOffline env))
    processAIUpdates env ai owner
  | .updateTauntState owner victim state =>
    onThreat (withThreat owner victim fun id => ThreatReference.updateTauntState env id state)

/-- The condition under which an operation announces the right directions, before it runs. -/
def HonestHeapOp (env : Env U F) : HeapOp U F → World U F → Prop
  | .call op, w => HonestOp env op w
  | _, _ => True

/-- A run each of whose steps is honest in the state before it. -/
inductive HonestRun : World U F → World U F → Prop
  | nil (w : World U F) : HonestRun w w
  | cons (env : Env U F) (op : HeapOp U F) {w w' w'' : World U F} : HonestHeapOp env op w →
      (op.exec env silentAI).run w = .ok ((), w') → HonestRun w' w'' → HonestRun w w''

variable {env : Env U F} {E : Abort → Prop} {w w' : World U F}

theorem updateOffline_world_spec (inv : WorldInv False w) (owner victim : U) :
    wp E ((HeapOp.updateOffline owner victim).exec env silentAI) w fun _ w' =>
      Ended False w w' := by
  simp only [HeapOp.exec, onThreat, withThreat, wp_bind, wp_zoom, wp_get]
  split
  · refine (processAIUpdates_spec silentAI_contract (inv.withProcessed owner)).mono fun _ _ h => ?_
    exact ⟨h.inv, fun hh => by rw [h.threat]; exact hh.processed owner⟩
  · next id hid =>
    obtain ⟨r, hr, ho, -⟩ := inv.threat.live hid
    refine (ThreatReference.updateOffline_spec inv.threat hr ho).mono ?_
    rintro _ t₁ ⟨hup, _⟩
    have inv₁ : WorldInv False { w with threat := t₁.processed owner } :=
      inv.withThreat ((inv.threat.of_sameLists hup.toSameLists).processed owner)
        (fun a z i hi => by rw [← hup.myThreat]; exact hi)
        (t₁.processed_needs owner fun z hz => (hup.needsOther z hz).trans (inv.processed z))
    refine (processAIUpdates_spec (w := { w with threat := t₁ }) silentAI_contract inv₁).mono ?_
    exact fun _ w₂ h => ⟨h.inv, fun hh => by rw [h.threat]; exact (hup.heapInv hh).processed owner⟩

/-- **The step lemma**: an honest operation keeps the heaps informed. -/
theorem HeapOp.exec_spec (hE : E .outOfFuel) (inv : WorldInv False w) (hheap : HeapInv w.threat)
    (op : HeapOp U F) (hon : HonestHeapOp env op w) :
    wp E (op.exec env silentAI) w fun _ w' => WorldInv False w' ∧ HeapInv w'.threat := by
  cases op with
  | call op =>
    have hun : Unheard False (silentAI : AI U F) := ⟨fun h => h, rfl⟩
    exact (Combat.exec_spec silentAI_contract hE inv op (Or.inl hun)).mono fun _ _ h =>
      ⟨h.1, h.2 hon hheap⟩
  | updateOffline owner victim =>
    exact (updateOffline_world_spec inv owner victim).mono fun _ _ h => ⟨h.inv, h.heapInv hheap⟩
  | updateTauntState owner victim state =>
    refine (onThreat_adjusted inv ?_).mono fun _ _ h => ⟨h.inv, h.heapInv hheap⟩
    simp only [withThreat, wp_bind, wp_get]
    split
    · exact Adjusted.refl _
    · next id hid =>
      obtain ⟨r, hr, -⟩ := inv.threat.live hid
      exact ThreatReference.updateTauntState_spec inv.threat hr state

/-- **The run lemma.** -/
theorem HonestRun.inv (h : HonestRun w w') (inv : WorldInv False w) (hheap : HeapInv w.threat) :
    WorldInv False w' ∧ HeapInv w'.threat := by
  induction h with
  | nil w => exact ⟨inv, hheap⟩
  | cons env op hon hrun _ ih =>
    obtain ⟨inv', hheap'⟩ :=
      (HeapOp.exec_spec (E := (· = .outOfFuel)) rfl inv hheap _ hon).of_ok hrun
    exact ih inv' hheap'

/-! ## What an informed heap is good for -/

/-- What boost's `fibonacci_heap` promises: as long as every `increase` and `decrease` was
called rightly, ordered iteration goes down the keys that the heap was told of. -/
def HeapContract (env : Env U F) : Prop :=
  ∀ (t : ThreatState U F) (u : U), (∀ n ∈ t.notifications, Honest n.direction n.seen n.now) →
    (env.heapOrder t u).Pairwise fun i j => ∀ ki kj, (i, ki) ∈ t.sorted u → (j, kj) ∈ t.sorted u →
      ki.lt kj = false

/-- `i` is not lower on the threat list than `j`, by what the references are now. -/
def NotLower (t : ThreatState U F) (i j : ThreatId) : Prop :=
  ∀ ri rj, t.threats i = some ri → t.threats j = some rj → ri.key.lt rj.key = false

theorem Key.lt_irrefl (k : Key F) : k.lt k = false := by
  simp [Key.lt, compareReferencesLT, RoundedArith.mul_one]

theorem HeapInv.pairwise {t : ThreatState U F} (hheap : HeapInv t) (hc : HeapContract env) (u : U) : (env.heapOrder t u).Pairwise (NotLower t) := by
  have hkey : ∀ i ∈ env.heapOrder t u, ∀ r, t.threats i = some r → (i, r.key) ∈ t.sorted u := by
    intro i hi r hr
    have hmem := (env.heapOrder_perm t u).mem_iff.mp hi
    obtain ⟨⟨j, k⟩, he, rfl⟩ := List.mem_map.mp hmem
    obtain ⟨q, hq, hk⟩ := hheap.seen he
    rw [hr] at hq
    cases hq
    cases hk
    exact he
  refine (hc t u hheap.honest).imp_of_mem fun {i j} hi hj h ri rj hri hrj => ?_
  exact h _ _ (hkey i hi ri hri) (hkey j hj rj hrj)

/-- The rogue is under `SPELL_AURA_MOD_TOTAL_THREAT` effects of the given sum. -/
def Env.aura (sum : Int) : Env Fighter ℚ :=
  { Env.arena with threatAuras := fun u => if u = .rogue then [sum] else [] }

/-- The rogue fights the boss under an aura of `50`. -/
def auraOnOne : Step Fighter ℚ × Step Fighter ℚ :=
  (⟨.aura 50, .addThreat .boss .rogue 5 none true true⟩, ⟨.aura 50, .updateMyTempModifiers .rogue⟩)

/-- Then the tank turns on it too, and the aura weakens to `20`. -/
def auraOnTwo : List (Step Fighter ℚ) :=
  [auraOnOne.1, auraOnOne.2, ⟨.aura 50, .addThreat .tank .rogue 5 none true true⟩,
   ⟨.aura 20, .updateMyTempModifiers .rogue⟩]

end EGServer.Combat

/-!
# The rule of victim selection

`ReselectVictim` looks at the top of the heap and, where that does not settle it, walks down
the ordered iteration until it can stop. What it decides is a rule about the whole list
(`ByRule`): a fixated target comes first, an old victim stays until some reference beats it,
at 130 % of its threat or at 110 % within melee range, and the highest of those that do takes
its place.

Each early stop is one fact about the order: a reference that is not lower on the list than
another beats whatever the other beats. The arithmetic is exact here; a weight of more than
one may round to nothing otherwise.
-/

set_option linter.unusedSectionVars false

namespace EGServer.Combat

open StateExcept

variable {U : Type} [DecidableEq U] {env : Env U ℚ} {E : Abort → Prop}
variable {t : ThreatState U ℚ} {u : U} {old top id next : ThreatId}

/-! ## The rule -/

/-- A live reference that is not offline. -/
def ThreatState.available (t : ThreatState U ℚ) (id : ThreatId) : Bool :=
  (t.threats id).any (·.isAvailable)

/-- The reference is high enough to take the place of the old victim. -/
def ThreatReference.beats (env : Env U ℚ) (u : U) (old r : ThreatReference U ℚ) : Bool :=
  compareReferencesLT old.key r.key WEIGHT_130 ||
    (compareReferencesLT old.key r.key WEIGHT_110 && env.isWithinMeleeRange u r.victim)

def ThreatState.beats (env : Env U ℚ) (t : ThreatState U ℚ) (u : U) (old id : ThreatId) : Bool :=
  (t.threats old).any fun o => (t.threats id).any fun r => o.beats env u r

/-- **The rule** by which a victim is chosen from a threat list. -/
def ByRule (env : Env U ℚ) (t : ThreatState U ℚ) (u : U) (victim : Option ThreatId) : Prop :=
  match (t.fixate u).filter t.available with
  | some fixated => victim = some fixated
  | none =>
    if ¬(env.heapOrder t u).any t.available then victim = none
    else
      match (t.currentVictim u).filter t.available with
      | none =>
        ∃ id ∈ env.heapOrder t u, victim = some id ∧ ∀ j ∈ env.heapOrder t u, NotLower t id j
      | some old => victim = some (((env.heapOrder t u).find? (t.beats env u old)).getD old)

/-! ## The order of keys -/

theorem OnlineState.toNat_inj {a b : OnlineState} : a.toNat = b.toNat ↔ a = b := by
  cases a <;> cases b <;> decide

theorem compareReferencesLT_iff {a b : Key ℚ} {w : ℚ} :
    compareReferencesLT a b w = true ↔
      a.online.toNat < b.online.toNat ∨ a.online.toNat = b.online.toNat ∧
        (a.taunted < b.taunted ∨ a.taunted = b.taunted ∧ a.threat * w < b.threat) := by
  grind [OnlineState.toNat_inj, compareReferencesLT]

theorem Key.lt_eq_false_iff {a b : Key ℚ} :
    a.lt b = false ↔
      ¬(a.online.toNat < b.online.toNat ∨ a.online.toNat = b.online.toNat ∧
        (a.taunted < b.taunted ∨ a.taunted = b.taunted ∧ a.threat < b.threat)) := by
  rw [← Bool.not_eq_true, Key.lt, compareReferencesLT_iff, MulOneClass.mul_one]

theorem compareReferencesLT_mono {k a b : Key ℚ} {w : ℚ} (h : compareReferencesLT k b w = true)
    (hab : a.lt b = false) : compareReferencesLT k a w = true := by
  rw [compareReferencesLT_iff] at h ⊢
  rw [Key.lt_eq_false_iff] at hab
  grind

theorem compareReferencesLT_weaken {k a : Key ℚ} {w w' : ℚ} (hk : 0 ≤ k.threat) (hw : w ≤ w')
    (h : compareReferencesLT k a w' = true) : compareReferencesLT k a w = true := by
  have hle : k.threat * w ≤ k.threat * w' := RoundedArith.mul_le_mul_left hk hw
  rw [compareReferencesLT_iff] at h ⊢
  grind

theorem compareReferencesLT_of_notLower {k a : Key ℚ} {w : ℚ} (hk : 0 ≤ k.threat) (hw : 1 ≤ w)
    (h : k.lt a = false) : compareReferencesLT k a w = false := by
  have hle : k.threat ≤ k.threat * w := RoundedArith.le_mul_of_one_le hk hw
  rw [← Bool.not_eq_true, compareReferencesLT_iff]
  rw [Key.lt_eq_false_iff] at h
  grind

theorem ThreatReference.threat_nonneg (r : ThreatReference U ℚ) : 0 ≤ r.key.threat :=
  le_max_right _ _

theorem weight_110 : (1 : ℚ) ≤ WEIGHT_110 := by
  show (1 : ℚ) ≤ ((110 : Int) : ℚ) / ((100 : Int) : ℚ)
  norm_num

theorem weight_130 : (WEIGHT_110 : ℚ) ≤ WEIGHT_130 := by
  show ((110 : Int) : ℚ) / ((100 : Int) : ℚ) ≤ ((130 : Int) : ℚ) / ((100 : Int) : ℚ)
  norm_num

/-! ## Where the walk may stop -/

section walk

variable {o r : ThreatReference U ℚ}

theorem ThreatReference.beats_of_not_110 (h : compareReferencesLT o.key r.key WEIGHT_110 = false) :
    o.beats env u r = false := by
  have h130 : compareReferencesLT o.key r.key WEIGHT_130 = false := by
    rw [← Bool.not_eq_true] at h ⊢
    exact fun h' => h (compareReferencesLT_weaken o.threat_nonneg weight_130 h')
  rw [beats, h, h130]
  rfl

theorem ThreatState.beats_eq (ho : t.threats old = some o) (hr : t.threats id = some r) :
    t.beats env u old id = o.beats env u r := by
  rw [beats, ho, Option.any_some, hr, Option.any_some]

theorem find?_beats_of_not_110 {l : List ThreatId} (ho : t.threats old = some o)
    (hr : t.threats next = some r) (hlive : ∀ id ∈ l, ∃ r, t.threats id = some r)
    (hsorted : ∀ id ∈ l, NotLower t next id)
    (h : compareReferencesLT o.key r.key WEIGHT_110 = false) :
    (next :: l).find? (t.beats env u old) = none := by
  apply List.find?_eq_none.mpr
  intro id hid
  rw [Bool.not_eq_true]
  rcases List.mem_cons.mp hid with rfl | hid
  · rw [ThreatState.beats_eq ho hr]
    exact ThreatReference.beats_of_not_110 h
  · obtain ⟨q, hq⟩ := hlive id hid
    rw [ThreatState.beats_eq ho hq]
    apply ThreatReference.beats_of_not_110
    rw [← Bool.not_eq_true] at h ⊢
    exact fun h' => h (compareReferencesLT_mono h' (hsorted id hid r q hr hq))

theorem find?_beats_self {l : List ThreatId} (ho : t.threats old = some o)
    (hlive : ∀ id ∈ l, ∃ r, t.threats id = some r) (hsorted : ∀ id ∈ l, NotLower t old id) :
    (old :: l).find? (t.beats env u old) = none :=
  find?_beats_of_not_110 ho ho hlive hsorted
    (compareReferencesLT_of_notLower o.threat_nonneg weight_110 (Key.lt_irrefl _))

/-- **The walk finds the first reference that beats the old victim**, when none exceeds
130 %; it passes the old victim at the latest. -/
theorem selectMelee_rule (ho : t.threats old = some o) (l : List ThreatId)
    (hlive : ∀ id ∈ l, ∃ r, t.threats id = some r) (hsorted : l.Pairwise (NotLower t))
    (hmem : old ∈ l)
    (h130 : ∀ id ∈ l, ∀ r, t.threats id = some r →
      compareReferencesLT o.key r.key WEIGHT_130 = false) :
    wp E (selectMelee env u old l) t fun res t' =>
      t' = t ∧ res = some ((l.find? (t.beats env u old)).getD old) := by
  induction l with
  | nil => simp at hmem
  | cons next l ih =>
    have hlive' : ∀ id ∈ l, ∃ r, t.threats id = some r :=
      fun id hid => hlive id (List.mem_cons_of_mem _ hid)
    obtain ⟨hnext, hsorted'⟩ := List.pairwise_cons.mp hsorted
    obtain ⟨r, hr⟩ := hlive next (List.mem_cons_self ..)
    rw [selectMelee]
    apply wp_ite
    · intro heq
      subst heq
      refine ⟨rfl, ?_⟩
      rw [find?_beats_self ho hlive' hnext]
      rfl
    · intro hne
      simp only [wp_bind]
      refine wp_derefThreat ho (wp_derefThreat hr (wp_ite ?_ ?_))
      · intro h110
        refine ⟨rfl, ?_⟩
        rw [find?_beats_of_not_110 ho hr hlive' hnext (by simpa using h110)]
        rfl
      · intro h110
        have hbeats : t.beats env u old next = env.isWithinMeleeRange u r.victim := by
          have h110' : compareReferencesLT o.key r.key WEIGHT_110 = true := by simpa using h110
          rw [ThreatState.beats_eq ho hr, ThreatReference.beats,
            h130 next (List.mem_cons_self ..) r hr, h110', Bool.false_or, Bool.true_and]
        apply wp_ite
        · intro hmelee
          refine ⟨rfl, ?_⟩
          rw [List.find?_cons_of_pos (by rw [hbeats, hmelee])]
          rfl
        · grind

end walk

/-! ## The selection -/

theorem ThreatState.available_eq {r : ThreatReference U ℚ} (hr : t.threats id = some r) :
    t.available id = r.isAvailable := by
  rw [available, hr, Option.any_some]

theorem availableRef_rule (wf : ThreatWF t) {ref : Option ThreatId}
    (h : ∀ id, ref = some id → InList t u id) :
    wp E (availableRef ref) t fun res t' => t' = t ∧ res = ref.filter t.available := by
  cases ref with
  | none => exact ⟨rfl, rfl⟩
  | some id =>
    obtain ⟨r, hr⟩ := wf.live_inList (h id rfl)
    simp only [availableRef, wp_bind]
    refine wp_derefThreat hr ⟨rfl, ?_⟩
    rw [Option.filter_some, ThreatState.available_eq hr]

theorem available_of_notLower {a b : ThreatReference U ℚ} (h : a.key.lt b.key = false)
    (hb : b.isAvailable = true) : a.isAvailable = true := by
  rw [Key.lt_eq_false_iff] at h
  have hle : b.online.toNat ≤ a.online.toNat := by
    by_contra hlt
    exact h (.inl (Nat.lt_of_not_le hlt))
  simp only [ThreatReference.isAvailable, decide_eq_true_eq] at hb ⊢
  intro ha
  rw [ha] at hle
  exact hb (OnlineState.toNat_inj.mp (Nat.le_zero.mp hle))

theorem any_available_iff {l : List ThreatId} {r : ThreatReference U ℚ}
    (hr : t.threats top = some r) (hlive : ∀ id ∈ l, ∃ r, t.threats id = some r)
    (hsorted : ∀ id ∈ l, NotLower t top id) :
    (top :: l).any t.available = r.isAvailable := by
  rw [List.any_cons, ThreatState.available_eq hr]
  cases ha : r.isAvailable with
  | true => rfl
  | false =>
    rw [Bool.false_or, List.any_eq_false]
    intro id hid hav
    obtain ⟨q, hq⟩ := hlive id hid
    rw [ThreatState.available_eq hq] at hav
    rw [available_of_notLower (hsorted id hid r q hr hq) hav] at ha
    cases ha

/-- **The selection follows the rule** on a heap that iterates in order. -/
theorem selectVictim_rule (wf : ThreatWF t) (hsorted : (env.heapOrder t u).Pairwise (NotLower t)) :
    wp E (selectVictim env u) t fun res t' => t' = t ∧ ByRule env t u res := by
  unfold selectVictim ByRule
  simp only [wp_bind, wp_get]
  apply (availableRef_rule (u := u) wf fun id => wf.fixated).mono
  intro fixated t' hfix
  obtain ⟨ht, hfix⟩ := hfix
  subst ht
  rw [← hfix]
  cases fixated with
  | some fixated => exact ⟨rfl, rfl⟩
  | none =>
    simp only [wp_bind]
    apply (availableRef_rule (u := u) wf fun id => wf.victim).mono
    intro oldVictim t'' hold
    obtain ⟨ht, hold⟩ := hold
    subst ht
    rw [← hold]
    have hlive : ∀ id ∈ env.heapOrder t'' u, ∃ r, t''.threats id = some r :=
      fun id hid => wf.live_inList (wf.mem_heapOrder.mp hid)
    have hin : ∀ id, oldVictim = some id → id ∈ env.heapOrder t'' u := by
      intro id hid
      rw [hold, Option.filter_eq_some_iff] at hid
      exact wf.mem_heapOrder.mpr (wf.victim hid.1)
    generalize env.heapOrder t'' u = order at hsorted hlive hin
    cases order with
    | nil => exact ⟨rfl, rfl⟩
    | cons highest rest =>
      have hrest : ∀ id ∈ rest, ∃ r, t''.threats id = some r :=
        fun id hid => hlive id (List.mem_cons_of_mem _ hid)
      obtain ⟨top, htop⟩ := hlive highest (List.mem_cons_self ..)
      have hbelow := (List.pairwise_cons.mp hsorted).1
      rw [any_available_iff htop hrest hbelow]
      simp only [wp_bind]
      refine wp_derefThreat htop (wp_ite ?_ ?_)
      · intro hoff
        simp only [Bool.not_eq_true'] at hoff
        simp only [hoff, Bool.false_eq_true, not_false_eq_true, if_true]
        exact ⟨rfl, rfl⟩
      · intro hon
        simp only [Bool.not_eq_true', Bool.not_eq_false] at hon
        simp only [hon, not_true_eq_false, if_false]
        cases oldVictim with
        | none =>
          refine ⟨rfl, highest, List.mem_cons_self .., rfl, ?_⟩
          intro j hj
          rcases List.mem_cons.mp hj with rfl | hj
          · intro ri rj hri hrj
            rw [hri] at hrj
            cases hrj
            exact Key.lt_irrefl _
          · exact hbelow j hj
        | some old =>
          obtain ⟨o, ho⟩ := hlive old (hin old rfl)
          simp only [wp_bind]
          refine wp_derefThreat ho (wp_ite ?_ fun hne => wp_ite ?_ fun h110 => ?_)
          · intro heq
            subst heq
            rw [find?_beats_self ho hrest hbelow]
            exact ⟨rfl, rfl⟩
          · intro h110
            rw [find?_beats_of_not_110 ho htop hrest hbelow (by simpa using h110)]
            exact ⟨rfl, rfl⟩
          have hbeats : t''.beats env u old highest = (o.beats env u top) :=
            ThreatState.beats_eq ho htop
          refine wp_ite ?_ fun h130 => wp_ite ?_ fun hmelee => ?_
          · intro h130
            rw [List.find?_cons_of_pos (by rw [hbeats, ThreatReference.beats, h130]; rfl)]
            exact ⟨rfl, rfl⟩
          · intro hmelee
            have h110' : compareReferencesLT o.key top.key WEIGHT_110 = true := by simpa using h110
            rw [List.find?_cons_of_pos
              (by rw [hbeats, ThreatReference.beats, h110', hmelee, Bool.and_self, Bool.or_true])]
            exact ⟨rfl, rfl⟩
          · apply selectMelee_rule ho _ hlive hsorted (hin old rfl)
            intro id hid r hr
            rw [Bool.not_eq_true] at h130
            rcases List.mem_cons.mp hid with rfl | hid
            · rw [htop] at hr
              cases hr
              exact h130
            · rw [← Bool.not_eq_true] at h130 ⊢
              exact fun h => h130 (compareReferencesLT_mono h (hbelow id hid top r htop hr))

instance (t : ThreatState U ℚ) (i j : ThreatId) : Decidable (NotLower t i j) :=
  decidable_of_iff ((t.threats i).all fun ri => (t.threats j).all fun rj => !ri.key.lt rj.key) <| by
    cases hi : t.threats i <;> cases hj : t.threats j <;> simp [NotLower, hi, hj]

/-- **`ReselectVictim` follows the rule.** The refresh of the online states returns, with every
reference of the list offline exactly if it should be; and when the heap iterates in order
then, the whole call returns, with the victim that the rule names. -/
theorem reselectVictim_byRule (wf : ThreatWF t) :
    ∃ t', (forEach (t.refsOf env .myThreatList u) (ThreatReference.updateOffline env)).run t =
        .ok ((), t') ∧
      (∀ id r, t'.threats id = some r → r.owner = u →
        r.isOffline = env.shouldBeOffline r.owner r.victim) ∧
      ((env.heapOrder t' u).Pairwise (NotLower t') →
        ∃ victim, (reselectVictim env u).run t = .ok (victim, t') ∧ ByRule env t' u victim) := by
  have hspec : wp (fun _ => False)
      (forEach (t.refsOf env .myThreatList u) (ThreatReference.updateOffline env)) t fun _ t' =>
        OnlineUpdated env u t t' ∧
          ∀ id r, t'.threats id = some r → r.owner = u → Settled env t' id :=
    forEach_updateOffline_spec wf u
  obtain ⟨_, t', hrun, hup, hset⟩ := hspec.returns
  have wf' : ThreatWF t' := wf.of_sameLists hup.toSameLists
  refine ⟨t', hrun, fun id r hr ho => hset id r hr ho r hr, fun hsorted => ?_⟩
  have hselect : wp (fun _ => False) (reselectVictim env u) t fun victim t'' =>
      t'' = t' ∧ ByRule env t' u victim := by
    unfold reselectVictim
    simp only [wp_bind, wp_get]
    apply wp_ite
    · intro hempty
      -- an empty heap is an empty list: there is nothing to refresh
      have hlist : ∀ id, ¬InList t u id := by
        intro id hid
        have hmem := (wf.heap u id).mpr hid
        rw [List.isEmpty_iff.mp hempty] at hmem
        simp at hmem
      have hrefs : t.refsOf env .myThreatList u = [] :=
        List.eq_nil_iff_forall_not_mem.mpr fun id hid => hlist id (mem_refsOf.mp hid)
      rw [hrefs] at hrun
      cases hrun
      have horder : env.heapOrder t u = [] :=
        List.eq_nil_iff_forall_not_mem.mpr fun id hid => hlist id (wf.mem_heapOrder.mp hid)
      have hfix : t.fixate u = none :=
        Option.eq_none_iff_forall_not_mem.mpr fun id hid => hlist id (wf.fixated hid)
      refine ⟨rfl, ?_⟩
      rw [ByRule, hfix, horder]
      rfl
    · intro _
      simp only [wp_bind, wp_get]
      rw [wp_of_run_ok hrun]
      exact selectVictim_rule wf' hsorted
  obtain ⟨victim, t'', hvictim, ht, hrule⟩ := hselect.returns
  subst ht
  exact ⟨victim, hvictim, hrule⟩

/-- The boss turns from the tank to the rogue, which has more than 130 % of its threat. -/
theorem reselectVictim_byRule_rogue :
    ∃ t : ThreatState Fighter ℚ, t.currentVictim .boss = some 0 ∧
      ∃ victim t', (reselectVictim Env.arena .boss).run t = .ok (victim, t') ∧
        ByRule Env.arena t' .boss victim ∧ victim = some 1 := by
  let ai : Env Fighter ℚ → AI Fighter ℚ := fun _ => silentAI
  let onTank : Step Fighter ℚ := ⟨.arena, .addThreat .boss .tank 10 none true true⟩
  let onRogue : Step Fighter ℚ := ⟨.arena, .addThreat .boss .rogue 14 none true true⟩
  let w₁ := after ai onTank World.init
  let w₂ := after ai onRogue w₁
  have hrun : HonestRun World.init w₂ :=
    .cons .arena (.call onTank.op) trivial
      (run_after ai onTank World.init (by decide +kernel))
      (.cons .arena (.call onRogue.op) trivial (run_after ai onRogue w₁ (by decide +kernel))
        (.nil w₂))
  have wf : ThreatWF w₂.threat := (hrun.inv WorldInv.init HeapInv.init).1.threat
  obtain ⟨t', hrefresh, _, hrule⟩ :=
    @reselectVictim_byRule Fighter _ Env.arena w₂.threat .boss wf
  have hsorted : (match (forEach (w₂.threat.refsOf Env.arena .myThreatList .boss)
      (ThreatReference.updateOffline Env.arena)).run w₂.threat with
      | .ok (_, t') => decide ((Env.arena.heapOrder t' .boss).Pairwise (NotLower t'))
      | .error _ => false) = true := by decide +kernel
  have hpick : (match (reselectVictim Env.arena .boss).run w₂.threat with
      | .ok (victim, _) => decide (victim = some 1)
      | .error _ => false) = true := by decide +kernel
  rw [hrefresh] at hsorted
  obtain ⟨victim, hvictim, hby⟩ := hrule (of_decide_eq_true hsorted)
  rw [hvictim] at hpick
  exact ⟨w₂.threat, by decide +kernel, victim, t', hvictim, hby, of_decide_eq_true hpick⟩

end EGServer.Combat
