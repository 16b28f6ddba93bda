import EGServer.Combat.ThreatList

/-!
# Well-formed threat lists

`ThreatWF` says that every threat reference is stored in exactly three places, and that the
cached pointers of a manager point into its own list. `HeapInv` says what the heap may rely
on: the key it saw last is the current one, and no notification pointed the wrong way.

All threat code is made of three moves: it changes the fields of one reference and tells
the heap (`Rewritten`), frees one (`Freed`), or stores a new one. The invariants are
proved of these moves, and every function is specified by the moves it makes.
-/

set_option linter.unusedSectionVars false

namespace EGServer.Combat

open StateExcept

variable {U F : Type} [DecidableEq U] [RoundedArith F] {env : Env U F} {E : Abort → Prop}

/-! ## The invariants -/

/-- Every threat reference is stored in the owner's map, the owner's heap and the victim's
map, and nowhere else; cached pointers stay inside the owner's list. -/
structure ThreatWF (t : ThreatState U F) : Prop where
  live : ∀ {u v id}, t.myThreat u v = some id →
    ∃ r, t.threats id = some r ∧ r.owner = u ∧ r.victim = v
  stored : ∀ {id r}, t.threats id = some r → t.myThreat r.owner r.victim = some id
  mirrored : ∀ u v, t.threatenedByMe v u = t.myThreat u v
  heap : ∀ u id, id ∈ (t.sorted u).map Prod.fst ↔ ∃ v, t.myThreat u v = some id
  heap_nodup : ∀ u, ((t.sorted u).map Prod.fst).Nodup
  fresh : ∀ {id r}, t.threats id = some r → id < t.nextThreat
  victim : ∀ {u id}, t.currentVictim u = some id → ∃ v, t.myThreat u v = some id
  fixated : ∀ {u id}, t.fixate u = some id → ∃ v, t.myThreat u v = some id

/-- `increased` was announced of a key that is not lower, `decreased` of one not higher. -/
def Honest : Direction → Key F → Key F → Prop
  | .increased, seen, now => now.lt seen = false
  | .decreased, seen, now => seen.lt now = false

instance (d : Direction) (seen now : Key F) : Decidable (Honest d seen now) :=
  match d with
  | .increased => inferInstanceAs (Decidable (now.lt seen = false))
  | .decreased => inferInstanceAs (Decidable (seen.lt now = false))

/-- The heap has seen every key, base amounts are not negative (so that scaling has a
direction), and no notification was dishonest. -/
structure HeapInv (t : ThreatState U F) : Prop where
  seen : ∀ {u e}, e ∈ t.sorted u → ∃ r, t.threats e.1 = some r ∧ e.2 = r.key
  base : ∀ {id r}, t.threats id = some r → 0 ≤ r.baseAmount
  honest : ∀ n ∈ t.notifications, Honest n.direction n.seen n.now

theorem ThreatWF.init : ThreatWF (ThreatState.init : ThreatState U F) where
  live h := nomatch h
  stored h := nomatch h
  mirrored _ _ := rfl
  heap _ _ := by simp [ThreatState.init]
  heap_nodup _ := List.nodup_nil
  fresh h := nomatch h
  victim h := nomatch h
  fixated h := nomatch h

theorem HeapInv.init : HeapInv (ThreatState.init : ThreatState U F) where
  seen h := nomatch h
  base h := nomatch h
  honest _ h := nomatch h

/-! ## Moves -/

/-- The lists hold the same references for the same pairs of units. -/
structure SameLists (t t' : ThreatState U F) : Prop where
  myThreat : t'.myThreat = t.myThreat
  threatenedByMe : t'.threatenedByMe = t.threatenedByMe
  heap : ∀ u, (t'.sorted u).map Prod.fst = (t.sorted u).map Prod.fst
  nextThreat : t'.nextThreat = t.nextThreat
  currentVictim : t'.currentVictim = t.currentVictim
  fixate : t'.fixate = t.fixate
  units : ∀ id, (t'.threats id).map (fun r => (r.owner, r.victim)) =
    (t.threats id).map fun r => (r.owner, r.victim)

theorem SameLists.refl (t : ThreatState U F) : SameLists t t :=
  ⟨rfl, rfl, fun _ => rfl, rfl, rfl, rfl, fun _ => rfl⟩

theorem SameLists.trans {t t' t'' : ThreatState U F} (h : SameLists t t') (h' : SameLists t' t'') :
    SameLists t t'' where
  myThreat := h'.myThreat.trans h.myThreat
  threatenedByMe := h'.threatenedByMe.trans h.threatenedByMe
  heap u := (h'.heap u).trans (h.heap u)
  nextThreat := h'.nextThreat.trans h.nextThreat
  currentVictim := h'.currentVictim.trans h.currentVictim
  fixate := h'.fixate.trans h.fixate
  units id := (h'.units id).trans (h.units id)

theorem SameLists.get {t t' : ThreatState U F} (h : SameLists t t') {id : ThreatId}
    {r : ThreatReference U F} (hr : t.threats id = some r) :
    ∃ r', t'.threats id = some r' ∧ r'.owner = r.owner ∧ r'.victim = r.victim := by
  have hid := h.units id
  rw [hr, Option.map_some, Option.map_eq_some_iff] at hid
  obtain ⟨r', hr', heq⟩ := hid
  exact ⟨r', hr', congrArg Prod.fst heq, congrArg Prod.snd heq⟩

theorem SameLists.get_back {t t' : ThreatState U F} (h : SameLists t t') {id : ThreatId}
    {r' : ThreatReference U F} (hr : t'.threats id = some r') :
    ∃ r, t.threats id = some r ∧ r'.owner = r.owner ∧ r'.victim = r.victim := by
  have hid := (h.units id).symm
  rw [hr, Option.map_some, Option.map_eq_some_iff] at hid
  grind

theorem ThreatWF.of_sameLists {t t' : ThreatState U F} (h : SameLists t t') (wf : ThreatWF t) :
    ThreatWF t' where
  live hid := by
    rw [h.myThreat] at hid
    obtain ⟨r, hr, rfl, rfl⟩ := wf.live hid
    exact h.get hr
  stored hr' := by
    obtain ⟨r, hr, ho, hv⟩ := h.get_back hr'
    rw [h.myThreat, ho, hv]
    exact wf.stored hr
  mirrored u v := by rw [h.myThreat, h.threatenedByMe]; exact wf.mirrored u v
  heap u id := by rw [h.heap, h.myThreat]; exact wf.heap u id
  heap_nodup u := by rw [h.heap]; exact wf.heap_nodup u
  fresh hr' := by
    obtain ⟨r, hr, -, -⟩ := h.get_back hr'
    rw [h.nextThreat]
    exact wf.fresh hr
  victim hid := by
    rw [h.currentVictim] at hid; rw [h.myThreat]
    exact wf.victim hid
  fixated hid := by
    rw [h.fixate] at hid; rw [h.myThreat]
    exact wf.fixated hid

/-- Fields of references changed, honestly, and no AI was registered for an update. -/
structure Adjusted (t t' : ThreatState U F) : Prop extends SameLists t t' where
  needsAIUpdate : t'.needsAIUpdate = t.needsAIUpdate
  heapInv : HeapInv t → HeapInv t'

theorem Adjusted.refl (t : ThreatState U F) : Adjusted t t := ⟨SameLists.refl t, rfl, id⟩

theorem Adjusted.trans {t t' t'' : ThreatState U F} (h : Adjusted t t') (h' : Adjusted t' t'') :
    Adjusted t t'' where
  toSameLists := h.toSameLists.trans h'.toSameLists
  needsAIUpdate := h'.needsAIUpdate.trans h.needsAIUpdate
  heapInv hinv := h'.heapInv (h.heapInv hinv)

/-- The one move that changes a reference: store its new fields, then notify the heap. -/
structure Rewritten (d : Direction) (id : ThreatId) (r r' : ThreatReference U F)
    (t t' : ThreatState U F) : Prop extends SameLists t t' where
  threats : t'.threats = Function.update t.threats id (some r')
  needsAIUpdate : t'.needsAIUpdate = t.needsAIUpdate
  heapInv : 0 ≤ r'.baseAmount → Honest d r.key r'.key → HeapInv t → HeapInv t'

theorem Rewritten.adjusted {d : Direction} {id : ThreatId} {r r' : ThreatReference U F}
    {t t' : ThreatState U F} (h : Rewritten d id r r' t t')
    (hbase : HeapInv t → 0 ≤ r'.baseAmount) (hd : HeapInv t → Honest d r.key r'.key) :
    Adjusted t t' :=
  ⟨h.toSameLists, h.needsAIUpdate, fun hinv => h.heapInv (hbase hinv) (hd hinv) hinv⟩

/-! ## The heap learns of a new key -/

theorem wp_derefThreat {t : ThreatState U F} {id : ThreatId} {r : ThreatReference U F}
    {Q : ThreatReference U F → ThreatState U F → Prop} (hr : t.threats id = some r) (hQ : Q r t) :
    wp E (derefThreat id) t Q := by
  unfold derefThreat
  simp only [wp_bind, wp_get, hr, wp_pure]
  exact hQ

theorem ThreatWF.lookup {t : ThreatState U F} (wf : ThreatWF t) {id : ThreatId}
    {r : ThreatReference U F} (hr : t.threats id = some r) :
    ∃ seen, (t.sorted r.owner).lookup id = some seen ∧ (id, seen) ∈ t.sorted r.owner := by
  have hmem := (wf.heap r.owner id).mpr ⟨r.victim, wf.stored hr⟩
  generalize t.sorted r.owner = l at hmem
  induction l with
  | nil => simp at hmem
  | cons e l ih =>
    grind

theorem map_fst_resift (l : List (ThreatId × Key F)) (id : ThreatId) (k : Key F) :
    (l.map fun e => if e.1 = id then (id, k) else e).map Prod.fst = l.map Prod.fst := by
  rw [List.map_map]
  refine List.map_congr_left fun e _ => ?_
  by_cases he : e.1 = id <;> simp [he]

theorem sameLists_rewrite {t : ThreatState U F} {id : ThreatId} {r r' : ThreatReference U F}
    (hr : t.threats id = some r) (ho : r'.owner = r.owner) (hv : r'.victim = r.victim)
    (d : Direction) (seen : Key F) :
    SameLists t ((t.write id r').resift d id r' seen) where
  myThreat := rfl
  threatenedByMe := rfl
  heap u := by
    by_cases hu : u = r'.owner
    · subst hu
      simp only [ThreatState.resift, ThreatState.write, Function.update_self]
      exact map_fst_resift _ _ _
    · simp only [ThreatState.resift, ThreatState.write, Function.update_of_ne hu]
  nextThreat := rfl
  currentVictim := rfl
  fixate := rfl
  units id' := by
    by_cases hid : id' = id
    · subst hid
      simp [ThreatState.resift, ThreatState.write, hr, ho, hv]
    · simp [ThreatState.resift, ThreatState.write, Function.update_of_ne hid]

theorem heapInv_rewrite {t : ThreatState U F} (wf : ThreatWF t) {id : ThreatId}
    {r r' : ThreatReference U F} (hr : t.threats id = some r) (ho : r'.owner = r.owner)
    {d : Direction} (hbase : 0 ≤ r'.baseAmount) (hd : Honest d r.key r'.key) (hinv : HeapInv t)
    {seen : Key F} (hseen : (id, seen) ∈ t.sorted r.owner) :
    HeapInv ((t.write id r').resift d id r' seen) where
  seen {u e} he := by
    by_cases hu : u = r'.owner
    · subst hu
      simp only [ThreatState.resift, ThreatState.write, Function.update_self, List.mem_map] at he ⊢
      obtain ⟨e', he', rfl⟩ := he
      by_cases hid : e'.1 = id
      · exact ⟨r', by simp [hid], by simp [hid]⟩
      · obtain ⟨q, hq, hk⟩ := hinv.seen he'
        exact ⟨q, by simp [hid, hq], by simp [hid, hk]⟩
    · simp only [ThreatState.resift, ThreatState.write, Function.update_of_ne hu] at he ⊢
      obtain ⟨q, hq, hk⟩ := hinv.seen he
      -- an element of another unit's heap is another reference
      have hid : e.1 ≠ id := by
        rintro rfl
        obtain ⟨v, hv⟩ := (wf.heap u e.1).mp (List.mem_map_of_mem (f := Prod.fst) he)
        obtain ⟨q', hq', howner, -⟩ := wf.live hv
        rw [hr] at hq'
        cases hq'
        exact hu (by rw [ho, howner])
      exact ⟨q, by rw [Function.update_of_ne hid]; exact hq, hk⟩
  base {id' q} hq := by
    simp only [ThreatState.resift, ThreatState.write] at hq
    by_cases hid : id' = id
    · subst hid
      rw [Function.update_self] at hq
      cases hq
      exact hbase
    · rw [Function.update_of_ne hid] at hq
      exact hinv.base hq
  honest n hn := by
    simp only [ThreatState.resift, ThreatState.write, List.mem_append, List.mem_singleton] at hn
    rcases hn with hn | rfl
    · exact hinv.honest n hn
    · obtain ⟨q, hq, hk⟩ := hinv.seen hseen
      rw [hr] at hq
      cases hq
      rw [show seen = r.key from hk]
      exact hd

/-- **Specification of `rewrite`.** -/
theorem wp_rewrite {t : ThreatState U F} (wf : ThreatWF t) {id : ThreatId}
    {r r' : ThreatReference U F} (hr : t.threats id = some r) {d : Direction}
    {Q : Unit → ThreatState U F → Prop} (ho : r'.owner = r.owner) (hv : r'.victim = r.victim)
    (hQ : ∀ t', Rewritten d id r r' t t' → Q () t') :
    wp E (rewrite d id r') t Q := by
  obtain ⟨seen, hlookup, hseen⟩ := wf.lookup hr
  have hw : (t.write id r').threats id = some r' := Function.update_self ..
  unfold rewrite heapNotify
  simp only [wp_bind, wp_modify]
  refine wp_derefThreat hw ?_
  have hl : ((t.write id r').sorted r'.owner).lookup id = some seen := by rw [ho]; exact hlookup
  simp only [wp_get, hl, wp_modify]
  exact hQ _ {
    toSameLists := sameLists_rewrite hr ho hv d seen
    threats := rfl
    needsAIUpdate := rfl
    heapInv := fun hbase hd hinv => heapInv_rewrite wf hr ho hbase hd hinv hseen }

end EGServer.Combat

/-!
# What the threat code does

One specification for each function of `ThreatList`: it does not abort on well-formed
lists, and changes them by the moves of `ThreatInvariant`.
-/

set_option linter.unusedSectionVars false

namespace EGServer.Combat

open StateExcept

variable {U F : Type} [DecidableEq U] [RoundedArith F] {env : Env U F} {E : Abort → Prop}
variable {t : ThreatState U F} {id : ThreatId} {r r' : ThreatReference U F} {u : U}

/-! ## Which way a key went -/

theorem honest_of_le (ho : r'.online = r.online) (ht : r'.taunted = r.taunted)
    (h : r.getThreat ≤ r'.getThreat) : Honest .increased r.key r'.key := by
  simp [Honest, Key.lt, compareReferencesLT, ThreatReference.key, ho, ht, RoundedArith.mul_one, h]

theorem honest_of_ge (ho : r'.online = r.online) (ht : r'.taunted = r.taunted)
    (h : r'.getThreat ≤ r.getThreat) : Honest .decreased r.key r'.key := by
  simp [Honest, Key.lt, compareReferencesLT, ThreatReference.key, ho, ht, RoundedArith.mul_one, h]

theorem honest_of_online_lt (h : r.online.toNat < r'.online.toNat) :
    Honest .increased r.key r'.key := by
  have hne : r'.online ≠ r.online := fun he => by rw [he] at h; omega
  simp only [Honest, Key.lt, compareReferencesLT, ThreatReference.key, ne_eq, hne,
    not_false_eq_true, if_true]
  exact decide_eq_false (by omega)

theorem honest_of_online_gt (h : r'.online.toNat < r.online.toNat) :
    Honest .decreased r.key r'.key := by
  have hne : r.online ≠ r'.online := fun he => by rw [he] at h; omega
  simp only [Honest, Key.lt, compareReferencesLT, ThreatReference.key, ne_eq, hne,
    not_false_eq_true, if_true]
  exact decide_eq_false (by omega)

theorem honest_of_taunted_lt (ho : r'.online = r.online) (h : r.taunted < r'.taunted) :
    Honest .increased r.key r'.key := by
  grind [ThreatReference.key, compareReferencesLT, Key.lt, Honest]

theorem honest_of_taunted_gt (ho : r'.online = r.online) (h : r'.taunted < r.taunted) :
    Honest .decreased r.key r'.key := by
  grind [ThreatReference.key, compareReferencesLT, Key.lt, Honest]

theorem getThreat_mono (hm : r'.tempModifier = r.tempModifier) (h : r.baseAmount ≤ r'.baseAmount) :
    r.getThreat ≤ r'.getThreat := by
  unfold ThreatReference.getThreat
  rw [hm]
  exact max_le_max_right _ (RoundedArith.add_le_add_right h _)

/-! ## ThreatReference -/

theorem ThreatReference.addThreat_spec (wf : ThreatWF t) (hr : t.threats id = some r) (amount : F) :
    wp E (ThreatReference.addThreat id amount) t fun _ t' => Adjusted t t' := by
  unfold ThreatReference.addThreat
  refine wp_ite (fun _ => Adjusted.refl t) fun hne => ?_
  simp only [wp_bind]
  refine wp_derefThreat hr (wp_rewrite wf hr rfl rfl fun t' h => ?_)
  refine h.adjusted (fun _ => le_max_right _ _) fun hinv => ?_
  have hb := hinv.base hr
  by_cases hpos : 0 < amount
  · rw [if_pos hpos]
    refine honest_of_le rfl rfl (getThreat_mono rfl ?_)
    exact le_trans (RoundedArith.le_add_of_nonneg hpos.le) (le_max_left _ _)
  · rw [if_neg hpos]
    refine honest_of_ge rfl rfl (getThreat_mono rfl ?_)
    exact max_le (RoundedArith.add_le_of_nonpos (not_lt.mp hpos)) hb

theorem ThreatReference.scaleThreat_spec (wf : ThreatWF t) (hr : t.threats id = some r) {factor : F}
    (hf : 0 ≤ factor) :
    wp E (ThreatReference.scaleThreat id factor) t fun _ t' => Adjusted t t' := by
  unfold ThreatReference.scaleThreat
  refine wp_ite (fun _ => Adjusted.refl t) fun hne => ?_
  simp only [wp_bind]
  refine wp_derefThreat hr (wp_rewrite wf hr rfl rfl fun t' h => ?_)
  refine h.adjusted (fun hinv => RoundedArith.mul_nonneg (hinv.base hr) hf) fun hinv => ?_
  have hb := hinv.base hr
  by_cases hone : 1 < factor
  · rw [if_pos hone]
    exact honest_of_le rfl rfl (getThreat_mono rfl (RoundedArith.le_mul_of_one_le hb hone.le))
  · rw [if_neg hone]
    exact honest_of_ge rfl rfl
      (getThreat_mono rfl (RoundedArith.mul_le_of_le_one hb (not_lt.mp hone)))

theorem ThreatReference.updateTauntState_spec (wf : ThreatWF t) (hr : t.threats id = some r)
    (state : Nat) :
    wp E (ThreatReference.updateTauntState env id state) t fun _ t' => Adjusted t t' := by
  unfold ThreatReference.updateTauntState
  simp only [wp_bind]
  refine wp_derefThreat hr ?_
  generalize (if state < TAUNT_STATE_TAUNT ∧ env.hasDetauntFrom r.owner r.victim
    then TAUNT_STATE_DETAUNT else state) = state
  refine wp_ite (fun _ => Adjusted.refl t) fun hne => ?_
  refine wp_rewrite wf hr rfl rfl fun t' h => ?_
  refine h.adjusted (fun hinv => hinv.base (r := r) hr) fun _ => ?_
  by_cases hlt : state < r.taunted
  · rw [if_pos hlt]
    exact honest_of_taunted_gt rfl hlt
  · rw [if_neg hlt]
    exact honest_of_taunted_lt rfl (by show r.taunted < state; omega)

/-! ### Going offline and coming back -/

/-- A reference is offline exactly when the environment says it should be. -/
def Settled (env : Env U F) (t : ThreatState U F) (id : ThreatId) : Prop :=
  ∀ r, t.threats id = some r → r.isOffline = env.shouldBeOffline r.owner r.victim

/-- No offline reference of `u` is about to come back online. -/
def NoReturn (env : Env U F) (u : U) (t : ThreatState U F) : Prop :=
  ∀ id r, t.threats id = some r → r.owner = u → r.isOffline = true →
    env.shouldBeOffline u r.victim = true

/-- Online states of `u`'s references changed, and `u`'s AI may have been registered. -/
structure OnlineUpdated (env : Env U F) (u : U) (t t' : ThreatState U F) : Prop
    extends SameLists t t' where
  heapInv : HeapInv t → HeapInv t'
  others : ∀ {id r}, t.threats id = some r → r.owner ≠ u → t'.threats id = some r
  needsOther : ∀ x, x ≠ u → t'.needsAIUpdate x = t.needsAIUpdate x
  noReturn : NoReturn env u t → t'.needsAIUpdate = t.needsAIUpdate ∧ NoReturn env u t'

theorem OnlineUpdated.refl (t : ThreatState U F) : OnlineUpdated env u t t :=
  ⟨SameLists.refl t, id, fun h _ => h, fun _ _ => rfl, fun h => ⟨rfl, h⟩⟩

theorem OnlineUpdated.trans {t t' t'' : ThreatState U F} (h : OnlineUpdated env u t t')
    (h' : OnlineUpdated env u t' t'') : OnlineUpdated env u t t'' where
  toSameLists := h.toSameLists.trans h'.toSameLists
  heapInv hinv := h'.heapInv (h.heapInv hinv)
  others hr ho := h'.others (h.others hr ho) ho
  needsOther x hx := (h'.needsOther x hx).trans (h.needsOther x hx)
  noReturn hn :=
    have ⟨h1, h2⟩ := h.noReturn hn
    have ⟨h3, h4⟩ := h'.noReturn h2
    ⟨h3.trans h1, h4⟩

theorem Rewritten.get_ne {d : Direction} {t' : ThreatState U F} (h : Rewritten d id r r' t t')
    {id' : ThreatId} (hne : id' ≠ id) : t'.threats id' = t.threats id' := by
  rw [h.threats, Function.update_of_ne hne]

theorem Rewritten.settled {d : Direction} {t' : ThreatState U F} (h : Rewritten d id r r' t t')
    (hset : r'.isOffline = env.shouldBeOffline r'.owner r'.victim) {id' : ThreatId}
    (hid : id' = id ∨ Settled env t id') : Settled env t' id' := by
  intro q hq
  by_cases hne : id' = id
  · subst hne
    rw [h.threats, Function.update_self] at hq
    cases hq
    exact hset
  · rw [h.get_ne hne] at hq
    exact (hid.resolve_left hne) q hq

theorem Rewritten.onlineUpdated {d : Direction} {t' : ThreatState U F}
    (h : Rewritten d id r r' t t') (hr : t.threats id = some r) (hu : r.owner = u)
    (hb : r'.baseAmount = r.baseAmount)
    (hd : Honest d r.key r'.key)
    (hset : r'.isOffline = env.shouldBeOffline r'.owner r'.victim) :
    OnlineUpdated env u t t' where
  toSameLists := h.toSameLists
  heapInv hinv := h.heapInv (by rw [hb]; exact hinv.base hr) hd hinv
  others {id' q} hq hne := by
    have hid : id' ≠ id := by
      rintro rfl
      rw [hr] at hq
      cases hq
      exact hne hu
    rw [h.get_ne hid]
    exact hq
  needsOther _ _ := by rw [h.needsAIUpdate]
  noReturn hn := by
    refine ⟨h.needsAIUpdate, fun id' q hq hown hoff => ?_⟩
    by_cases hid : id' = id
    · subst hid
      rw [h.threats, Function.update_self] at hq
      cases hq
      rw [← hown, ← hset]
      exact hoff
    · rw [h.get_ne hid] at hq
      exact hn id' q hq hown hoff

theorem isOffline_iff (r : ThreatReference U F) : r.isOffline = true ↔ r.online = .offline := by
  simp [ThreatReference.isOffline]

/-- **Specification of `UpdateOffline`.** -/
theorem ThreatReference.updateOffline_spec (wf : ThreatWF t) (hr : t.threats id = some r)
    (hu : r.owner = u) :
    wp E (ThreatReference.updateOffline env id) t fun _ t' =>
      OnlineUpdated env u t t' ∧ ∀ id', id' = id ∨ Settled env t id' → Settled env t' id' := by
  unfold ThreatReference.updateOffline
  simp only [wp_bind]
  refine wp_derefThreat hr ?_
  refine wp_ite (fun hsame => ?_) fun hdiff => wp_ite (fun hoff => ?_) fun hon => ?_
  · refine ⟨OnlineUpdated.refl t, ?_⟩
    rintro id' (rfl | hset)
    · intro q hq
      rw [hr] at hq
      cases hq
      exact hsame.symm
    · exact hset
  · -- going offline
    have hnot : r.online ≠ .offline := fun h =>
      hdiff (by rw [hoff, (isOffline_iff r).mpr h])
    refine wp_rewrite wf hr rfl rfl fun t' h => ⟨?_, ?_⟩
    · refine h.onlineUpdated hr hu rfl (honest_of_online_gt ?_) ?_
      · cases hro : r.online with
        | offline => exact absurd hro hnot
        | suppressed => exact Nat.zero_lt_succ _
        | online => exact Nat.zero_lt_succ _
      · exact (isOffline_iff _).mpr rfl |>.trans hoff.symm
    · exact fun id' => h.settled ((isOffline_iff _).mpr rfl |>.trans hoff.symm)
  · -- coming back: the AI has to be told
    have hon' : env.shouldBeOffline r.owner r.victim = false := by simpa using hon
    have hroff : r.online = .offline := by
      rw [hon'] at hdiff
      exact (isOffline_iff r).mp (by simpa using Ne.symm hdiff)
    have hret : ¬ NoReturn env u t := fun hn => by
      have := hn id r hr hu ((isOffline_iff r).mpr hroff)
      rw [← hu, hon'] at this
      cases this
    have hstate : (if r.shouldBeSuppressed env then OnlineState.suppressed
        else OnlineState.online) ≠ .offline := by split <;> decide
    simp only [wp_bind]
    refine wp_rewrite wf hr rfl rfl fun t' h => ?_
    have hset : ({ r with online := if r.shouldBeSuppressed env then OnlineState.suppressed
        else OnlineState.online } : ThreatReference U F).isOffline =
        env.shouldBeOffline r.owner r.victim := by
      rw [hon', ThreatReference.isOffline, decide_eq_false_iff_not]
      exact hstate
    have hup : OnlineUpdated env u t t' := h.onlineUpdated hr hu rfl
      (honest_of_online_lt (by rw [hroff]; show 0 < OnlineState.toNat _; split <;> exact Nat.zero_lt_succ _)) hset
    refine ⟨?_, fun id' hid' q hq => h.settled hset hid' q hq⟩
    rw [hu]
    refine ⟨⟨rfl, rfl, fun _ => rfl, rfl, rfl, rfl, fun _ => rfl⟩ |> hup.toSameLists.trans, ?_, ?_,
      ?_, fun hn => absurd hn hret⟩
    · exact fun hinv => ⟨(hup.heapInv hinv).seen, (hup.heapInv hinv).base, (hup.heapInv hinv).honest⟩
    · exact fun hq hne => hup.others hq hne
    · intro x hx
      show Function.update t'.needsAIUpdate u _ x = _
      rw [Function.update_of_ne hx]
      exact hup.needsOther x hx

end EGServer.Combat
