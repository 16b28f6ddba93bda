import EGServer.Lib.GuardedRun
import EGServer.Lib.Table
import EGServer.Combat.ThreatFlow
import Mathlib.Data.UInt

/-!
# The redirection registry

Spells register with a unit that a percentage of the threat it causes goes to somebody else.
The registry keeps what each spell registered for each victim; `UpdateRedirectInfo` walks
through it, in whatever order the hash maps have, and hands out percentages until a hundred
are gone.
-/

namespace EGServer.Combat

/-- What a spell registered: victims, and the percentage for each. -/
structure RedirectEffect (U : Type) where
  spellId : UInt32
  victims : Table (Prod.fst : U × UInt32 → U)

/-- The part of a `ThreatManager` that is about redirection. -/
structure RedirectManager (U : Type) where
  redirectRegistry : Table (RedirectEffect.spellId : RedirectEffect U → UInt32)
  redirectInfo : List (U × UInt32)

namespace RedirectManager

variable {U : Type}

/-- A manager before any spell. -/
def empty : RedirectManager U := ⟨∅, []⟩

/-! ## `UpdateRedirectInfo` -/

/-- The loop, with the percentages handed out so far. `none` is the failed assertion. -/
def handOut : List (U × UInt32) → UInt32 → Option (List (U × UInt32))
  | [], _ => some []
  | (victim, pct) :: rest, totalPct =>
    let thisPct := min (100 - totalPct) pct
    if 0 < thisPct then
      let totalPct := totalPct + thisPct
      if 100 < totalPct then none
      else if totalPct = 100 then some [(victim, thisPct)]
      else (handOut rest totalPct).map ((victim, thisPct) :: ·)
    else handOut rest totalPct

/-- The registered effects in the order in which the two loops visit them. -/
def registered (m : RedirectManager U) : List (UInt32 × U × UInt32) :=
  m.redirectRegistry.rows.flatMap fun e => e.victims.rows.map fun v => (e.spellId, v)

def updateRedirectInfo (m : RedirectManager U) : Option (RedirectManager U) := do
  let info ← handOut (m.registered.map Prod.snd) 0
  return { m with redirectInfo := info }

/-! ## Registering -/

variable [DecidableEq U]

/-- `_redirectRegistry[spellId][victim] = pct`; either map may be rearranged by an insertion. -/
def registerRedirectThreat (m : RedirectManager U) (spells : Arrangement (RedirectEffect U))
    (victims : Arrangement (U × UInt32)) (spellId : UInt32) (victim : U) (pct : UInt32) :
    Option (RedirectManager U) :=
  let old := ((m.redirectRegistry.get? spellId).map (·.victims)).getD ∅
  let effect : RedirectEffect U := ⟨spellId, old.assign victims (victim, pct)⟩
  updateRedirectInfo
    { m with redirectRegistry := m.redirectRegistry.assign spells effect }

/-- `UnregisterRedirectThreat(spellId)` -/
def unregisterSpell (m : RedirectManager U) (spellId : UInt32) : Option (RedirectManager U) :=
  match m.redirectRegistry.get? spellId with
  | none => some m
  | some _ => updateRedirectInfo { m with redirectRegistry := m.redirectRegistry.erase spellId }

/-- `UnregisterRedirectThreat(spellId, victim)`; an effect without victims stays registered. -/
def unregisterVictim (m : RedirectManager U) (spellId : UInt32) (victim : U) :
    Option (RedirectManager U) :=
  match m.redirectRegistry.get? spellId with
  | none => some m
  | some effect =>
    match effect.victims.get? victim with
    | none => some m
    | some _ =>
      let registry := m.redirectRegistry.modify spellId
        (fun e => ⟨e.spellId, e.victims.erase victim⟩) fun _ => rfl
      updateRedirectInfo { m with redirectRegistry := registry }

/-- The calls that spells make. -/
inductive Call (U : Type) where
  | registerRedirectThreat (spells : Arrangement (RedirectEffect U))
      (victims : Arrangement (U × UInt32)) (spellId : UInt32) (victim : U) (pct : UInt32)
  | unregisterSpell (spellId : UInt32)
  | unregisterVictim (spellId : UInt32) (victim : U)

def call (m : RedirectManager U) : Call U → Option (RedirectManager U)
  | .registerRedirectThreat spells victims spellId victim pct =>
    m.registerRedirectThreat spells victims spellId victim pct
  | .unregisterSpell spellId => m.unregisterSpell spellId
  | .unregisterVictim spellId victim => m.unregisterVictim spellId victim

def Step (m : RedirectManager U) (c : Call U) (m' : RedirectManager U) : Prop :=
  m.call c = some m'

/-! ## What is handed out -/

/-- A registered effect got a positive part of its percentage. -/
def Granted (given : U × UInt32) (registered : UInt32 × U × UInt32) : Prop :=
  given.1 = registered.2.1 ∧ 0 < given.2 ∧ given.2 ≤ registered.2.2

/-- The sum of percentages, as a number. -/
def totalOf (l : List (U × UInt32)) : ℕ := (l.map fun x => x.2.toNat).sum

/-- Each percentage goes to a registered effect, every effect gets one at most, and together
they are what was registered, a hundred at most. -/
structure Accounts (m : RedirectManager U) : Prop where
  granted : ∃ l : List (UInt32 × U × UInt32), l.Sublist m.registered ∧
    List.Forall₂ Granted m.redirectInfo l
  total : totalOf m.redirectInfo = min 100 (totalOf (m.registered.map Prod.snd))

omit [DecidableEq U] in
/-- **What the loop hands out** of what is left of the hundred. -/
theorem handOut_spec (l : List (UInt32 × U × UInt32)) (totalPct : UInt32)
    (htotal : totalPct.toNat ≤ 100) :
    ∃ info, handOut (l.map Prod.snd) totalPct = some info ∧
      (∃ kept : List (UInt32 × U × UInt32), kept.Sublist l ∧ List.Forall₂ Granted info kept) ∧
      totalOf info = min (100 - totalPct.toNat) (totalOf (l.map Prod.snd)) := by
  induction l generalizing totalPct with
  | nil => exact ⟨[], rfl, ⟨[], List.Sublist.refl _, .nil⟩, by simp [totalOf]⟩
  | cons x l ih =>
    obtain ⟨spellId, victim, pct⟩ := x
    have hleft : (100 - totalPct).toNat = 100 - totalPct.toNat := by
      rw [UInt32.toNat_sub_of_le _ _ (UInt32.le_iff_toNat_le.mpr htotal)]
      rfl
    have hthis : (min (100 - totalPct) pct).toNat = min (100 - totalPct.toNat) pct.toNat := by
      show (if 100 - totalPct ≤ pct then 100 - totalPct else pct).toNat = _
      grind [UInt32.le_iff_toNat_le]
    have hsum : totalOf ((victim, pct) :: l.map Prod.snd) =
        pct.toNat + totalOf (l.map Prod.snd) := by
      simp [totalOf]
    show ∃ info, handOut ((victim, pct) :: l.map Prod.snd) totalPct = some info ∧ _ ∧
      totalOf info = min _ (totalOf ((victim, pct) :: l.map Prod.snd))
    rw [handOut, hsum]
    generalize min (100 - totalPct) pct = thisPct at hthis ⊢
    by_cases hpos : 0 < thisPct
    · rw [if_pos hpos]
      have hadd : (totalPct + thisPct).toNat = totalPct.toNat + thisPct.toNat := by
        rw [UInt32.toNat_add]
        exact Nat.mod_eq_of_lt (by omega)
      have hpct : thisPct ≤ pct := by
        rw [UInt32.le_iff_toNat_le]
        omega
      have hgranted : Granted (victim, thisPct) (spellId, victim, pct) := ⟨rfl, hpos, hpct⟩
      have hle : ¬100 < totalPct + thisPct := by
        rw [UInt32.lt_iff_toNat_lt, hadd]
        exact Nat.not_lt.mpr (by show _ ≤ 100; omega)
      simp only
      rw [if_neg hle]
      by_cases hfull : totalPct + thisPct = 100
      · -- the hundred is used up here
        have hhundred : totalPct.toNat + thisPct.toNat = 100 := by
          rw [← hadd, hfull]
          rfl
        rw [if_pos hfull]
        refine ⟨_, rfl, ⟨[(spellId, victim, pct)], ?_, .cons hgranted .nil⟩, ?_⟩
        · exact (List.nil_sublist l).cons_cons _
        · simp only [totalOf, List.map_cons, List.map_nil, List.sum_cons, List.sum_nil]
          omega
      · rw [if_neg hfull]
        obtain ⟨info, hinfo, ⟨kept, hsub, hkept⟩, htot⟩ := ih (totalPct + thisPct) (by omega)
        refine ⟨(victim, thisPct) :: info, by rw [hinfo]; rfl, ?_, ?_⟩
        · exact ⟨(spellId, victim, pct) :: kept, hsub.cons_cons _, .cons hgranted hkept⟩
        · have hcons : totalOf ((victim, thisPct) :: info) = thisPct.toNat + totalOf info := by
            simp [totalOf]
          have hfull' : totalPct.toNat + thisPct.toNat ≠ 100 := by
            intro h
            exact hfull (UInt32.toNat_inj.mp (hadd.trans h))
          omega
    · -- nothing is left, or nothing was registered
      rw [if_neg hpos]
      have hzero : thisPct.toNat = 0 := by
        rw [UInt32.lt_iff_toNat_lt] at hpos
        exact Nat.eq_zero_of_not_pos hpos
      obtain ⟨info, hinfo, ⟨kept, hsub, hkept⟩, htot⟩ := ih totalPct htotal
      refine ⟨info, hinfo, ⟨kept, hsub.cons _, hkept⟩, ?_⟩
      omega

omit [DecidableEq U] in
theorem updateRedirectInfo_spec (m : RedirectManager U) :
    ∃ m', m.updateRedirectInfo = some m' ∧ m'.redirectRegistry = m.redirectRegistry ∧
      m'.Accounts := by
  obtain ⟨info, hinfo, hgranted, htotal⟩ := handOut_spec m.registered 0 (by decide)
  refine ⟨{ m with redirectInfo := info }, ?_, rfl, hgranted, htotal⟩
  rw [updateRedirectInfo, hinfo]
  rfl

variable {m m' : RedirectManager U}

/-- **The step lemma**: no call trips the assertion, and each leaves the info accounted for. -/
theorem Accounts.call (h : m.Accounts) (c : Call U) : ∃ m', m.call c = some m' ∧ m'.Accounts := by
  have hupdate : ∀ m : RedirectManager U, ∃ m', m.updateRedirectInfo = some m' ∧ m'.Accounts := by
    intro m
    obtain ⟨m', hm', _, hacc⟩ := m.updateRedirectInfo_spec
    exact ⟨m', hm', hacc⟩
  cases c with
  | registerRedirectThreat spells victims spellId victim pct => exact hupdate _
  | unregisterSpell spellId =>
    show ∃ m', m.unregisterSpell spellId = some m' ∧ m'.Accounts
    unfold unregisterSpell
    split
    · exact ⟨m, rfl, h⟩
    · exact hupdate _
  | unregisterVictim spellId victim =>
    show ∃ m', m.unregisterVictim spellId victim = some m' ∧ m'.Accounts
    unfold unregisterVictim
    split
    · exact ⟨m, rfl, h⟩
    · split
      · exact ⟨m, rfl, h⟩
      · exact hupdate _

/-- **The run lemma**: so it is after any sequence of calls. -/
theorem accounts_of_reaches (h : Reaches Step (fun _ _ => True) empty m) : m.Accounts := by
  apply h.invariant
  · exact ⟨⟨[], List.Sublist.refl _, .nil⟩, rfl⟩
  · intro m₁ m₂ c hm₁ _ hstep
    obtain ⟨m₃, hm₃, hacc⟩ := hm₁.call c
    obtain rfl : m₃ = m₂ := Option.some.inj (hm₃.symm.trans hstep)
    exact hacc

end RedirectManager

end EGServer.Combat

/-!
# Where the threat of one call goes

`AddThreat` calls itself for vehicles, summoners and redirection targets, and applies what is
left to the target's own entry. `addThreatTraced` is the same program, except that it also
reports every amount it tried to apply, and whether it arrived; forgetting the report gives
`AddThreat` back.

With modifiers ignored, the reported amounts add up to what was to be added, and the list
gains what arrived.
-/

set_option linter.unusedSectionVars false

namespace EGServer.Combat

open StateExcept

variable {U : Type} [DecidableEq U] (env : Env U ℚ) (ai : AI U ℚ)

/-! ## The same program, with a report -/

/-- An amount for one entry. It arrives if the recipient is in combat with the owner of the
list and its reference is online. -/
structure Delivery (U : Type) where
  recipient : U
  amount : ℚ
  arrived : Bool
  deriving DecidableEq

/-- Is the reference of this entry online? -/
def ThreatState.onlineEntry (t : ThreatState U ℚ) (owner target : U) : Bool :=
  (t.myThreat owner target).any fun id => (t.threats id).any (·.isOnline)

/-- The last lines of `AddThreat`. -/
def deliver (owner target : U) (amount : ℚ) : WorldM U ℚ (List (Delivery U)) := do
  if ← setInCombatWith env ai owner target false then do
    applyThreat env ai owner target amount
    pure [⟨target, amount, (← get).threat.onlineEntry owner target⟩]
  else pure [⟨target, amount, false⟩]

def passTraced (add : U → ℚ → WorldM U ℚ (List (Delivery U))) (other : Option U) (amount : ℚ) :
    WorldM U ℚ (List (Delivery U) × ℚ) := do
  match other with
  | none => pure ([], amount)
  | some other => do
    let ds ← add other amount
    pure (ds, 0)

def redirectTraced (add : U → ℚ → WorldM U ℚ (List (Delivery U))) (owner : U) (origAmount : ℚ) :
    List (U × Nat) → ℚ → WorldM U ℚ (List (Delivery U) × ℚ)
  | [], amount => pure ([], amount)
  | (guid, pct) :: rest, amount => do
    match ← onThreat (redirectTarget env owner guid) with
    | none => redirectTraced add owner origAmount rest amount
    | some redirTarget => do
      let amountRedirected := calculatePct origAmount pct
      let ds ← add redirTarget amountRedirected
      let (ds', left) ← redirectTraced add owner origAmount rest (amount - amountRedirected)
      pure (ds ++ ds', left)

def addThreatTraced :
    Nat → U → U → ℚ → Option SpellInfo → Bool → Bool → WorldM U ℚ (List (Delivery U))
  | 0, _, _, _, _, _, _ => throw .outOfFuel
  | fuel + 1, owner, target, amount, spell, ignoreModifiers, ignoreRedirects => do
    if causesNoThreat env owner spell then pure [] else do
      let addTo : U → ℚ → WorldM U ℚ (List (Delivery U)) := fun other amount =>
        addThreatTraced fuel owner other amount spell ignoreModifiers ignoreRedirects
      let (onVehicle, amount) ← passTraced addTo (env.vehicleBase target) amount
      if (env.vehicleBase target).isSome && env.isAccessory target then pure onVehicle else do
        let (onSummoner, amount) ← passTraced addTo (env.privateObjectOwner owner target) amount
        if !env.canHaveThreatList owner then do
          enterCombatOnly env ai owner target
          pure (onVehicle ++ onSummoner)
        else do
          let amount :=
            if ignoreModifiers then amount else env.calculateModifiedThreat amount target spell
          let redirections :=
            if !ignoreRedirects && decide (0 < amount) then env.redirectInfo target else []
          let (redirected, amount) ← redirectTraced env
            (fun redirTarget amount => addThreatTraced fuel owner redirTarget amount spell true true)
            owner amount redirections amount
          let own ← deliver env ai owner target amount
          pure (onVehicle ++ onSummoner ++ redirected ++ own)

/-! ## Forgetting the report -/

/-- Keep the effects, drop the result. -/
def forget {σ ε α : Type} (m : StateT σ (Except ε) α) : StateT σ (Except ε) Unit :=
  (fun _ => ()) <$> m

variable {env ai} {add : U → ℚ → WorldM U ℚ Unit}
variable {addTraced : U → ℚ → WorldM U ℚ (List (Delivery U))}

theorem passThreat_traced (h : ∀ other amount, add other amount = forget (addTraced other amount))
    (other : Option U) (amount : ℚ) :
    passThreat add other amount = Prod.snd <$> passTraced addTraced other amount := by
  cases other with
  | none => simp only [passThreat, passTraced, map_pure]
  | some other =>
    simp only [passThreat, passTraced, h, forget, map_eq_pure_bind, bind_assoc, pure_bind]

theorem redirectThreat_traced
    (h : ∀ other amount, add other amount = forget (addTraced other amount)) (owner : U)
    (origAmount : ℚ) (l : List (U × Nat)) (amount : ℚ) :
    redirectThreat env add owner origAmount l amount =
      Prod.snd <$> redirectTraced env addTraced owner origAmount l amount := by
  induction l generalizing amount with
  | nil => simp only [redirectThreat, redirectTraced, map_pure]
  | cons x rest ih =>
    obtain ⟨guid, pct⟩ := x
    simp only [redirectThreat, redirectTraced, map_eq_pure_bind, bind_assoc]
    congr 1
    funext found
    cases found with
    | none => simp only [ih, map_eq_pure_bind]
    | some redirTarget =>
      simp only [ih, h, forget, map_eq_pure_bind, bind_assoc, pure_bind]

theorem deliver_traced (owner target : U) (amount : ℚ) :
    (do
      if ← setInCombatWith env ai owner target false then
        applyThreat env ai owner target amount
      else pure ()) = forget (deliver env ai owner target amount) := by
  simp only [deliver, forget, map_eq_pure_bind, bind_assoc]
  congr 1
  funext inCombat
  cases inCombat with
  | false => rfl
  | true =>
    simp only [if_true, bind_assoc, pure_bind]
    -- the world is read once more, to no effect
    exact bind_pure_unit.symm

/-- **Reporting changes nothing**: the report forgotten, this is `AddThreat`. -/
theorem addThreat_traced (fuel : Nat) (owner target : U) (amount : ℚ) (spell : Option SpellInfo)
    (ignoreModifiers ignoreRedirects : Bool) :
    addThreat env ai fuel owner target amount spell ignoreModifiers ignoreRedirects =
      forget (addThreatTraced env ai fuel owner target amount spell ignoreModifiers
        ignoreRedirects) := by
  induction fuel generalizing target amount ignoreModifiers ignoreRedirects with
  | zero => rfl
  | succ fuel ih =>
    rw [addThreat, addThreatTraced]
    by_cases hnone : causesNoThreat env owner spell
    · rw [if_pos hnone, if_pos hnone]
      rfl
    · rw [if_neg hnone, if_neg hnone]
      have hpass := passThreat_traced fun other amount =>
        ih other amount ignoreModifiers ignoreRedirects
      simp only [hpass, forget, map_eq_pure_bind, bind_assoc, pure_bind]
      congr 1
      funext onVehicle
      by_cases haccessory : (env.vehicleBase target).isSome && env.isAccessory target
      · rw [if_pos haccessory, if_pos haccessory]
        rfl
      · rw [if_neg haccessory, if_neg haccessory]
        simp only [bind_assoc]
        congr 1
        funext onSummoner
        by_cases hlist : !env.canHaveThreatList owner
        · rw [if_pos hlist, if_pos hlist]
          simp only [bind_assoc, pure_bind, bind_pure_unit]
        · rw [if_neg hlist, if_neg hlist]
          rw [redirectThreat_traced fun other amount => ih other amount true true]
          simp only [map_eq_pure_bind, bind_assoc, pure_bind]
          grind [map_eq_pure_bind, forget, deliver_traced]

/-! ## What is sent and what arrives -/

/-- What was to be added, to all recipients together. -/
def sentTotal (ds : List (Delivery U)) : ℚ := (ds.map (·.amount)).sum

/-- What was added. -/
def arrivedTotal (ds : List (Delivery U)) : ℚ :=
  (ds.map fun d => if d.arrived then d.amount else 0).sum

theorem sentTotal_append (ds ds' : List (Delivery U)) :
    sentTotal (ds ++ ds') = sentTotal ds + sentTotal ds' := by
  simp [sentTotal]

theorem arrivedTotal_append (ds ds' : List (Delivery U)) :
    arrivedTotal (ds ++ ds') = arrivedTotal ds + arrivedTotal ds' := by
  simp [arrivedTotal]

theorem arrivedTotal_le (ds : List (Delivery U)) (h : ∀ d ∈ ds, 0 ≤ d.amount) :
    arrivedTotal ds ≤ sentTotal ds := by
  induction ds with
  | nil => exact le_rfl
  | cons d ds ih =>
    grind [sentTotal, arrivedTotal]

theorem arrivedTotal_eq (ds : List (Delivery U)) (h : ∀ d ∈ ds, d.amount ≠ 0 → d.arrived = true) :
    arrivedTotal ds = sentTotal ds := by
  rw [arrivedTotal, sentTotal]
  congr 1
  apply List.map_congr_left
  intro d hd
  split
  · rfl
  · next hlost =>
    by_contra hne
    exact hlost (h d hd (Ne.symm hne))

/-- **A world in which `amount` was delivered**: the list gained what arrived. -/
structure Delivered (strict : Prop) (owner : U) (amount : ℚ) (w w' : World U ℚ)
    (ds : List (Delivery U)) : Prop where
  inv : WorldInv strict w'
  gains : Gains owner (arrivedTotal ds) w.threat w'.threat
  nonneg : ∀ d ∈ ds, 0 ≤ d.amount
  sent : sentTotal ds = amount

variable {strict : Prop} {owner target : U} {w w' w'' : World U ℚ} {amount amount' : ℚ}
variable {ds ds' : List (Delivery U)}

theorem Delivered.refl (inv : WorldInv strict w) (owner : U) : Delivered strict owner 0 w w [] :=
  ⟨inv, Gains.refl owner w.threat, by simp, rfl⟩

theorem Delivered.trans (h : Delivered strict owner amount w w' ds)
    (h' : Delivered strict owner amount' w' w'' ds') :
    Delivered strict owner (amount + amount') w w'' (ds ++ ds') where
  inv := h'.inv
  gains := by
    rw [arrivedTotal_append]
    exact h.gains.trans h'.gains
  nonneg d hd := (List.mem_append.mp hd).elim (h.nonneg d) (h'.nonneg d)
  sent := by rw [sentTotal_append, h.sent, h'.sent]

theorem Delivered.of_eq (h : Delivered strict owner amount w w' ds) (he : amount = amount') :
    Delivered strict owner amount' w w' ds := he ▸ h

/-- Adding any amount to `target` delivers it. -/
def Delivers (strict : Prop) (owner : U) (add : U → ℚ → WorldM U ℚ (List (Delivery U)))
    (target : U) : Prop :=
  ∀ w amount, WorldInv strict w → w.threat.Based → 0 ≤ amount →
    wp (fun _ => False) (add target amount) w fun ds w' => Delivered strict owner amount w w' ds

/-! ## One call -/

theorem passTraced_delivers {other : Option U}
    (hadd : ∀ x, other = some x → Delivers strict owner addTraced x) (inv : WorldInv strict w)
    (hb : w.threat.Based) (hamount : 0 ≤ amount) :
    wp (fun _ => False) (passTraced addTraced other amount) w fun res w' =>
      Delivered strict owner (amount - res.2) w w' res.1 ∧ 0 ≤ res.2 ∧
        (other.isSome = true → res.2 = 0) := by
  cases other with
  | none =>
    refine ⟨(Delivered.refl inv owner).of_eq (sub_self amount).symm, hamount, ?_⟩
    intro hsome
    cases hsome
  | some x =>
    simp only [passTraced, wp_bind]
    apply (hadd x rfl w amount inv hb hamount).mono
    intro ds w' h
    exact ⟨h.of_eq (sub_zero amount).symm, le_rfl, fun _ => rfl⟩

theorem redirectTarget_reads (wf : ThreatWF w.threat) (owner guid : U) :
    wp (fun _ => False) (onThreat (redirectTarget env owner guid)) w fun found w' =>
      w' = w ∧ ∀ x, found = some x → x = guid := by
  unfold redirectTarget
  rw [onThreat, wp_zoom]
  simp only [wp_bind, wp_get]
  split
  · next id hid =>
    obtain ⟨r, hr, _, hv⟩ := wf.live hid
    simp only [wp_bind]
    refine wp_derefThreat hr ⟨rfl, ?_⟩
    intro x hx
    rw [← Option.some.inj hx, hv]
  · exact ⟨rfl, fun x hx => env.getUnit_eq hx⟩

/-- The sum of the percentages. -/
def pctTotal (l : List (U × Nat)) : Nat := (l.map Prod.snd).sum

/-- **The redirection loop** hands on what it takes from the amount. -/
theorem redirectTraced_delivers {origAmount : ℚ} (horig : 0 ≤ origAmount) (l : List (U × Nat))
    (hadd : ∀ x ∈ l, Delivers strict owner addTraced x.1) (inv : WorldInv strict w)
    (hb : w.threat.Based) (hleft : origAmount * (pctTotal l : ℚ) / 100 ≤ amount) :
    wp (fun _ => False) (redirectTraced env addTraced owner origAmount l amount) w fun res w' =>
      Delivered strict owner (amount - res.2) w w' res.1 ∧ 0 ≤ res.2 := by
  induction l generalizing w amount with
  | nil =>
    refine ⟨(Delivered.refl inv owner).of_eq (sub_self amount).symm, ?_⟩
    simpa [pctTotal] using hleft
  | cons x rest ih =>
    obtain ⟨guid, pct⟩ := x
    have hrest : ∀ x ∈ rest, Delivers strict owner addTraced x.1 :=
      fun x hx => hadd x (List.mem_cons_of_mem _ hx)
    have hpct : (pctTotal ((guid, pct) :: rest) : ℚ) = pct + pctTotal rest := by
      simp [pctTotal]
    have hshare : 0 ≤ origAmount * (pct : ℚ) / 100 := by positivity
    rw [hpct, mul_add, add_div] at hleft
    simp only [redirectTraced, wp_bind]
    apply (redirectTarget_reads inv.threat owner guid).mono
    intro found w₁ hfound
    obtain ⟨rfl, hguid⟩ := hfound
    cases found with
    | none => exact ih hrest inv hb (by linarith)
    | some redirTarget =>
      obtain rfl := hguid _ rfl
      have hshare_eq : (calculatePct origAmount pct : ℚ) = origAmount * (pct : ℚ) / 100 := by
        show origAmount * (((pct : Int) : ℚ)) / ((100 : Int) : ℚ) = _
        push_cast
        rfl
      simp only [wp_bind, hshare_eq]
      apply (hadd (redirTarget, pct) (List.mem_cons_self ..) w₁ _ inv hb hshare).mono
      intro ds w₂ h₂
      apply (ih hrest h₂.inv (h₂.gains.based hb) (by linarith)).mono
      intro res w₃ h₃
      refine ⟨(h₂.trans h₃.1).of_eq ?_, h₃.2⟩
      linarith

variable (hai : AIContract strict (fun _ => False) ai)

include hai

/-- **The target's own entry.** -/
theorem deliver_delivers (inv : WorldInv strict w) (hb : w.threat.Based) (hamount : 0 ≤ amount)
    (owner target : U) :
    wp (fun _ => False) (deliver env ai owner target amount) w fun ds w' =>
      Delivered strict owner amount w w' ds := by
  unfold deliver
  rw [wp_bind]
  apply (setInCombatWith_spec hai inv owner target false).mono
  intro inCombat w₁ h₁
  obtain ⟨hhooked, hentry⟩ := h₁
  have hsent : ∀ arrived, sentTotal [(⟨target, amount, arrived⟩ : Delivery U)] = amount := by
    intro arrived
    simp [sentTotal]
  apply wp_ite
  · intro hin
    obtain ⟨b, i, he⟩ := hentry hin
    have hb₁ : w₁.threat.Based := by
      rw [hhooked.threat]
      exact hb
    rw [wp_bind]
    apply ((applyThreat_spec hai hhooked.inv he amount).and
      (applyThreat_flow hai hhooked.inv he hb₁ hamount)).mono
    intro _ w₂ h₂
    obtain ⟨hended, id, r, hreached⟩ := h₂
    simp only [wp_bind, wp_get, wp_pure]
    have honline : w₂.threat.onlineEntry owner target = r.isOnline := by
      rw [ThreatState.onlineEntry, hreached.entry, Option.any_some, hreached.live, Option.any_some]
    refine ⟨hended.inv, ?_, by simpa using hamount, hsent _⟩
    rw [honline, ← hhooked.threat]
    simpa [arrivedTotal] using hreached.gains
  · intro _
    refine ⟨hhooked.inv, ?_, by simpa using hamount, hsent _⟩
    rw [hhooked.threat]
    simpa [arrivedTotal] using Gains.refl owner w.threat

variable {fuel : Nat} {spell : Option SpellInfo} {ignoreRedirects : Bool}

/-- **One level of the recursion**, where the nested calls deliver. -/
theorem addThreatTraced_delivers (hlist : env.canHaveThreatList owner = true)
    (hspell : causesNoThreat env owner spell = false)
    (hpct : ∀ u, pctTotal (env.redirectInfo u) ≤ 100)
    (hother : ∀ x, env.vehicleBase target = some x ∨ env.privateObjectOwner owner target = some x →
      Delivers strict owner
        (fun x a => addThreatTraced env ai fuel owner x a spell true ignoreRedirects) x)
    (hredirect : ignoreRedirects = false → ∀ x ∈ env.redirectInfo target,
      Delivers strict owner (fun x a => addThreatTraced env ai fuel owner x a spell true true) x.1) :
    Delivers strict owner
      (fun x a => addThreatTraced env ai (fuel + 1) owner x a spell true ignoreRedirects)
      target := by
  intro w amount inv hb hamount
  simp only [addThreatTraced, hspell, hlist, Bool.false_eq_true, if_false, if_true, Bool.not_true,
    wp_bind]
  apply (passTraced_delivers (fun x hx => hother x (.inl hx)) inv hb hamount).mono
  intro onVehicle w₁ h₁
  obtain ⟨h₁, hleft₁, hzero⟩ := h₁
  apply wp_ite
  · -- an accessory keeps nothing for itself
    intro haccessory
    rw [Bool.and_eq_true] at haccessory
    exact h₁.of_eq (by rw [hzero haccessory.1, sub_zero])
  · intro _
    rw [wp_bind]
    apply (passTraced_delivers (fun x hx => hother x (.inr hx)) h₁.inv (h₁.gains.based hb)
      hleft₁).mono
    intro onSummoner w₂ h₂
    obtain ⟨h₂, hleft₂, _⟩ := h₂
    have h₀₂ := h₁.trans h₂
    simp only [wp_bind]
    have hredirections : ∀ l, l = env.redirectInfo target ∧ ignoreRedirects = false ∨ l = [] →
        wp (fun _ => False) (redirectTraced env
          (fun x a => addThreatTraced env ai fuel owner x a spell true true) owner onSummoner.2 l
          onSummoner.2) w₂ fun res w₃ =>
            Delivered strict owner (onSummoner.2 - res.2) w₂ w₃ res.1 ∧ 0 ≤ res.2 := by
      intro l hl
      apply redirectTraced_delivers hleft₂ l ?_ h₂.inv (h₀₂.gains.based hb)
      · have hle : (pctTotal l : ℚ) ≤ 100 := by
          rcases hl with hl | hl
          · rw [hl.1]
            exact_mod_cast hpct target
          · simp [hl, pctTotal]
        have hmul := mul_le_mul_of_nonneg_left hle hleft₂
        linarith
      · grind
    apply (hredirections _ ?_).mono
    · intro redirected w₃ h₃
      have h₀₃ := h₀₂.trans h₃.1
      apply (deliver_delivers hai h₃.1.inv (h₀₃.gains.based hb) h₃.2 owner target).mono
      intro own w₄ h₄
      exact (h₀₃.trans h₄).of_eq (by linarith)
    · grind

/-! ## The recursion ends -/

/-- `AddThreat` on `x` calls itself on `y`, for all of the amount. -/
def Indirection (env : Env U ℚ) (owner y x : U) : Prop :=
  env.vehicleBase x = some y ∨ env.privateObjectOwner owner x = some y

omit hai in
theorem enough_common {α : Type} {P : Nat → α → Prop} (l : List α)
    (h : ∀ x ∈ l, ∃ n, ∀ k, n ≤ k → P k x) : ∃ n, ∀ k, n ≤ k → ∀ x ∈ l, P k x := by
  induction l with
  | nil => exact ⟨0, by simp⟩
  | cons x l ih =>
    obtain ⟨n, hn⟩ := h x (List.mem_cons_self ..)
    obtain ⟨m, hm⟩ := ih fun y hy => h y (List.mem_cons_of_mem _ hy)
    refine ⟨max n m, fun k hk y hy => ?_⟩
    grind

/-- **Enough fuel delivers**, by induction on the indirections; redirection targets do not
redirect further. -/
theorem addThreatTraced_enough (hlist : env.canHaveThreatList owner = true)
    (hspell : causesNoThreat env owner spell = false)
    (hpct : ∀ u, pctTotal (env.redirectInfo u) ≤ 100)
    (hacyclic : WellFounded (Indirection env owner)) (ignoreRedirects : Bool) (target : U)
    (hredirect : ignoreRedirects = false → ∀ x, ∃ n, ∀ fuel, n ≤ fuel → Delivers strict owner
      (fun x a => addThreatTraced env ai fuel owner x a spell true true) x) :
    ∃ n, ∀ fuel, n ≤ fuel → Delivers strict owner
      (fun x a => addThreatTraced env ai fuel owner x a spell true ignoreRedirects) target := by
  induction target using hacyclic.induction with
  | h target ih =>
  let others := (env.vehicleBase target).toList ++ (env.privateObjectOwner owner target).toList
  have hmem : ∀ x, x ∈ others ↔ Indirection env owner x target := by
    intro x
    simp [others, Indirection, Option.mem_toList]
  obtain ⟨n, hn⟩ := enough_common others fun x hx => ih x ((hmem x).mp hx)
  obtain ⟨m, hm⟩ : ∃ m, ∀ fuel, m ≤ fuel → ignoreRedirects = false →
      ∀ x ∈ env.redirectInfo target, Delivers strict owner
        (fun x a => addThreatTraced env ai fuel owner x a spell true true) x.1 := by
    cases ignoreRedirects with
    | true => exact ⟨0, fun _ _ h => absurd h (by decide)⟩
    | false =>
      obtain ⟨m, hm⟩ := enough_common (env.redirectInfo target) fun x _ => hredirect rfl x.1
      exact ⟨m, fun fuel hfuel _ => hm fuel hfuel⟩
  refine ⟨max n m + 1, fun fuel hfuel => ?_⟩
  obtain ⟨fuel, rfl⟩ : ∃ k, fuel = k + 1 := ⟨fuel - 1, by omega⟩
  have hle : max n m ≤ fuel := Nat.le_of_succ_le_succ hfuel
  apply addThreatTraced_delivers hai hlist hspell hpct
  · exact fun x hx => hn fuel ((le_max_left n m).trans hle) x ((hmem x).mpr hx)
  · exact hm fuel ((le_max_right n m).trans hle)

/-! ## Conservation -/

/-- The redirection data of `u` is what the calls of some spells left. -/
def Registered (env : Env U ℚ) (u : U) : Prop :=
  ∃ m : RedirectManager U,
    Reaches RedirectManager.Step (fun _ _ => True) RedirectManager.empty m ∧
      env.redirectInfo u = m.redirectInfo.map fun x => (x.1, x.2.toNat)

omit hai in
theorem Registered.pctTotal_le {u : U} (h : Registered env u) :
    pctTotal (env.redirectInfo u) ≤ 100 := by
  obtain ⟨m, hm, hinfo⟩ := h
  have htotal := (RedirectManager.accounts_of_reaches hm).total
  have hsum : pctTotal (env.redirectInfo u) = RedirectManager.totalOf m.redirectInfo := by
    rw [hinfo, pctTotal, RedirectManager.totalOf, List.map_map]
    rfl
  rw [hsum, htotal]
  exact Nat.min_le_left ..

/-- **Redirection conserves threat.** The registry hands out positive percentages of what was
registered, a hundred in all or everything. And adding threat, with modifiers ignored, lowers
no entry and gives the list no more than was to be added; it gives all of it, if the spell is
one that causes threat and every amount arrives where it was sent. -/
theorem addThreat_conserves (hinfo : ∀ u, Registered env u)
    (hacyclic : WellFounded (Indirection env owner)) (hlist : env.canHaveThreatList owner = true)
    (inv : WorldInv strict w) (hb : w.threat.Based) (hamount : 0 ≤ amount) :
    (∀ m : RedirectManager U,
      Reaches RedirectManager.Step (fun _ _ => True) RedirectManager.empty m → m.Accounts) ∧
    ∃ n, ∀ fuel, n ≤ fuel → ∃ ds w',
      (addThreatTraced env ai fuel owner target amount spell true ignoreRedirects).run w =
        .ok (ds, w') ∧
      (addThreat env ai fuel owner target amount spell true ignoreRedirects).run w =
        .ok ((), w') ∧
      (∀ u v id, w.threat.myThreat u v = some id →
        w'.threat.myThreat u v = some id ∧ w.threat.baseOf id ≤ w'.threat.baseOf id) ∧
      w'.threat.totalThreat owner = w.threat.totalThreat owner + arrivedTotal ds ∧
      w'.threat.totalThreat owner ≤ w.threat.totalThreat owner + amount ∧
      (causesNoThreat env owner spell = false → (∀ d ∈ ds, d.amount ≠ 0 → d.arrived = true) →
        w'.threat.totalThreat owner = w.threat.totalThreat owner + amount) := by
  refine ⟨fun m hm => RedirectManager.accounts_of_reaches hm, ?_⟩
  -- both programs at once
  have hboth : ∀ {fuel ds w'},
      (addThreatTraced env ai fuel owner target amount spell true ignoreRedirects).run w =
        .ok (ds, w') →
      (addThreat env ai fuel owner target amount spell true ignoreRedirects).run w =
        .ok ((), w') := by
    intro fuel ds w' h
    rw [addThreat_traced, forget, StateT.run_map, h]
    rfl
  cases hspell : causesNoThreat env owner spell with
  | true =>
    refine ⟨1, fun fuel hfuel => ⟨[], w, ?_⟩⟩
    obtain ⟨fuel, rfl⟩ : ∃ k, fuel = k + 1 := ⟨fuel - 1, by omega⟩
    have hrun : (addThreatTraced env ai (fuel + 1) owner target amount spell true
        ignoreRedirects).run w = .ok ([], w) := by
      rw [addThreatTraced, if_pos hspell]
      rfl
    grind [arrivedTotal]
  | false =>
    have hpct : ∀ u, pctTotal (env.redirectInfo u) ≤ 100 := fun u => (hinfo u).pctTotal_le
    obtain ⟨n, hn⟩ := addThreatTraced_enough hai hlist hspell hpct hacyclic ignoreRedirects target
      fun _ x => addThreatTraced_enough hai hlist hspell hpct hacyclic true x
        fun h => absurd h (by decide)
    refine ⟨n, fun fuel hfuel => ?_⟩
    obtain ⟨ds, w', hrun, h⟩ := (hn fuel hfuel w amount inv hb hamount).returns
    refine ⟨ds, w', hrun, hboth hrun, ?_, h.gains.total, ?_, ?_⟩
    · exact fun _ _ _ hid => ⟨h.gains.kept hid, h.gains.notLess hid⟩
    · have hle := arrivedTotal_le ds h.nonneg
      rw [h.sent] at hle
      linarith [h.gains.total]
    · intro _ hall
      rw [h.gains.total, arrivedTotal_eq ds hall, h.sent]

/-- The tank sends three tenths of its threat to the rogue. -/
def Env.misdirected : Env Fighter ℚ :=
  { Env.arena with redirectInfo := fun u => if u = .tank then [(.rogue, 30)] else [] }

omit hai in
theorem misdirected_registered (u : Fighter) : Registered Env.misdirected u := by
  cases u with
  | tank =>
    refine ⟨⟨⟨[⟨34477, ⟨[(.rogue, 30)], by simp⟩⟩], by simp⟩, [(.rogue, 30)]⟩, ?_, rfl⟩
    apply (Reaches.refl _).next (a := .registerRedirectThreat (Arrangement.id _) (Arrangement.id _)
      34477 .rogue 30) trivial
    rfl
  | boss => exact ⟨RedirectManager.empty, Reaches.refl _, rfl⟩
  | rogue => exact ⟨RedirectManager.empty, Reaches.refl _, rfl⟩

omit hai in
/-- The tank and the rogue together get no more than the ten points of the attack. -/
theorem addThreat_conserves_misdirected :
    ∃ n, ∀ fuel, n ≤ fuel → ∃ w',
      (addThreat Env.misdirected silentAI fuel .boss .tank 10 none true false).run World.init =
        .ok ((), w') ∧ w'.threat.totalThreat .boss ≤ 10 := by
  have hai : AIContract False (fun _ => False) (silentAI : AI Fighter ℚ) := silentAI_contract
  have hacyclic : WellFounded (Indirection Env.misdirected Fighter.boss) := by
    refine ⟨fun x => ⟨x, fun y hy => ?_⟩⟩
    rcases hy with hy | hy <;> cases hy
  have hb : (ThreatState.init : ThreatState Fighter ℚ).Based := fun _ => le_rfl
  obtain ⟨_, n, hn⟩ := addThreat_conserves hai misdirected_registered hacyclic rfl WorldInv.init hb
    (by norm_num : (0 : ℚ) ≤ 10)
  refine ⟨n, fun fuel hfuel => ?_⟩
  obtain ⟨ds, w', _, hrun, _, _, hle, _⟩ := hn fuel hfuel
  refine ⟨w', hrun, ?_⟩
  simpa [ThreatState.totalThreat, World.init, ThreatState.init] using hle

omit hai in
/-- **A spell without threat.** The tank can be fought and its reference is online, as the same
call without the spell shows; with the spell, nothing is added of the ten points. -/
theorem addThreat_noThreat :
    (∃ w', (addThreatTraced Env.arena silentAI 1 .boss .tank 10 none true true).run World.init =
      .ok ([⟨.tank, 10, true⟩], w')) ∧
    ∃ w', (addThreat Env.arena silentAI 1 .boss .tank 10 (some ⟨true, false, 17⟩) true true).run
        World.init = .ok ((), w') ∧
      w'.threat.totalThreat .boss ≠ (World.init : World Fighter ℚ).threat.totalThreat .boss + 10 := by
  constructor
  · have h : (match (addThreatTraced Env.arena silentAI 1 .boss .tank 10 none true true).run
        World.init with
        | .ok (ds, _) => decide (ds = [⟨.tank, 10, true⟩])
        | .error _ => false) = true := by decide +kernel
    grind
  · refine ⟨World.init, rfl, ?_⟩
    simp [ThreatState.totalThreat, World.init, ThreatState.init]

end EGServer.Combat
