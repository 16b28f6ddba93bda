import EGServer.Chat.ChatCommand
import Mathlib.Algebra.Ring.Nat
import Mathlib.Tactic.Common

/-!
# Amounts of money and time

`MoneyStringToMoney` and `TimeStringToSecs`, which read sums such as `3g 20s` and `1d12h`. Both
multiply and add in 32 bits. `Amounts` and `decimal` say what the strings mean, and
`amounts_exact_iff` for which of them the result is what they mean.
-/

namespace EGServer.Utilities

open Chat (Text)

def isdigit (c : UInt8) : Bool := 48 ≤ c && c ≤ 57

/-- The value of a decimal digit. -/
def digit (c : UInt8) : Nat := c.toNat - 48

/-- The value of a string of decimal digits. -/
def decimal (s : Text) : Nat := s.foldl (fun n c => 10 * n + digit c) 0

@[simp] theorem decimal_concat (s : Text) (c : UInt8) :
    decimal (s ++ [c]) = 10 * decimal s + digit c := by
  simp [decimal]

/-- `StringTo<uint32>`: `std::from_chars`, which has to read the whole view. -/
def stringToUInt32 (s : Text) : Option UInt32 :=
  if s ≠ [] ∧ s.all isdigit ∧ decimal s < 2 ^ 32 then some (UInt32.ofNat (decimal s)) else none

/-- `Tokenize`, with the token that is being read. -/
def tokenize (sep : UInt8) (keepEmpty : Bool) : Text → Text → List Text
  | token, [] => if keepEmpty || token ≠ [] then [token] else []
  | token, c :: rest =>
    if c = sep then
      (if keepEmpty || token ≠ [] then [token] else []) ++ tokenize sep keepEmpty [] rest
    else tokenize sep keepEmpty (token ++ [c]) rest

/-- A number with the letter of its unit. -/
structure Amount where
  digits : Text
  letter : UInt8
  deriving DecidableEq

namespace Amount

variable (a : Amount)

def text : Text := a.digits ++ [a.letter]

/-- The amount, in the smallest unit. -/
def value (unit : UInt8 → Nat) : Nat := decimal a.digits * unit a.letter

/-- Decimal digits and the letter of a unit. -/
def WellFormed (unit : UInt8 → Nat) : Prop :=
  a.digits ≠ [] ∧ a.digits.all isdigit ∧ unit a.letter ≠ 0

instance (unit : UInt8 → Nat) : Decidable (a.WellFormed unit) :=
  inferInstanceAs (Decidable (_ ∧ _ ∧ _))

end Amount

/-- The sum of amounts. -/
def total (unit : UInt8 → Nat) (l : List Amount) : Nat := (l.map fun a => a.value unit).sum

@[simp] theorem total_nil (unit : UInt8 → Nat) : total unit [] = 0 := rfl

@[simp] theorem total_cons (unit : UInt8 → Nat) (a : Amount) (l : List Amount) :
    total unit (a :: l) = a.value unit + total unit l := by
  simp [total]

@[simp] theorem total_append (unit : UInt8 → Nat) (l l' : List Amount) :
    total unit (l ++ l') = total unit l + total unit l' := by
  simp [total]

/-! ## Money -/

def GOLD_LETTER : UInt8 := 103
def SILVER_LETTER : UInt8 := 115
def COPPER_LETTER : UInt8 := 99

/-- What a letter is worth in copper; 0 for other letters. -/
def moneyUnit (c : UInt8) : Nat :=
  if c = GOLD_LETTER then 10000 else if c = SILVER_LETTER then 100
  else if c = COPPER_LETTER then 1 else 0

structure MoneyState where
  money : Int32 := 0
  hadG : Bool := false
  hadS : Bool := false
  hadC : Bool := false

/-- The `switch` over the last letter of a token. -/
def MoneyState.takeUnit (st : MoneyState) (c : UInt8) : Option (UInt32 × MoneyState) :=
  if c = GOLD_LETTER then if st.hadG then none else some (100 * 100, { st with hadG := true })
  else if c = SILVER_LETTER then if st.hadS then none else some (100, { st with hadS := true })
  else if c = COPPER_LETTER then if st.hadC then none else some (1, { st with hadC := true })
  else none

/-- A round of the loop. The product is a `uint32`, and adding it to the `int32` is done in
`uint32`. -/
def MoneyState.readToken (st : MoneyState) (token : Text) : Option MoneyState := do
  let (unit, st) ← st.takeUnit (← token.getLast?)
  let amount ← stringToUInt32 token.dropLast
  return { st with money := (st.money.toUInt32 + unit * amount).toInt32 }

def moneyTokens (moneyString : Text) : List Text := tokenize 32 false [] moneyString

def MoneyStringToMoney (moneyString : Text) : Option Int32 :=
  ((moneyTokens moneyString).foldlM MoneyState.readToken {}).map MoneyState.money

/-- The amounts that are read off the tokens. -/
def moneyAmounts (moneyString : Text) : List Amount :=
  (moneyTokens moneyString).map fun token => ⟨token.dropLast, token.getLastD 0⟩

/-- What the money string says: every token is an amount, and no unit is given twice. -/
def MeansMoney (moneyString : Text) (copper : Int) : Prop :=
  (∀ a ∈ moneyAmounts moneyString, a.WellFormed moneyUnit) ∧
    ((moneyAmounts moneyString).map Amount.letter).Nodup ∧
    copper = total moneyUnit (moneyAmounts moneyString)

def MoneyState.had (st : MoneyState) (c : UInt8) : Bool :=
  (c == GOLD_LETTER && st.hadG) || (c == SILVER_LETTER && st.hadS) ||
    (c == COPPER_LETTER && st.hadC)

theorem MoneyState.takeUnit_some {st st' : MoneyState} {c : UInt8} {unit : UInt32}
    (h : st.takeUnit c = some (unit, st')) :
    unit.toNat = moneyUnit c ∧ moneyUnit c ≠ 0 ∧ st.had c = false ∧ st'.money = st.money ∧
      ∀ c', st'.had c' = true ↔ st.had c' = true ∨ c' = c := by
  unfold takeUnit at h
  split at h
  · next hc =>
    subst hc
    split at h
    · cases h
    · next hno =>
      cases h
      refine ⟨rfl, by decide, ?_, rfl, fun c' => ?_⟩
      · simpa [had, GOLD_LETTER, SILVER_LETTER, COPPER_LETTER] using hno
      · simp [had]
        grind
  · split at h
    · next hc =>
      subst hc
      split at h
      · cases h
      · next hno =>
        cases h
        refine ⟨rfl, by decide, ?_, rfl, fun c' => ?_⟩
        · simpa [had, GOLD_LETTER, SILVER_LETTER, COPPER_LETTER] using hno
        · simp [had]
          grind
    · split at h
      · next hc =>
        subst hc
        split at h
        · cases h
        · next hno =>
          cases h
          refine ⟨rfl, by decide, ?_, rfl, fun c' => ?_⟩
          · simpa [had, GOLD_LETTER, SILVER_LETTER, COPPER_LETTER] using hno
          · simp [had]
            grind
      · cases h

theorem stringToUInt32_some {s : Text} {n : UInt32} (h : stringToUInt32 s = some n) :
    s ≠ [] ∧ s.all isdigit ∧ n.toNat = decimal s := by
  unfold stringToUInt32 at h
  split at h
  · next hs =>
    cases h
    refine ⟨hs.1, hs.2.1, ?_⟩
    rw [UInt32.toNat_ofNat']
    exact Nat.mod_eq_of_lt hs.2.2
  · cases h

/-- The amounts read so far are those of `l`. -/
structure MoneyState.Reads (st : MoneyState) (l : List Amount) : Prop where
  wellFormed : ∀ a ∈ l, a.WellFormed moneyUnit
  money : st.money.toUInt32.toNat = total moneyUnit l % 2 ^ 32
  had : ∀ c, st.had c = true ↔ c ∈ l.map Amount.letter
  nodup : (l.map Amount.letter).Nodup

theorem MoneyState.Reads.readToken {st st' : MoneyState} {l : List Amount} {token : Text}
    (hst : st.Reads l) (h : st.readToken token = some st') :
    st'.Reads (l ++ [⟨token.dropLast, token.getLastD 0⟩]) := by
  unfold MoneyState.readToken at h
  simp only [Option.bind_eq_bind, Option.bind_eq_some_iff, Prod.exists] at h
  obtain ⟨c, hc, unit, st₁, hunit, amount, hamount, h⟩ := h
  cases h
  obtain ⟨hu, hne, hfresh, hmoney, hhad⟩ := MoneyState.takeUnit_some hunit
  obtain ⟨hdigits, hall, hn⟩ := stringToUInt32_some hamount
  have hlast : token.getLastD 0 = c := by
    rw [List.getLastD_eq_getLast?, hc]
    rfl
  rw [hlast]
  constructor
  · intro a ha
    rcases List.mem_append.mp ha with ha | ha
    · exact hst.wellFormed a ha
    · rw [List.mem_singleton.mp ha]
      exact ⟨hdigits, hall, hne⟩
  · rw [UInt32.toUInt32_toInt32, hmoney, UInt32.toNat_add, UInt32.toNat_mul, hst.money, hn, hu]
    simp only [total_append, total_cons, total_nil, Amount.value]
    rw [Nat.mul_comm (decimal _)]
    omega
  · intro c'
    rw [List.map_append, List.mem_append, List.map_singleton, List.mem_singleton, ← hst.had c']
    exact hhad c'
  · rw [List.map_append, List.map_singleton]
    apply List.Nodup.append hst.nodup (List.nodup_singleton c)
    rw [List.disjoint_singleton, ← hst.had c, hfresh]
    exact Bool.false_ne_true

theorem MoneyState.Reads.readTokens {tokens : List Text} {st st' : MoneyState} {l : List Amount}
    (hst : st.Reads l) (h : tokens.foldlM MoneyState.readToken st = some st') :
    st'.Reads (l ++ tokens.map fun token => ⟨token.dropLast, token.getLastD 0⟩) := by
  induction tokens generalizing st l with
  | nil =>
    cases h
    simpa using hst
  | cons token tokens ih =>
    rw [List.foldlM_cons, Option.bind_eq_bind, Option.bind_eq_some_iff] at h
    obtain ⟨st₁, h₁, h⟩ := h
    simpa using ih (hst.readToken h₁) h

theorem MoneyState.reads_new : ({} : MoneyState).Reads [] where
  wellFormed a ha := by cases ha
  money := rfl
  had c := by simp [MoneyState.had]
  nodup := List.nodup_nil

theorem toInt_eq (v : Int32) :
    v.toInt = if v.toUInt32.toNat < 2 ^ 31 then (v.toUInt32.toNat : Int)
      else v.toUInt32.toNat - 2 ^ 32 := by
  rw [← Int32.toInt_toBitVec, BitVec.toInt_eq_toNat_cond, Int32.toNat_toBitVec]
  split <;> split <;> omega

theorem money_iff {s : Text} {v : Int32} (h : MoneyStringToMoney s = some v) :
    (MeansMoney s v.toInt ∧ 0 ≤ v.toInt) ↔ total moneyUnit (moneyAmounts s) < 2 ^ 31 := by
  unfold MoneyStringToMoney at h
  obtain ⟨st, hst, rfl⟩ := Option.map_eq_some_iff.mp h
  have hreads := MoneyState.reads_new.readTokens hst
  rw [List.nil_append] at hreads
  have hmod := hreads.money
  have hv := toInt_eq st.money
  have hlt := st.money.toUInt32.toNat_lt
  rw [show (moneyTokens s).map _ = moneyAmounts s from rfl] at hmod
  constructor
  · rintro ⟨⟨-, -, heq⟩, hnonneg⟩
    split at hv <;> omega
  · intro hfits
    have heq : st.money.toInt = total moneyUnit (moneyAmounts s) := by
      rw [hv]
      split <;> omega
    exact ⟨⟨hreads.wellFormed, hreads.nodup, heq⟩, by omega⟩

/-! ## Time -/

def MINUTE : UInt32 := 60
def HOUR : UInt32 := MINUTE * 60
def DAY : UInt32 := HOUR * 24

/-- The `switch` over a letter. -/
def timeMultiplier (c : UInt8) : Option UInt32 :=
  if c = 100 then some DAY
  else if c = 104 then some HOUR
  else if c = 109 then some MINUTE
  else if c = 115 then some 1
  else none

/-- What a letter is worth in seconds; 0 for other letters. -/
def timeUnit (c : UInt8) : Nat := ((timeMultiplier c).map UInt32.toNat).getD 0

structure TimeState where
  secs : UInt32 := 0
  buffer : UInt32 := 0
  multiplier : UInt32 := 0

/-- A round of the loop. -/
def TimeState.readChar (st : TimeState) (itr : UInt8) : Option TimeState :=
  if isdigit itr then some { st with buffer := st.buffer * 10 + (itr - 48).toUInt32 }
  else do
    let multiplier ← timeMultiplier itr
    return { secs := st.secs + st.buffer * multiplier, buffer := 0, multiplier }

def TimeStringToSecs (timestring : Text) : UInt32 :=
  match timestring.foldlM TimeState.readChar {} with
  | some st => st.secs
  | none => 0

/-- The amounts of a string, and the digits behind the last one; nothing for a string with a
character that is neither a digit nor the letter of a unit. -/
def timeAmounts : Text → Text → Option (List Amount × Text)
  | digits, [] => some ([], digits)
  | digits, c :: rest =>
    if isdigit c then timeAmounts (digits ++ [c]) rest
    else if timeUnit c = 0 then none
    else (timeAmounts [] rest).map fun p => (⟨digits, c⟩ :: p.1, p.2)

/-- The string is `l` written down. -/
def SpellsTime (timestring : Text) (l : List Amount) : Prop :=
  timestring = l.flatMap Amount.text ∧ ∀ a ∈ l, a.WellFormed timeUnit

/-- What `TimeStringToSecs` is to return: the sum, or 0 for a malformed string. -/
def MeansTime (timestring : Text) (secs : Nat) : Prop :=
  (∀ l, SpellsTime timestring l → secs = total timeUnit l) ∧
    ((∀ l, ¬SpellsTime timestring l) → secs = 0)

/-- The strings that are read rightly. A malformed string is one with a bad character, or with
digits that no letter follows or a letter without digits. -/
def ReadsTime (timestring : Text) : Prop :=
  match timeAmounts [] timestring with
  | none => True
  | some (l, rest) =>
    if rest = [] ∧ ∀ a ∈ l, a.digits ≠ [] then total timeUnit l < 2 ^ 32
    else 2 ^ 32 ∣ total timeUnit l

theorem isdigit_of_timeUnit {c : UInt8} (h : timeUnit c ≠ 0) : isdigit c = false := by
  unfold timeUnit timeMultiplier at h
  split at h
  · next hc => rw [hc]; rfl
  · split at h
    · next hc => rw [hc]; rfl
    · split at h
      · next hc => rw [hc]; rfl
      · split at h
        · next hc => rw [hc]; rfl
        · exact absurd rfl h

theorem timeMultiplier_of_timeUnit {c : UInt8} (h : timeUnit c ≠ 0) :
    ∃ multiplier, timeMultiplier c = some multiplier ∧ multiplier.toNat = timeUnit c := by
  cases hm : timeMultiplier c with
  | none => exact absurd (by rw [timeUnit, hm]; rfl) h
  | some multiplier => exact ⟨multiplier, rfl, by rw [timeUnit, hm]; rfl⟩

theorem timeMultiplier_of_timeUnit_eq_zero {c : UInt8} (h : timeUnit c = 0) :
    timeMultiplier c = none := by
  cases hm : timeMultiplier c with
  | none => rfl
  | some multiplier =>
    unfold timeUnit at h
    rw [hm] at h
    unfold timeMultiplier at hm
    split at hm
    · cases hm; cases h
    · split at hm
      · cases hm; cases h
      · split at hm
        · cases hm; cases h
        · split at hm
          · cases hm; cases h
          · cases hm

theorem toNat_digit {c : UInt8} (h : isdigit c = true) : (c - 48).toUInt32.toNat = digit c := by
  simp only [isdigit, Bool.and_eq_true, decide_eq_true_eq, UInt8.le_iff_toNat_le] at h
  rw [UInt8.toNat_toUInt32, UInt8.toNat_sub_of_le _ _ (UInt8.le_iff_toNat_le.mpr h.1)]
  rfl

theorem foldlM_readChar {s digits : Text} {st : TimeState}
    (hst : st.buffer.toNat = decimal digits % 2 ^ 32) :
    match timeAmounts digits s with
    | none => s.foldlM TimeState.readChar st = none
    | some (l, _) => ∃ st', s.foldlM TimeState.readChar st = some st' ∧
        st'.secs.toNat = (st.secs.toNat + total timeUnit l) % 2 ^ 32 := by
  induction s generalizing digits st with
  | nil =>
    refine ⟨st, rfl, ?_⟩
    rw [total_nil, Nat.add_zero]
    exact (Nat.mod_eq_of_lt st.secs.toNat_lt).symm
  | cons c rest ih =>
    rw [timeAmounts, List.foldlM_cons]
    by_cases hdigit : isdigit c = true
    · have hread : st.readChar c =
          some { st with buffer := st.buffer * 10 + (c - 48).toUInt32 } := by
        rw [TimeState.readChar, if_pos hdigit]
      rw [if_pos hdigit, hread]
      apply ih
      show (st.buffer * 10 + (c - 48).toUInt32).toNat = _
      rw [UInt32.toNat_add, UInt32.toNat_mul, hst, toNat_digit hdigit, decimal_concat]
      simp only [UInt32.reduceToNat]
      omega
    rw [if_neg hdigit]
    by_cases hunit : timeUnit c = 0
    · have hread : st.readChar c = none := by
        rw [TimeState.readChar, if_neg hdigit, timeMultiplier_of_timeUnit_eq_zero hunit]
        rfl
      rw [if_pos hunit, hread]
      rfl
    · obtain ⟨multiplier, hm, hvalue⟩ := timeMultiplier_of_timeUnit hunit
      have hread : st.readChar c = some
          { secs := st.secs + st.buffer * multiplier, buffer := 0, multiplier } := by
        rw [TimeState.readChar, if_neg hdigit, hm]
        rfl
      rw [if_neg hunit, hread]
      have hrest := @ih [] { secs := st.secs + st.buffer * multiplier, buffer := 0, multiplier } rfl
      cases hl : timeAmounts [] rest with
      | none =>
        rw [hl] at hrest
        exact hrest
      | some p =>
        rw [hl] at hrest
        obtain ⟨st', hfold, hsecs⟩ := hrest
        refine ⟨st', hfold, ?_⟩
        rw [hsecs]
        show ((st.secs + st.buffer * multiplier).toNat + total timeUnit p.1) % 2 ^ 32 = _
        rw [UInt32.toNat_add, UInt32.toNat_mul, hst, hvalue, total_cons, Amount.value]
        have hmod : decimal digits % 2 ^ 32 * timeUnit c % 2 ^ 32 =
            decimal digits * timeUnit c % 2 ^ 32 := Nat.mod_mul_mod _ _ _
        dsimp only
        omega

theorem timeAmounts_digits {ds : Text} (h : ds.all isdigit) (digits s : Text) :
    timeAmounts digits (ds ++ s) = timeAmounts (digits ++ ds) s := by
  induction ds generalizing digits with
  | nil => rw [List.nil_append, List.append_nil]
  | cons c ds ih =>
    rw [List.all_cons, Bool.and_eq_true] at h
    rw [List.cons_append, timeAmounts, if_pos h.1, ih h.2, List.append_assoc, List.singleton_append]

theorem timeAmounts_of_spells {s : Text} {l : List Amount} (h : SpellsTime s l) :
    timeAmounts [] s = some (l, []) := by
  obtain ⟨rfl, hl⟩ := h
  induction l with
  | nil => rfl
  | cons a l ih =>
    obtain ⟨-, hdigits, hunit⟩ := hl a List.mem_cons_self
    have hrest := ih fun b hb => hl b (List.mem_cons_of_mem a hb)
    rw [List.flatMap_cons, Amount.text, List.append_assoc, timeAmounts_digits hdigits,
      List.singleton_append, timeAmounts, isdigit_of_timeUnit hunit, if_neg hunit, hrest]
    rfl

theorem spells_of_timeAmounts {s digits rest : Text} {l : List Amount} (hd : digits.all isdigit)
    (h : timeAmounts digits s = some (l, rest)) :
    digits ++ s = l.flatMap Amount.text ++ rest ∧
      ∀ a ∈ l, a.digits.all isdigit ∧ timeUnit a.letter ≠ 0 := by
  induction s generalizing digits l with
  | nil =>
    cases h
    exact ⟨List.append_nil _, fun a ha => by cases ha⟩
  | cons c s ih =>
    rw [timeAmounts] at h
    split at h
    · next hc =>
      have hall : (digits ++ [c]).all isdigit := by simp [hd, hc]
      have := ih hall h
      rwa [List.append_assoc, List.singleton_append] at this
    · split at h
      · cases h
      · next hunit =>
        obtain ⟨p, hp, heq⟩ := Option.map_eq_some_iff.mp h
        cases heq
        obtain ⟨hs, hl⟩ := ih rfl hp
        rw [List.nil_append] at hs
        refine ⟨?_, ?_⟩
        · rw [hs, List.flatMap_cons, Amount.text]
          simp
        · intro a ha
          rcases List.mem_cons.mp ha with rfl | ha
          · exact ⟨hd, hunit⟩
          · exact hl a ha

theorem time_iff (s : Text) : MeansTime s (TimeStringToSecs s).toNat ↔ ReadsTime s := by
  have hfold := @foldlM_readChar s [] {} rfl
  unfold ReadsTime
  cases hs : timeAmounts [] s with
  | none =>
    rw [hs] at hfold
    have hzero : TimeStringToSecs s = 0 := by
      rw [TimeStringToSecs, hfold]
    refine iff_of_true ⟨fun l hl => ?_, fun _ => by rw [hzero]; rfl⟩ trivial
    rw [timeAmounts_of_spells hl] at hs
    cases hs
  | some p =>
    obtain ⟨l, rest⟩ := p
    rw [hs] at hfold
    obtain ⟨st, hst, hsecs⟩ := hfold
    have hvalue : (TimeStringToSecs s).toNat = total timeUnit l % 2 ^ 32 := by
      rw [TimeStringToSecs, hst]
      simpa using hsecs
    obtain ⟨htext, hl⟩ := @spells_of_timeAmounts s [] rest l rfl hs
    dsimp only
    split
    · next hwell =>
      have hspells : SpellsTime s l := by
        rw [hwell.1, List.append_nil, List.nil_append] at htext
        exact ⟨htext, fun a ha => ⟨hwell.2 a ha, hl a ha⟩⟩
      rw [hvalue]
      constructor
      · intro hmeans
        have heq := hmeans.1 l hspells
        rw [← heq]
        exact Nat.mod_lt _ (by decide)
      · intro hlt
        refine ⟨fun l' hl' => ?_, fun hno => absurd hspells (hno l)⟩
        have hsame := timeAmounts_of_spells hl'
        rw [hs] at hsame
        cases hsame
        exact Nat.mod_eq_of_lt hlt
    · next hill =>
      -- the string is malformed: any amounts it spells would be what was read
      have hno : ∀ l', ¬SpellsTime s l' := by
        intro l' hl'
        have hsame := timeAmounts_of_spells hl'
        rw [hs] at hsame
        cases hsame
        exact hill ⟨rfl, fun a ha => (hl'.2 a ha).1⟩
      rw [hvalue, Nat.dvd_iff_mod_eq_zero]
      exact ⟨fun hmeans => hmeans.2 hno,
        fun hzero => ⟨fun l' hl' => absurd hl' (hno l'), fun _ => hzero⟩⟩

/-- **The amounts are exact where the sums fit.** A money string that is accepted has its value if
and only if that is below 2^31; and a time string has its value, or 0 if it is malformed, exactly
where its value fits 32 bits or what is read of the malformed string adds up to 0. -/
theorem amounts_exact_iff (s : Text) :
    (∀ v, MoneyStringToMoney s = some v →
      ((MeansMoney s v.toInt ∧ 0 ≤ v.toInt) ↔ total moneyUnit (moneyAmounts s) < 2 ^ 31)) ∧
    (MeansTime s (TimeStringToSecs s).toNat ↔ ReadsTime s) :=
  ⟨fun _ h => money_iff h, time_iff s⟩

/-- `3g 20s` -/
theorem amounts_exact_iff_gold :
    (MeansMoney [51, 103, 32, 50, 48, 115] 32000 ∧ (0 : Int) ≤ 32000) ↔
      total moneyUnit (moneyAmounts [51, 103, 32, 50, 48, 115]) < 2 ^ 31 :=
  (amounts_exact_iff [51, 103, 32, 50, 48, 115]).1 32000 (by decide)

/-- `300000g` is accepted as a negative amount, and `50000d` is read as 25032704 seconds. -/
theorem amounts_overflow :
    (¬∀ s v, MoneyStringToMoney s = some v → MeansMoney s v.toInt ∧ 0 ≤ v.toInt) ∧
      ¬∀ s, MeansTime s (TimeStringToSecs s).toNat := by
  constructor
  · intro hmoney
    have hread : MoneyStringToMoney [51, 48, 48, 48, 48, 48, 103] = some (-1294967296) := by decide
    exact absurd (hmoney _ _ hread).2 (by decide)
  · intro htime
    have hspells : SpellsTime [53, 48, 48, 48, 48, 100] [⟨[53, 48, 48, 48, 48], 100⟩] := by
      refine ⟨rfl, fun a ha => ?_⟩
      rw [List.mem_singleton.mp ha]
      decide
    exact absurd ((htime _).1 _ hspells) (by decide)

end EGServer.Utilities
