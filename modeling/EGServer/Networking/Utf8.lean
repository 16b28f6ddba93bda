import Mathlib.Data.UInt
import Mathlib.Tactic.Common

/-!
# Checking UTF-8

`utf8::is_valid`, the check behind every string that is read from a packet. An iterator is the
list of the octets from it to the end, so moving on is taking the tail.

The main result is `isValid_iff`: the check accepts exactly the encodings of sequences of
Unicode scalar values.
-/

namespace EGServer.Networking.Utf8

inductive UtfError where
  | notEnoughRoom
  | invalidLead
  | incompleteSequence
  | overlongSequence
  | invalidCodePoint
  deriving DecidableEq, Repr

def isTrail (oc : UInt8) : Bool := oc >>> 6 == 0x2

def isSurrogate (cp : UInt32) : Bool := 0xd800 ≤ cp && cp ≤ 0xdfff

def isCodePointValid (cp : UInt32) : Bool := cp ≤ 0x10ffff && !isSurrogate cp

def sequenceLength (lead : UInt8) : Nat :=
  if lead < 0x80 then 1
  else if lead >>> 5 == 0x6 then 2
  else if lead >>> 4 == 0xe then 3
  else if lead >>> 3 == 0x1e then 4
  else 0

def isOverlongSequence (cp : UInt32) (length : Nat) : Bool :=
  if cp < 0x80 then length != 1
  else if cp < 0x800 then length != 2
  else if cp < 0x10000 then length != 3
  else false

/-- The trail octet behind the iterator, and what follows it. -/
def increaseSafely : List UInt8 → Except UtfError (UInt8 × List UInt8)
  | [] => .error .notEnoughRoom
  | oc :: rest => if isTrail oc then .ok (oc, rest) else .error .incompleteSequence

def getSequence1 (lead : UInt8) (rest : List UInt8) : Except UtfError (UInt32 × List UInt8) :=
  .ok (lead.toUInt32, rest)

/-- `(oc << shift) & mask` in 32 bits. -/
def shifted (oc : UInt8) (shift mask : UInt32) : UInt32 := (oc.toUInt32 <<< shift) &&& mask

def getSequence2 (lead : UInt8) (rest : List UInt8) : Except UtfError (UInt32 × List UInt8) := do
  let (a, rest) ← increaseSafely rest
  .ok (shifted lead 6 0x7ff + (a.toUInt32 &&& 0x3f), rest)

def getSequence3 (lead : UInt8) (rest : List UInt8) : Except UtfError (UInt32 × List UInt8) := do
  let (a, rest) ← increaseSafely rest
  let cp := shifted lead 12 0xffff + shifted a 6 0xfff
  let (b, rest) ← increaseSafely rest
  .ok (cp + (b.toUInt32 &&& 0x3f), rest)

def getSequence4 (lead : UInt8) (rest : List UInt8) : Except UtfError (UInt32 × List UInt8) := do
  let (a, rest) ← increaseSafely rest
  let cp := shifted lead 18 0x1fffff + shifted a 12 0x3ffff
  let (b, rest) ← increaseSafely rest
  let cp := cp + shifted b 6 0xfff
  let (c, rest) ← increaseSafely rest
  .ok (cp + (c.toUInt32 &&& 0x3f), rest)

/-- The octets of a sequence, by its length. -/
def getSequence : Nat → UInt8 → List UInt8 → Except UtfError (UInt32 × List UInt8)
  | 1 => getSequence1
  | 2 => getSequence2
  | 3 => getSequence3
  | 4 => getSequence4
  | _ => fun _ _ => .error .invalidLead

/-- The security checks behind the decoding. -/
def checkCodePoint (length : Nat) (cp : UInt32) (rest : List UInt8) :
    Except UtfError (UInt32 × List UInt8) :=
  if isCodePointValid cp then
    if !isOverlongSequence cp length then .ok (cp, rest) else .error .overlongSequence
  else .error .invalidCodePoint

def validateNext : List UInt8 → Except UtfError (UInt32 × List UInt8)
  | [] => .error .notEnoughRoom
  | lead :: rest => do
    let length := sequenceLength lead
    let (cp, rest) ← getSequence length lead rest
    checkCodePoint length cp rest

/-! ## The octets as numbers -/

theorem isTrail_iff {oc : UInt8} : isTrail oc = true ↔ 128 ≤ oc.toNat ∧ oc.toNat < 192 := by
  have h := oc.toNat_lt
  simp only [isTrail, beq_iff_eq, ← UInt8.toNat_inj, UInt8.toNat_shiftRight,
    Nat.shiftRight_eq_div_pow]
  show oc.toNat / 2 ^ 6 = 2 ↔ _
  omega

theorem sequenceLength_eq (lead : UInt8) :
    sequenceLength lead =
      if lead.toNat < 128 then 1
      else if lead.toNat / 32 = 6 then 2
      else if lead.toNat / 16 = 14 then 3
      else if lead.toNat / 8 = 30 then 4
      else 0 := by
  simp only [sequenceLength, beq_iff_eq, ← UInt8.toNat_inj, UInt8.toNat_shiftRight,
    UInt8.lt_iff_toNat_lt, Nat.shiftRight_eq_div_pow]
  rfl

theorem isCodePointValid_iff {cp : UInt32} :
    isCodePointValid cp = true ↔ cp.toNat.isValidChar := by
  have h : isCodePointValid cp = true ↔
      cp.toNat ≤ 0x10ffff ∧ (0xd800 ≤ cp.toNat → 0xdfff < cp.toNat) := by
    simp only [isCodePointValid, isSurrogate, UInt32.le_iff_toNat_le, Bool.and_eq_true,
      decide_eq_true_eq, Bool.not_eq_true', Bool.and_eq_false_iff, decide_eq_false_iff_not]
    show cp.toNat ≤ 0x10ffff ∧ (¬0xd800 ≤ cp.toNat ∨ ¬cp.toNat ≤ 0xdfff) ↔ _
    omega
  rw [h]
  unfold Nat.isValidChar
  omega

theorem isOverlongSequence_eq (cp : UInt32) (length : Nat) :
    isOverlongSequence cp length =
      if cp.toNat < 0x80 then length != 1
      else if cp.toNat < 0x800 then length != 2
      else if cp.toNat < 0x10000 then length != 3
      else false := by
  simp only [isOverlongSequence, UInt32.lt_iff_toNat_lt]
  rfl

theorem isOverlongSequence_eq_false {cp : UInt32} {length : Nat} :
    isOverlongSequence cp length = false ↔
      (cp.toNat < 0x80 → length = 1) ∧ (0x80 ≤ cp.toNat ∧ cp.toNat < 0x800 → length = 2) ∧
        (0x800 ≤ cp.toNat ∧ cp.toNat < 0x10000 → length = 3) := by
  rw [isOverlongSequence_eq]
  split_ifs
  case neg => simp only [true_iff]; omega
  all_goals
    simp only [bne_eq_false_iff_eq]
    omega

theorem toNat_low (oc : UInt8) : (oc.toUInt32 &&& 0x3f).toNat = oc.toNat % 64 := by
  rw [UInt32.toNat_and, UInt8.toNat_toUInt32]
  exact Nat.and_two_pow_sub_one_eq_mod oc.toNat 6

theorem toNat_shifted (oc : UInt8) {k m : Nat} (hk : k < 32) (hm : m ≤ 32) :
    (shifted oc (UInt32.ofNat k) (UInt32.ofNat (2 ^ m - 1))).toNat = oc.toNat * 2 ^ k % 2 ^ m := by
  have hm' : 2 ^ m - 1 < 2 ^ 32 := by
    have h := Nat.pow_le_pow_right (n := 2) (by omega) hm
    have h' := Nat.two_pow_pos m
    omega
  rw [shifted, UInt32.toNat_and, UInt32.toNat_shiftLeft, UInt8.toNat_toUInt32,
    UInt32.toNat_ofNat_of_lt' hm', UInt32.toNat_ofNat_of_lt' (Nat.lt_trans hk (by decide)),
    Nat.and_two_pow_sub_one_eq_mod, Nat.mod_eq_of_lt hk, Nat.shiftLeft_eq]
  exact Nat.mod_mod_of_dvd _ (Nat.pow_dvd_pow 2 hm)

/-! ## Sequences that decode -/

/-- A sequence of two octets, as `getSequence2` puts it together. -/
def decoded2 (a b : UInt8) : UInt32 := shifted a 6 0x7ff + (b.toUInt32 &&& 0x3f)

def decoded3 (a b c : UInt8) : UInt32 :=
  shifted a 12 0xffff + shifted b 6 0xfff + (c.toUInt32 &&& 0x3f)

def decoded4 (a b c d : UInt8) : UInt32 :=
  shifted a 18 0x1fffff + shifted b 12 0x3ffff + shifted c 6 0xfff + (d.toUInt32 &&& 0x3f)

theorem toNat_decoded2 (a b : UInt8) :
    (decoded2 a b).toNat = a.toNat % 32 * 64 + b.toNat % 64 := by
  have h : (shifted a 6 0x7ff).toNat = _ := toNat_shifted a (k := 6) (m := 11) (by omega) (by omega)
  rw [decoded2, UInt32.toNat_add, h, toNat_low]
  omega

theorem toNat_decoded3 (a b c : UInt8) :
    (decoded3 a b c).toNat = a.toNat % 16 * 4096 + b.toNat % 64 * 64 + c.toNat % 64 := by
  have ha : (shifted a 12 0xffff).toNat = _ :=
    toNat_shifted a (k := 12) (m := 16) (by omega) (by omega)
  have hb : (shifted b 6 0xfff).toNat = _ := toNat_shifted b (k := 6) (m := 12) (by omega) (by omega)
  rw [decoded3, UInt32.toNat_add, UInt32.toNat_add, ha, hb, toNat_low]
  omega

theorem toNat_decoded4 (a b c d : UInt8) :
    (decoded4 a b c d).toNat =
      a.toNat % 8 * 262144 + b.toNat % 64 * 4096 + c.toNat % 64 * 64 + d.toNat % 64 := by
  have ha : (shifted a 18 0x1fffff).toNat = _ :=
    toNat_shifted a (k := 18) (m := 21) (by omega) (by omega)
  have hb : (shifted b 12 0x3ffff).toNat = _ :=
    toNat_shifted b (k := 12) (m := 18) (by omega) (by omega)
  have hc : (shifted c 6 0xfff).toNat = _ := toNat_shifted c (k := 6) (m := 12) (by omega) (by omega)
  rw [decoded4, UInt32.toNat_add, UInt32.toNat_add, UInt32.toNat_add, ha, hb, hc, toNat_low]
  omega

variable {a b c d lead oc : UInt8} {it rest : List UInt8} {cp : UInt32}

theorem increaseSafely_ok_iff :
    increaseSafely it = .ok (oc, rest) ↔ it = oc :: rest ∧ isTrail oc = true := by
  cases it with
  | nil => simp [increaseSafely]
  | cons a it =>
    by_cases h : isTrail a = true
    · simp only [increaseSafely, if_pos h, Except.ok.injEq, Prod.mk.injEq, List.cons.injEq]
      grind
    · simp only [increaseSafely, if_neg h, List.cons.injEq]
      grind

theorem bind_ok_iff {ε α β : Type} {m : Except ε α} {f : α → Except ε β} {r : β} :
    (m >>= f) = .ok r ↔ ∃ x, m = .ok x ∧ f x = .ok r := by
  cases m with
  | error e =>
    constructor
    · exact fun h => nomatch h
    · rintro ⟨x, hx, -⟩
      exact nomatch hx
  | ok x =>
    constructor
    · exact fun h => ⟨x, rfl, h⟩
    · rintro ⟨y, hy, h⟩
      cases hy
      exact h

theorem getSequence2_ok_iff : getSequence2 lead it = .ok (cp, rest) ↔
    ∃ a, it = a :: rest ∧ isTrail a = true ∧ cp = decoded2 lead a := by
  simp only [getSequence2, bind_ok_iff, Prod.exists, increaseSafely_ok_iff, Except.ok.injEq,
    Prod.mk.injEq]
  constructor
  · rintro ⟨a, _, ⟨rfl, ha⟩, rfl, rfl⟩
    exact ⟨a, rfl, ha, rfl⟩
  · rintro ⟨a, rfl, ha, rfl⟩
    exact ⟨a, _, ⟨rfl, ha⟩, rfl, rfl⟩

theorem getSequence3_ok_iff : getSequence3 lead it = .ok (cp, rest) ↔
    ∃ a b, it = a :: b :: rest ∧ (isTrail a = true ∧ isTrail b = true) ∧
      cp = decoded3 lead a b := by
  simp only [getSequence3, bind_ok_iff, Prod.exists, increaseSafely_ok_iff, Except.ok.injEq,
    Prod.mk.injEq]
  constructor
  · rintro ⟨a, _, ⟨rfl, ha⟩, b, _, ⟨rfl, hb⟩, rfl, rfl⟩
    exact ⟨a, b, rfl, ⟨ha, hb⟩, rfl⟩
  · rintro ⟨a, b, rfl, ⟨ha, hb⟩, rfl⟩
    exact ⟨a, _, ⟨rfl, ha⟩, b, _, ⟨rfl, hb⟩, rfl, rfl⟩

theorem getSequence4_ok_iff : getSequence4 lead it = .ok (cp, rest) ↔
    ∃ a b c, it = a :: b :: c :: rest ∧
      (isTrail a = true ∧ isTrail b = true ∧ isTrail c = true) ∧ cp = decoded4 lead a b c := by
  simp only [getSequence4, bind_ok_iff, Prod.exists, increaseSafely_ok_iff, Except.ok.injEq,
    Prod.mk.injEq]
  constructor
  · rintro ⟨a, _, ⟨rfl, ha⟩, b, _, ⟨rfl, hb⟩, c, _, ⟨rfl, hc⟩, rfl, rfl⟩
    exact ⟨a, b, c, rfl, ⟨ha, hb, hc⟩, rfl⟩
  · rintro ⟨a, b, c, rfl, ⟨ha, hb, hc⟩, rfl⟩
    exact ⟨a, _, ⟨rfl, ha⟩, b, _, ⟨rfl, hb⟩, c, _, ⟨rfl, hc⟩, rfl, rfl⟩

theorem checkCodePoint_ok_iff {length : Nat} {cp' : UInt32} {rest' : List UInt8} :
    checkCodePoint length cp rest = .ok (cp', rest') ↔
      (cp.toNat.isValidChar ∧ isOverlongSequence cp length = false) ∧ cp' = cp ∧ rest' = rest := by
  rw [← isCodePointValid_iff]
  unfold checkCodePoint
  grind

/-! ## What an encoded character looks like -/

section Encode

open String (utf8EncodeChar)

variable {ch : Char}

theorem ofNat_eq {n : Nat} (h : a.toNat = n) : UInt8.ofNat n = a := by
  rw [← h, UInt8.ofNat_toNat]

theorem utf8EncodeChar_one (h : ch.val.toNat < 128) (ha : a.toNat = ch.val.toNat) :
    utf8EncodeChar ch = [a] := by
  unfold utf8EncodeChar
  rw [if_pos (by omega), ofNat_eq ha]

theorem utf8EncodeChar_two (h : 128 ≤ ch.val.toNat) (h' : ch.val.toNat < 2048)
    (ha : a.toNat = ch.val.toNat / 64 + 192) (hb : b.toNat = ch.val.toNat % 64 + 128) :
    utf8EncodeChar ch = [a, b] := by
  unfold utf8EncodeChar
  rw [if_neg (by omega), if_pos (by omega), ofNat_eq (a := a) (by omega), ofNat_eq hb]

theorem utf8EncodeChar_three (h : 2048 ≤ ch.val.toNat) (h' : ch.val.toNat < 65536)
    (ha : a.toNat = ch.val.toNat / 4096 + 224) (hb : b.toNat = ch.val.toNat / 64 % 64 + 128)
    (hc : c.toNat = ch.val.toNat % 64 + 128) : utf8EncodeChar ch = [a, b, c] := by
  unfold utf8EncodeChar
  rw [if_neg (by omega), if_neg (by omega), if_pos (by omega), ofNat_eq (a := a) (by omega),
    ofNat_eq hb, ofNat_eq hc]

theorem utf8EncodeChar_four (h : 65536 ≤ ch.val.toNat) (h' : ch.val.toNat < 1114112)
    (ha : a.toNat = ch.val.toNat / 262144 + 240) (hb : b.toNat = ch.val.toNat / 4096 % 64 + 128)
    (hc : c.toNat = ch.val.toNat / 64 % 64 + 128) (hd : d.toNat = ch.val.toNat % 64 + 128) :
    utf8EncodeChar ch = [a, b, c, d] := by
  unfold utf8EncodeChar
  rw [if_neg (by omega), if_neg (by omega), if_neg (by omega), ofNat_eq (a := a) (by omega),
    ofNat_eq hb, ofNat_eq hc, ofNat_eq hd]

end Encode

/-! ## One character -/

section ValidateNext

open String (utf8EncodeChar)

theorem validateNext_cons_ok_iff : validateNext (lead :: it) = .ok (cp, rest) ↔
    getSequence (sequenceLength lead) lead it = .ok (cp, rest) ∧ cp.toNat.isValidChar ∧
      isOverlongSequence cp (sequenceLength lead) = false := by
  simp only [validateNext, bind_ok_iff, Prod.exists, checkCodePoint_ok_iff]
  grind

/-- **Soundness of one round.** What passes the checks is the encoding of a character. -/
theorem eq_encode_of_validateNext (h : validateNext it = .ok (cp, rest)) :
    ∃ ch : Char, ch.val = cp ∧ it = utf8EncodeChar ch ++ rest := by
  cases it with
  | nil => exact nomatch h
  | cons lead it =>
    obtain ⟨hseq, hvalid, hover⟩ := validateNext_cons_ok_iff.mp h
    refine ⟨⟨cp, hvalid⟩, rfl, ?_⟩
    have hlt : cp.toNat < 1114112 := by
      unfold Nat.isValidChar at hvalid
      omega
    rw [isOverlongSequence_eq_false] at hover
    rw [sequenceLength_eq] at hseq hover
    -- the length is read off the lead octet, and the checks leave one range of code points
    split_ifs at hseq hover with h1 h2 h3 h4
    · cases hseq
      rw [UInt8.toNat_toUInt32] at hover
      rw [utf8EncodeChar_one (a := lead)]
      · rfl
      · exact h1
      · rfl
    · obtain ⟨a, rfl, ha, rfl⟩ := getSequence2_ok_iff.mp hseq
      rw [isTrail_iff] at ha
      have hcp := toNat_decoded2 lead a
      rw [utf8EncodeChar_two (a := lead) (b := a)]
      · rfl
      all_goals
        dsimp only
        omega
    · obtain ⟨a, b, rfl, ⟨ha, hb⟩, rfl⟩ := getSequence3_ok_iff.mp hseq
      rw [isTrail_iff] at ha hb
      have hcp := toNat_decoded3 lead a b
      rw [utf8EncodeChar_three (a := lead) (b := a) (c := b)]
      · rfl
      all_goals
        dsimp only
        omega
    · obtain ⟨a, b, c, rfl, ⟨ha, hb, hc⟩, rfl⟩ := getSequence4_ok_iff.mp hseq
      rw [isTrail_iff] at ha hb hc
      have hcp := toNat_decoded4 lead a b c
      rw [utf8EncodeChar_four (a := lead) (b := a) (c := b) (d := c)]
      · rfl
      all_goals
        dsimp only
        omega
    · cases hseq

/-- **Completeness of one round.** -/
theorem validateNext_encode (ch : Char) (rest : List UInt8) :
    validateNext (utf8EncodeChar ch ++ rest) = .ok (ch.val, rest) := by
  have hvalid : ch.val.toNat.isValidChar := ch.valid
  have hlt : ch.val.toNat < 1114112 := by
    unfold Nat.isValidChar at hvalid
    omega
  have byte : ∀ n < 256, (UInt8.ofNat n).toNat = n := fun n hn => UInt8.toNat_ofNat_of_lt' hn
  by_cases h1 : ch.val.toNat < 128
  · have ha := byte ch.val.toNat (by omega)
    have hlen : sequenceLength (UInt8.ofNat ch.val.toNat) = 1 := by
      rw [sequenceLength_eq, if_pos (by omega)]
    rw [utf8EncodeChar_one h1 ha]
    apply validateNext_cons_ok_iff.mpr
    rw [hlen]
    refine ⟨?_, hvalid, isOverlongSequence_eq_false.mpr (by omega)⟩
    show Except.ok _ = Except.ok _
    have hcp : (UInt8.ofNat ch.val.toNat).toUInt32 = ch.val := by
      rw [← UInt32.toNat_inj, UInt8.toNat_toUInt32, ha]
    rw [hcp]
    rfl
  by_cases h2 : ch.val.toNat < 2048
  · have ha := byte (ch.val.toNat / 64 + 192) (by omega)
    have hb := byte (ch.val.toNat % 64 + 128) (by omega)
    rw [utf8EncodeChar_two (by omega) h2 ha hb]
    generalize UInt8.ofNat (ch.val.toNat / 64 + 192) = a at ha
    generalize UInt8.ofNat (ch.val.toNat % 64 + 128) = b at hb
    have hlen : sequenceLength a = 2 := by
      rw [sequenceLength_eq, if_neg (by omega), if_pos (by omega)]
    apply validateNext_cons_ok_iff.mpr
    rw [hlen]
    refine ⟨?_, hvalid, isOverlongSequence_eq_false.mpr (by omega)⟩
    apply getSequence2_ok_iff.mpr
    refine ⟨b, rfl, isTrail_iff.mpr (by omega), ?_⟩
    rw [← UInt32.toNat_inj, toNat_decoded2]
    omega
  by_cases h3 : ch.val.toNat < 65536
  · have ha := byte (ch.val.toNat / 4096 + 224) (by omega)
    have hb := byte (ch.val.toNat / 64 % 64 + 128) (by omega)
    have hc := byte (ch.val.toNat % 64 + 128) (by omega)
    rw [utf8EncodeChar_three (by omega) h3 ha hb hc]
    generalize UInt8.ofNat (ch.val.toNat / 4096 + 224) = a at ha
    generalize UInt8.ofNat (ch.val.toNat / 64 % 64 + 128) = b at hb
    generalize UInt8.ofNat (ch.val.toNat % 64 + 128) = c at hc
    have hlen : sequenceLength a = 3 := by
      rw [sequenceLength_eq, if_neg (by omega), if_neg (by omega), if_pos (by omega)]
    apply validateNext_cons_ok_iff.mpr
    rw [hlen]
    refine ⟨?_, hvalid, isOverlongSequence_eq_false.mpr (by omega)⟩
    apply getSequence3_ok_iff.mpr
    refine ⟨b, c, rfl, ⟨isTrail_iff.mpr (by omega), isTrail_iff.mpr (by omega)⟩, ?_⟩
    rw [← UInt32.toNat_inj, toNat_decoded3]
    omega
  · have ha := byte (ch.val.toNat / 262144 + 240) (by omega)
    have hb := byte (ch.val.toNat / 4096 % 64 + 128) (by omega)
    have hc := byte (ch.val.toNat / 64 % 64 + 128) (by omega)
    have hd := byte (ch.val.toNat % 64 + 128) (by omega)
    rw [utf8EncodeChar_four (by omega) hlt ha hb hc hd]
    generalize UInt8.ofNat (ch.val.toNat / 262144 + 240) = a at ha
    generalize UInt8.ofNat (ch.val.toNat / 4096 % 64 + 128) = b at hb
    generalize UInt8.ofNat (ch.val.toNat / 64 % 64 + 128) = c at hc
    generalize UInt8.ofNat (ch.val.toNat % 64 + 128) = d at hd
    have hlen : sequenceLength a = 4 := by
      rw [sequenceLength_eq, if_neg (by omega), if_neg (by omega), if_neg (by omega),
        if_pos (by omega)]
    apply validateNext_cons_ok_iff.mpr
    rw [hlen]
    refine ⟨?_, hvalid, isOverlongSequence_eq_false.mpr (by omega)⟩
    apply getSequence4_ok_iff.mpr
    refine ⟨b, c, d, rfl, ?_, ?_⟩
    · exact ⟨isTrail_iff.mpr (by omega), isTrail_iff.mpr (by omega), isTrail_iff.mpr (by omega)⟩
    · rw [← UInt32.toNat_inj, toNat_decoded4]
      omega

theorem length_of_validateNext (h : validateNext it = .ok (cp, rest)) :
    rest.length < it.length := by
  obtain ⟨ch, -, rfl⟩ := eq_encode_of_validateNext h
  grind [utf8EncodeChar]

end ValidateNext

/-! ## The whole string -/

/-- The octets from the first invalid one on. -/
def findInvalid (it : List UInt8) : List UInt8 :=
  if it = [] then it
  else
    match _h : validateNext it with
    | .ok (_, rest) => findInvalid rest
    | .error _ => it
termination_by it.length
decreasing_by exact length_of_validateNext _h

def isValid (value : List UInt8) : Bool := findInvalid value == []

/-- The UTF-8 encoding of a sequence of Unicode scalar values. -/
def encode (text : List Char) : List UInt8 := text.flatMap String.utf8EncodeChar

theorem findInvalid_nil : findInvalid [] = [] := by
  rw [findInvalid, if_pos rfl]

theorem findInvalid_of_ok (h : validateNext it = .ok (cp, rest)) :
    findInvalid it = findInvalid rest := by
  have hne : it ≠ [] := by
    intro hnil
    rw [hnil] at h
    exact nomatch h
  rw [findInvalid, if_neg hne]
  grind

theorem findInvalid_encode (text : List Char) : findInvalid (encode text) = [] := by
  induction text with
  | nil => exact findInvalid_nil
  | cons ch text ih =>
    grind [validateNext_encode, findInvalid_of_ok, encode]

theorem encode_of_findInvalid (h : findInvalid it = []) : ∃ text, it = encode text := by
  induction it using findInvalid.induct with
  | case1 => exact ⟨[], rfl⟩
  | case2 it hne cp rest hok ih =>
    obtain ⟨text, htext⟩ := ih (by rw [← findInvalid_of_ok hok, h])
    obtain ⟨ch, -, hit⟩ := eq_encode_of_validateNext hok
    exact ⟨ch :: text, by rw [hit, htext]; rfl⟩
  | case3 it hne e herr =>
    rw [findInvalid, if_neg hne] at h
    split at h
    · next _ _ h' =>
      rw [herr] at h'
      cases h'
    · exact absurd h hne

/-- **The check accepts UTF-8 and nothing else.** -/
theorem isValid_iff {value : List UInt8} : isValid value = true ↔ ∃ text, value = encode text := by
  rw [isValid, beq_iff_eq]
  constructor
  · exact encode_of_findInvalid
  · rintro ⟨text, rfl⟩
    exact findInvalid_encode text

end EGServer.Networking.Utf8
