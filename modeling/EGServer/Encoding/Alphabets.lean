import EGServer.Encoding.RoundTrip

/-!
# Base32 and Base64

The two instances. Both round trip; and both take a string with a character too many, as long as
the bits of that character are zero.
-/

namespace EGServer.Encoding

open GenericBaseEncoding

/-! ## Base32 -/

namespace B32Impl

def Encode (v : UInt8) : Option UInt8 :=
  if v < 0x20 then
    if v < 26 then some ('A'.toUInt8 + v) else some ('2'.toUInt8 + (v - 26))
  else none

/-- `Decode` without the aliases it starts with. -/
def decodeDigit (v : UInt8) : UInt8 :=
  if 'A'.toUInt8 ≤ v ∧ v ≤ 'Z'.toUInt8 then v - 'A'.toUInt8
  else if 'a'.toUInt8 ≤ v ∧ v ≤ 'z'.toUInt8 then v - 'a'.toUInt8
  else if '2'.toUInt8 ≤ v ∧ v ≤ '7'.toUInt8 then (v - '2'.toUInt8) + 26
  else 0xff

/-- The recursive calls for the aliases are unfolded: their arguments are letters. -/
def Decode (v : UInt8) : UInt8 :=
  if v = '0'.toUInt8 then decodeDigit 'O'.toUInt8
  else if v = '1'.toUInt8 then decodeDigit 'l'.toUInt8
  else if v = '8'.toUInt8 then decodeDigit 'B'.toUInt8
  else decodeDigit v

end B32Impl

def Base32 : Alphabet where
  BITS_PER_CHAR := 5
  bits_pos := by decide
  bits_lt := by decide
  PADDING := '='.toUInt8
  DECODE_ERROR := 0xff
  Encode := B32Impl.Encode
  Decode := B32Impl.Decode

/-- The digit meant: upper case, and `0`, `1` and `8` for the letters they look like. -/
def Base32.canonical (c : UInt8) : UInt8 :=
  if c = '0'.toUInt8 then 'O'.toUInt8
  else if c = '1'.toUInt8 then 'L'.toUInt8
  else if c = '8'.toUInt8 then 'B'.toUInt8
  else if 'a'.toUInt8 ≤ c ∧ c ≤ 'z'.toUInt8 then c - 'a'.toUInt8 + 'A'.toUInt8
  else c

/-! ## Base64 -/

namespace B64Impl

def Encode (v : UInt8) : Option UInt8 :=
  if v < 0x40 then
    if v < 26 then some ('A'.toUInt8 + v)
    else if v < 52 then some ('a'.toUInt8 + (v - 26))
    else if v < 62 then some ('0'.toUInt8 + (v - 52))
    else if v = 62 then some '+'.toUInt8
    else some '/'.toUInt8
  else none

def Decode (v : UInt8) : UInt8 :=
  if 'A'.toUInt8 ≤ v ∧ v ≤ 'Z'.toUInt8 then v - 'A'.toUInt8
  else if 'a'.toUInt8 ≤ v ∧ v ≤ 'z'.toUInt8 then (v - 'a'.toUInt8) + 26
  else if '0'.toUInt8 ≤ v ∧ v ≤ '9'.toUInt8 then (v - '0'.toUInt8) + 52
  else if v = '+'.toUInt8 then 62
  else if v = '/'.toUInt8 then 63
  else 0xff

end B64Impl

def Base64 : Alphabet where
  BITS_PER_CHAR := 6
  bits_pos := by decide
  bits_lt := by decide
  PADDING := '='.toUInt8
  DECODE_ERROR := 0xff
  Encode := B64Impl.Encode
  Decode := B64Impl.Decode

/-! ## Both are alphabets -/

theorem forall_char {P : UInt8 → Prop} (h : ∀ n < 256, P (.ofNat n)) (c : UInt8) : P c := by
  rw [← UInt8.ofNat_toNat (x := c)]
  exact h c.toNat c.toNat_lt

set_option maxRecDepth 8192 in
theorem Base32.decode_cases (c : UInt8) : Base32.Decode c = Base32.DECODE_ERROR ∨
    (Base32.Decode c).toNat < 2 ^ 5 ∧
      Base32.Encode (Base32.Decode c) = some (Base32.canonical c) := by
  revert c
  exact forall_char (by decide)

set_option maxRecDepth 8192 in
theorem Base64.decode_cases (c : UInt8) : Base64.Decode c = Base64.DECODE_ERROR ∨
    (Base64.Decode c).toNat < 2 ^ 6 ∧ Base64.Encode (Base64.Decode c) = some c := by
  revert c
  exact forall_char (by decide)

theorem Base32.lawful : Base32.Lawful where
  writes := by
    have h : ∀ u < 2 ^ 5, Base32.Encode (.ofNat u) = some ((Base32.Encode (.ofNat u)).getD 0) ∧
        (Base32.Encode (.ofNat u)).getD 0 ≠ Base32.PADDING ∧
        Base32.Decode ((Base32.Encode (.ofNat u)).getD 0) ≠ Base32.DECODE_ERROR ∧
        (Base32.Decode ((Base32.Encode (.ofNat u)).getD 0)).toNat = u := by decide
    intro u hu
    exact ⟨_, h u hu⟩
  reads := by
    intro c herror
    exact ((Base32.decode_cases c).resolve_left herror).1

theorem Base64.lawful : Base64.Lawful where
  writes := by
    have h : ∀ u < 2 ^ 6, Base64.Encode (.ofNat u) = some ((Base64.Encode (.ofNat u)).getD 0) ∧
        (Base64.Encode (.ofNat u)).getD 0 ≠ Base64.PADDING ∧
        Base64.Decode ((Base64.Encode (.ofNat u)).getD 0) ≠ Base64.DECODE_ERROR ∧
        (Base64.Decode ((Base64.Encode (.ofNat u)).getD 0)).toNat = u := by decide
    intro u hu
    exact ⟨_, h u hu⟩
  reads := by
    intro c herror
    exact ((Base64.decode_cases c).resolve_left herror).1

/-! ## Round trip and canonicity -/

/-- Every byte vector is encoded in `EncodedSize` characters and decoded again. -/
def RoundTrips (E : Alphabet) : Prop :=
  ∀ v, ∃ s, Encode E v = some s ∧ s.length = EncodedSize E v.length ∧ Decode E s = some v

/-- What `s` decodes to is encoded as `s`, up to the padding at the end and the digits that
`canonical` maps together. -/
def IsCanonical (E : Alphabet) (canonical : UInt8 → UInt8) (s : List UInt8) : Prop :=
  ∀ v e, Decode E s = some v → Encode E v = some e →
    stripPadding E e = (stripPadding E s).map canonical

theorem isCanonical_iff {E : Alphabet} (hE : E.Lawful) {canonical : UInt8 → UInt8}
    (hcanonical : ∀ c, E.Decode c ≠ E.DECODE_ERROR → E.Encode (E.Decode c) = some (canonical c))
    {s v : List UInt8} (h : Decode E s = some v) : IsCanonical E canonical s ↔
      (stripPadding E s).length * E.BITS_PER_CHAR % 8 < E.BITS_PER_CHAR := by
  obtain ⟨e, hencode, -, -⟩ := Decode_Encode hE v
  rw [← canonical_iff hE hcanonical h hencode]
  constructor
  · intro hs
    exact hs v e h hencode
  · intro heq w f hw hf
    grind

theorem IsCanonical.unique {E : Alphabet} (hE : E.Lawful) {canonical : UInt8 → UInt8}
    {s t v : List UInt8} (hs : IsCanonical E canonical s) (ht : IsCanonical E canonical t)
    (hsv : Decode E s = some v) (htv : Decode E t = some v) :
    (stripPadding E s).map canonical = (stripPadding E t).map canonical := by
  obtain ⟨e, hencode, -, -⟩ := Decode_Encode hE v
  rw [← hs v e hsv hencode, ← ht v e htv hencode]

theorem Base32.isCanonical_iff {s v : List UInt8} (h : Decode Base32 s = some v) :
    IsCanonical Base32 Base32.canonical s ↔
      (stripPadding Base32 s).length % 8 ∉ [1, 3, 6] := by
  rw [Encoding.isCanonical_iff Base32.lawful
    (fun c herror => ((Base32.decode_cases c).resolve_left herror).2) h, Nat.mul_mod]
  have hlt := Nat.mod_lt (stripPadding Base32 s).length (show 8 > 0 by omega)
  generalize (stripPadding Base32 s).length % 8 = r at hlt ⊢
  revert r
  decide

theorem Base64.isCanonical_iff {s v : List UInt8} (h : Decode Base64 s = some v) :
    IsCanonical Base64 id s ↔ (stripPadding Base64 s).length % 4 ≠ 1 := by
  have hcanonical : ∀ c, Base64.Decode c ≠ Base64.DECODE_ERROR →
      Base64.Encode (Base64.Decode c) = some (id c) := by
    intro c herror
    exact ((Base64.decode_cases c).resolve_left herror).2
  rw [Encoding.isCanonical_iff Base64.lawful hcanonical h]
  have hbits : Base64.BITS_PER_CHAR = 6 := rfl
  rw [hbits]
  omega

/-- **Base32 and Base64** round trip. A string that is accepted is the canonical one exactly when
the digits are not one too many: when their number leaves less bits over than a digit has. Two such
strings with the same bytes carry the same digits. -/
theorem base_encodings (s t v : List UInt8) :
    (RoundTrips Base32 ∧ RoundTrips Base64) ∧
    (Decode Base32 s = some v → (IsCanonical Base32 Base32.canonical s ↔
      (stripPadding Base32 s).length % 8 ∉ [1, 3, 6])) ∧
    (Decode Base64 s = some v →
      (IsCanonical Base64 id s ↔ (stripPadding Base64 s).length % 4 ≠ 1)) ∧
    (Decode Base32 s = some v → Decode Base32 t = some v →
      (stripPadding Base32 s).length % 8 ∉ [1, 3, 6] →
      (stripPadding Base32 t).length % 8 ∉ [1, 3, 6] →
      (stripPadding Base32 s).map Base32.canonical =
        (stripPadding Base32 t).map Base32.canonical) ∧
    (Decode Base64 s = some v → Decode Base64 t = some v →
      (stripPadding Base64 s).length % 4 ≠ 1 → (stripPadding Base64 t).length % 4 ≠ 1 →
      stripPadding Base64 s = stripPadding Base64 t) := by
  refine ⟨⟨Decode_Encode Base32.lawful, Decode_Encode Base64.lawful⟩, ?_, ?_, ?_, ?_⟩
  · exact Base32.isCanonical_iff
  · exact Base64.isCanonical_iff
  · grind [Base32.isCanonical_iff, Base32.lawful, IsCanonical.unique]
  · intro hs ht hsfull htfull
    have hsame := IsCanonical.unique Base64.lawful ((Base64.isCanonical_iff hs).mpr hsfull)
      ((Base64.isCanonical_iff ht).mpr htfull) hs ht
    rwa [List.map_id, List.map_id] at hsame

/-- `MY======` is read as `f` is written. -/
theorem base_encodings_MY : IsCanonical Base32 Base32.canonical
    (['M', 'Y', '=', '=', '=', '=', '=', '='].map Char.toUInt8) :=
  ((base_encodings _ [] ['f'.toUInt8]).2.1 (by decide)).mpr (by decide)

/-- `MYA` is taken for the same byte as `MY`, and `ZmZmA` for the same bytes as `ZmZm`. -/
theorem base_encodings_not_canonical :
    (Decode Base32 (['M', 'Y', 'A'].map Char.toUInt8) = some ['f'.toUInt8] ∧
      Decode Base32 (['M', 'Y'].map Char.toUInt8) = some ['f'.toUInt8] ∧
      ¬ IsCanonical Base32 Base32.canonical (['M', 'Y', 'A'].map Char.toUInt8)) ∧
    Decode Base64 (['Z', 'm', 'Z', 'm', 'A'].map Char.toUInt8) =
      some (['f', 'f', 'f'].map Char.toUInt8) ∧
    Decode Base64 (['Z', 'm', 'Z', 'm'].map Char.toUInt8) =
      some (['f', 'f', 'f'].map Char.toUInt8) ∧
    ¬ IsCanonical Base64 id (['Z', 'm', 'Z', 'm', 'A'].map Char.toUInt8) := by
  refine ⟨⟨by decide, by decide, ?_⟩, by decide, by decide, ?_⟩
  · rw [Base32.isCanonical_iff (v := ['f'.toUInt8]) (by decide)]
    decide
  · rw [Base64.isCanonical_iff (v := ['f', 'f', 'f'].map Char.toUInt8) (by decide)]
    decide

end EGServer.Encoding
