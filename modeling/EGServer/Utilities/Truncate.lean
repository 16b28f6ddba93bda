import EGServer.Networking.Utf8
import EGServer.Chat.ChatCommand
import Mathlib.Algebra.Ring.Nat
import Mathlib.Data.List.Basic

/-!
# Truncating a string

`utf8truncate` converts a string to UTF-16, cuts it, and converts it back. The conversions write
through pointers into buffers that were sized before: `Buffer` counts what is written, and a write
behind the end is `Fault.outOfBounds`.

A `wchar_t` of the intermediate string holds a 16-bit unit.
-/

namespace EGServer.Utilities

open Chat (Text)
open Networking.Utf8

/-- How a conversion fails: an exception of the library, or a write outside of the destination. -/
inductive Fault where
  | thrown
  | outOfBounds
  deriving DecidableEq

/-- The room of a destination, and what is written to its start. -/
structure Buffer (α : Type) where
  room : Nat
  written : List α

namespace Buffer

variable {α : Type}

def new (room : Nat) : Buffer α := { room, written := [] }

/-- `*result++ = x` -/
def write (out : Buffer α) (x : α) : Except Fault (Buffer α) :=
  if out.written.length < out.room then .ok { out with written := out.written ++ [x] }
  else .error .outOfBounds

def writeAll (out : Buffer α) (l : List α) : Except Fault (Buffer α) := l.foldlM write out

theorem writeAll_of_le {out : Buffer α} {l : List α} (h : out.written.length + l.length ≤ out.room) :
    out.writeAll l = .ok { out with written := out.written ++ l } := by
  induction l generalizing out with
  | nil => simp [writeAll, pure, Except.pure]
  | cons x l ih =>
    rw [List.length_cons] at h
    have hx : out.write x = .ok { out with written := out.written ++ [x] } := if_pos (by omega)
    have hl := @ih { out with written := out.written ++ [x] } (by simp; omega)
    rw [writeAll, List.foldlM_cons, hx]
    show Buffer.writeAll _ l = _
    rw [hl, List.append_assoc, List.singleton_append]

theorem writeAll_of_lt {out : Buffer α} {l : List α} (hout : out.written.length ≤ out.room)
    (h : out.room < out.written.length + l.length) : out.writeAll l = .error .outOfBounds := by
  induction l generalizing out with
  | nil =>
    rw [List.length_nil] at h
    omega
  | cons x l ih =>
    rw [List.length_cons] at h
    rw [writeAll, List.foldlM_cons]
    by_cases hx : out.written.length < out.room
    · have hl := @ih { out with written := out.written ++ [x] } (by simp; omega) (by simp; omega)
      have hwrite : out.write x = .ok { out with written := out.written ++ [x] } := if_pos hx
      rw [hwrite]
      exact hl
    · have hwrite : out.write x = .error .outOfBounds := if_neg hx
      rw [hwrite]
      rfl

end Buffer

/-! ## The conversions -/

def LEAD_SURROGATE_MIN : UInt32 := 0xd800
def LEAD_SURROGATE_MAX : UInt32 := 0xdbff
def TRAIL_SURROGATE_MIN : UInt32 := 0xdc00
def TRAIL_SURROGATE_MAX : UInt32 := 0xdfff
def LEAD_OFFSET : UInt32 := 0xd7c0
def SURROGATE_OFFSET : UInt32 := 0xfca02400

def isLeadSurrogate (cp : UInt32) : Bool := LEAD_SURROGATE_MIN ≤ cp && cp ≤ LEAD_SURROGATE_MAX

def isTrailSurrogate (cp : UInt32) : Bool := TRAIL_SURROGATE_MIN ≤ cp && cp ≤ TRAIL_SURROGATE_MAX

/-- `utf8::distance` -/
def distance (it : Text) : Except Fault Nat :=
  if it = [] then .ok 0
  else
    match _h : validateNext it with
    | .ok (_, rest) => (distance rest).map (· + 1)
    | .error _ => .error .thrown
termination_by it.length
decreasing_by exact length_of_validateNext _h

/-- The units that stand for a code point. -/
def utf16Units (cp : UInt32) : List UInt16 :=
  if 0xffff < cp then
    [((cp >>> 10) + LEAD_OFFSET).toUInt16, ((cp &&& 0x3ff) + TRAIL_SURROGATE_MIN).toUInt16]
  else [cp.toUInt16]

def utf8to16 (it : Text) (result : Buffer UInt16) : Except Fault (Buffer UInt16) :=
  if it = [] then .ok result
  else
    match _h : validateNext it with
    | .ok (cp, rest) => do utf8to16 rest (← result.writeAll (utf16Units cp))
    | .error _ => .error .thrown
termination_by it.length
decreasing_by exact length_of_validateNext _h

/-- The octets that `internal::append` writes. -/
def octets (cp : UInt32) : Text :=
  if cp < 0x80 then [cp.toUInt8]
  else if cp < 0x800 then [((cp >>> 6) ||| 0xc0).toUInt8, ((cp &&& 0x3f) ||| 0x80).toUInt8]
  else if cp < 0x10000 then
    [((cp >>> 12) ||| 0xe0).toUInt8, (((cp >>> 6) &&& 0x3f) ||| 0x80).toUInt8,
      ((cp &&& 0x3f) ||| 0x80).toUInt8]
  else
    [((cp >>> 18) ||| 0xf0).toUInt8, (((cp >>> 12) &&& 0x3f) ||| 0x80).toUInt8,
      (((cp >>> 6) &&& 0x3f) ||| 0x80).toUInt8, ((cp &&& 0x3f) ||| 0x80).toUInt8]

def append (cp : UInt32) (result : Buffer UInt8) : Except Fault (Buffer UInt8) :=
  if isCodePointValid cp then result.writeAll (octets cp) else .error .thrown

def utf16to8 : List UInt16 → Buffer UInt8 → Except Fault (Buffer UInt8)
  | [], result => .ok result
  | unit :: rest, result =>
    if isLeadSurrogate unit.toUInt32 then
      match rest with
      | [] => .error .thrown
      | trail :: rest =>
        if isTrailSurrogate trail.toUInt32 then do
          let cp := (unit.toUInt32 <<< 10) + trail.toUInt32 + SURROGATE_OFFSET
          utf16to8 rest (← append cp result)
        else .error .thrown
    else if isTrailSurrogate unit.toUInt32 then .error .thrown
    else do utf16to8 rest (← append unit.toUInt32 result)

/-- `resize` of the intermediate string, whose units that were not written are zero. -/
def resized (wstr : Buffer UInt16) (len : Nat) : List UInt16 :=
  (wstr.written ++ List.replicate (wstr.room - wstr.written.length) 0).take len

/-- The body of the `try` block. -/
def truncated (utf8str : Text) (len : Nat) : Except Fault Text := do
  let wlen ← distance utf8str
  if wlen ≤ len then return utf8str
  else
    let wstr ← utf8to16 utf8str (.new wlen)
    let oend ← utf16to8 (resized wstr len) (.new utf8str.length)
    return oend.written

/-- `none` where a conversion writes outside of its destination. -/
def utf8truncate (utf8str : Text) (len : Nat) : Option Text :=
  match truncated utf8str len with
  | .ok s => some s
  | .error .thrown => some []
  | .error .outOfBounds => none

/-! ## What the conversions do -/

theorem encode_cons (ch : Char) (text : List Char) :
    encode (ch :: text) = String.utf8EncodeChar ch ++ encode text := rfl

theorem encode_cons_ne_nil (ch : Char) (text : List Char) : encode (ch :: text) ≠ [] := by
  rw [encode_cons]
  exact List.append_ne_nil_of_left_ne_nil String.utf8EncodeChar_ne_nil _

/-- **Counting.** The distance is the number of code points. -/
theorem distance_encode (text : List Char) : distance (encode text) = .ok text.length := by
  induction text with
  | nil => rw [distance, if_pos (by rfl)]; rfl
  | cons ch text ih =>
    rw [distance, if_neg (encode_cons_ne_nil ch text)]
    split
    · next cp rest hok =>
      rw [encode_cons, validateNext_encode] at hok
      cases hok
      rw [ih]
      rfl
    · next herr =>
      rw [encode_cons, validateNext_encode] at herr
      cases herr

theorem distance_of_not_isValid {it : Text} (h : isValid it = false) :
    distance it = .error .thrown := by
  induction it using distance.induct with
  | case1 =>
    rw [isValid, findInvalid_nil] at h
    exact absurd h (by decide)
  | case2 it hne cp rest hok ih =>
    have hrest : isValid rest = false := by
      rw [isValid, ← findInvalid_of_ok hok]
      exact h
    rw [distance, if_neg hne]
    split
    · next hok' =>
      rw [hok] at hok'
      cases hok'
      rw [ih hrest]
      rfl
    · rfl
  | case3 it hne e herr =>
    rw [distance, if_neg hne]
    split
    · next hok =>
      rw [herr] at hok
      cases hok
    · rfl

/-- The UTF-16 units of a sequence of code points. -/
def utf16 (text : List Char) : List UInt16 := text.flatMap fun ch => utf16Units ch.val

theorem utf8to16_encode_of_le {text : List Char} {result : Buffer UInt16}
    (h : result.written.length + (utf16 text).length ≤ result.room) :
    utf8to16 (encode text) result = .ok { result with written := result.written ++ utf16 text } := by
  induction text generalizing result with
  | nil =>
    rw [utf8to16, if_pos (by rfl)]
    simp [utf16]
  | cons ch text ih =>
    have hunits : utf16 (ch :: text) = utf16Units ch.val ++ utf16 text := rfl
    rw [hunits, List.length_append] at h
    rw [utf8to16, if_neg (encode_cons_ne_nil ch text)]
    split
    · next cp rest hok =>
      rw [encode_cons, validateNext_encode] at hok
      cases hok
      rw [Buffer.writeAll_of_le (by omega)]
      show utf8to16 (encode text) _ = _
      rw [ih (by simp only [List.length_append]; omega), hunits, List.append_assoc]
    · next herr =>
      rw [encode_cons, validateNext_encode] at herr
      cases herr

theorem utf8to16_encode_of_lt {text : List Char} {result : Buffer UInt16}
    (hresult : result.written.length ≤ result.room)
    (h : result.room < result.written.length + (utf16 text).length) :
    utf8to16 (encode text) result = .error .outOfBounds := by
  induction text generalizing result with
  | nil =>
    have hnil : (utf16 []).length = 0 := rfl
    omega
  | cons ch text ih =>
    have hunits : utf16 (ch :: text) = utf16Units ch.val ++ utf16 text := rfl
    rw [hunits, List.length_append] at h
    rw [utf8to16, if_neg (encode_cons_ne_nil ch text)]
    split
    · next cp rest hok =>
      rw [encode_cons, validateNext_encode] at hok
      cases hok
      by_cases hfits : result.written.length + (utf16Units ch.val).length ≤ result.room
      · rw [Buffer.writeAll_of_le hfits]
        apply ih
        · rw [List.length_append]
          exact hfits
        · simp only [List.length_append]
          omega
      · rw [Buffer.writeAll_of_lt hresult (by omega)]
        rfl
    · next herr =>
      rw [encode_cons, validateNext_encode] at herr
      cases herr

theorem toNat_toUInt8 (cp : UInt32) : cp.toUInt8.toNat = cp.toNat % 256 := by
  simp

theorem or_marker {n k m : Nat} (h : n < 2 ^ k) : n ||| (2 ^ k * m) = n + 2 ^ k * m := by
  rw [Nat.or_comm, Nat.add_comm]
  exact (Nat.two_pow_add_eq_or_of_lt h m).symm

theorem and_low (n : Nat) : n &&& 63 = n % 64 := Nat.and_two_pow_sub_one_eq_mod n 6

/-- What `internal::append` writes is the encoding of the character. -/
theorem octets_eq (ch : Char) : octets ch.val = String.utf8EncodeChar ch := by
  have hlt : ch.val.toNat < 1114112 := by
    have hvalid : ch.val.toNat.isValidChar := ch.valid
    unfold Nat.isValidChar at hvalid
    omega
  have trail : ∀ cp : UInt32, ((cp &&& 0x3f) ||| 0x80).toUInt8.toNat = cp.toNat % 64 + 128 := by
    intro cp
    rw [toNat_toUInt8, UInt32.toNat_or, UInt32.toNat_and]
    show (cp.toNat &&& 63 ||| 2 ^ 7 * 1) % 256 = _
    rw [and_low, or_marker (by omega)]
    omega
  have shift : ∀ k < 32, (ch.val >>> UInt32.ofNat k).toNat = ch.val.toNat / 2 ^ k := by
    intro k hk
    rw [UInt32.toNat_shiftRight, UInt32.toNat_ofNat', Nat.shiftRight_eq_div_pow]
    congr 2
    omega
  have h6 : (ch.val >>> 6).toNat = ch.val.toNat / 64 := shift 6 (by decide)
  have h12 : (ch.val >>> 12).toNat = ch.val.toNat / 4096 := shift 12 (by decide)
  have h18 : (ch.val >>> 18).toNat = ch.val.toNat / 262144 := shift 18 (by decide)
  unfold octets
  split
  · next h =>
    rw [UInt32.lt_iff_toNat_lt] at h
    have h : ch.val.toNat < 128 := h
    refine (utf8EncodeChar_one h ?_).symm
    rw [toNat_toUInt8]
    omega
  split
  · next h0 h =>
    rw [UInt32.lt_iff_toNat_lt] at h0 h
    have h0 : ¬ch.val.toNat < 128 := h0
    have h : ch.val.toNat < 2048 := h
    refine (utf8EncodeChar_two (by omega) h ?_ (trail _)).symm
    rw [toNat_toUInt8, UInt32.toNat_or, h6]
    show (ch.val.toNat / 64 ||| 2 ^ 6 * 3) % 256 = _
    rw [or_marker (by omega)]
    omega
  split
  · next h0 h =>
    rw [UInt32.lt_iff_toNat_lt] at h0 h
    have h0 : ¬ch.val.toNat < 2048 := h0
    have h : ch.val.toNat < 65536 := h
    refine (utf8EncodeChar_three (by omega) h ?_ ?_ (trail _)).symm
    · rw [toNat_toUInt8, UInt32.toNat_or, h12]
      show (ch.val.toNat / 4096 ||| 2 ^ 5 * 7) % 256 = _
      rw [or_marker (by omega)]
      omega
    · rw [trail, h6]
  · next h0 =>
    rw [UInt32.lt_iff_toNat_lt] at h0
    have h0 : ¬ch.val.toNat < 65536 := h0
    refine (utf8EncodeChar_four (by omega) hlt ?_ ?_ ?_ (trail _)).symm
    · rw [toNat_toUInt8, UInt32.toNat_or, h18]
      show (ch.val.toNat / 262144 ||| 2 ^ 4 * 15) % 256 = _
      rw [or_marker (by omega)]
      omega
    · rw [trail, h12]
    · rw [trail, h6]

/-- A character of the basic multilingual plane: one unit stands for it. -/
def InPlane (ch : Char) : Prop := ch.val ≤ 0xffff

instance (ch : Char) : Decidable (InPlane ch) := inferInstanceAs (Decidable (_ ≤ _))

theorem utf16Units_of_inPlane {ch : Char} (h : InPlane ch) :
    utf16Units ch.val = [ch.val.toUInt16] := by
  unfold utf16Units InPlane at *
  rw [if_neg (UInt32.not_lt.mpr h)]

theorem one_le_length_utf16Units (cp : UInt32) : 1 ≤ (utf16Units cp).length := by
  unfold utf16Units
  split <;> simp

theorem length_le_length_utf16 (text : List Char) : text.length ≤ (utf16 text).length := by
  induction text with
  | nil => exact Nat.le_refl _
  | cons ch text ih =>
    have hch := one_le_length_utf16Units ch.val
    have hunits : utf16 (ch :: text) = utf16Units ch.val ++ utf16 text := rfl
    rw [hunits, List.length_append, List.length_cons]
    omega

theorem length_lt_length_utf16 {text : List Char} {ch : Char} (hch : ch ∈ text) (h : ¬InPlane ch) :
    text.length < (utf16 text).length := by
  induction text with
  | nil => cases hch
  | cons c text ih =>
    have hunits : utf16 (c :: text) = utf16Units c.val ++ utf16 text := rfl
    rw [hunits, List.length_append, List.length_cons]
    rcases List.mem_cons.mp hch with rfl | hch
    · have htwo : (utf16Units ch.val).length = 2 := by
        unfold utf16Units
        rw [if_pos (UInt32.not_le.mp h)]
        rfl
      have := length_le_length_utf16 text
      omega
    · have := one_le_length_utf16Units c.val
      have := ih hch
      omega

theorem utf16_of_inPlane {text : List Char} (h : ∀ ch ∈ text, InPlane ch) :
    utf16 text = text.map fun ch => ch.val.toUInt16 := by
  induction text with
  | nil => rfl
  | cons ch text ih =>
    have hunits : utf16 (ch :: text) = utf16Units ch.val ++ utf16 text := rfl
    grind [utf16Units_of_inPlane]

theorem utf16to8_cons {unit : UInt16} {rest : List UInt16} {result : Buffer UInt8}
    (hlead : isLeadSurrogate unit.toUInt32 = false)
    (htrail : isTrailSurrogate unit.toUInt32 = false) :
    utf16to8 (unit :: rest) result = append unit.toUInt32 result >>= utf16to8 rest := by
  cases rest with
  | nil => simp [utf16to8, hlead, htrail]
  | cons trail rest => simp [utf16to8, hlead, htrail]

theorem utf16to8_of_inPlane {text : List Char} {result : Buffer UInt8}
    (h : ∀ ch ∈ text, InPlane ch)
    (hroom : result.written.length + (encode text).length ≤ result.room) :
    utf16to8 (text.map fun ch => ch.val.toUInt16) result =
      .ok { result with written := result.written ++ encode text } := by
  induction text generalizing result with
  | nil =>
    rw [List.map_nil, utf16to8]
    simp [encode]
  | cons ch text ih =>
    rw [encode_cons, List.length_append] at hroom
    have hplane : ch.val.toNat ≤ 65535 := UInt32.le_iff_toNat_le.mp (h ch List.mem_cons_self)
    have hunit : ch.val.toUInt16.toUInt32 = ch.val := by
      rw [← UInt32.toNat_inj, UInt16.toNat_toUInt32, UInt32.toNat_toUInt16]
      omega
    have hvalid : ch.val.toNat.isValidChar := ch.valid
    unfold Nat.isValidChar at hvalid
    have hlead : isLeadSurrogate ch.val = false := by
      simp only [isLeadSurrogate, LEAD_SURROGATE_MIN, LEAD_SURROGATE_MAX, Bool.and_eq_false_iff,
        decide_eq_false_iff_not, UInt32.le_iff_toNat_le, UInt32.reduceToNat]
      omega
    have htrail : isTrailSurrogate ch.val = false := by
      simp only [isTrailSurrogate, TRAIL_SURROGATE_MIN, TRAIL_SURROGATE_MAX, Bool.and_eq_false_iff,
        decide_eq_false_iff_not, UInt32.le_iff_toNat_le, UInt32.reduceToNat]
      omega
    have happend : append ch.val result =
        .ok { result with written := result.written ++ String.utf8EncodeChar ch } := by
      rw [append, if_pos (isCodePointValid_iff.mpr ch.valid), octets_eq]
      exact Buffer.writeAll_of_le (by omega)
    rw [List.map_cons, utf16to8_cons (by rw [hunit]; exact hlead) (by rw [hunit]; exact htrail),
      hunit, happend]
    show utf16to8 _ _ = _
    grind [encode_cons]

/-! ## Truncation -/

/-- What truncation is to give: nothing for a string that is not UTF-8, the string itself if it has
at most `len` code points, and else a prefix of `len` code points. -/
def IsTruncation (utf8str : Text) (len : Nat) (s : Text) : Prop :=
  (isValid utf8str = false → s = []) ∧
    ∀ text, utf8str = encode text →
      (text.length ≤ len → s = utf8str) ∧
        (len < text.length → ∃ p, s = encode p ∧ p.length = len ∧ p <+: text)

/-- The strings on which the intermediate buffer is long enough: those that are not cut, and those
without characters of other planes. -/
def Truncates (utf8str : Text) (len : Nat) : Prop :=
  isValid utf8str = true →
    ∀ text, utf8str = encode text → text.length ≤ len ∨ ∀ ch ∈ text, InPlane ch

theorem encode_injective {text text' : List Char} (h : encode text = encode text') :
    text = text' := by
  induction text generalizing text' with
  | nil =>
    cases text' with
    | nil => rfl
    | cons ch text' => exact absurd h.symm (encode_cons_ne_nil ch text')
  | cons ch text ih =>
    cases text' with
    | nil => exact absurd h (encode_cons_ne_nil ch text)
    | cons ch' text' =>
      grind [Char.ext, validateNext_encode, encode_cons]

theorem length_encode_take_le (text : List Char) (len : Nat) :
    (encode (text.take len)).length ≤ (encode text).length := by
  conv_rhs => rw [← List.take_append_drop len text]
  rw [encode, encode, List.flatMap_append, List.length_append]
  exact Nat.le_add_right _ _

theorem utf8truncate_of_not_isValid {utf8str : Text} (h : isValid utf8str = false) (len : Nat) :
    utf8truncate utf8str len = some [] := by
  rw [utf8truncate, truncated, distance_of_not_isValid h]
  rfl

theorem utf8truncate_of_le {text : List Char} {len : Nat} (h : text.length ≤ len) :
    utf8truncate (encode text) len = some (encode text) := by
  rw [utf8truncate, truncated, distance_encode]
  show (match (if text.length ≤ len then _ else _ : Except Fault Text) with
    | .ok s => some s
    | .error .thrown => some []
    | .error .outOfBounds => none) = _
  rw [if_pos h]
  rfl

theorem truncated_encode {text : List Char} {len : Nat} (h : len < text.length) :
    truncated (encode text) len = (do
      let wstr ← utf8to16 (encode text) (.new text.length)
      let oend ← utf16to8 (resized wstr len) (.new (encode text).length)
      return oend.written) := by
  rw [truncated, distance_encode]
  exact if_neg (Nat.not_le.mpr h)

theorem utf8truncate_of_not_inPlane {text : List Char} {ch : Char} {len : Nat}
    (h : len < text.length) (hch : ch ∈ text) (hno : ¬InPlane ch) :
    utf8truncate (encode text) len = none := by
  have hover : utf8to16 (encode text) (.new text.length) = .error .outOfBounds := by
    apply utf8to16_encode_of_lt (Nat.zero_le _)
    show text.length < 0 + (utf16 text).length
    have := length_lt_length_utf16 hch hno
    omega
  rw [utf8truncate, truncated_encode h, hover]
  rfl

theorem utf8truncate_of_inPlane {text : List Char} {len : Nat} (h : len < text.length)
    (hall : ∀ ch ∈ text, InPlane ch) :
    utf8truncate (encode text) len = some (encode (text.take len)) := by
  have hlen : (utf16 text).length = text.length := by
    rw [utf16_of_inPlane hall, List.length_map]
  have hwide : utf8to16 (encode text) (.new text.length) =
      .ok { room := text.length, written := utf16 text } := by
    rw [utf8to16_encode_of_le (by show 0 + (utf16 text).length ≤ text.length; omega)]
    rfl
  have hcut : resized { room := text.length, written := utf16 text } len =
      (text.take len).map fun ch => ch.val.toUInt16 := by
    rw [resized, hlen, Nat.sub_self, List.replicate_zero, List.append_nil, utf16_of_inPlane hall,
      List.map_take]
  have hback : utf16to8 ((text.take len).map fun ch => ch.val.toUInt16)
      (.new (encode text).length) =
        .ok { room := (encode text).length, written := encode (text.take len) } := by
    rw [utf16to8_of_inPlane fun ch hch => hall ch (List.mem_of_mem_take hch)]
    · rfl
    · have := length_encode_take_le text len
      show 0 + _ ≤ (encode text).length
      omega
  rw [utf8truncate, truncated_encode h, hwide]
  show (match (utf16to8 (resized { room := text.length, written := utf16 text } len) _ >>=
    fun oend => pure oend.written : Except Fault Text) with
    | .ok s => some s
    | .error .thrown => some []
    | .error .outOfBounds => none) = _
  rw [hcut, hback]
  rfl

/-- **When truncation is safe and right.** No write leaves its buffer and the result is the
truncation, if and only if the string is not UTF-8, or is not cut, or has no character of another
plane. -/
theorem utf8truncate_iff (utf8str : Text) (len : Nat) :
    (∃ s, utf8truncate utf8str len = some s ∧ IsTruncation utf8str len s) ↔
      Truncates utf8str len := by
  cases hvalid : isValid utf8str with
  | false =>
    refine iff_of_true ⟨[], utf8truncate_of_not_isValid hvalid len, fun _ => rfl, ?_⟩ ?_
    · intro text htext
      rw [isValid_iff.mpr ⟨text, htext⟩] at hvalid
      cases hvalid
    · intro htrue
      rw [hvalid] at htrue
      cases htrue
  | true =>
    obtain ⟨text, rfl⟩ := isValid_iff.mp hvalid
    constructor
    · rintro ⟨s, hs, -⟩ - text' htext'
      rw [← encode_injective htext']
      by_contra hno
      push Not at hno
      grind [utf8truncate_of_not_inPlane]
    · intro htruncates
      by_cases hlen : text.length ≤ len
      · refine ⟨_, utf8truncate_of_le hlen, fun hno => ?_, fun text' htext' => ?_⟩
        · rw [hvalid] at hno
          cases hno
        · rw [← encode_injective htext']
          exact ⟨fun _ => rfl, fun hlt => absurd hlen (Nat.not_le.mpr hlt)⟩
      · have hlt := Nat.not_le.mp hlen
        have hall := (htruncates hvalid text rfl).resolve_left hlen
        refine ⟨_, utf8truncate_of_inPlane hlt hall, fun hno => ?_, fun text' htext' => ?_⟩
        · rw [hvalid] at hno
          cases hno
        · rw [← encode_injective htext']
          grind

/-- Two characters of another plane, cut to one: the second pair is written behind the end. -/
theorem utf8truncate_overruns :
    ¬∀ utf8str len, ∃ s, utf8truncate utf8str len = some s ∧ IsTruncation utf8str len s := by
  intro hall
  obtain ⟨s, hs, -⟩ := hall (encode [Char.ofNat 0x1f600, Char.ofNat 0x1f600]) 1
  rw [utf8truncate_of_not_inPlane (by decide) List.mem_cons_self (by decide)] at hs
  cases hs

end EGServer.Utilities
