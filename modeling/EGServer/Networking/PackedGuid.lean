import EGServer.Networking.ByteBuffer
import Mathlib.Data.Nat.Bitwise

/-!
# Packed GUIDs

A packed GUID is a mark and the non-zero bytes of the GUID, the lowest first; bit `i` of the mark
says whether byte `i` is there. `packLoop_eq` says what the writer builds, `reads_readPackLoop`
what the reader makes of it.
-/

namespace EGServer.Networking.ByteBuffer

open LittleEndian

/-- The non-zero bytes among the lowest `n` of `x`. -/
def packed (n x : Nat) : List UInt8 := (toBytes n x).filter (· != 0)

/-- How many bytes of the GUID are not zero. -/
def nonZeroBytes (guid : UInt64) : Nat := (packed 8 guid.toNat).length

@[simp] theorem packed_zero (n : Nat) : packed n 0 = [] := by
  rw [packed, toBytes_zero, List.filter_replicate]
  rfl

theorem packed_succ (n x : Nat) :
    packed (n + 1) x =
      if x % 256 = 0 then packed n (x / 256) else UInt8.ofNat x :: packed n (x / 256) := by
  have h : UInt8.ofNat x = 0 ↔ x % 256 = 0 := by
    rw [← UInt8.toNat_inj, UInt8.toNat_ofNat']
    rfl
  rw [packed, toBytes, List.filter_cons]
  simp only [bne_iff_ne, ne_eq, h, ite_not]
  rfl

/-- Is bit `j` set for a number `x` whose lowest byte has position `i`? -/
def markBit (x i j : Nat) : Bool := decide (i ≤ j) && decide (x / 256 ^ (j - i) % 256 ≠ 0)

@[simp] theorem markBit_zero (i j : Nat) : markBit 0 i j = false := by
  simp [markBit]

theorem markBit_succ (x i j : Nat) :
    markBit x i j = ((decide (i = j) && decide (x % 256 ≠ 0)) || markBit (x / 256) (i + 1) j) := by
  unfold markBit
  obtain hlt | rfl | hlt := Nat.lt_trichotomy j i
  · grind
  · grind
  · have hj : j - i = (j - (i + 1)) + 1 := by omega
    grind [Nat.div_div_eq_div_mul]

/-! ## Writing -/

theorem toNat_shift_byte (guid : UInt64) : (guid >>> 8).toNat = guid.toNat / 256 := by
  rw [UInt64.toNat_shiftRight, Nat.shiftRight_eq_div_pow]
  rfl

theorem toNat_low_byte (guid : UInt64) : (guid &&& 0xFF).toNat = guid.toNat % 256 := by
  rw [UInt64.toNat_and]
  exact Nat.and_two_pow_sub_one_eq_mod guid.toNat 8

theorem toUInt8_low_byte (guid : UInt64) :
    (guid &&& 0xFF).toUInt8 = UInt8.ofNat guid.toNat := by
  rw [← UInt8.toNat_inj, UInt64.toNat_toUInt8, toNat_low_byte, UInt8.toNat_ofNat', Nat.mod_mod]

theorem low_byte_eq_zero (guid : UInt64) : guid &&& 0xFF = 0 ↔ guid.toNat % 256 = 0 := by
  rw [← toNat_low_byte, ← UInt64.toNat_inj]
  rfl

/-- Setting bit `i` of the mark. -/
theorem testBit_or_shift (mark : UInt8) {i j : Nat} (hi : i < 8) :
    (mark ||| UInt8.ofNat (1 <<< i)).toNat.testBit j =
      (mark.toNat.testBit j || decide (i = j)) := by
  have hlt : 1 <<< i < 256 := by
    rw [Nat.one_shiftLeft]
    exact Nat.pow_lt_pow_right (by omega) hi
  rw [UInt8.toNat_or, UInt8.toNat_ofNat_of_lt' hlt, Nat.testBit_or, Nat.one_shiftLeft,
    Nat.testBit_two_pow]

/-- **The writer.** `n` rounds are enough for a GUID of `n` bytes; they put the non-zero ones
behind the mark and set the bits of their positions. -/
theorem packLoop_eq (n : Nat) : ∀ (guid : UInt64) (i : Nat) (mark : UInt8) (bytes : List UInt8),
    guid.toNat < 256 ^ n → i + n ≤ 8 →
      (packLoop guid i mark bytes).2 = bytes ++ packed n guid.toNat ∧
      ∀ j, (packLoop guid i mark bytes).1.toNat.testBit j =
        (mark.toNat.testBit j || markBit guid.toNat i j) := by
  induction n with
  | zero =>
    intro guid i mark bytes hlt hi
    have h0 : guid.toNat = 0 := by omega
    have hg : guid = 0 := UInt64.toNat_inj.mp h0
    rw [packLoop, if_pos hg, h0]
    simp
  | succ n ih =>
    intro guid i mark bytes hlt hi
    have hlt' : (guid >>> 8).toNat < 256 ^ n := by
      rw [toNat_shift_byte]
      apply Nat.div_lt_of_lt_mul
      rwa [← Nat.pow_succ']
    by_cases hz : guid = 0
    · have h0 : guid.toNat = 0 := by rw [hz]; rfl
      rw [packLoop, if_pos hz, h0]
      simp
    rw [packLoop, if_neg hz, packed_succ]
    by_cases hb : guid &&& 0xFF = 0
    · have hb' := (low_byte_eq_zero guid).mp hb
      obtain ⟨h2, h1⟩ := ih (guid >>> 8) (i + 1) mark bytes hlt' (by omega)
      rw [if_neg (not_not_intro hb), if_pos hb', h2, toNat_shift_byte]
      refine ⟨rfl, fun j => ?_⟩
      rw [h1 j, toNat_shift_byte, markBit_succ guid.toNat i j, hb']
      simp
    · have hb' : ¬guid.toNat % 256 = 0 := fun h => hb ((low_byte_eq_zero guid).mpr h)
      obtain ⟨h2, h1⟩ := ih (guid >>> 8) (i + 1) (mark ||| UInt8.ofNat (1 <<< i))
        (bytes ++ [(guid &&& 0xFF).toUInt8]) hlt' (by omega)
      rw [if_pos hb, if_neg hb', h2, toNat_shift_byte, List.append_assoc, toUInt8_low_byte]
      refine ⟨rfl, fun j => ?_⟩
      rw [← toUInt8_low_byte, h1 j, testBit_or_shift mark (by omega), toNat_shift_byte,
        markBit_succ guid.toNat i j, decide_eq_true hb', Bool.and_true, Bool.or_assoc]

/-- The mark that `appendPackGUID` writes first. -/
def guidMark (guid : UInt64) : UInt8 := (packLoop guid 0 0 []).1

theorem toNat_lt_pow (guid : UInt64) : guid.toNat < 256 ^ 8 := guid.toNat_lt

theorem packLoop_bytes (guid : UInt64) : (packLoop guid 0 0 []).2 = packed 8 guid.toNat :=
  (packLoop_eq 8 guid 0 0 [] (toNat_lt_pow guid) (by omega)).1

theorem testBit_guidMark (guid : UInt64) (j : Nat) :
    (guidMark guid).toNat.testBit j = markBit guid.toNat 0 j := by
  rw [guidMark, (packLoop_eq 8 guid 0 0 [] (toNat_lt_pow guid) (by omega)).2 j]
  show (Nat.testBit 0 j || _) = _
  rw [Nat.zero_testBit, Bool.false_or]

theorem appendPackGUID_eq (b : ByteBuffer) (guid : UInt64) :
    b.appendPackGUID guid = b.append (guidMark guid :: packed 8 guid.toNat) := by
  rw [← packLoop_bytes]
  rfl

/-! ## Reading -/

section Checked

variable {α : Type} {m : ReadM α} {bytes : List UInt8} {v : α} {b : ByteBuffer} {limit : Nat}

/-- The check for one more byte that `readPackGUID` makes before each of its reads. -/
def checked (m : ReadM α) : ReadM α := do
  let b ← get
  if b.rpos + 1 > b.size then throw (.thrown (.position false b.rpos 1 b.size)) else m

theorem Reads.checked (h : Reads m bytes v) (hne : 0 < bytes.length) :
    Reads (checked m) bytes v := by
  intro b tail hb
  have hle := le_size_of_unread hb hne
  show (if b.rpos + 1 > b.size then _ else m : ReadM α) b = _
  rw [if_neg (by omega), h b tail hb]

theorem inBounds_checked (hb : b.rpos ≤ b.size) (h : InBounds b limit (m b)) :
    InBounds b limit (ByteBuffer.checked m b) := by
  show InBounds b limit ((if b.rpos + 1 > b.size then _ else m : ReadM α) b)
  split
  · exact ⟨Took.refl hb, fun h' => nomatch h'⟩
  · exact h

end Checked

theorem mark_and_shift (guidmark : UInt8) {i : Nat} (hi : i < 8) :
    guidmark &&& (1 <<< UInt8.ofNat i) ≠ 0 ↔ guidmark.toNat.testBit i = true := by
  have h1 : (1 <<< UInt8.ofNat i : UInt8).toNat = 2 ^ i := by
    have hlt : 1 <<< i < 2 ^ 8 := by
      rw [Nat.one_shiftLeft]
      exact Nat.pow_lt_pow_right (by omega) hi
    rw [UInt8.toNat_shiftLeft, UInt8.toNat_ofNat_of_lt' (Nat.lt_trans hi (by decide)),
      Nat.mod_eq_of_lt hi]
    show 1 <<< i % 2 ^ 8 = 2 ^ i
    rw [Nat.mod_eq_of_lt hlt, Nat.one_shiftLeft]
  rw [ne_eq, ← UInt8.toNat_inj, UInt8.toNat_and, h1, Nat.and_two_pow]
  show ¬_ = 0 ↔ _
  cases guidmark.toNat.testBit i with
  | false => simp
  | true => simp

/-- `guid |= uint64(bit) << (i * 8)`, where the GUID has only lower bytes. -/
theorem toNat_or_byte {acc : UInt64} {i : Nat} (hi : i < 8) (hacc : acc.toNat < 256 ^ i)
    (bit : UInt8) : (acc ||| (bit.toUInt64 <<< UInt64.ofNat (i * 8))).toNat =
      acc.toNat + 256 ^ i * bit.toNat := by
  have hpow : 256 ^ i = 2 ^ (i * 8) := by
    rw [Nat.mul_comm, Nat.pow_mul]
  have hbit : bit.toNat * 2 ^ (i * 8) < 2 ^ 64 := by
    calc bit.toNat * 2 ^ (i * 8) < 2 ^ 8 * 2 ^ (i * 8) :=
          Nat.mul_lt_mul_of_pos_right bit.toNat_lt (Nat.two_pow_pos _)
      _ = 2 ^ (8 + i * 8) := (Nat.pow_add ..).symm
      _ ≤ 2 ^ 64 := Nat.pow_le_pow_right (by omega) (by omega)
  have hshift : (bit.toUInt64 <<< UInt64.ofNat (i * 8)).toNat = bit.toNat <<< (i * 8) := by
    rw [UInt64.toNat_shiftLeft, UInt8.toNat_toUInt64,
      UInt64.toNat_ofNat_of_lt' (Nat.lt_trans (by omega : i * 8 < 64) (by decide)),
      Nat.mod_eq_of_lt (by omega : i * 8 < 64), Nat.shiftLeft_eq, Nat.mod_eq_of_lt hbit]
  grind [Nat.shiftLeft_eq, Nat.shiftLeft_add_eq_or_of_lt, UInt64.toNat_or]

/-- **The reader.** Of a number `x` of `n` bytes from position `i` on, it finds the non-zero bytes
where the mark says, and adds them to the bytes below. -/
theorem reads_readPackLoop (guidmark : UInt8) (n : Nat) : ∀ (i x : Nat) (acc : UInt64),
    i + n ≤ 8 → (∀ j, i ≤ j → guidmark.toNat.testBit j = markBit x i j) →
      acc.toNat < 256 ^ i → x < 256 ^ n →
        Reads (readPackLoop guidmark (List.range' i n) acc) (packed n x)
          (UInt64.ofNat (acc.toNat + 256 ^ i * x)) := by
  induction n with
  | zero =>
    intro i x acc hi hmark hacc hx
    have h0 : x = 0 := by omega
    rw [h0, Nat.mul_zero, Nat.add_zero, UInt64.ofNat_toNat]
    exact Reads.pure acc
  | succ n ih =>
    intro i x acc hi hmark hacc hx
    have hx' : x / 256 < 256 ^ n := by
      apply Nat.div_lt_of_lt_mul
      rwa [← Nat.pow_succ']
    have hmark' : ∀ j, i + 1 ≤ j → guidmark.toNat.testBit j = markBit (x / 256) (i + 1) j := by
      intro j hj
      rw [hmark j (by omega), markBit_succ x i j, decide_eq_false (by omega : ¬i = j),
        Bool.false_and, Bool.false_or]
    have hpow : 256 ^ (i + 1) = 256 * 256 ^ i := Nat.pow_succ'
    have hbit : guidmark &&& (1 <<< UInt8.ofNat i) ≠ 0 ↔ x % 256 ≠ 0 := by
      rw [mark_and_shift guidmark (by omega), hmark i (Nat.le_refl i), markBit_succ,
        decide_eq_true rfl, Bool.true_and]
      simp [markBit]
    rw [List.range'_succ, readPackLoop, packed_succ]
    by_cases hb : x % 256 = 0
    · rw [if_neg (fun h => hbit.mp h hb), if_pos hb]
      have h := ih (i + 1) (x / 256) acc (by omega) hmark' (by omega) hx'
      have hsum : 256 ^ (i + 1) * (x / 256) = 256 ^ i * x := by
        rw [Nat.pow_succ, Nat.mul_assoc, Nat.mul_div_cancel' (Nat.dvd_of_mod_eq_zero hb)]
      rwa [hsum] at h
    · rw [if_pos (hbit.mpr hb), if_neg hb]
      have hbyte : (UInt8.ofNat x).toNat = x % 256 := UInt8.toNat_ofNat'
      have hacc' := toNat_or_byte (by omega : i < 8) hacc (UInt8.ofNat x)
      rw [hbyte] at hacc'
      have h := ih (i + 1) (x / 256) _ (by omega) hmark' (by
        rw [hacc', hpow]
        have hmod : x % 256 ≤ 255 := by omega
        have hmul := Nat.mul_le_mul_left (256 ^ i) hmod
        omega) hx'
      have hsum : acc.toNat + 256 ^ i * (x % 256) + 256 ^ (i + 1) * (x / 256) =
          acc.toNat + 256 ^ i * x := by
        rw [Nat.pow_succ, Nat.mul_assoc, Nat.add_assoc, ← Nat.mul_add, Nat.mod_add_div]
      rw [hacc', hsum] at h
      exact ((reads_readUInt8 (UInt8.ofNat x)).bind h).checked (by simp)

theorem reads_readPackGUID (guid : UInt64) :
    Reads readPackGUID (guidMark guid :: packed 8 guid.toNat) guid := by
  have h := reads_readPackLoop (guidMark guid) 8 0 guid.toNat 0 (by omega)
    (fun j _ => testBit_guidMark guid j) (by decide) (toNat_lt_pow guid)
  have hv : UInt64.ofNat ((0 : UInt64).toNat + 256 ^ 0 * guid.toNat) = guid := by
    show UInt64.ofNat (0 + 1 * guid.toNat) = guid
    rw [Nat.zero_add, Nat.one_mul, UInt64.ofNat_toNat]
  rw [hv, ← List.range_eq_range'] at h
  exact ((reads_readUInt8 (guidMark guid)).bind h).checked (by simp)

theorem inBounds_readPackLoop (guidmark : UInt8) (is : List Nat) :
    ∀ (b : ByteBuffer) (guid : UInt64), b.rpos ≤ b.size →
      InBounds b is.length (readPackLoop guidmark is guid b) := by
  induction is with
  | nil => exact fun b guid hb => (Took.refl hb : Took b b 0)
  | cons i is ih =>
    intro b guid hb
    rw [readPackLoop, List.length_cons]
    split
    · apply inBounds_checked hb
      rw [Nat.add_comm]
      exact (inBounds_readUInt8 hb).bind fun bit b' hb' => ih b' _ hb'
    · exact (ih b guid hb).mono (Nat.le_succ _)

theorem inBounds_readPackGUID {b : ByteBuffer} (hb : b.rpos ≤ b.size) :
    InBounds b 9 (readPackGUID b) :=
  inBounds_checked hb ((inBounds_readUInt8 hb).bind fun guidmark b' hb' =>
    inBounds_readPackLoop guidmark (List.range 8) b' 0 hb')

end EGServer.Networking.ByteBuffer
