import EGServer.Lib.BitString
import Mathlib.Tactic

/-!
# `GenericBaseEncoding`

The loops that regroup bytes into characters of five or six bits and back, over an alphabet given
by an `Encoding`. Both loops keep `bitsLeft`, the bits of the current byte that are still to be
written (`Encode`) or read (`Decode`). Strings are lists of bytes, as in `std::string`.
-/

namespace EGServer.Encoding

/-- What the template takes from its parameter. `Encode` is `none` where its `ASSERT` fires. -/
structure Alphabet where
  BITS_PER_CHAR : Nat
  bits_pos : 0 < BITS_PER_CHAR
  /-- The template's `static_assert`. -/
  bits_lt : BITS_PER_CHAR < 8
  PADDING : UInt8
  DECODE_ERROR : UInt8
  Encode : UInt8 → Option UInt8
  Decode : UInt8 → UInt8

namespace GenericBaseEncoding

variable (E : Alphabet)

def PAD_TO : Nat := Nat.lcm 8 E.BITS_PER_CHAR

def EncodedSize (size : Nat) : Nat :=
  let size := size * 8
  let size := if size % PAD_TO E ≠ 0 then size + (PAD_TO E - size % PAD_TO E) else size
  size / E.BITS_PER_CHAR

/-! ## Encoding -/

/-- The `do … while (it != end)` of `Encode`, at `byte` with `rest` behind it: the characters it
appends, and `bitsLeft` at its end. -/
def encodeLoop (byte : UInt8) (rest : List UInt8) (bitsLeft : Nat) : Option (List UInt8 × Nat) :=
  if E.BITS_PER_CHAR ≤ bitsLeft then
    let thisC := byte.toNat >>> (bitsLeft - E.BITS_PER_CHAR) &&& (1 <<< E.BITS_PER_CHAR - 1)
    (E.Encode (.ofNat thisC)).bind fun c =>
      if bitsLeft - E.BITS_PER_CHAR = 0 then
        match rest with
        | [] => some ([c], 8)
        | next :: rest => (encodeLoop next rest 8).map fun done => (c :: done.1, done.2)
      else
        (encodeLoop byte rest (bitsLeft - E.BITS_PER_CHAR)).map fun done => (c :: done.1, done.2)
  else
    let thisC := (byte.toNat &&& (1 <<< bitsLeft - 1)) <<< (E.BITS_PER_CHAR - bitsLeft)
    match rest with
    | [] =>
      (E.Encode (.ofNat thisC)).map fun c => ([c], bitsLeft + (8 - E.BITS_PER_CHAR))
    | next :: rest =>
      let thisC := thisC ||| next.toNat >>> (bitsLeft + (8 - E.BITS_PER_CHAR))
      (E.Encode (.ofNat thisC)).bind fun c =>
        (encodeLoop next rest (bitsLeft + (8 - E.BITS_PER_CHAR))).map fun done =>
          (c :: done.1, done.2)
termination_by 8 * rest.length + bitsLeft
decreasing_by
  all_goals
    have hpos := E.bits_pos
    grind

/-- How a padding character moves `bitsLeft`. -/
def padStep (bitsLeft : Nat) : Nat :=
  if bitsLeft > E.BITS_PER_CHAR then bitsLeft - E.BITS_PER_CHAR
  else bitsLeft + (8 - E.BITS_PER_CHAR)

/-- The `while (bitsLeft != 8)` of `Encode`. `bitsLeft` takes eight values, so a loop that has not
ended after eight rounds never ends: `none`. -/
def padLoop : Nat → Nat → Option (List UInt8)
  | 0, _ => none
  | fuel + 1, bitsLeft =>
    if bitsLeft = 8 then some []
    else (padLoop fuel (padStep E bitsLeft)).map (E.PADDING :: ·)

def Encode (data : List UInt8) : Option (List UInt8) :=
  match data with
  | [] => some []
  | byte :: rest =>
    (encodeLoop E byte rest 8).bind fun done => (padLoop E 8 done.2).map (done.1 ++ ·)

/-! ## Decoding -/

/-- The locals of `Decode`. -/
structure Decoding where
  v : List UInt8 := []
  currentByte : Nat := 0
  bitsLeft : Nat := 8

/-- One round of the first loop of `Decode`, with the five or six bits `cur`. -/
def Decoding.read (D : Decoding) (cur : Nat) : Decoding :=
  if D.bitsLeft > E.BITS_PER_CHAR then
    { D with
      bitsLeft := D.bitsLeft - E.BITS_PER_CHAR
      currentByte := (D.currentByte ||| cur <<< (D.bitsLeft - E.BITS_PER_CHAR)) % 2 ^ 8 }
  else
    -- `bitsLeft` counts the bits left in the character here
    let bitsLeft := E.BITS_PER_CHAR - D.bitsLeft
    { v := D.v ++ [.ofNat (D.currentByte ||| cur >>> bitsLeft)]
      currentByte := (cur &&& (1 <<< bitsLeft - 1)) <<< (8 - bitsLeft) % 2 ^ 8
      bitsLeft := 8 - bitsLeft }

/-- The first loop of `Decode`: the locals and the rest of the string where it stops. -/
def decodeLoop (D : Decoding) : List UInt8 → Option (Decoding × List UInt8)
  | [] => some (D, [])
  | c :: rest =>
    if c = E.PADDING then some (D, c :: rest)
    else
      let cur := E.Decode c
      if cur = E.DECODE_ERROR then none
      else decodeLoop (D.read E cur.toNat) rest

/-- The second loop of `Decode`: what is left of the string behind the padding it takes. -/
def processPadding (bitsLeft : Nat) : List UInt8 → List UInt8
  | [] => []
  | c :: rest =>
    if c = E.PADDING ∧ bitsLeft ≠ 8 then processPadding (padStep E bitsLeft) rest else c :: rest

def Decode (data : List UInt8) : Option (List UInt8) :=
  match data with
  | [] => some []
  | data => do
    let (D, rest) ← decodeLoop E {} data
    -- decode error, trailing non-zero bits
    if D.currentByte ≠ 0 then none
    else if processPadding E D.bitsLeft rest = [] then some D.v
    else none

end GenericBaseEncoding

end EGServer.Encoding

/-!
# Both loops regroup a bit string

`encodeLoop` cuts the bits of the bytes into characters and fills the last one with zeros;
`decodeLoop` cuts the bits of the characters into bytes and keeps what is left over in
`currentByte`.
-/

namespace EGServer.Encoding

/-- What a base encoding relies on in its alphabet: the digits can be written, are not the padding,
and are read back; nothing else is read. -/
structure Alphabet.Lawful (E : Alphabet) : Prop where
  writes : ∀ u < 2 ^ E.BITS_PER_CHAR, ∃ c, E.Encode (.ofNat u) = some c ∧ c ≠ E.PADDING ∧
    E.Decode c ≠ E.DECODE_ERROR ∧ (E.Decode c).toNat = u
  reads : ∀ c, E.Decode c ≠ E.DECODE_ERROR → (E.Decode c).toNat < 2 ^ E.BITS_PER_CHAR

/-- The characters `s` are written for the digits `units`. -/
def Writes (E : Alphabet) (units : List Nat) (s : List UInt8) : Prop :=
  List.Forall₂ (fun u c => E.Encode (.ofNat u) = some c) units s

/-- The characters `s` are read as the digits `units`. -/
def Reads (E : Alphabet) (s : List UInt8) (units : List Nat) : Prop :=
  List.Forall₂ (fun c u => c ≠ E.PADDING ∧ E.Decode c ≠ E.DECODE_ERROR ∧
    (E.Decode c).toNat = u) s units

theorem Reads.lt {E : Alphabet} (hE : E.Lawful) {s : List UInt8} {units : List Nat}
    (h : Reads E s units) : ∀ u ∈ units, u < 2 ^ E.BITS_PER_CHAR := by
  induction h with
  | nil => rintro u ⟨⟩
  | cons hdigit _ ih =>
    intro u hu
    obtain ⟨-, herror, rfl⟩ := hdigit
    rcases List.mem_cons.mp hu with rfl | hu
    · exact hE.reads _ herror
    · exact ih u hu

/-- The bits of a byte vector. -/
def byteBits (data : List UInt8) : List Bool := bitString 8 (data.map UInt8.toNat)

theorem byteBits_cons (byte : UInt8) (data : List UInt8) :
    byteBits (byte :: data) = bits 8 byte.toNat ++ byteBits data := by
  rw [byteBits, List.map_cons, bitString_cons, byteBits]

@[simp] theorem length_byteBits (data : List UInt8) :
    (byteBits data).length = data.length * 8 := by
  rw [byteBits, length_bitString, List.length_map]

theorem byteBits_inj {v w : List UInt8} {xs ys : List Bool} (hxs : xs.length < 8)
    (hys : ys.length < 8) (h : byteBits v ++ xs = byteBits w ++ ys) : v = w ∧ xs = ys := by
  have hlength := congrArg List.length h
  rw [List.length_append, List.length_append, length_byteBits, length_byteBits] at hlength
  have hbyte (u : List UInt8) : ∀ n ∈ u.map UInt8.toNat, n < 2 ^ 8 := by
    intro n hn
    obtain ⟨c, -, rfl⟩ := List.mem_map.mp hn
    exact c.toNat_lt
  obtain ⟨hmap, hrest⟩ := bitString_inj (hbyte v) (hbyte w)
    (by rw [List.length_map, List.length_map]; omega) h
  exact ⟨List.map_injective_iff.mpr (fun _ _ => UInt8.toNat_inj.mp) hmap, hrest⟩

namespace GenericBaseEncoding

variable {E : Alphabet}

/-! ## Writing -/

/-- What a run of `encodeLoop` over `todo` leaves: the characters of `todo` filled with `k` zeros,
and `bitsLeft` telling `k`. -/
def Wrote (E : Alphabet) (todo : List Bool) (done : Option (List UInt8 × Nat)) : Prop :=
  ∃ units s k, done = some (s, 8 - k) ∧ Writes E units s ∧ (∀ u ∈ units, u < 2 ^ E.BITS_PER_CHAR) ∧
    bitString E.BITS_PER_CHAR units = todo ++ List.replicate k false ∧ k < E.BITS_PER_CHAR

/-- The last character, filled with `k` zeros. -/
theorem Wrote.last (todo : List Bool) {u k : Nat} {c : UInt8}
    (hu : u < 2 ^ E.BITS_PER_CHAR) (hc : E.Encode (.ofNat u) = some c)
    (hbits : bits E.BITS_PER_CHAR u = todo ++ List.replicate k false)
    (hk : k < E.BITS_PER_CHAR) : Wrote E todo (some ([c], 8 - k)) := by
  refine ⟨[u], [c], k, rfl, .cons hc .nil, ?_, ?_, hk⟩
  · intro n hn
    rw [List.mem_singleton.mp hn]
    exact hu
  · rw [bitString_cons, bitString_nil, List.append_nil, hbits]

theorem Wrote.cons {u : Nat} {c : UInt8} {todo : List Bool} {done : Option (List UInt8 × Nat)}
    (h : Wrote E todo done) (hu : u < 2 ^ E.BITS_PER_CHAR) (hc : E.Encode (.ofNat u) = some c) :
    Wrote E (bits E.BITS_PER_CHAR u ++ todo) (done.map fun d => (c :: d.1, d.2)) := by
  obtain ⟨units, s, k, rfl, hs, hunits, hbits, hk⟩ := h
  refine ⟨u :: units, c :: s, k, rfl, .cons hc hs, ?_, ?_, hk⟩
  · intro n hn
    rcases List.mem_cons.mp hn with rfl | hn
    · exact hu
    · exact hunits n hn
  · rw [bitString_cons, hbits, List.append_assoc]

theorem middle_eq {byte : UInt8} {b w : Nat} (h : w ≤ b) :
    bits b byte.toNat =
      bits w (byte.toNat >>> (b - w) &&& (1 <<< w - 1)) ++ bits (b - w) byte.toNat := by
  rw [Nat.one_shiftLeft, Nat.and_two_pow_sub_one_eq_mod, Nat.shiftRight_eq_div_pow, bits_mod,
    ← bits_add, Nat.add_sub_cancel' h]

theorem middle_lt (n w : Nat) : n &&& (1 <<< w - 1) < 2 ^ w := by
  rw [Nat.one_shiftLeft, Nat.and_two_pow_sub_one_eq_mod]
  exact Nat.mod_lt _ (Nat.two_pow_pos w)

/-- The digit that starts with the last `b` bits of a byte. -/
theorem straddle_eq (byte : Nat) {m b w : Nat} (h : b ≤ w) (hm : m < 2 ^ (w - b)) :
    bits w ((byte &&& (1 <<< b - 1)) <<< (w - b) ||| m) = bits b byte ++ bits (w - b) m := by
  rw [← Nat.shiftLeft_add_eq_or_of_lt hm, Nat.shiftLeft_eq, Nat.one_shiftLeft,
    Nat.and_two_pow_sub_one_eq_mod]
  have hjoin := bits_mul_add (a := b) (n := byte % 2 ^ b) hm
  rwa [Nat.add_sub_cancel' h, bits_mod] at hjoin

theorem straddle_lt (byte : Nat) {m b w : Nat} (h : b ≤ w) (hm : m < 2 ^ (w - b)) :
    (byte &&& (1 <<< b - 1)) <<< (w - b) ||| m < 2 ^ w := by
  have hpow : 2 ^ w = 2 ^ b * 2 ^ (w - b) := by rw [← Nat.pow_add, Nat.add_sub_cancel' h]
  have hhigh := middle_lt byte b
  rw [← Nat.shiftLeft_add_eq_or_of_lt hm, Nat.shiftLeft_eq, hpow]
  nlinarith [Nat.two_pow_pos (w - b)]

/-- **The loop of `Encode`** regroups the bits from `bitsLeft` on, and fills the last character
with zeros. -/
theorem encodeLoop_spec (hE : E.Lawful) (byte : UInt8) (rest : List UInt8) (bitsLeft : Nat)
    (hpos : 0 < bitsLeft) (hle : bitsLeft ≤ 8) :
    Wrote E (bits bitsLeft byte.toNat ++ byteBits rest) (encodeLoop E byte rest bitsLeft) := by
  have hB := E.bits_pos
  have hB8 := E.bits_lt
  induction byte, rest, bitsLeft using encodeLoop.induct E with
  | case1 byte rest bitsLeft hfits ihnext ihsame =>
    -- the character lies in this byte
    have hu := middle_lt (byte.toNat >>> (bitsLeft - E.BITS_PER_CHAR)) E.BITS_PER_CHAR
    obtain ⟨c, hc, -⟩ := hE.writes _ hu
    rw [encodeLoop, if_pos hfits]
    dsimp only
    rw [hc, Option.bind_some, middle_eq hfits, List.append_assoc]
    by_cases hzero : bitsLeft - E.BITS_PER_CHAR = 0
    · rw [if_pos hzero]
      cases rest with
      | nil =>
        refine Wrote.last _ (k := 0) hu hc ?_ hB
        grind [bitString_nil, byteBits, bits]
      | cons next rest =>
        have hnext := (ihnext hzero (by omega) le_rfl).cons hu hc
        rw [← byteBits_cons] at hnext
        rw [hzero] at hnext ⊢
        exact hnext
    · rw [if_neg hzero]
      exact (ihsame (by omega) (by omega)).cons hu hc
  | case2 byte bitsLeft hfits =>
    -- the last bits of the last byte
    have hle : bitsLeft ≤ E.BITS_PER_CHAR := by omega
    have hzero : 0 < 2 ^ (E.BITS_PER_CHAR - bitsLeft) := Nat.two_pow_pos _
    have hu := straddle_lt byte.toNat hle hzero
    have hbits := straddle_eq byte.toNat hle hzero
    rw [Nat.or_zero] at hu hbits
    obtain ⟨c, hc, -⟩ := hE.writes _ hu
    have hlast := Wrote.last (bits bitsLeft byte.toNat) (k := E.BITS_PER_CHAR - bitsLeft) hu hc
      (by rw [hbits, bits_zero]) (by omega)
    rw [encodeLoop, if_neg hfits]
    grind [bitString_nil, byteBits]
  | case3 byte bitsLeft hfits next rest ih =>
    -- the character takes its last bits from the next byte
    have hle : bitsLeft ≤ E.BITS_PER_CHAR := by omega
    have hm : next.toNat >>> (bitsLeft + (8 - E.BITS_PER_CHAR)) <
        2 ^ (E.BITS_PER_CHAR - bitsLeft) := by
      rw [Nat.shiftRight_eq_div_pow, Nat.div_lt_iff_lt_mul (Nat.two_pow_pos _), ← Nat.pow_add,
        show E.BITS_PER_CHAR - bitsLeft + (bitsLeft + (8 - E.BITS_PER_CHAR)) = 8 by omega]
      exact next.toNat_lt
    have hu := straddle_lt byte.toNat hle hm
    obtain ⟨c, hc, -⟩ := hE.writes _ hu
    have hdone := (ih (by omega) (by omega)).cons hu hc
    have hnext : bits 8 next.toNat = bits (E.BITS_PER_CHAR - bitsLeft)
        (next.toNat >>> (bitsLeft + (8 - E.BITS_PER_CHAR))) ++
          bits (bitsLeft + (8 - E.BITS_PER_CHAR)) next.toNat := by
      rw [Nat.shiftRight_eq_div_pow, ← bits_add]
      congr 1
      omega
    rw [encodeLoop, if_neg hfits]
    grind [straddle_eq, byteBits_cons]

/-! ## Reading -/

/-- What the locals of `Decode` hold of the bits `seen`: `v` the full bytes, `currentByte` the rest
in its high bits. -/
structure Holds (D : Decoding) (seen : List Bool) (rest : Nat) : Prop where
  bitsLeft_pos : 0 < D.bitsLeft
  bitsLeft_le : D.bitsLeft ≤ 8
  currentByte_eq : D.currentByte = rest * 2 ^ D.bitsLeft
  rest_lt : rest < 2 ^ (8 - D.bitsLeft)
  seen_eq : seen = byteBits D.v ++ bits (8 - D.bitsLeft) rest

theorem Holds.start : Holds {} [] 0 := ⟨by decide, by decide, rfl, by decide, rfl⟩

theorem byteBits_append (v w : List UInt8) : byteBits (v ++ w) = byteBits v ++ byteBits w := by
  rw [byteBits, List.map_append, bitString_append, byteBits, byteBits]

theorem byteBits_singleton (n : Nat) : byteBits [.ofNat n] = bits 8 n := by
  rw [byteBits, List.map_singleton, bitString_cons, bitString_nil, List.append_nil,
    UInt8.toNat_ofNat', bits_mod]

/-- One character moves its bits into the locals. -/
theorem Holds.read {D : Decoding} {seen : List Bool} {rest cur : Nat} (h : Holds D seen rest)
    (hcur : cur < 2 ^ E.BITS_PER_CHAR) :
    ∃ rest, Holds (D.read E cur) (seen ++ bits E.BITS_PER_CHAR cur) rest := by
  obtain ⟨hpos, hle, hbyte, hrest, hseen⟩ := h
  have hB := E.bits_pos
  have hB8 := E.bits_lt
  unfold Decoding.read
  split
  · -- the byte takes the whole character
    rename_i hfits
    have hsplit : 2 ^ D.bitsLeft = 2 ^ E.BITS_PER_CHAR * 2 ^ (D.bitsLeft - E.BITS_PER_CHAR) := by
      rw [← Nat.pow_add]
      congr 1
      omega
    have hnew : rest * 2 ^ E.BITS_PER_CHAR + cur < 2 ^ (8 - (D.bitsLeft - E.BITS_PER_CHAR)) := by
      have hpow : 2 ^ (8 - (D.bitsLeft - E.BITS_PER_CHAR)) =
          2 ^ (8 - D.bitsLeft) * 2 ^ E.BITS_PER_CHAR := by
        rw [← Nat.pow_add]
        congr 1
        omega
      rw [hpow]
      nlinarith
    refine ⟨rest * 2 ^ E.BITS_PER_CHAR + cur, ⟨by dsimp only; omega, by dsimp only; omega, ?_,
      hnew, ?_⟩⟩
    · dsimp only
      have hlow : cur <<< (D.bitsLeft - E.BITS_PER_CHAR) < 2 ^ D.bitsLeft := by
        rw [Nat.shiftLeft_eq, hsplit]
        exact Nat.mul_lt_mul_of_pos_right hcur (Nat.two_pow_pos _)
      rw [hbyte, ← Nat.shiftLeft_eq, ← Nat.shiftLeft_add_eq_or_of_lt hlow, Nat.shiftLeft_eq,
        Nat.shiftLeft_eq, hsplit, ← Nat.mul_assoc, ← Nat.add_mul]
      apply Nat.mod_eq_of_lt
      have hpow : 2 ^ 8 = 2 ^ (8 - (D.bitsLeft - E.BITS_PER_CHAR)) *
          2 ^ (D.bitsLeft - E.BITS_PER_CHAR) := by
        rw [← Nat.pow_add]
        congr 1
        omega
      rw [hpow]
      exact Nat.mul_lt_mul_of_pos_right hnew (Nat.two_pow_pos _)
    · dsimp only
      rw [hseen, List.append_assoc, ← bits_mul_add hcur]
      congr 2
      omega
  · -- the character fills the byte and starts the next
    rename_i hfits
    have hhigh : cur / 2 ^ (E.BITS_PER_CHAR - D.bitsLeft) < 2 ^ D.bitsLeft := by
      rw [Nat.div_lt_iff_lt_mul (Nat.two_pow_pos _), ← Nat.pow_add,
        Nat.add_sub_cancel' (by omega)]
      exact hcur
    have hlow := Nat.mod_lt cur (Nat.two_pow_pos (E.BITS_PER_CHAR - D.bitsLeft))
    have hshift : (cur % 2 ^ (E.BITS_PER_CHAR - D.bitsLeft)) *
        2 ^ (8 - (E.BITS_PER_CHAR - D.bitsLeft)) < 2 ^ 8 := by
      have hpow : 2 ^ 8 = 2 ^ (E.BITS_PER_CHAR - D.bitsLeft) *
          2 ^ (8 - (E.BITS_PER_CHAR - D.bitsLeft)) := by
        rw [← Nat.pow_add, Nat.add_sub_cancel' (by omega)]
      rw [hpow]
      exact Nat.mul_lt_mul_of_pos_right hlow (Nat.two_pow_pos _)
    refine ⟨cur % 2 ^ (E.BITS_PER_CHAR - D.bitsLeft), ⟨by dsimp only; omega, by dsimp only; omega,
      ?_, ?_, ?_⟩⟩
    · dsimp only
      rw [Nat.one_shiftLeft, Nat.and_two_pow_sub_one_eq_mod, Nat.shiftLeft_eq,
        Nat.mod_eq_of_lt hshift]
    · dsimp only
      rwa [Nat.sub_sub_self (by omega)]
    · dsimp only
      have hcut : bits E.BITS_PER_CHAR cur =
          bits D.bitsLeft (cur / 2 ^ (E.BITS_PER_CHAR - D.bitsLeft)) ++
            bits (E.BITS_PER_CHAR - D.bitsLeft) cur := by
        rw [← bits_add, Nat.add_sub_cancel' (by omega)]
      have hjoin := bits_mul_add (a := 8 - D.bitsLeft) (n := rest) hhigh
      rw [Nat.sub_add_cancel hle] at hjoin
      rw [hbyte, Nat.shiftRight_eq_div_pow, ← Nat.shiftLeft_eq,
        ← Nat.shiftLeft_add_eq_or_of_lt hhigh, Nat.shiftLeft_eq, byteBits_append,
        byteBits_singleton, hjoin, Nat.sub_sub_self (by omega), bits_mod, hseen, hcut]
      simp only [List.append_assoc]

theorem Holds.foldl {units : List Nat} {D : Decoding} {seen : List Bool} {rest : Nat}
    (h : Holds D seen rest) (hunits : ∀ u ∈ units, u < 2 ^ E.BITS_PER_CHAR) :
    ∃ rest, Holds (units.foldl (Decoding.read E) D)
      (seen ++ bitString E.BITS_PER_CHAR units) rest := by
  induction units generalizing D seen rest with
  | nil => exact ⟨rest, by rw [bitString_nil, List.append_nil]; exact h⟩
  | cons u units ih =>
    obtain ⟨rest', h'⟩ := h.read (hunits u List.mem_cons_self)
    rw [bitString_cons, ← List.append_assoc]
    exact ih h' fun n hn => hunits n (List.mem_cons_of_mem _ hn)

/-- The first loop of `Decode` stops at the end or at the padding, after digits only. -/
theorem decodeLoop_eq_some {D D' : Decoding} {s pads : List UInt8} :
    decodeLoop E D s = some (D', pads) ↔ ∃ digits units, s = digits ++ pads ∧
      Reads E digits units ∧ D' = units.foldl (Decoding.read E) D ∧
      ∀ c ∈ pads.head?, c = E.PADDING := by
  induction s generalizing D with
  | nil =>
    rw [decodeLoop, Option.some.injEq, Prod.mk.injEq]
    constructor
    · rintro ⟨rfl, rfl⟩
      exact ⟨[], [], rfl, .nil, rfl, by rintro c ⟨⟩⟩
    · rintro ⟨digits, units, hs, hreads, rfl, -⟩
      obtain ⟨rfl, rfl⟩ := List.append_eq_nil_iff.mp hs.symm
      cases hreads
      exact ⟨rfl, rfl⟩
  | cons c s ih =>
    rw [decodeLoop]
    by_cases hpad : c = E.PADDING
    · rw [if_pos hpad, Option.some.injEq, Prod.mk.injEq]
      constructor
      · rintro ⟨rfl, rfl⟩
        exact ⟨[], [], rfl, .nil, rfl, by rintro d ⟨⟩; exact hpad⟩
      · rintro ⟨digits, units, hs, hreads, rfl, -⟩
        cases hreads with
        | nil => exact ⟨rfl, hs⟩
        | cons hdigit _ =>
          cases hs
          exact absurd hpad hdigit.1
    · rw [if_neg hpad]
      dsimp only
      by_cases herror : E.Decode c = E.DECODE_ERROR
      · rw [if_pos herror]
        constructor
        · rintro ⟨⟩
        · rintro ⟨digits, units, hs, hreads, -, hhead⟩
          cases hreads with
          | nil => exact absurd (hhead c (by rw [← List.nil_append pads, ← hs]; rfl)) hpad
          | cons hdigit _ =>
            cases hs
            exact absurd herror hdigit.2.1
      · rw [if_neg herror, ih]
        constructor
        · rintro ⟨digits, units, rfl, hreads, rfl, hhead⟩
          exact ⟨c :: digits, _ :: units, rfl, .cons ⟨hpad, herror, rfl⟩ hreads, rfl, hhead⟩
        · rintro ⟨digits, units, hs, hreads, rfl, hhead⟩
          cases hreads with
          | nil => exact absurd (hhead c (by rw [← List.nil_append pads, ← hs]; rfl)) hpad
          | cons hdigit hreads =>
            cases hs
            obtain ⟨-, -, rfl⟩ := hdigit
            exact ⟨_, _, rfl, hreads, rfl, hhead⟩

theorem Decode_eq_some {s v : List UInt8} :
    Decode E s = some v ↔ ∃ D rest, decodeLoop E {} s = some (D, rest) ∧ D.currentByte = 0 ∧
      processPadding E D.bitsLeft rest = [] ∧ D.v = v := by
  cases s with
  | nil =>
    rw [Decode, Option.some.injEq]
    constructor
    · rintro rfl
      exact ⟨{}, [], rfl, rfl, rfl, rfl⟩
    · rintro ⟨D, rest, hloop, -, -, rfl⟩
      cases hloop
      rfl
  | cons c s =>
    rw [Decode]
    · constructor
      · intro h
        obtain ⟨⟨D, rest⟩, hloop, h⟩ := Option.bind_eq_some_iff.mp h
        grind
      · grind
    · rintro ⟨⟩

/-- **What `Decode` accepts**: digits whose bits are those of `v` and less than eight zeros, before
padding that the second loop takes. -/
theorem Decode_eq_some_iff (hE : E.Lawful) {s v : List UInt8} :
    Decode E s = some v ↔ ∃ digits units pads k, s = digits ++ pads ∧ Reads E digits units ∧
      (∀ c ∈ pads.head?, c = E.PADDING) ∧
      bitString E.BITS_PER_CHAR units = byteBits v ++ List.replicate k false ∧ k < 8 ∧
      processPadding E (8 - k) pads = [] := by
  rw [Decode_eq_some]
  constructor
  · rintro ⟨D, pads, hloop, hbyte, hpads, rfl⟩
    obtain ⟨digits, units, rfl, hreads, rfl, hhead⟩ := decodeLoop_eq_some.mp hloop
    obtain ⟨rest, hholds⟩ := Holds.start.foldl (hreads.lt hE)
    have hzero : rest = 0 := by
      rcases Nat.mul_eq_zero.mp (hholds.currentByte_eq.symm.trans hbyte) with hzero | hzero
      · exact hzero
      · exact absurd hzero (Nat.two_pow_pos _).ne'
    have hpos := hholds.bitsLeft_pos
    have hle := hholds.bitsLeft_le
    refine ⟨digits, units, pads, _, rfl, hreads, hhead, ?_, Nat.sub_lt (by omega) hpos, ?_⟩
    · have hseen := hholds.seen_eq
      rwa [hzero, bits_zero, List.nil_append] at hseen
    · rwa [Nat.sub_sub_self hle]
  · rintro ⟨digits, units, pads, k, rfl, hreads, hhead, hbits, hk, hpads⟩
    obtain ⟨rest, hholds⟩ := Holds.start.foldl (hreads.lt hE)
    have hpos := hholds.bitsLeft_pos
    have hle := hholds.bitsLeft_le
    have hseen := hholds.seen_eq
    rw [List.nil_append, hbits] at hseen
    obtain ⟨hv, hrest⟩ := byteBits_inj (by rwa [List.length_replicate])
      (by rw [length_bits]; omega) hseen
    have hk' : k = 8 - (units.foldl (Decoding.read E) {}).bitsLeft := by
      have hlength := congrArg List.length hrest
      rwa [List.length_replicate, length_bits] at hlength
    have hzero : rest = 0 := by
      refine bits_inj hholds.rest_lt (Nat.two_pow_pos _) ?_
      rw [← hrest, bits_zero, hk']
    refine ⟨_, pads, decodeLoop_eq_some.mpr ⟨digits, units, rfl, hreads, rfl, hhead⟩, ?_, ?_,
      hv.symm⟩
    · rw [hholds.currentByte_eq, hzero, Nat.zero_mul]
    · rwa [hk', Nat.sub_sub_self hle] at hpads

end GenericBaseEncoding

end EGServer.Encoding
