import EGServer.Encoding.BaseEncoding
import Mathlib.Data.List.DropRight

/-!
# Round trip and canonical strings

`Decode` undoes `Encode`. The other way round `Decode` tolerates missing padding and, as its
alphabet does, digits that `Encode` does not write. Beyond that it tests that the bits left over
are zero, but not that there are too few of them to be a character.
-/

namespace EGServer.Encoding

namespace GenericBaseEncoding

variable {E : Alphabet}

/-! ## Padding -/

theorem padStep_pos (E : Alphabet) (bitsLeft : Nat) : 0 < padStep E bitsLeft := by
  have hlt := E.bits_lt
  unfold padStep
  split <;> omega

theorem padStep_le {bitsLeft : Nat} (h : bitsLeft ≤ 8) : padStep E bitsLeft ≤ 8 := by
  have hlt := E.bits_lt
  unfold padStep
  split <;> omega

theorem padStep_mod (E : Alphabet) (bitsLeft : Nat) :
    (padStep E bitsLeft + E.BITS_PER_CHAR) % 8 = bitsLeft % 8 := by
  have hlt := E.bits_lt
  unfold padStep
  split <;> omega

theorem padLoop_eq (fuel bitsLeft : Nat) {n p : Nat} (hpos : 0 < bitsLeft) (hle : bitsLeft ≤ 8)
    (hbits : (bitsLeft + n * E.BITS_PER_CHAR) % 8 = 0) (hp : 8 ∣ (n + p) * E.BITS_PER_CHAR)
    (hmin : ∀ q < p, ¬ 8 ∣ (n + q) * E.BITS_PER_CHAR) (hfuel : p < fuel) :
    padLoop E fuel bitsLeft = some (List.replicate p E.PADDING) := by
  induction fuel generalizing n p bitsLeft with
  | zero => omega
  | succ fuel ih =>
    rw [padLoop]
    cases p with
    | zero =>
      rw [Nat.add_zero] at hp
      rw [if_pos (by omega), List.replicate_zero]
    | succ p =>
      have hnot := hmin 0 (by omega)
      rw [Nat.add_zero] at hnot
      have hstep : (padStep E bitsLeft + (n + 1) * E.BITS_PER_CHAR) % 8 = 0 := by
        have hmod := padStep_mod E bitsLeft
        rw [Nat.succ_mul]
        omega
      have hrest := ih (padStep E bitsLeft) (n := n + 1) (p := p) (padStep_pos E bitsLeft) (padStep_le hle) hstep
        (by rwa [Nat.add_right_comm, Nat.add_assoc])
        (by
          intro q hq
          have hnext := hmin (q + 1) (by omega)
          rwa [Nat.add_right_comm, Nat.add_assoc])
        (by omega)
      rw [if_neg (by omega), hrest, Option.map_some, List.replicate_succ]

theorem processPadding_padLoop {fuel bitsLeft : Nat} {pads : List UInt8}
    (h : padLoop E fuel bitsLeft = some pads) : processPadding E bitsLeft pads = [] := by
  induction fuel generalizing bitsLeft pads with
  | zero => cases h
  | succ fuel ih =>
    rw [padLoop] at h
    split at h
    · cases h
      rfl
    · rename_i hne
      obtain ⟨pads, hpads, rfl⟩ := Option.map_eq_some_iff.mp h
      rw [processPadding, if_pos ⟨rfl, hne⟩]
      exact ih hpads

theorem eq_padding_of_processPadding {bitsLeft : Nat} {pads : List UInt8}
    (h : processPadding E bitsLeft pads = []) : ∀ c ∈ pads, c = E.PADDING := by
  induction pads generalizing bitsLeft with
  | nil => rintro c ⟨⟩
  | cons d pads ih =>
    rw [processPadding] at h
    grind

/-- `EncodedSize` rounds up to the first number of characters that makes full bytes. -/
theorem EncodedSize_spec {m n k : Nat} (hn : n * E.BITS_PER_CHAR = m * 8 + k)
    (hk : k < E.BITS_PER_CHAR) :
    ∃ p, EncodedSize E m = n + p ∧ 8 ∣ (n + p) * E.BITS_PER_CHAR ∧
      (∀ q < p, ¬ 8 ∣ (n + q) * E.BITS_PER_CHAR) ∧ p < 8 := by
  have hB := E.bits_pos
  have hL : 0 < PAD_TO E := Nat.lcm_pos (by omega) hB
  obtain ⟨t, ht⟩ : E.BITS_PER_CHAR ∣ PAD_TO E := Nat.dvd_lcm_right 8 _
  -- the bits after rounding up, and the characters in them
  obtain ⟨T, hT⟩ : ∃ T, T = if m * 8 % PAD_TO E ≠ 0 then m * 8 + (PAD_TO E - m * 8 % PAD_TO E)
    else m * 8 := ⟨_, rfl⟩
  have hdvd : PAD_TO E ∣ T := by
    rw [hT]
    split
    · refine ⟨m * 8 / PAD_TO E + 1, ?_⟩
      have hdiv := Nat.div_add_mod (m * 8) (PAD_TO E)
      have hmod := Nat.mod_lt (m * 8) hL
      rw [Nat.mul_add, Nat.mul_one]
      omega
    · exact Nat.dvd_of_mod_eq_zero (by omega)
  have hge : m * 8 ≤ T := by rw [hT]; split <;> omega
  have hleast : ∀ x, PAD_TO E ∣ x → m * 8 ≤ x → T ≤ x := by
    intro x hx hmx
    have hmod := Nat.mod_lt (m * 8) hL
    rw [hT]
    split
    · by_contra hlt
      obtain ⟨j, rfl⟩ := hx
      have hdiv := Nat.div_add_mod (m * 8) (PAD_TO E)
      have hj : m * 8 / PAD_TO E < j := by
        by_contra hj
        have hmul := Nat.mul_le_mul_left (PAD_TO E) (not_lt.mp hj)
        omega
      have hmul := Nat.mul_le_mul_left (PAD_TO E) hj
      rw [Nat.succ_eq_add_one, Nat.mul_succ] at hmul
      omega
    · exact hmx
  obtain ⟨S, hS⟩ : E.BITS_PER_CHAR ∣ T := dvd_trans (Nat.dvd_lcm_right 8 _) hdvd
  have hsize : EncodedSize E m = S := by
    unfold EncodedSize
    dsimp only
    rw [← hT, hS]
    exact Nat.mul_div_cancel_left S hB
  have hnS : n ≤ S := by
    by_contra hlt
    have hmul := Nat.mul_le_mul_left E.BITS_PER_CHAR (not_le.mp hlt)
    rw [Nat.succ_eq_add_one, Nat.mul_succ, Nat.mul_comm _ n] at hmul
    omega
  have hmin : ∀ x, n ≤ x → 8 ∣ x * E.BITS_PER_CHAR → S ≤ x := by
    intro x hnx hx
    have hTx := hleast _ (Nat.lcm_dvd hx (dvd_mul_left _ x))
      (by have hmul := Nat.mul_le_mul_right E.BITS_PER_CHAR hnx; omega)
    rw [hS, Nat.mul_comm] at hTx
    exact Nat.le_of_mul_le_mul_right hTx hB
  refine ⟨S - n, ?_, ?_, ?_, ?_⟩
  · rw [hsize]
    omega
  · rw [Nat.add_sub_cancel' hnS, Nat.mul_comm, ← hS]
    exact dvd_trans (Nat.dvd_lcm_left 8 _) hdvd
  · intro q hq hdiv
    have hle := hmin (n + q) (by omega) hdiv
    omega
  · have hle := hmin (n + (8 - n % 8) % 8) (by omega) (Dvd.dvd.mul_right (by omega) _)
    omega

/-! ## The round trip -/

/-- `Encode` writes the bits of `v` and less zeros than a character has, and pads. -/
theorem Encode_spec (hE : E.Lawful) (v : List UInt8) :
    ∃ digits units pads k, Encode E v = some (digits ++ pads) ∧ Writes E units digits ∧
      (∀ u ∈ units, u < 2 ^ E.BITS_PER_CHAR) ∧
      bitString E.BITS_PER_CHAR units = byteBits v ++ List.replicate k false ∧
      k < E.BITS_PER_CHAR ∧ padLoop E 8 (8 - k) = some pads ∧
      (digits ++ pads).length = EncodedSize E v.length := by
  have hB := E.bits_pos
  have hB8 := E.bits_lt
  cases v with
  | nil =>
    refine ⟨[], [], [], 0, rfl, .nil, by rintro u ⟨⟩, rfl, hB, rfl, ?_⟩
    obtain ⟨p, hsize, -, hmin, -⟩ := EncodedSize_spec (E := E) (m := 0) (n := 0) (k := 0)
      (by omega) hB
    cases p with
    | zero => rw [List.length_nil, hsize]; rfl
    | succ p => exact absurd ⟨0, by omega⟩ (hmin 0 (Nat.succ_pos p))
  | cons byte rest =>
    obtain ⟨units, digits, k, hloop, hwrites, hunits, hbits, hk⟩ :=
      encodeLoop_spec hE byte rest 8 (by omega) le_rfl
    rw [← byteBits_cons] at hbits
    have hn := congrArg List.length hbits
    rw [length_bitString, List.length_append, length_byteBits, List.length_replicate] at hn
    obtain ⟨p, hsize, hp, hmin, hp8⟩ := EncodedSize_spec hn hk
    have hpads := padLoop_eq 8 (8 - k) (by omega) (by omega) (by omega)
      hp hmin hp8
    refine ⟨digits, units, _, k, ?_, hwrites, hunits, hbits, hk, hpads, ?_⟩
    · rw [Encode, hloop, Option.bind_some, hpads, Option.map_some]
    · rw [List.length_append, List.length_replicate, hsize, hwrites.length_eq]

theorem reads_of_writes (hE : E.Lawful) {units : List Nat} {s : List UInt8} (h : Writes E units s)
    (hunits : ∀ u ∈ units, u < 2 ^ E.BITS_PER_CHAR) : Reads E s units := by
  induction h with
  | nil => exact .nil
  | cons hc _ ih =>
    obtain ⟨c, hwrite, hpad, herror, hread⟩ := hE.writes _ (hunits _ List.mem_cons_self)
    rw [hwrite, Option.some.injEq] at hc
    subst hc
    exact .cons ⟨hpad, herror, hread⟩ (ih fun u hu => hunits u (List.mem_cons_of_mem _ hu))

/-- `Decode` reads back what `Encode` writes. -/
theorem Decode_Encode (hE : E.Lawful) (v : List UInt8) :
    ∃ s, Encode E v = some s ∧ s.length = EncodedSize E v.length ∧ Decode E s = some v := by
  obtain ⟨digits, units, pads, k, hencode, hwrites, hunits, hbits, hk, hpads, hlength⟩ :=
    Encode_spec hE v
  have hB8 := E.bits_lt
  have hnil := processPadding_padLoop hpads
  refine ⟨_, hencode, hlength, (Decode_eq_some_iff hE).mpr ⟨digits, units, pads, k, rfl,
    reads_of_writes hE hwrites hunits, ?_, hbits, by omega, hnil⟩⟩
  intro c hc
  exact eq_padding_of_processPadding hnil c (List.mem_of_mem_head? hc)

/-! ## Canonical strings -/

/-- A string without the padding at its end. -/
def stripPadding (E : Alphabet) (s : List UInt8) : List UInt8 := s.rdropWhile (· == E.PADDING)

theorem stripPadding_append {digits pads : List UInt8} {units : List Nat}
    (hreads : Reads E digits units) (hpads : ∀ c ∈ pads, c = E.PADDING) :
    stripPadding E (digits ++ pads) = digits := by
  have hdigits : ∀ c ∈ digits, c ≠ E.PADDING := by
    induction hreads with
    | nil => rintro c ⟨⟩
    | cons hdigit _ ih =>
      intro c hc
      rcases List.mem_cons.mp hc with rfl | hc
      · exact hdigit.1
      · exact ih c hc
  unfold stripPadding
  induction pads using List.reverseRecOn with
  | nil =>
    grind [List.rdropWhile_eq_self_iff]
  | append_singleton pads c ih =>
    have hpad : c = E.PADDING := hpads c (List.mem_append_right _ List.mem_cons_self)
    rw [← List.append_assoc, List.rdropWhile_concat_pos _ _ _ (by rw [hpad]; exact beq_self_eq_true _)]
    exact ih fun d hd => hpads d (List.mem_append_left _ hd)

theorem writes_of_reads {canonical : UInt8 → UInt8}
    (hcanonical : ∀ c, E.Decode c ≠ E.DECODE_ERROR → E.Encode (E.Decode c) = some (canonical c))
    {s t : List UInt8} {units : List Nat} (hreads : Reads E s units) (hwrites : Writes E units t) :
    t = s.map canonical := by
  induction hreads generalizing t with
  | nil => cases hwrites; rfl
  | cons hdigit _ ih =>
    obtain ⟨-, herror, rfl⟩ := hdigit
    cases hwrites with
    | cons hc hwrites =>
      rw [UInt8.ofNat_toNat, hcanonical _ herror, Option.some.injEq] at hc
      rw [List.map_cons, ih hwrites, hc]

/-- **When an accepted string is the canonical one**, up to padding and the digits the alphabet
tolerates: when its bits left over are too few for a character. -/
theorem canonical_iff (hE : E.Lawful) {canonical : UInt8 → UInt8}
    (hcanonical : ∀ c, E.Decode c ≠ E.DECODE_ERROR → E.Encode (E.Decode c) = some (canonical c))
    {s v e : List UInt8} (hdecode : Decode E s = some v) (hencode : Encode E v = some e) :
    stripPadding E e = (stripPadding E s).map canonical ↔
      (stripPadding E s).length * E.BITS_PER_CHAR % 8 < E.BITS_PER_CHAR := by
  obtain ⟨digits, units, pads, k, rfl, hreads, -, hbits, hk, hpads⟩ :=
    (Decode_eq_some_iff hE).mp hdecode
  obtain ⟨digits', units', pads', k', hencode', hwrites, hunits, hbits', hk', hpads', -⟩ :=
    Encode_spec hE v
  rw [hencode, Option.some.injEq] at hencode'
  subst hencode'
  rw [stripPadding_append hreads (eq_padding_of_processPadding hpads),
    stripPadding_append (reads_of_writes hE hwrites hunits)
      (eq_padding_of_processPadding (processPadding_padLoop hpads'))]
  have hB := E.bits_pos
  -- both strings carry the bits of `v` before their zeros
  have hn := congrArg List.length hbits
  have hn' := congrArg List.length hbits'
  rw [length_bitString, List.length_append, length_byteBits, List.length_replicate] at hn hn'
  have hlength := hreads.length_eq
  have hlength' := hwrites.length_eq
  have hmod : digits.length * E.BITS_PER_CHAR % 8 = k := by
    rw [hlength, hn]
    omega
  rw [hmod]
  constructor
  · grind
  · intro hlt
    have hsame : units.length = units'.length := by
      by_contra hne
      rcases Nat.lt_or_gt_of_ne hne with hless | hless
      all_goals
        have hmul := Nat.mul_le_mul_right E.BITS_PER_CHAR hless
        rw [Nat.succ_mul] at hmul
        omega
    have hkk : k = k' := by
      rw [hsame] at hn
      omega
    have hunits' : units = units' := by
      have hbitsEq : bitString E.BITS_PER_CHAR units ++ [] =
          bitString E.BITS_PER_CHAR units' ++ [] := by
        rw [hbits, hbits', hkk]
      exact (bitString_inj (hreads.lt hE) hunits hsame hbitsEq).1
    subst hunits'
    exact writes_of_reads hcanonical hreads hwrites

end GenericBaseEncoding

end EGServer.Encoding
