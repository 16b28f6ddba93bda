import Mathlib.Data.Nat.Bitwise
import Mathlib.Data.List.Basic

/-!
# Bit strings

A number written in `w` bits, the most significant first, and a list of numbers written one after
another. Cutting a bit string at another width is what base encodings do, so the lemmas are about
cutting (`bits_add`), joining (`bits_mul_add`) and reading a bit string in only one way
(`bitString_inj`).
-/

/-- The low `w` bits of `n`, the most significant first. -/
def bits : Nat → Nat → List Bool
  | 0, _ => []
  | w + 1, n => n.testBit w :: bits w n

/-- The numbers `ns` in `w` bits each. -/
def bitString (w : Nat) (ns : List Nat) : List Bool := ns.flatMap (bits w)

/-! ## One number -/

@[simp] theorem length_bits (w n : Nat) : (bits w n).length = w := by
  induction w with
  | zero => rfl
  | succ w ih => rw [bits, List.length_cons, ih]

theorem bits_congr {w n m : Nat} (h : ∀ i < w, n.testBit i = m.testBit i) :
    bits w n = bits w m := by
  induction w with
  | zero => rfl
  | succ w ih => rw [bits, bits, h w (Nat.lt_succ_self w), ih fun i hi => h i (by omega)]

@[simp] theorem bits_mod (w n : Nat) : bits w (n % 2 ^ w) = bits w n := by
  apply bits_congr
  intro i hi
  rw [Nat.testBit_mod_two_pow, decide_eq_true hi, Bool.true_and]

@[simp] theorem bits_zero (w : Nat) : bits w 0 = List.replicate w false := by
  induction w with
  | zero => rfl
  | succ w ih => rw [bits, ih, Nat.zero_testBit, List.replicate_succ]

/-- Cutting: the high `a` bits, then the low `b`. -/
theorem bits_add (a b n : Nat) : bits (a + b) n = bits a (n / 2 ^ b) ++ bits b n := by
  induction a with
  | zero => rw [Nat.zero_add, bits, List.nil_append]
  | succ a ih =>
    rw [Nat.add_right_comm, bits, ih, bits, Nat.testBit_div_two_pow, List.cons_append]

/-- Joining: a number below `2 ^ b` written behind another. -/
theorem bits_mul_add {a b n m : Nat} (h : m < 2 ^ b) :
    bits (a + b) (n * 2 ^ b + m) = bits a n ++ bits b m := by
  rw [bits_add, Nat.mul_comm, Nat.mul_add_div (Nat.two_pow_pos b), Nat.div_eq_of_lt h,
    Nat.add_zero, ← bits_mod b, Nat.mul_add_mod, bits_mod]

theorem bits_inj {w n m : Nat} (hn : n < 2 ^ w) (hm : m < 2 ^ w) (h : bits w n = bits w m) :
    n = m := by
  induction w generalizing n m with
  | zero => rw [Nat.pow_zero, Nat.lt_one_iff] at hn hm; rw [hn, hm]
  | succ w ih =>
    rw [bits_add w 1, bits_add w 1] at h
    obtain ⟨hhigh, hlow⟩ := List.append_inj h (by rw [length_bits, length_bits])
    have hdiv : n / 2 ^ 1 = m / 2 ^ 1 := ih (by omega) (by omega) hhigh
    have hmod : n % 2 = m % 2 := by
      have hbit : n.testBit 0 = m.testBit 0 := (List.cons.inj hlow).1
      simp only [Nat.testBit_zero, decide_eq_decide] at hbit
      omega
    omega

/-! ## A list of numbers -/

@[simp] theorem bitString_nil (w : Nat) : bitString w [] = [] := rfl

@[simp] theorem bitString_cons (w n : Nat) (ns : List Nat) :
    bitString w (n :: ns) = bits w n ++ bitString w ns := List.flatMap_cons

@[simp] theorem bitString_append (w : Nat) (ns ms : List Nat) :
    bitString w (ns ++ ms) = bitString w ns ++ bitString w ms := List.flatMap_append

@[simp] theorem length_bitString (w : Nat) (ns : List Nat) :
    (bitString w ns).length = ns.length * w := by
  induction ns with
  | nil => rw [bitString_nil, List.length_nil, List.length_nil, Nat.zero_mul]
  | cons n ns ih =>
    rw [bitString_cons, List.length_append, length_bits, ih, List.length_cons, Nat.succ_mul,
      Nat.add_comm]

/-- **A bit string reads in one way** as numbers of a given width, and what is left over. -/
theorem bitString_inj {w : Nat} {ns ms : List Nat} {xs ys : List Bool}
    (hns : ∀ n ∈ ns, n < 2 ^ w) (hms : ∀ m ∈ ms, m < 2 ^ w) (hlength : ns.length = ms.length)
    (h : bitString w ns ++ xs = bitString w ms ++ ys) : ns = ms ∧ xs = ys := by
  induction ns generalizing ms with
  | nil =>
    rw [List.length_nil] at hlength
    rw [List.eq_nil_of_length_eq_zero hlength.symm] at h ⊢
    exact ⟨rfl, h⟩
  | cons n ns ih =>
    cases ms with
    | nil => cases hlength
    | cons m ms =>
      rw [bitString_cons, bitString_cons, List.append_assoc, List.append_assoc] at h
      obtain ⟨hhead, htail⟩ := List.append_inj h (by rw [length_bits, length_bits])
      have hnm := bits_inj (hns n List.mem_cons_self) (hms m List.mem_cons_self) hhead
      grind
