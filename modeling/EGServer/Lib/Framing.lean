import Mathlib.Algebra.BigOperators.Group.List.Basic
import Mathlib.Algebra.Ring.Nat
import Mathlib.Data.List.Basic
import Mathlib.Tactic.Common

/-!
# Length-prefixed frames

A stream of frames, each a header of a fixed length and a payload whose length the header
gives. Headers are decoded by a stateful function, as a stream cipher would do it. `parse`
reads a whole stream at once; `parse_append` says that a stream may be cut anywhere: what
comes after the cut is parsed from the state and the unread rest before it.
-/

/-- A kind of frame: `κ` is the state of the decoder, `τ` what a header says besides the length
of the payload. `none` is a malformed header. -/
structure FrameFormat (α κ τ : Type) where
  headerLen : Nat
  headerLen_pos : 0 < headerLen
  decode : κ → List α → Option (κ × τ × Nat)

/-- Where a parse ends: at a frame that is not complete, with the bytes of it that are there,
or at a malformed header. -/
inductive FrameEnd (α κ : Type) where
  | more (k : κ) (rest : List α)
  | malformed

namespace FrameFormat

variable {α κ τ : Type}

def parse (F : FrameFormat α κ τ) (k : κ) (bs : List α) : List (τ × List α) × FrameEnd α κ :=
  if _h : bs.length < F.headerLen then ([], .more k bs)
  else
    match F.decode k (bs.take F.headerLen) with
    | none => ([], .malformed)
    | some (k', tag, n) =>
      if (bs.drop F.headerLen).length < n then ([], .more k bs)
      else
        let r := F.parse k' ((bs.drop F.headerLen).drop n)
        ((tag, (bs.drop F.headerLen).take n) :: r.1, r.2)
termination_by bs.length
decreasing_by
  have hpos := F.headerLen_pos
  simp only [List.length_drop]
  omega

variable {F : FrameFormat α κ τ} {k k' : κ} {bs cs : List α} {tag : τ} {n : Nat}

/-! ## One frame -/

theorem parse_short (h : bs.length < F.headerLen) : F.parse k bs = ([], .more k bs) := by
  rw [parse, dif_pos h]

theorem parse_malformed (hlen : F.headerLen ≤ bs.length)
    (h : F.decode k (bs.take F.headerLen) = none) : F.parse k bs = ([], .malformed) := by
  rw [parse, dif_neg (Nat.not_lt.mpr hlen), h]

theorem parse_wait (hlen : F.headerLen ≤ bs.length)
    (h : F.decode k (bs.take F.headerLen) = some (k', tag, n)) (hn : bs.length < F.headerLen + n) :
    F.parse k bs = ([], .more k bs) := by
  have hwait : (bs.drop F.headerLen).length < n := by
    rw [List.length_drop]
    omega
  rw [parse, dif_neg (Nat.not_lt.mpr hlen), h]
  exact if_pos hwait

theorem parse_frame (h : F.decode k (bs.take F.headerLen) = some (k', tag, n))
    (hn : F.headerLen + n ≤ bs.length) :
    F.parse k bs =
      ((tag, (bs.drop F.headerLen).take n) :: (F.parse k' (bs.drop (F.headerLen + n))).1,
        (F.parse k' (bs.drop (F.headerLen + n))).2) := by
  have hgo : ¬(bs.drop F.headerLen).length < n := by
    rw [List.length_drop]
    omega
  rw [parse, dif_neg (by omega), h]
  dsimp only
  rw [if_neg hgo, List.drop_drop]

/-- The header and the payload of one frame, followed by anything. -/
theorem parse_frame_append {header payload : List α} (hlen : header.length = F.headerLen)
    (h : F.decode k header = some (k', tag, payload.length)) :
    F.parse k (header ++ payload ++ cs) =
      ((tag, payload) :: (F.parse k' cs).1, (F.parse k' cs).2) := by
  have htake : (header ++ payload ++ cs).take F.headerLen = header := by
    rw [List.append_assoc, ← hlen, List.take_left']
    rfl
  have hdrop : (header ++ payload ++ cs).drop F.headerLen = payload ++ cs := by
    rw [List.append_assoc, ← hlen, List.drop_left']
    rfl
  rw [parse_frame (by rw [htake]; exact h) (by simp only [List.length_append]; omega),
    ← List.drop_drop, hdrop, List.take_left', List.drop_left']
  · rfl
  · rfl

/-! ## Cutting a stream -/

/-- The frames before the cut, then the ones that end behind it. -/
def resume (F : FrameFormat α κ τ) (r : List (τ × List α) × FrameEnd α κ) (cs : List α) :
    List (τ × List α) × FrameEnd α κ :=
  match r.2 with
  | .more k rest => (r.1 ++ (F.parse k (rest ++ cs)).1, (F.parse k (rest ++ cs)).2)
  | .malformed => r

theorem resume_cons (x : τ × List α) (r : List (τ × List α) × FrameEnd α κ) (cs : List α) :
    F.resume (x :: r.1, r.2) cs = (x :: (F.resume r cs).1, (F.resume r cs).2) := by
  obtain ⟨frames, ending⟩ := r
  cases ending with
  | more k rest => rfl
  | malformed => rfl

/-- **A stream may be cut anywhere.** -/
theorem parse_append (k : κ) (bs cs : List α) :
    F.parse k (bs ++ cs) = F.resume (F.parse k bs) cs := by
  induction hlen : bs.length using Nat.strongRecOn generalizing k bs with
  | ind m ih =>
    by_cases hshort : bs.length < F.headerLen
    · rw [parse_short hshort]
      rfl
    · have hle : F.headerLen ≤ bs.length := Nat.not_lt.mp hshort
      have htake : (bs ++ cs).take F.headerLen = bs.take F.headerLen :=
        List.take_append_of_le_length hle
      have hle' : F.headerLen ≤ (bs ++ cs).length := by
        rw [List.length_append]
        omega
      cases hdec : F.decode k (bs.take F.headerLen) with
      | none =>
        rw [parse_malformed hle hdec, parse_malformed hle' (by rw [htake]; exact hdec)]
        rfl
      | some d =>
        obtain ⟨k', tag, n⟩ := d
        by_cases hn : bs.length < F.headerLen + n
        · rw [parse_wait hle hdec hn]
          rfl
        · have hn' : F.headerLen + n ≤ bs.length := Nat.not_lt.mp hn
          have hpos := F.headerLen_pos
          have hdrop : (bs ++ cs).drop (F.headerLen + n) = bs.drop (F.headerLen + n) ++ cs :=
            List.drop_append_of_le_length hn'
          have hpayload : ((bs ++ cs).drop F.headerLen).take n = (bs.drop F.headerLen).take n := by
            grind
          have hrest : (bs.drop (F.headerLen + n)).length < m := by
            rw [List.length_drop]
            omega
          rw [parse_frame hdec hn', parse_frame (by rw [htake]; exact hdec)
            (by rw [List.length_append]; omega), hdrop, hpayload, ih _ hrest k' _ rfl, resume_cons]

/-- No byte is skipped or used twice: the frames and the unread rest are the stream. -/
theorem length_parse (k : κ) (bs : List α) {k' : κ} {rest : List α}
    (h : (F.parse k bs).2 = .more k' rest) :
    ((F.parse k bs).1.map fun f => F.headerLen + f.2.length).sum + rest.length = bs.length := by
  induction hlen : bs.length using Nat.strongRecOn generalizing k bs with
  | ind m ih =>
    by_cases hshort : bs.length < F.headerLen
    · rw [parse_short hshort] at h ⊢
      cases h
      rw [← hlen]
      exact Nat.zero_add _
    · have hle : F.headerLen ≤ bs.length := Nat.not_lt.mp hshort
      cases hdec : F.decode k (bs.take F.headerLen) with
      | none =>
        rw [parse_malformed hle hdec] at h
        cases h
      | some d =>
        obtain ⟨k₁, tag, n⟩ := d
        by_cases hn : bs.length < F.headerLen + n
        · rw [parse_wait hle hdec hn] at h ⊢
          cases h
          rw [← hlen]
          exact Nat.zero_add _
        · have hn' : F.headerLen + n ≤ bs.length := Nat.not_lt.mp hn
          have hpos := F.headerLen_pos
          have hrest : (bs.drop (F.headerLen + n)).length < m := by
            rw [List.length_drop]
            omega
          rw [parse_frame hdec hn'] at h ⊢
          grind

end FrameFormat
