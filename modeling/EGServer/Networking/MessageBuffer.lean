import Mathlib.Data.List.Basic
import Mathlib.Data.UInt
import Mathlib.Tactic.Common

/-!
# Message buffers

`MessageBuffer`: a storage with a read and a write position. The positions are ordered and
inside the storage in every buffer; an operation that would write past the storage or read
past what was written is `none`.
-/

namespace EGServer.Networking

structure MessageBuffer where
  wpos : Nat
  rpos : Nat
  storage : List UInt8
  rpos_le : rpos ≤ wpos
  wpos_le : wpos ≤ storage.length

namespace MessageBuffer

def new (initialSize : Nat) : MessageBuffer where
  wpos := 0
  rpos := 0
  storage := List.replicate initialSize 0
  rpos_le := Nat.le_refl 0
  wpos_le := Nat.zero_le _

def reset (b : MessageBuffer) : MessageBuffer :=
  { b with wpos := 0, rpos := 0, rpos_le := Nat.le_refl 0, wpos_le := Nat.zero_le _ }

/-- `std::vector::resize`. -/
def resize (b : MessageBuffer) (bytes : Nat) : Option MessageBuffer :=
  if h : b.wpos ≤ bytes then
    some {
      b with
      storage := b.storage.take bytes ++ List.replicate (bytes - b.storage.length) 0
      wpos_le := by
        rw [List.length_append, List.length_take, List.length_replicate]
        omega }
  else none

def readCompleted (b : MessageBuffer) (bytes : Nat) : Option MessageBuffer :=
  if h : b.rpos + bytes ≤ b.wpos then some { b with rpos := b.rpos + bytes, rpos_le := h } else none

def getActiveSize (b : MessageBuffer) : Nat := b.wpos - b.rpos

def getRemainingSpace (b : MessageBuffer) : Nat := b.storage.length - b.wpos

/-- What was written since the last reset. -/
def written (b : MessageBuffer) : List UInt8 := b.storage.take b.wpos

/-- The bytes from the read to the write pointer. -/
def active (b : MessageBuffer) : List UInt8 := b.written.drop b.rpos

/-- Discards inactive data. -/
def normalize (b : MessageBuffer) : MessageBuffer where
  wpos := b.wpos - b.rpos
  rpos := 0
  storage := b.active ++ b.storage.drop b.active.length
  rpos_le := Nat.zero_le _
  wpos_le := by
    have h := b.wpos_le
    simp only [active, written, List.length_append, List.length_drop, List.length_take]
    omega

/-- Ensures there's "some" free space. -/
def ensureFreeSpace (b : MessageBuffer) : MessageBuffer :=
  if b.getRemainingSpace = 0 then
    { b with
      storage := b.storage ++ List.replicate (b.storage.length * 3 / 2 - b.storage.length) 0
      wpos_le := Nat.le_trans b.wpos_le (by rw [List.length_append]; exact Nat.le_add_right _ _) }
  else b

def write (b : MessageBuffer) (data : List UInt8) : Option MessageBuffer :=
  if h : b.wpos + data.length ≤ b.storage.length then
    some {
      b with
      storage := b.written ++ data ++ b.storage.drop (b.wpos + data.length)
      wpos := b.wpos + data.length
      rpos_le := Nat.le_trans b.rpos_le (Nat.le_add_right _ _)
      wpos_le := by
        simp only [written, List.length_append, List.length_take, List.length_drop]
        omega }
  else none

/-- Changing the first bytes behind the read pointer in place. -/
def patch (b : MessageBuffer) (data : List UInt8) : Option MessageBuffer :=
  if h : b.rpos + data.length ≤ b.wpos then
    some {
      b with
      storage := b.storage.take b.rpos ++ data ++ b.storage.drop (b.rpos + data.length)
      wpos_le := by
        have h1 := b.wpos_le
        simp only [List.length_append, List.length_take, List.length_drop]
        omega }
  else none

/-- The storage is moved out; what is left is empty. -/
def move (b : MessageBuffer) : List UInt8 × MessageBuffer := (b.storage, new 0)

/-! ## What the operations do -/

variable {b b' src dst : MessageBuffer} {data : List UInt8} {n : Nat}

theorem length_written (b : MessageBuffer) : b.written.length = b.wpos := by
  rw [written, List.length_take, Nat.min_eq_left b.wpos_le]

theorem length_active (b : MessageBuffer) : b.active.length = b.getActiveSize := by
  rw [active, List.length_drop, length_written]
  rfl

theorem active_eq_nil : b.active = [] ↔ b.getActiveSize = 0 := by
  rw [← length_active, List.length_eq_zero_iff]

theorem active_of_rpos (h : b.rpos = 0) : b.active = b.written := by
  rw [active, h, List.drop_zero]

theorem write_spec (h : data.length ≤ b.getRemainingSpace) :
    ∃ b', b.write data = some b' ∧ b'.written = b.written ++ data ∧ b'.rpos = b.rpos ∧
      b'.wpos = b.wpos + data.length ∧ b'.storage.length = b.storage.length := by
  have hle := b.wpos_le
  have hfit : b.wpos + data.length ≤ b.storage.length := by
    unfold getRemainingSpace at h
    omega
  refine ⟨_, dif_pos hfit, ?_, rfl, rfl, ?_⟩
  · show (b.written ++ data ++ b.storage.drop _).take (b.wpos + data.length) = _
    rw [List.take_left']
    rw [List.length_append, length_written]
  · simp only [written, List.length_append, List.length_take, List.length_drop]
    omega

theorem readCompleted_spec (h : n ≤ b.active.length) :
    ∃ b', b.readCompleted n = some b' ∧ b'.active = b.active.drop n ∧
      b'.storage.length = b.storage.length := by
  have hle := b.rpos_le
  have hfit : b.rpos + n ≤ b.wpos := by
    rw [length_active, getActiveSize] at h
    omega
  refine ⟨_, dif_pos hfit, ?_, rfl⟩
  show b.written.drop (b.rpos + n) = (b.written.drop b.rpos).drop n
  rw [List.drop_drop]

theorem resize_spec (h : b.wpos = 0) :
    ∃ b', b.resize n = some b' ∧ b'.wpos = 0 ∧ b'.rpos = 0 ∧ b'.storage.length = n := by
  have hfit : b.wpos ≤ n := by omega
  have hr := b.rpos_le
  refine ⟨_, dif_pos hfit, h, by show b.rpos = 0; omega, ?_⟩
  simp only [List.length_append, List.length_take, List.length_replicate]
  omega

theorem patch_spec (hr : b.rpos = 0) (h : data.length ≤ b.wpos) :
    ∃ b', b.patch data = some b' ∧ b'.written = data ++ b.written.drop data.length ∧
      b'.rpos = 0 ∧ b'.wpos = b.wpos ∧ b'.storage.length = b.storage.length := by
  have hle := b.wpos_le
  have hfit : b.rpos + data.length ≤ b.wpos := by omega
  refine ⟨_, dif_pos hfit, ?_, hr, rfl, ?_⟩
  · show (b.storage.take b.rpos ++ data ++ b.storage.drop (b.rpos + data.length)).take b.wpos =
      data ++ (b.storage.take b.wpos).drop data.length
    rw [hr, List.take_zero, List.nil_append, Nat.zero_add, List.take_append, List.drop_take,
      List.take_of_length_le h]
  · simp only [List.length_append, List.length_take, List.length_drop]
    omega

theorem normalize_spec (h : b.active = []) :
    b.normalize.active = [] ∧ b.normalize.wpos = 0 ∧
      b.normalize.storage.length = b.storage.length := by
  have hsize : b.wpos - b.rpos = 0 := active_eq_nil.mp h
  refine ⟨?_, hsize, ?_⟩
  · rw [active_eq_nil]
    show b.wpos - b.rpos - 0 = 0
    rw [hsize]
  · show (b.active ++ b.storage.drop b.active.length).length = _
    rw [h]
    rfl

/-! ## Moving bytes from one buffer to another -/

/-- As many of the active bytes of one buffer as fit into another, which is how the handlers
take bytes out of the read buffer. -/
def transfer (src dst : MessageBuffer) : Option (MessageBuffer × MessageBuffer) :=
  let readSize := min src.getActiveSize dst.getRemainingSpace
  match dst.write (src.active.take readSize) with
  | none => none
  | some dst =>
    match src.readCompleted readSize with
    | none => none
    | some src => some (src, dst)

theorem transfer_spec (hn : n = min src.active.length dst.getRemainingSpace) :
    ∃ src' dst', src.transfer dst = some (src', dst') ∧ src'.active = src.active.drop n ∧
      dst'.written = dst.written ++ src.active.take n ∧ dst'.rpos = dst.rpos ∧
      dst'.wpos = dst.wpos + n ∧ dst'.storage.length = dst.storage.length ∧
      src'.storage.length = src.storage.length := by
  have hlen : (src.active.take n).length = n := by
    rw [List.length_take, hn]
    omega
  rw [length_active] at hn
  obtain ⟨dst', hw, hwritten, hr, hwpos, hs⟩ :=
    @write_spec dst (src.active.take n) (by omega)
  grind [transfer, readCompleted_spec]

end MessageBuffer

end EGServer.Networking
