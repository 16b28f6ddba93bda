import EGServer.Lib.LittleEndian
import EGServer.Networking.Utf8

/-!
# Byte buffers

`ByteBuffer`: the storage of a packet with a read and a write position. Writing goes through
`append`, whose failed assertions are `none`. Reading runs in `ReadM`, where an exception leaves
the buffer as it was when it was thrown, and an access outside the storage is an error of its
own: that it never happens is a theorem, not a convention.
-/

namespace EGServer.Networking

structure ByteBuffer where
  rpos : Nat
  wpos : Nat
  storage : List UInt8
  capacity : Nat
  size_le : storage.length ≤ capacity

namespace ByteBuffer

def size (b : ByteBuffer) : Nat := b.storage.length

/-- `ByteBuffer(size_t reserve)`. -/
def ofReserve (reserve : Nat) : ByteBuffer where
  rpos := 0
  wpos := 0
  storage := []
  capacity := reserve
  size_le := Nat.zero_le _

/-! ## Writing -/

/-- `std::vector::reserve`. -/
def reserve (b : ByteBuffer) (n : Nat) : ByteBuffer :=
  { b with capacity := max b.capacity n, size_le := Nat.le_trans b.size_le (Nat.le_max_left ..) }

/-- `std::vector::resize` to a larger size; a storage that is too small is at least doubled. -/
def grow (b : ByteBuffer) (newSize : Nat) : ByteBuffer where
  rpos := b.rpos
  wpos := b.wpos
  storage := b.storage ++ List.replicate (newSize - b.size) 0
  capacity := if newSize ≤ b.capacity then b.capacity else max newSize (2 * b.size)
  size_le := by
    have h := b.size_le
    rw [List.length_append, List.length_replicate, size]
    split
    · omega
    · omega

/-- `std::memcpy` to the write position, which must not leave the storage. -/
def memcpy (b : ByteBuffer) (src : List UInt8) (h : b.wpos + src.length ≤ b.size) :
    ByteBuffer where
  rpos := b.rpos
  wpos := b.wpos + src.length
  storage := b.storage.take b.wpos ++ src ++ b.storage.drop (b.wpos + src.length)
  capacity := b.capacity
  size_le := by
    have h' := b.size_le
    simp only [size] at h
    simp only [List.length_append, List.length_take, List.length_drop]
    omega

/-- Custom memory allocation rules. -/
def reserveFor (b : ByteBuffer) (newSize : Nat) : ByteBuffer :=
  if b.capacity < newSize then
    if newSize < 100 then b.reserve 300
    else if newSize < 750 then b.reserve 2500
    else if newSize < 6000 then b.reserve 10000
    else b.reserve 400000
  else b

/-- Memory for a storage of `newSize` bytes. -/
def makeRoom (b : ByteBuffer) (newSize : Nat) : ByteBuffer :=
  let b := b.reserveFor newSize
  if b.size < newSize then b.grow newSize else b

variable {b b' : ByteBuffer} {n newSize : Nat}

theorem reserveFor_eq (b : ByteBuffer) (newSize : Nat) :
    (b.reserveFor newSize).storage = b.storage ∧ (b.reserveFor newSize).rpos = b.rpos ∧
      (b.reserveFor newSize).wpos = b.wpos := by
  unfold reserveFor
  split_ifs
  all_goals exact ⟨rfl, rfl, rfl⟩

@[simp] theorem rpos_makeRoom (b : ByteBuffer) (newSize : Nat) :
    (b.makeRoom newSize).rpos = b.rpos := by
  rw [← (reserveFor_eq b newSize).2.1]
  unfold makeRoom
  dsimp only
  split
  · rfl
  · rfl

@[simp] theorem wpos_makeRoom (b : ByteBuffer) (newSize : Nat) :
    (b.makeRoom newSize).wpos = b.wpos := by
  rw [← (reserveFor_eq b newSize).2.2]
  unfold makeRoom
  dsimp only
  split
  · rfl
  · rfl

theorem storage_makeRoom (b : ByteBuffer) (newSize : Nat) :
    (b.makeRoom newSize).storage = b.storage ++ List.replicate (newSize - b.size) 0 := by
  have h := (reserveFor_eq b newSize).1
  unfold makeRoom
  dsimp only
  split
  · show _ ++ List.replicate (newSize - List.length _) 0 = _
    rw [h]
    rfl
  · grind [Nat.sub_eq_zero_of_le, size]

theorem le_size_makeRoom (b : ByteBuffer) (newSize : Nat) : newSize ≤ (b.makeRoom newSize).size := by
  rw [size, storage_makeRoom, List.length_append, List.length_replicate, size]
  omega

/-- A zero-sized value, and any value behind ten million bytes, fail an `ASSERT`. -/
def append (b : ByteBuffer) (src : List UInt8) : Option ByteBuffer :=
  if src.length = 0 then none
  else if b.size < 10000000 then
    some ((b.makeRoom (b.wpos + src.length)).memcpy src
      (by rw [wpos_makeRoom]; exact le_size_makeRoom ..))
  else none

/-- `append<T>(T value)`: the bytes of the value, the lowest first. -/
def appendValue (b : ByteBuffer) (n : Nat) (value : BitVec (8 * n)) : Option ByteBuffer :=
  b.append (LittleEndian.toBytes n value.toNat)

/-- `operator<<(std::string_view)`. -/
def appendString (b : ByteBuffer) (value : List UInt8) : Option ByteBuffer := do
  let b ← if value.length ≠ 0 then b.append value else some b
  b.append [0]

/-- The loop of `appendPackGUID` over the bytes of the GUID, with the two parts of `packGUID`:
the mark and what is behind it. -/
def packLoop (guid : UInt64) (i : Nat) (mark : UInt8) (bytes : List UInt8) : UInt8 × List UInt8 :=
  if guid = 0 then (mark, bytes)
  else if guid &&& 0xFF ≠ 0 then
    packLoop (guid >>> 8) (i + 1) (mark ||| UInt8.ofNat (1 <<< i))
      (bytes ++ [(guid &&& 0xFF).toUInt8])
  else packLoop (guid >>> 8) (i + 1) mark bytes
termination_by guid.toNat
decreasing_by
  all_goals
    have hpos : 0 < guid.toNat := Nat.pos_of_ne_zero fun h0 => by
      have h1 : guid = 0 := UInt64.toNat_inj.mp h0
      contradiction
    rw [UInt64.toNat_shiftRight, Nat.shiftRight_eq_div_pow]
    exact Nat.div_lt_self hpos (by decide)

def appendPackGUID (b : ByteBuffer) (guid : UInt64) : Option ByteBuffer :=
  let (mark, bytes) := packLoop guid 0 0 []
  b.append (mark :: bytes)

end ByteBuffer

/-! ## Reading -/

inductive ByteBufferException where
  | position (add : Bool) (pos size valueSize : Nat)
  | invalidValue (type : String) (value : List UInt8)
  deriving DecidableEq

inductive ReadError where
  | thrown (e : ByteBufferException)
  /-- An access outside the storage. -/
  | outOfBounds
  deriving DecidableEq

abbrev ReadM := EStateM ReadError ByteBuffer

namespace ByteBuffer

/-- The `n` bytes of the storage from `pos` on. -/
def load (pos n : Nat) : ReadM (List UInt8) := do
  let b ← get
  if pos + n ≤ b.size then return (b.storage.drop pos).take n else throw .outOfBounds

/-- `T read(size_t pos)`. -/
def readAt (n pos : Nat) : ReadM (BitVec (8 * n)) := do
  let b ← get
  if pos + n > b.size then throw (.thrown (.position false pos n b.size))
  else return BitVec.ofNat (8 * n) (LittleEndian.ofBytes (← load pos n))

/-- `T read()`. -/
def read (n : Nat) : ReadM (BitVec (8 * n)) := do
  let r ← readAt n (← get).rpos
  modify fun b => { b with rpos := b.rpos + n }
  return r

section Bind

variable {α β : Type} {m : ReadM α} {f : α → ReadM β} {a : α} {e : ReadError}

theorem bind_ok (h : m b = .ok a b') : (m >>= f) b = f a b' := by
  simp only [bind, EStateM.bind, h]

theorem bind_error (h : m b = .error e b') : (m >>= f) b = .error e b' := by
  simp only [bind, EStateM.bind, h]

theorem get_ok (b : ByteBuffer) : (get : ReadM ByteBuffer) b = .ok b b := rfl

end Bind

/-- The position behind the next `n` bytes. -/
def skip (b : ByteBuffer) (n : Nat) : ByteBuffer := { b with rpos := b.rpos + n }

theorem read_of_le (h : b.rpos + n ≤ b.size) :
    read n b = .ok (BitVec.ofNat (8 * n)
      (LittleEndian.ofBytes ((b.storage.drop b.rpos).take n))) (b.skip n) := by
  have hload : load b.rpos n b = .ok ((b.storage.drop b.rpos).take n) b := by
    show (if b.rpos + n ≤ b.size then _ else _ : ReadM _) b = _
    rw [if_pos h]
    rfl
  have hat : readAt n b.rpos b = .ok (BitVec.ofNat (8 * n)
      (LittleEndian.ofBytes ((b.storage.drop b.rpos).take n))) b := by
    show (if b.rpos + n > b.size then _ else _ : ReadM _) b = _
    rw [if_neg (by omega), bind_ok hload]
    rfl
  rw [read, bind_ok (get_ok b), bind_ok hat]
  rfl

theorem read_of_gt (h : b.size < b.rpos + n) :
    read n b = .error (.thrown (.position false b.rpos n b.size)) b := by
  have hat : readAt n b.rpos b = .error (.thrown (.position false b.rpos n b.size)) b := by
    show (if b.rpos + n > b.size then _ else _ : ReadM _) b = _
    rw [if_pos h]
    rfl
  rw [read, bind_ok (get_ok b), bind_error hat]

theorem read_ok {v : BitVec (8 * n)} (h : read n b = .ok v b') :
    b.rpos + n ≤ b.size ∧ b' = b.skip n := by
  by_cases hle : b.rpos + n ≤ b.size
  · rw [read_of_le hle] at h
    cases h
    exact ⟨hle, rfl⟩
  · rw [read_of_gt (by omega)] at h
    cases h

def readUInt8 : ReadM UInt8 := do return UInt8.ofBitVec (← read 1)

/-- The rounds of `readPackGUID` over the bits of the mark. -/
def readPackLoop (guidmark : UInt8) : List Nat → UInt64 → ReadM UInt64
  | [], guid => return guid
  | i :: is, guid => do
    if guidmark &&& (1 <<< UInt8.ofNat i) ≠ 0 then
      let b ← get
      if b.rpos + 1 > b.size then throw (.thrown (.position false b.rpos 1 b.size))
      else
        let bit ← readUInt8
        readPackLoop guidmark is (guid ||| (bit.toUInt64 <<< UInt64.ofNat (i * 8)))
    else readPackLoop guidmark is guid

def readPackGUID : ReadM UInt64 := do
  let b ← get
  if b.rpos + 1 > b.size then throw (.thrown (.position false b.rpos 1 b.size))
  else
    let guidmark ← readUInt8
    readPackLoop guidmark (List.range 8) 0

/-- The loop of `ReadCString`; a missing terminator is tolerated. -/
def readCStringLoop (value : List UInt8) (b : ByteBuffer) :
    EStateM.Result ReadError ByteBuffer (List UInt8) :=
  if b.rpos < b.size then
    match _h : read 1 b with
    | .ok c b' =>
      if c = 0 then .ok value b' else readCStringLoop (value ++ [UInt8.ofBitVec c]) b'
    | .error e b' => .error e b'
  else .ok value b
termination_by b.size - b.rpos
decreasing_by
  obtain ⟨hle, rfl⟩ := read_ok _h
  exact Nat.sub_lt_sub_left hle (Nat.lt_succ_self b.rpos)

def readCString (requireValidUtf8 : Bool) : ReadM (List UInt8) := do
  let value ← readCStringLoop []
  if requireValidUtf8 && !Utf8.isValid value then
    throw (.thrown (.invalidValue "string" value))
  else return value

/-! ## Fields of a packet -/

inductive FieldType where
  | bool
  | uint8
  | uint16
  | uint32
  | uint64
  | int8
  | int16
  | int32
  | int64
  | string
  | packGUID
  deriving DecidableEq, Repr

inductive Field where
  | bool (value : Bool)
  | uint8 (value : UInt8)
  | uint16 (value : UInt16)
  | uint32 (value : UInt32)
  | uint64 (value : UInt64)
  | int8 (value : Int8)
  | int16 (value : Int16)
  | int32 (value : Int32)
  | int64 (value : Int64)
  | string (value : List UInt8)
  | packGUID (guid : UInt64)
  deriving DecidableEq

def Field.type : Field → FieldType
  | .bool _ => .bool
  | .uint8 _ => .uint8
  | .uint16 _ => .uint16
  | .uint32 _ => .uint32
  | .uint64 _ => .uint64
  | .int8 _ => .int8
  | .int16 _ => .int16
  | .int32 _ => .int32
  | .int64 _ => .int64
  | .string _ => .string
  | .packGUID _ => .packGUID

/-- `operator<<` and `appendPackGUID`. -/
def write (b : ByteBuffer) : Field → Option ByteBuffer
  | .bool value => b.appendValue 1 (if value then 1 else 0)
  | .uint8 value => b.appendValue 1 value.toBitVec
  | .uint16 value => b.appendValue 2 value.toBitVec
  | .uint32 value => b.appendValue 4 value.toBitVec
  | .uint64 value => b.appendValue 8 value.toBitVec
  | .int8 value => b.appendValue 1 value.toBitVec
  | .int16 value => b.appendValue 2 value.toBitVec
  | .int32 value => b.appendValue 4 value.toBitVec
  | .int64 value => b.appendValue 8 value.toBitVec
  | .string value => b.appendString value
  | .packGUID guid => b.appendPackGUID guid

/-- `operator>>` and `readPackGUID`. The `char` behind a `bool` is signed. -/
def readField : FieldType → ReadM Field
  | .bool => do return .bool (0 < (← read 1).toInt)
  | .uint8 => do return .uint8 (← readUInt8)
  | .uint16 => do return .uint16 (UInt16.ofBitVec (← read 2))
  | .uint32 => do return .uint32 (UInt32.ofBitVec (← read 4))
  | .uint64 => do return .uint64 (UInt64.ofBitVec (← read 8))
  | .int8 => do return .int8 (Int8.ofBitVec (← read 1))
  | .int16 => do return .int16 (Int16.ofBitVec (← read 2))
  | .int32 => do return .int32 (Int32.ofBitVec (← read 4))
  | .int64 => do return .int64 (Int64.ofBitVec (← read 8))
  | .string => do return .string (← readCString true)
  | .packGUID => do return .packGUID (← readPackGUID)

def writeAll (b : ByteBuffer) : List Field → Option ByteBuffer
  | [] => some b
  | f :: fs => do (← b.write f).writeAll fs

def readAll : List FieldType → ReadM (List Field)
  | [] => return []
  | t :: ts => do
    let f ← readField t
    let fs ← readAll ts
    return f :: fs

/-- The buffer that a result leaves behind, thrown or not. -/
def resultBuffer {α : Type} : EStateM.Result ReadError ByteBuffer α → ByteBuffer
  | .ok _ b => b
  | .error _ b => b

end ByteBuffer

end EGServer.Networking

/-!
# What reading does

Two judgements about code that reads a `ByteBuffer`, each with its rule for sequencing:

- `Reads m bytes v`: where `bytes` are next, `m` takes exactly them and returns `v`;
- `InBounds b limit r`: the result `r` of reading from `b` took at most `limit` bytes, all of
  them inside the storage, whether it returned or threw.
-/

namespace EGServer.Networking.ByteBuffer

variable {α β : Type} {m : ReadM α} {f : α → ReadM β} {b b' : ByteBuffer} {v : α} {w : β}
  {bytes bytes' tail : List UInt8} {n limit limit' : Nat}

/-! ## Sequencing -/

@[simp] theorem skip_skip (b : ByteBuffer) (n k : Nat) : (b.skip n).skip k = b.skip (n + k) := by
  simp only [skip, Nat.add_assoc]

@[simp] theorem size_skip (b : ByteBuffer) (n : Nat) : (b.skip n).size = b.size := rfl

@[simp] theorem rpos_skip (b : ByteBuffer) (n : Nat) : (b.skip n).rpos = b.rpos + n := rfl

/-- What is still to be read. -/
def unread (b : ByteBuffer) : List UInt8 := b.storage.drop b.rpos

@[simp] theorem unread_skip (b : ByteBuffer) (n : Nat) : (b.skip n).unread = b.unread.drop n := by
  rw [unread, unread, List.drop_drop]
  rfl

theorem length_unread (b : ByteBuffer) : b.unread.length = b.size - b.rpos := by
  rw [unread, List.length_drop, size]

theorem le_size_of_unread (h : b.unread = bytes ++ tail) (hne : 0 < bytes.length) :
    b.rpos + bytes.length ≤ b.size := by
  have hlen := length_unread b
  rw [h, List.length_append] at hlen
  omega

/-! ## Reading what was written -/

def Reads (m : ReadM α) (bytes : List UInt8) (v : α) : Prop :=
  ∀ b tail, b.unread = bytes ++ tail → m b = .ok v (b.skip bytes.length)

theorem Reads.pure (v : α) : Reads (Pure.pure v) [] v := fun _ _ _ => rfl

theorem Reads.bind (h : Reads m bytes v) (h' : Reads (f v) bytes' w) :
    Reads (m >>= f) (bytes ++ bytes') w := by
  intro b tail hb
  rw [List.append_assoc] at hb
  rw [bind_ok (h b _ hb)]
  have hb' : (b.skip bytes.length).unread = bytes' ++ tail := by
    rw [unread_skip, hb, List.drop_left]
  rw [h' _ tail hb', skip_skip, List.length_append]

theorem Reads.map {g : α → β} (h : Reads m bytes v) :
    Reads (do return g (← m)) bytes (g v) := by
  have h' := h.bind (f := fun a => Pure.pure (g a)) (Reads.pure (g v))
  rwa [List.append_nil] at h'

theorem reads_read {x : Nat} (hn : 0 < n) (hx : x < 256 ^ n) :
    Reads (read n) (LittleEndian.toBytes n x) (BitVec.ofNat (8 * n) x) := by
  intro b tail hb
  have hlen := LittleEndian.length_toBytes n x
  have hle := le_size_of_unread hb (by omega)
  rw [hlen] at hle ⊢
  rw [read_of_le hle]
  congr 2
  show LittleEndian.ofBytes (b.unread.take n) = x
  rw [hb, List.take_left' hlen, LittleEndian.ofBytes_toBytes_of_lt hx]

theorem reads_value (hn : 0 < n) (value : BitVec (8 * n)) :
    Reads (read n) (LittleEndian.toBytes n value.toNat) value := by
  grind [reads_read, Nat.pow_mul]

theorem toBytes_one (x : UInt8) : LittleEndian.toBytes 1 x.toBitVec.toNat = [x] := by
  show [UInt8.ofNat x.toNat] = [x]
  rw [UInt8.ofNat_toNat]

theorem reads_readUInt8 (x : UInt8) : Reads readUInt8 [x] x := by
  have h := (reads_value (n := 1) (by omega) x.toBitVec).map (g := UInt8.ofBitVec)
  rwa [toBytes_one] at h

/-! ## Staying inside the storage -/

/-- From `b` to `b'` at most `limit` bytes were taken, inside the storage. -/
def Took (b b' : ByteBuffer) (limit : Nat) : Prop :=
  ∃ k ≤ limit, b' = b.skip k ∧ b'.rpos ≤ b'.size

def InBounds (b : ByteBuffer) (limit : Nat) : EStateM.Result ReadError ByteBuffer α → Prop
  | .ok _ b' => Took b b' limit
  | .error e b' => Took b b' limit ∧ e ≠ .outOfBounds

theorem Took.refl (h : b.rpos ≤ b.size) : Took b b limit := ⟨0, Nat.zero_le _, rfl, h⟩

theorem Took.trans {b'' : ByteBuffer} (h : Took b b' limit) (h' : Took b' b'' limit') :
    Took b b'' (limit + limit') := by
  obtain ⟨k, hk, rfl, -⟩ := h
  obtain ⟨k', hk', rfl, hle⟩ := h'
  exact ⟨k + k', Nat.add_le_add hk hk', skip_skip .., hle⟩

theorem Took.mono (h : Took b b' limit) (hle : limit ≤ limit') : Took b b' limit' := by
  obtain ⟨k, hk, hb⟩ := h
  exact ⟨k, Nat.le_trans hk hle, hb⟩

theorem InBounds.took {r : EStateM.Result ReadError ByteBuffer α} (h : InBounds b limit r) :
    Took b (resultBuffer r) limit := by
  cases r with
  | ok a b' => exact h
  | error e b' => exact h.1

theorem InBounds.mono {r : EStateM.Result ReadError ByteBuffer α} (h : InBounds b limit r)
    (hle : limit ≤ limit') : InBounds b limit' r := by
  cases r with
  | ok a b' => exact Took.mono h hle
  | error e b' => exact ⟨h.1.mono hle, h.2⟩

theorem InBounds.bind (h : InBounds b limit (m b))
    (h' : ∀ a b', b'.rpos ≤ b'.size → InBounds b' limit' (f a b')) :
    InBounds b (limit + limit') ((m >>= f) b) := by
  cases hm : m b with
  | error e b' =>
    rw [hm] at h
    rw [bind_error hm]
    exact ⟨h.1.mono (Nat.le_add_right _ _), h.2⟩
  | ok a b' =>
    rw [hm] at h
    rw [bind_ok hm]
    have hb' : b'.rpos ≤ b'.size := by
      obtain ⟨k, -, -, hle⟩ := h
      exact hle
    have hf := h' a b' hb'
    generalize f a b' = r at hf
    cases r with
    | ok c b'' => exact Took.trans h hf
    | error e b'' => exact ⟨Took.trans h hf.1, hf.2⟩

theorem InBounds.map {g : α → β} (h : InBounds b limit (m b)) :
    InBounds b limit ((do return g (← m) : ReadM β) b) :=
  InBounds.bind (f := fun a => pure (g a)) h fun _ b' hb' =>
    show Took b' b' 0 from Took.refl hb'

theorem inBounds_read (h : b.rpos ≤ b.size) : InBounds b n (read n b) := by
  by_cases hle : b.rpos + n ≤ b.size
  · rw [read_of_le hle]
    exact ⟨n, Nat.le_refl n, rfl, hle⟩
  · rw [read_of_gt (by omega)]
    exact ⟨Took.refl h, fun h' => nomatch h'⟩

theorem inBounds_readUInt8 (h : b.rpos ≤ b.size) : InBounds b 1 (readUInt8 b) :=
  (inBounds_read h).map

/-! ## Strings -/

theorem readCStringLoop_of_lt {value : List UInt8} {c : UInt8} (h : b.unread = c :: tail) :
    readCStringLoop value b =
      if c = 0 then .ok value (b.skip 1) else readCStringLoop (value ++ [c]) (b.skip 1) := by
  have hle := @le_size_of_unread b [c] _ h (by simp)
  have hlt : b.rpos < b.size := hle
  have hread : read 1 b = .ok c.toBitVec (b.skip 1) := by
    have hr := reads_value (n := 1) (by omega) c.toBitVec b tail
    rw [toBytes_one] at hr
    exact hr h
  rw [readCStringLoop, if_pos hlt]
  split
  · next c' b' h' =>
    rw [hread] at h'
    cases h'
    have hc : c.toBitVec = 0 ↔ c = 0 := by
      rw [← UInt8.toBitVec_inj]
      rfl
    simp only [hc]
  · next e b' h' =>
    rw [hread] at h'
    cases h'

theorem readCStringLoop_of_nil {value : List UInt8} (h : b.unread = []) :
    readCStringLoop value b = .ok value b := by
  have hlen := length_unread b
  rw [h, List.length_nil] at hlen
  rw [readCStringLoop, if_neg (by omega)]

theorem readCStringLoop_terminated (text value tail : List UInt8) (h0 : 0 ∉ text) :
    ∀ b : ByteBuffer, b.unread = text ++ 0 :: tail →
      readCStringLoop value b = .ok (value ++ text) (b.skip (text.length + 1)) := by
  induction text generalizing value with
  | nil =>
    intro b hb
    rw [readCStringLoop_of_lt hb, if_pos rfl, List.append_nil]
    rfl
  | cons c text ih =>
    intro b hb
    rw [List.mem_cons, not_or] at h0
    rw [readCStringLoop_of_lt hb, if_neg (Ne.symm h0.1), ih _ h0.2, List.append_assoc]
    · rw [skip_skip, List.length_cons, Nat.add_comm 1]
      rfl
    · rw [unread_skip, hb]
      rfl

theorem reads_readCString (text : List Char) (h0 : 0 ∉ Utf8.encode text) :
    Reads (readCString true) (Utf8.encode text ++ [0]) (Utf8.encode text) := by
  intro b tail hb
  rw [List.append_assoc] at hb
  have hloop := readCStringLoop_terminated _ [] tail h0 b hb
  have hvalid : Utf8.isValid (Utf8.encode text) = true := Utf8.isValid_iff.mpr ⟨text, rfl⟩
  rw [readCString, bind_ok hloop, List.nil_append, List.length_append]
  simp only [hvalid, Bool.not_true, Bool.and_false, Bool.false_eq_true, if_false]
  rfl

theorem inBounds_readCStringLoop (h : b.rpos ≤ b.size) (value : List UInt8) :
    InBounds b (b.size - b.rpos) (readCStringLoop value b) := by
  rw [← length_unread b]
  generalize hu : b.unread = bytes
  induction bytes generalizing b value with
  | nil =>
    rw [readCStringLoop_of_nil hu]
    exact Took.refl h
  | cons c bytes ih =>
    have hle := @le_size_of_unread b [c] _ hu (by simp)
    have hskip : Took b (b.skip 1) 1 := ⟨1, Nat.le_refl 1, rfl, hle⟩
    rw [readCStringLoop_of_lt hu, List.length_cons, Nat.add_comm]
    split
    · exact hskip.mono (Nat.le_add_right _ _)
    · have hrest := ih (b := b.skip 1) hle (value ++ [c]) (by rw [unread_skip, hu]; rfl)
      generalize readCStringLoop (value ++ [c]) (b.skip 1) = r at hrest
      cases r with
      | ok a b' => exact hskip.trans hrest
      | error e b' => exact ⟨hskip.trans hrest.1, hrest.2⟩

theorem inBounds_readCString (h : b.rpos ≤ b.size) (requireValidUtf8 : Bool) :
    InBounds b (b.size - b.rpos) (readCString requireValidUtf8 b) := by
  show InBounds b (b.size - b.rpos + 0) _
  apply InBounds.bind (inBounds_readCStringLoop h [])
  intro value b' hb'
  split
  · exact ⟨Took.refl hb', fun h' => nomatch h'⟩
  · exact Took.refl hb'

end EGServer.Networking.ByteBuffer
