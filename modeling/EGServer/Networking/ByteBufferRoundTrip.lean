import EGServer.Networking.PackedGuid

/-!
# The stream round trip

Fields written to an empty buffer are read back in order. Writing is put into one normal form
first: a field is a list of non-empty chunks, one for each `append` it makes (`write_eq`).
-/

namespace EGServer.Networking.ByteBuffer

variable {b b' b'' : ByteBuffer} {src bytes bytes' : List UInt8} {cs : List (List UInt8)}

/-! ## Appending at the end -/

/-- From `b` to `b'` the bytes were added at the end. -/
structure Wrote (b b' : ByteBuffer) (bytes : List UInt8) : Prop where
  storage : b'.storage = b.storage ++ bytes
  wpos : b'.wpos = b'.size
  rpos : b'.rpos = b.rpos

theorem Wrote.size (h : Wrote b b' bytes) : b'.size = b.size + bytes.length := by
  rw [ByteBuffer.size, h.storage, List.length_append]
  rfl

theorem Wrote.refl (h : b.wpos = b.size) : Wrote b b [] := ⟨(List.append_nil _).symm, h, rfl⟩

theorem Wrote.trans (h : Wrote b b' bytes) (h' : Wrote b' b'' bytes') :
    Wrote b b'' (bytes ++ bytes') where
  storage := by rw [h'.storage, h.storage, List.append_assoc]
  wpos := h'.wpos
  rpos := h'.rpos.trans h.rpos

/-- What `append` leaves in the storage, when the write position is its end. -/
theorem wrote_memcpy (hw : b.wpos = b.size)
    (h : (b.makeRoom (b.wpos + src.length)).wpos + src.length ≤
      (b.makeRoom (b.wpos + src.length)).size) :
    Wrote b ((b.makeRoom (b.wpos + src.length)).memcpy src h) src := by
  have hroom : (b.makeRoom (b.wpos + src.length)).storage =
      b.storage ++ List.replicate src.length 0 := by
    rw [storage_makeRoom, hw, Nat.add_sub_cancel_left]
  have hstorage : ((b.makeRoom (b.wpos + src.length)).memcpy src h).storage = b.storage ++ src := by
    simp only [memcpy, wpos_makeRoom, hroom]
    rw [hw, size, List.take_left' rfl, List.drop_of_length_le, List.append_nil]
    rw [List.length_append, List.length_replicate]
  refine ⟨hstorage, ?_, rpos_makeRoom ..⟩
  rw [size, hstorage, List.length_append]
  simp only [memcpy, wpos_makeRoom, hw]
  rfl

theorem wrote_of_append (hw : b.wpos = b.size) (h : b.append src = some b') : Wrote b b' src := by
  unfold append at h
  split_ifs at h
  cases h
  exact wrote_memcpy hw _

theorem wpos_append (h : b.append src = some b') : b'.wpos = b.wpos + src.length := by
  unfold append at h
  split_ifs at h
  cases h
  show (b.makeRoom _).wpos + src.length = _
  rw [wpos_makeRoom]

theorem append_ok (hne : src ≠ []) (hlt : b.size < 10000000) : ∃ b', b.append src = some b' := by
  have h0 : src.length ≠ 0 := fun h => hne (List.length_eq_zero_iff.mp h)
  rw [append, if_neg h0, if_pos hlt]
  exact ⟨_, rfl⟩

/-! ## Chunks -/

def appendChunks (b : ByteBuffer) : List (List UInt8) → Option ByteBuffer
  | [] => some b
  | c :: cs => do (← b.append c).appendChunks cs

theorem appendChunks_append (b : ByteBuffer) (cs ds : List (List UInt8)) :
    b.appendChunks (cs ++ ds) = (do (← b.appendChunks cs).appendChunks ds) := by
  induction cs generalizing b with
  | nil => rfl
  | cons c cs ih =>
    rw [List.cons_append, appendChunks, appendChunks]
    cases b.append c with
    | none => rfl
    | some b' => exact ih b'

theorem wrote_of_chunks (hw : b.wpos = b.size) (h : b.appendChunks cs = some b') :
    Wrote b b' cs.flatten := by
  induction cs generalizing b with
  | nil =>
    cases h
    exact Wrote.refl hw
  | cons c cs ih =>
    obtain ⟨b₁, h₁, h₂⟩ := Option.bind_eq_some_iff.mp h
    have hwrote := wrote_of_append hw h₁
    exact hwrote.trans (ih hwrote.wpos h₂)

theorem appendChunks_ok (hw : b.wpos = b.size) (hne : ∀ c ∈ cs, c ≠ [])
    (hlt : b.size + cs.flatten.length ≤ 10000000) : ∃ b', b.appendChunks cs = some b' := by
  induction cs generalizing b with
  | nil => exact ⟨b, rfl⟩
  | cons c cs ih =>
    have hc : c ≠ [] := hne c List.mem_cons_self
    have hpos : 0 < c.length := List.length_pos_iff.mpr hc
    rw [List.flatten_cons, List.length_append] at hlt
    obtain ⟨b₁, h₁⟩ := append_ok (b := b) hc (by omega)
    have hwrote := wrote_of_append hw h₁
    have hsize := hwrote.size
    obtain ⟨b₂, h₂⟩ := ih hwrote.wpos (fun d hd => hne d (List.mem_cons_of_mem _ hd)) (by omega)
    exact ⟨b₂, Option.bind_eq_some_iff.mpr ⟨b₁, h₁, h₂⟩⟩

/-! ## The bytes of a field -/

namespace Field

/-- The `append`s that writing a field makes. -/
def chunks : Field → List (List UInt8)
  | .bool value => [LittleEndian.toBytes 1 (if value then 1 else 0 : BitVec (8 * 1)).toNat]
  | .uint8 value => [LittleEndian.toBytes 1 value.toBitVec.toNat]
  | .uint16 value => [LittleEndian.toBytes 2 value.toBitVec.toNat]
  | .uint32 value => [LittleEndian.toBytes 4 value.toBitVec.toNat]
  | .uint64 value => [LittleEndian.toBytes 8 value.toBitVec.toNat]
  | .int8 value => [LittleEndian.toBytes 1 value.toBitVec.toNat]
  | .int16 value => [LittleEndian.toBytes 2 value.toBitVec.toNat]
  | .int32 value => [LittleEndian.toBytes 4 value.toBitVec.toNat]
  | .int64 value => [LittleEndian.toBytes 8 value.toBitVec.toNat]
  | .string value => if value.length ≠ 0 then [value, [0]] else [[0]]
  | .packGUID guid => [guidMark guid :: packed 8 guid.toNat]

def wire (f : Field) : List UInt8 := f.chunks.flatten

/-- How many bytes a field takes on the wire. -/
def wireSize : Field → Nat
  | .bool _ | .uint8 _ | .int8 _ => 1
  | .uint16 _ | .int16 _ => 2
  | .uint32 _ | .int32 _ => 4
  | .uint64 _ | .int64 _ => 8
  | .string value => value.length + 1
  | .packGUID guid => 1 + nonZeroBytes guid

/-- Strings are UTF-8 without a NUL. -/
def Valid : Field → Prop
  | .string value => (∃ text, value = Utf8.encode text) ∧ 0 ∉ value
  | _ => True

theorem wire_string (value : List UInt8) : (Field.string value).wire = value ++ [0] := by
  show (if value.length ≠ 0 then [value, [0]] else [[0]]).flatten = _
  split
  · rfl
  · next h =>
    have h0 : value = [] := List.length_eq_zero_iff.mp (not_not.mp h)
    rw [h0]
    rfl

theorem length_wire (f : Field) : f.wire.length = f.wireSize := by
  cases f with
  | string value => rw [wire_string, List.length_append]; rfl
  | packGUID guid => simp [wire, chunks, wireSize, nonZeroBytes, Nat.add_comm]
  | _ => simp [wire, chunks, wireSize]

theorem chunks_ne_nil (f : Field) : ∀ c ∈ f.chunks, c ≠ [] := by
  cases f with
  | string value =>
    show ∀ c ∈ (if value.length ≠ 0 then [value, [0]] else [[0]]), c ≠ []
    intro c hc
    split at hc
    · next h =>
      rw [List.mem_pair] at hc
      obtain rfl | rfl := hc
      · exact fun h0 => h (List.length_eq_zero_iff.mpr h0)
      · exact List.cons_ne_nil _ _
    · rw [List.mem_singleton] at hc
      rw [hc]
      exact List.cons_ne_nil _ _
  | _ =>
    intro c hc
    rw [chunks, List.mem_singleton] at hc
    rw [hc]
    exact List.cons_ne_nil _ _

end Field

theorem write_eq (b : ByteBuffer) (f : Field) : b.write f = b.appendChunks f.chunks := by
  have single : ∀ (b : ByteBuffer) (bytes : List UInt8),
      b.append bytes = b.appendChunks [bytes] := by
    intro b bytes
    rw [appendChunks]
    exact (Option.bind_fun_some _).symm
  cases f with
  | string value =>
    show b.appendString value = b.appendChunks (if value.length ≠ 0 then [value, [0]] else [[0]])
    unfold appendString
    split
    · rw [appendChunks]
      simp only [single _ [0]]
    · exact single b [0]
  | packGUID guid => exact (appendPackGUID_eq b guid).trans (single b _)
  | _ => simp only [write, appendValue, Field.chunks, single]

theorem writeAll_eq (b : ByteBuffer) (fs : List Field) :
    b.writeAll fs = b.appendChunks (fs.flatMap Field.chunks) := by
  induction fs generalizing b with
  | nil => rfl
  | cons f fs ih =>
    rw [List.flatMap_cons, appendChunks_append, ← write_eq, writeAll]
    simp only [ih]

def wireAll (fs : List Field) : List UInt8 := fs.flatMap Field.wire

theorem flatten_chunks (fs : List Field) : (fs.flatMap Field.chunks).flatten = wireAll fs := by
  induction fs with
  | nil => rfl
  | cons f fs ih =>
    rw [List.flatMap_cons, List.flatten_append, ih]
    rfl

/-- How many bytes the fields take on the wire. -/
def totalSize (fs : List Field) : Nat := (fs.map Field.wireSize).sum

theorem length_wireAll (fs : List Field) : (wireAll fs).length = totalSize fs := by
  induction fs with
  | nil => rfl
  | cons f fs ih =>
    rw [wireAll, List.flatMap_cons, List.length_append, f.length_wire]
    show _ + (wireAll fs).length = _
    rw [ih]
    rfl

/-! ## Reading the fields back -/

theorem reads_field (f : Field) (hf : f.Valid) : Reads (readField f.type) f.wire f := by
  have one {n : Nat} {g : BitVec (8 * n) → Field} {v : BitVec (8 * n)} (hn : 0 < n) :
      Reads (do return g (← read n)) [LittleEndian.toBytes n v.toNat].flatten (g v) := by
    rw [List.flatten_singleton]
    exact (reads_value hn v).map
  cases f with
  | bool value =>
    have h := one (n := 1) (g := fun x => .bool (0 < x.toInt)) (v := if value then 1 else 0) (Nat.zero_lt_one)
    cases value with
    | false => exact h
    | true => exact h
  | uint8 value =>
    have h := (reads_readUInt8 value).map (g := Field.uint8)
    rwa [← toBytes_one, ← List.flatten_singleton (l := LittleEndian.toBytes _ _)] at h
  | uint16 value => exact one (n := 2) (g := fun x => .uint16 (UInt16.ofBitVec x)) (by omega)
  | uint32 value => exact one (n := 4) (g := fun x => .uint32 (UInt32.ofBitVec x)) (by omega)
  | uint64 value => exact one (n := 8) (g := fun x => .uint64 (UInt64.ofBitVec x)) (by omega)
  | int8 value => exact one (n := 1) (g := fun x => .int8 (Int8.ofBitVec x)) (by omega)
  | int16 value => exact one (n := 2) (g := fun x => .int16 (Int16.ofBitVec x)) (by omega)
  | int32 value => exact one (n := 4) (g := fun x => .int32 (Int32.ofBitVec x)) (by omega)
  | int64 value => exact one (n := 8) (g := fun x => .int64 (Int64.ofBitVec x)) (by omega)
  | string value =>
    obtain ⟨⟨text, rfl⟩, h0⟩ := hf
    rw [Field.wire_string]
    exact (reads_readCString text h0).map
  | packGUID guid =>
    have h := (reads_readPackGUID guid).map (g := Field.packGUID)
    rwa [← List.flatten_singleton (l := _ :: _)] at h

theorem reads_readAll (fs : List Field) (hfs : ∀ f ∈ fs, f.Valid) :
    Reads (readAll (fs.map Field.type)) (wireAll fs) fs := by
  induction fs with
  | nil => exact Reads.pure []
  | cons f fs ih =>
    have hf := reads_field f (hfs f List.mem_cons_self)
    exact hf.bind (ih fun g hg => hfs g (List.mem_cons_of_mem _ hg)).map

/-! ## Any storage, any reads -/

theorem inBounds_readField {b : ByteBuffer} (hb : b.rpos ≤ b.size) (t : FieldType) :
    InBounds b (if t = .packGUID then 9 else max 8 (b.size - b.rpos)) (readField t b) := by
  cases t with
  | packGUID => exact (inBounds_readPackGUID hb).map
  | string => exact (inBounds_readCString hb true).map.mono (Nat.le_max_right ..)
  | uint8 => exact (inBounds_readUInt8 hb).map.mono (Nat.le_trans (by omega) (Nat.le_max_left ..))
  | _ => exact (inBounds_read hb).map.mono (Nat.le_trans (by omega) (Nat.le_max_left ..))

/-- The buffer after reading the types in turn, going on after an exception. -/
def afterReads (b : ByteBuffer) (ts : List FieldType) : ByteBuffer :=
  ts.foldl (fun b t => resultBuffer (readField t b)) b

theorem afterReads_took (ts : List FieldType) :
    ∀ {b : ByteBuffer}, b.rpos ≤ b.size → ∃ k, afterReads b ts = b.skip k ∧
      (afterReads b ts).rpos ≤ (afterReads b ts).size := by
  induction ts with
  | nil => exact fun hb => ⟨0, rfl, hb⟩
  | cons t ts ih =>
    intro b hb
    obtain ⟨k, -, hk, hle⟩ := (inBounds_readField hb t).took
    obtain ⟨k', hk', hle'⟩ := ih hle
    refine ⟨k + k', ?_, hle'⟩
    rw [← skip_skip, ← hk]
    exact hk'

/-! ## The stream -/

theorem wpos_appendPackGUID {guid : UInt64} (h : b.appendPackGUID guid = some b') :
    b'.wpos = b.wpos + (1 + nonZeroBytes guid) := by
  rw [appendPackGUID_eq] at h
  rw [wpos_append h, List.length_cons, nonZeroBytes, Nat.add_comm 1]

theorem writeAll_ok {fields : List Field} (hw : b.wpos = b.size)
    (hlt : b.size + totalSize fields ≤ 10000000) :
    ∃ b', b.writeAll fields = some b' := by
  rw [writeAll_eq]
  apply appendChunks_ok hw
  · intro c hc
    obtain ⟨f, -, hc⟩ := List.mem_flatMap.mp hc
    exact f.chunks_ne_nil c hc
  · rwa [flatten_chunks, length_wireAll]

theorem wrote_of_writeAll {fields : List Field} (hw : b.wpos = b.size)
    (h : b.writeAll fields = some b') : Wrote b b' (wireAll fields) := by
  rw [← flatten_chunks]
  rw [writeAll_eq] at h
  exact wrote_of_chunks hw h

/-- **The stream round trip.** Fields whose total size the buffer admits are written to an empty
buffer, and reading their types gives them back and takes every byte; a packed GUID takes a mark
and its non-zero bytes; and reading any types from any storage, also after exceptions, stays
inside the storage. -/
theorem stream_round_trip :
    (∀ (reserve : Nat) (fields : List Field), (∀ f ∈ fields, f.Valid) →
      (∀ b, (ofReserve reserve).writeAll fields = some b → b.size = totalSize fields) ∧
      (totalSize fields < 10000000 →
        ∃ b b', (ofReserve reserve).writeAll fields = some b ∧
          readAll (fields.map Field.type) b = .ok fields b' ∧
          b'.rpos = b'.size ∧ b'.storage = b.storage)) ∧
    (∀ (b b' : ByteBuffer) (guid : UInt64), b.appendPackGUID guid = some b' →
      b'.wpos = b.wpos + (1 + nonZeroBytes guid)) ∧
    (∀ (b : ByteBuffer) (ts : List FieldType) (t : FieldType), b.rpos ≤ b.size →
      (afterReads b ts).rpos ≤ (afterReads b ts).size ∧
      (afterReads b ts).storage = b.storage ∧
      (∀ b', readField t (afterReads b ts) ≠ .error .outOfBounds b') ∧
      (afterReads b ts).rpos ≤ (afterReads b (ts ++ [t])).rpos ∧
      (t = .packGUID →
        (afterReads b (ts ++ [t])).rpos ≤ (afterReads b ts).rpos + 9)) := by
  refine ⟨fun reserve fields hvalid => ⟨?_, ?_⟩, fun b b' guid h => wpos_appendPackGUID h, ?_⟩
  · intro b hb
    have hwrote := wrote_of_writeAll rfl hb
    rw [hwrote.size, length_wireAll]
    exact Nat.zero_add _
  · intro hlt
    have hle : (ofReserve reserve).size + totalSize fields ≤ 10000000 := by
      show 0 + totalSize fields ≤ 10000000
      omega
    obtain ⟨b, hb⟩ := writeAll_ok rfl hle
    have hwrote := wrote_of_writeAll rfl hb
    have hunread : b.unread = wireAll fields ++ [] := by
      rw [unread, hwrote.storage, hwrote.rpos, List.append_nil]
      rfl
    refine ⟨b, _, hb, reads_readAll fields hvalid b [] hunread, ?_, rfl⟩
    rw [rpos_skip, size_skip, hwrote.rpos, hwrote.size]
    rfl
  · intro b ts t hb
    obtain ⟨k, hk, hle⟩ := afterReads_took ts hb
    have hread := inBounds_readField hle t
    have hstep : afterReads b (ts ++ [t]) = resultBuffer (readField t (afterReads b ts)) := by
      rw [afterReads, List.foldl_append]
      rfl
    obtain ⟨k', hk', htook, -⟩ := hread.took
    rw [hstep, htook, rpos_skip]
    refine ⟨hle, by rw [hk]; rfl, ?_, Nat.le_add_right _ _, ?_⟩
    · intro b' hout
      rw [hout] at hread
      exact hread.2 rfl
    · intro ht
      rw [if_pos ht] at hk'
      omega

/-- A string, a flag and a GUID of three non-zero bytes. -/
theorem stream_round_trip_fields :
    ∃ b b', (ofReserve 4096).writeAll
        [.string (Utf8.encode ['G', 'é']), .bool true, .packGUID 0xF13000000000002A] = some b ∧
      readAll [.string, .bool, .packGUID] b =
        .ok [.string (Utf8.encode ['G', 'é']), .bool true, .packGUID 0xF13000000000002A] b' ∧
      b'.rpos = b'.size ∧ b'.storage = b.storage := by
  have hvalid : ∀ f ∈ [Field.string (Utf8.encode ['G', 'é']), .bool true,
      .packGUID 0xF13000000000002A], f.Valid := by
    intro f hf
    simp only [List.mem_cons, List.not_mem_nil, or_false] at hf
    obtain rfl | rfl | rfl := hf
    · exact ⟨⟨_, rfl⟩, by decide⟩
    · trivial
    · trivial
  exact (stream_round_trip.1 4096 _ hvalid).2 (by decide)

/-! ## What a string may be -/

theorem readCStringLoop_eq (value : List UInt8) (b : ByteBuffer) :
    readCStringLoop value b = .ok (value ++ b.unread.takeWhile (· ≠ 0))
      (b.skip (min ((b.unread.takeWhile (· ≠ 0)).length + 1) b.unread.length)) := by
  generalize hu : b.unread = bytes
  induction bytes generalizing b value with
  | nil =>
    rw [readCStringLoop_of_nil hu, List.takeWhile_nil, List.append_nil]
    rfl
  | cons c bytes ih =>
    have hrest : (b.skip 1).unread = bytes := by
      rw [unread_skip, hu]
      rfl
    rw [readCStringLoop_of_lt hu, List.takeWhile_cons, List.length_cons]
    by_cases hc : c = 0
    · rw [if_pos hc, if_neg (by simpa using hc), List.append_nil, List.length_nil,
        Nat.min_eq_left (Nat.le_add_left _ _)]
    · rw [if_neg hc, if_pos (by simpa using hc), ih _ _ hrest, List.append_assoc, skip_skip,
        List.length_cons, Nat.add_min_add_right, Nat.add_comm 1]
      rfl

/-- **A string is read if and only if its bytes are UTF-8**: those up to the first NUL, which is
passed, or up to the end of the buffer. -/
theorem readCString_ok_iff {value : List UInt8} : readCString true b = .ok value b' ↔
    value = b.unread.takeWhile (· ≠ 0) ∧ (∃ text, value = Utf8.encode text) ∧
      b' = b.skip (min (value.length + 1) b.unread.length) := by
  rw [readCString, bind_ok (readCStringLoop_eq [] b), List.nil_append, ← Utf8.isValid_iff]
  cases hvalid : Utf8.isValid (b.unread.takeWhile (· ≠ 0)) with
  | true =>
    constructor
    · intro h
      cases h
      exact ⟨rfl, hvalid, rfl⟩
    · rintro ⟨rfl, -, rfl⟩
      rfl
  | false =>
    constructor
    · intro h
      cases h
    · rintro ⟨rfl, h, -⟩
      cases hvalid.symm.trans h

end EGServer.Networking.ByteBuffer
