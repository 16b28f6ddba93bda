import EGServer.Networking.WorldSocket

/-!
# Framing does not depend on the reads

The packets that `ReadHandler` hands on are the frames of the stream, however it was cut into
reads. `Holds` says what the buffers of a socket hold of the frame that is being received:
`FrameFormat.parse_append` then carries the parse of the stream over from read to read.

In the other direction, the buffers that `Update` queues are the bytes of the packets in the
order of the queue.
-/

namespace EGServer.Networking.WorldSocket

variable {κ : Type} {crypt : Crypt κ} {s s' : WorldSocket κ} {k k' : κ} {rest : List UInt8}
  {cmd n : Nat}

/-! ## Headers -/

theorem ofWire_isSome {l : List UInt8} (h : l.length = ClientPktHeader.SIZE) :
    ∃ header, ClientPktHeader.ofWire l = some header ∧
      ∀ size, ClientPktHeader.hostCmd (ClientPktHeader.hostSize size ++ l.drop 2) =
        some header.cmd := by
  match l, h with
  | [b0, b1, b2, b3, b4, b5], _ => exact ⟨_, rfl, fun _ => rfl⟩

theorem length_decrypt (crypt : Crypt κ) (initialized : Bool) (k : κ) (l : List UInt8) :
    (decrypt crypt initialized k l).2.length = l.length := by
  unfold decrypt
  split
  · exact crypt.length_update k l
  · rfl

theorem decode_eq {initialized authed : Bool} {header : ClientPktHeader} {l : List UInt8}
    (h : ClientPktHeader.ofWire (decrypt crypt initialized k l).2 = some header) :
    (clientFormat crypt initialized authed).decode k l =
      if accepts authed header then
        some ((decrypt crypt initialized k l).1, header.cmd, header.size - 4)
      else none := by
  simp only [clientFormat, h]

/-! ## What the buffers hold -/

/-- The header of a frame is complete and was accepted, and not more than its payload was
received: `rest` is what was received of the frame, from the state `k`. -/
structure InPayload (crypt : Crypt κ) (s : WorldSocket κ) (k : κ) (rest : List UInt8) (k' : κ)
    (cmd n : Nat) : Prop where
  isOpen : s.closed = false
  header_rpos : s.headerBuffer.rpos = 0
  header_wpos : s.headerBuffer.wpos = ClientPktHeader.SIZE
  header_size : s.headerBuffer.storage.length = ClientPktHeader.SIZE
  header_cmd : ClientPktHeader.hostCmd s.headerBuffer.active = some cmd
  header_read : ClientPktHeader.SIZE ≤ rest.length
  decode : (clientFormat crypt s.initialized s.authed).decode k (rest.take ClientPktHeader.SIZE) =
    some (k', cmd, n)
  state : s.authCrypt = k'
  packet_rpos : s.packetBuffer.rpos = 0
  packet_size : s.packetBuffer.storage.length = n
  packet_written : s.packetBuffer.written = rest.drop ClientPktHeader.SIZE

/-- The header of a frame is not complete. -/
structure InHeader (s : WorldSocket κ) (k : κ) (rest : List UInt8) : Prop where
  isOpen : s.closed = false
  header_rpos : s.headerBuffer.rpos = 0
  header_size : s.headerBuffer.storage.length = ClientPktHeader.SIZE
  header_written : s.headerBuffer.written = rest
  header_short : rest.length < ClientPktHeader.SIZE
  state : s.authCrypt = k
  packet_empty : s.packetBuffer.wpos = 0

/-- The buffers hold `rest`, the beginning of a frame that starts in the state `k`. -/
inductive Holds (crypt : Crypt κ) (s : WorldSocket κ) (k : κ) (rest : List UInt8) : Prop where
  | header (h : InHeader s k rest)
  | payload {k' : κ} {cmd n : Nat} (h : InPayload crypt s k rest k' cmd n)
      (hn : rest.length < ClientPktHeader.SIZE + n)

theorem InPayload.packet_wpos (h : InPayload crypt s k rest k' cmd n) :
    s.packetBuffer.wpos + ClientPktHeader.SIZE = rest.length := by
  have hlen := congrArg List.length h.packet_written
  rw [MessageBuffer.length_written, List.length_drop] at hlen
  have hread := h.header_read
  omega

theorem InPayload.packet_space (h : InPayload crypt s k rest k' cmd n) :
    s.packetBuffer.getRemainingSpace + rest.length = ClientPktHeader.SIZE + n := by
  have hw := h.packet_wpos
  have hle := s.packetBuffer.wpos_le
  have hsize := h.packet_size
  unfold MessageBuffer.getRemainingSpace
  omega

theorem Holds.parse (h : Holds crypt s k rest) :
    (clientFormat crypt s.initialized s.authed).parse k rest = ([], .more k rest) := by
  cases h with
  | header h => exact FrameFormat.parse_short h.header_short
  | payload h hn => exact FrameFormat.parse_wait h.header_read h.decode hn

theorem Holds.isOpen (h : Holds crypt s k rest) : s.closed = false := by
  cases h with
  | header h => exact h.isOpen
  | payload h _ => exact h.isOpen

theorem Holds.length (h : Holds crypt s k rest) :
    s.headerBuffer.wpos + s.packetBuffer.wpos = rest.length := by
  cases h with
  | header h =>
    rw [← h.header_written, MessageBuffer.length_written, h.packet_empty]
    rfl
  | payload h _ =>
    rw [h.header_wpos, Nat.add_comm]
    exact h.packet_wpos

/-- What reading leaves alone. -/
structure Kept (s s' : WorldSocket κ) : Prop where
  initialized : s'.initialized = s.initialized
  authed : s'.authed = s.authed
  block : s'.readBuffer.storage.length = s.readBuffer.storage.length

/-- What the parts of a round leave alone until a packet is complete. -/
structure Same (s s' : WorldSocket κ) : Prop extends Kept s s' where
  handled : s'.handled = s.handled

theorem Kept.trans {s₁ s₂ s₃ : WorldSocket κ} (h : Kept s₁ s₂) (h' : Kept s₂ s₃) : Kept s₁ s₃ :=
  ⟨h'.initialized.trans h.initialized, h'.authed.trans h.authed, h'.block.trans h.block⟩

theorem Same.trans {s₁ s₂ s₃ : WorldSocket κ} (h : Same s₁ s₂) (h' : Same s₂ s₃) : Same s₁ s₃ :=
  ⟨h.toKept.trans h'.toKept, h'.handled.trans h.handled⟩

/-! ## Reading a header -/

theorem readHeaderHandler_spec (hopen : s.closed = false) (hr : s.headerBuffer.rpos = 0)
    (hsize : s.headerBuffer.storage.length = ClientPktHeader.SIZE)
    (hfull : s.headerBuffer.written.length = ClientPktHeader.SIZE)
    (hpacket : s.packetBuffer.wpos = 0) :
    (∃ s' k' cmd n, readHeaderHandler crypt s = some (s', true) ∧
        InPayload crypt s' s.authCrypt s.headerBuffer.written k' cmd n ∧ Same s s' ∧
        s'.readBuffer = s.readBuffer) ∨
      ∃ s', readHeaderHandler crypt s = some (s', false) ∧ Same s s' ∧
        (clientFormat crypt s.initialized s.authed).decode s.authCrypt s.headerBuffer.written =
          none := by
  have hactive : s.headerBuffer.active = s.headerBuffer.written := MessageBuffer.active_of_rpos hr
  have hgo : ¬s.headerBuffer.getActiveSize ≠ ClientPktHeader.SIZE := by
    rw [← MessageBuffer.length_active, hactive, hfull]
    simp
  have hwpos : s.headerBuffer.wpos = ClientPktHeader.SIZE := by
    rw [← MessageBuffer.length_written, hfull]
  obtain ⟨header, hheader, hcmd⟩ := ofWire_isSome (l := (decrypt crypt s.initialized s.authCrypt
    s.headerBuffer.written).2) (by rw [length_decrypt, hfull])
  have hdec := @decode_eq _ _ _ _ s.authed _ _ hheader
  obtain ⟨hb, hpatch, hbw, hbr, hbwpos, hbs⟩ := @MessageBuffer.patch_spec s.headerBuffer
    (decrypt crypt s.initialized s.authCrypt s.headerBuffer.written).2 hr
    (by rw [length_decrypt, hfull, hwpos])
  have hbw' : hb.written = (decrypt crypt s.initialized s.authCrypt s.headerBuffer.written).2 := by
    rw [hbw, List.drop_eq_nil_of_le, List.append_nil]
    rw [length_decrypt]
  rw [readHeaderHandler, if_neg hgo, hactive]
  simp only [hheader, hpatch]
  by_cases hacc : accepts s.authed header = true
  · left
    obtain ⟨hb', hpatch', hb'w, hb'r, hb'wpos, hb's⟩ := @MessageBuffer.patch_spec hb
      (ClientPktHeader.hostSize (header.size - 4)) hbr (by
        rw [hbwpos, hwpos]
        show 2 ≤ 6
        omega)
    obtain ⟨pb, hresize, hpw, hpr, hps⟩ := MessageBuffer.resize_spec (n := header.size - 4) hpacket
    rw [if_neg (by rw [hacc]; exact Bool.false_ne_true), hpatch', hresize]
    refine ⟨_, (decrypt crypt s.initialized s.authCrypt s.headerBuffer.written).1, header.cmd,
      header.size - 4, rfl, ?_, ⟨⟨rfl, rfl, rfl⟩, rfl⟩, rfl⟩
    rw [if_pos hacc] at hdec
    have htake : s.headerBuffer.written.take ClientPktHeader.SIZE = s.headerBuffer.written :=
      List.take_of_length_le (by rw [hfull])
    constructor
    case isOpen => exact hopen
    case header_rpos => exact hb'r
    case header_wpos => rw [hb'wpos, hbwpos, hwpos]
    case header_size => rw [hb's, hbs, hsize]
    case header_cmd =>
      rw [MessageBuffer.active_of_rpos hb'r, hb'w, hbw']
      exact hcmd (header.size - 4)
    case header_read => rw [hfull]
    case decode =>
      rw [htake]
      exact hdec
    case state => rfl
    case packet_rpos => exact hpr
    case packet_size => exact hps
    grind [MessageBuffer.length_written]
  · right
    rw [if_neg hacc] at hdec
    rw [if_pos (by simpa using hacc)]
    exact ⟨_, rfl, ⟨⟨rfl, rfl, rfl⟩, rfl⟩, hdec⟩

/-- What the first part of a round comes to. -/
theorem readHeader_spec (h : InHeader s k rest) :
    (∃ s', readHeader crypt s = some (.wait s') ∧ InHeader s' k (rest ++ s.readBuffer.active) ∧
        s'.readBuffer.active = [] ∧ Same s s') ∨
      (∃ s', readHeader crypt s = some (.stop s') ∧ s'.closed = true ∧ Same s s' ∧
        (clientFormat crypt s.initialized s.authed).parse k (rest ++ s.readBuffer.active) =
          ([], .malformed)) ∨
      ∃ s' header k' cmd n, readHeader crypt s = some (.again s') ∧
        InPayload crypt s' k header k' cmd n ∧ header.length = ClientPktHeader.SIZE ∧ Same s s' ∧
        header ++ s'.readBuffer.active = rest ++ s.readBuffer.active ∧
        s'.readBuffer.active.length < s.readBuffer.active.length := by
  have hwpos : s.headerBuffer.wpos = rest.length := by
    rw [← MessageBuffer.length_written, h.header_written]
  have hspace : s.headerBuffer.getRemainingSpace + rest.length = ClientPktHeader.SIZE := by
    have hle := s.headerBuffer.wpos_le
    rw [h.header_size, hwpos] at hle
    rw [MessageBuffer.getRemainingSpace, h.header_size, hwpos]
    omega
  have hshort := h.header_short
  have hpos : s.headerBuffer.getRemainingSpace > 0 := by omega
  obtain ⟨rb, hb, htransfer, hra, hbw, hbr, hbwpos, hbs, hblock⟩ :=
    @MessageBuffer.transfer_spec s.readBuffer s.headerBuffer _ rfl
  rw [h.header_written] at hbw
  rw [hwpos] at hbwpos
  rw [h.header_rpos] at hbr
  rw [h.header_size] at hbs
  rw [readHeader, if_pos hpos, htransfer]
  dsimp only
  by_cases hmore : s.readBuffer.active.length < s.headerBuffer.getRemainingSpace
  · -- the read ends inside the header
    left
    rw [Nat.min_eq_left (Nat.le_of_lt hmore)] at hra hbw hbwpos
    rw [List.drop_length] at hra
    rw [List.take_length] at hbw
    have hspace' : hb.getRemainingSpace > 0 := by
      rw [MessageBuffer.getRemainingSpace, hbs, hbwpos]
      omega
    rw [if_pos hspace', if_pos (MessageBuffer.active_eq_nil.mp hra)]
    refine ⟨_, rfl, ?_, hra, ⟨⟨rfl, rfl, hblock⟩, rfl⟩⟩
    constructor
    case isOpen => exact h.isOpen
    case header_rpos => exact hbr
    case header_size => exact hbs
    case header_written => exact hbw
    case header_short =>
      rw [List.length_append]
      omega
    case state => exact h.state
    case packet_empty => exact h.packet_empty
  · right
    rw [Nat.min_eq_right (Nat.not_lt.mp hmore)] at hra hbw hbwpos
    have hspace' : ¬hb.getRemainingSpace > 0 := by
      rw [MessageBuffer.getRemainingSpace, hbs, hbwpos]
      omega
    have hfull : hb.written.length = ClientPktHeader.SIZE := by
      rw [MessageBuffer.length_written, hbwpos]
      omega
    have hcut : hb.written ++ rb.active = rest ++ s.readBuffer.active := by
      rw [hbw, hra, List.append_assoc, List.take_append_drop]
    have htransferred : Same s { s with readBuffer := rb, headerBuffer := hb } :=
      ⟨⟨rfl, rfl, hblock⟩, rfl⟩
    rw [if_neg hspace']
    rcases @readHeaderHandler_spec _ crypt { s with readBuffer := rb, headerBuffer := hb } h.isOpen hbr hbs hfull
        h.packet_empty with
      ⟨s', k', cmd, n, hread, hin, hsame, hrb⟩ | ⟨s', hread, hsame, hdec⟩
    · right
      rw [hread]
      change InPayload crypt s' s.authCrypt hb.written k' cmd n at hin
      rw [h.state] at hin
      have hrb' : s'.readBuffer = rb := hrb
      refine ⟨s', hb.written, k', cmd, n, rfl, hin, hfull, htransferred.trans hsame, ?_, ?_⟩
      · rw [hrb', hcut]
      · rw [hrb', hra, List.length_drop]
        omega
    · left
      rw [hread]
      have hstop := htransferred.trans hsame
      refine ⟨_, rfl, rfl, ⟨⟨hstop.initialized, hstop.authed, hstop.block⟩, hstop.handled⟩, ?_⟩
      change (clientFormat crypt s.initialized s.authed).decode s.authCrypt hb.written = none at hdec
      have hlen : ClientPktHeader.SIZE ≤ (rest ++ s.readBuffer.active).length := by
        rw [← hcut, List.length_append]
        omega
      apply FrameFormat.parse_malformed hlen
      show (clientFormat crypt s.initialized s.authed).decode k
        ((rest ++ s.readBuffer.active).take ClientPktHeader.SIZE) = none
      rw [← hcut, List.take_left' hfull, ← h.state]
      exact hdec

/-! ## Reading a payload -/

theorem handlePacket_spec {payload : List UInt8} (h : InPayload crypt s k rest k' cmd n)
    (hfull : s.packetBuffer.wpos = n) (hpayload : s.packetBuffer.written = payload) :
    ∃ s', handlePacket s = some (.again s') ∧ InHeader s' k' [] ∧
      s'.readBuffer = s.readBuffer ∧ Kept s s' ∧ s'.handled = s.handled ++ [(cmd, payload)] := by
  have hstorage : s.packetBuffer.storage = payload := by
    rw [← hpayload, MessageBuffer.written, List.take_of_length_le]
    rw [hfull, h.packet_size]
  rw [handlePacket, readDataHandler, h.header_cmd]
  refine ⟨_, rfl, ?_, rfl, ⟨rfl, rfl, rfl⟩, ?_⟩
  · constructor
    case isOpen => exact h.isOpen
    case header_rpos => rfl
    case header_size => exact h.header_size
    case header_written => rfl
    case header_short => exact Nat.zero_lt_succ 5
    case state => exact h.state
    case packet_empty => rfl
  · show s.handled ++ [(cmd, s.packetBuffer.storage)] = _
    rw [hstorage]

/-- What the second part of a round comes to: more of the payload is missing, or the frame is
handed on. -/
theorem readPayload_spec (h : InPayload crypt s k rest k' cmd n)
    (hle : rest.length ≤ ClientPktHeader.SIZE + n) :
    (∃ s', readPayload s = some (.wait s') ∧
        InPayload crypt s' k (rest ++ s.readBuffer.active) k' cmd n ∧
        (rest ++ s.readBuffer.active).length < ClientPktHeader.SIZE + n ∧
        s'.readBuffer.active = [] ∧ Same s s') ∨
      ∃ s' payload, readPayload s = some (.again s') ∧ InHeader s' k' [] ∧ Kept s s' ∧
        s'.handled = s.handled ++ [(cmd, payload)] ∧
        (rest.drop ClientPktHeader.SIZE ++ s.readBuffer.active) =
          payload ++ s'.readBuffer.active ∧
        payload.length = n ∧
        s'.readBuffer.active.length + ClientPktHeader.SIZE + n =
          s.readBuffer.active.length + rest.length := by
  have hspace := h.packet_space
  have hwpos := h.packet_wpos
  by_cases hfull : s.packetBuffer.getRemainingSpace > 0
  · obtain ⟨rb, pb, htransfer, hra, hpw, hpr, hpwpos, hps, hblock⟩ :=
      @MessageBuffer.transfer_spec s.readBuffer s.packetBuffer _ rfl
    rw [h.packet_rpos] at hpr
    rw [h.packet_size] at hps
    rw [h.packet_written] at hpw
    rw [readPayload, if_pos hfull, htransfer]
    dsimp only
    have hgrown : ∀ m, pb.written = rest.drop ClientPktHeader.SIZE ++ s.readBuffer.active.take m →
        InPayload crypt { s with readBuffer := rb, packetBuffer := pb } k
          (rest ++ s.readBuffer.active.take m) k' cmd n := by
      intro m hm
      constructor
      case isOpen => exact h.isOpen
      case header_rpos => exact h.header_rpos
      case header_wpos => exact h.header_wpos
      case header_size => exact h.header_size
      case header_cmd => exact h.header_cmd
      case header_read =>
        rw [List.length_append]
        exact Nat.le_add_right_of_le h.header_read
      case decode =>
        rw [List.take_append_of_le_length h.header_read]
        exact h.decode
      case state => exact h.state
      case packet_rpos => exact hpr
      case packet_size => exact hps
      case packet_written =>
        rw [List.drop_append_of_le_length h.header_read]
        exact hm
    by_cases hmore : s.readBuffer.active.length < s.packetBuffer.getRemainingSpace
    · -- the read ends inside the payload
      left
      rw [Nat.min_eq_left (Nat.le_of_lt hmore)] at hra hpw hpwpos
      have hin := hgrown _ hpw
      rw [List.drop_length] at hra
      rw [List.take_length] at hin
      have hspace' : pb.getRemainingSpace > 0 := by
        rw [MessageBuffer.getRemainingSpace, hps, hpwpos]
        omega
      rw [if_pos hspace', if_pos (MessageBuffer.active_eq_nil.mp hra)]
      refine ⟨_, rfl, hin, ?_, hra, ⟨⟨rfl, rfl, hblock⟩, rfl⟩⟩
      rw [List.length_append]
      omega
    · right
      rw [Nat.min_eq_right (Nat.not_lt.mp hmore)] at hra hpw hpwpos
      have hspace' : ¬pb.getRemainingSpace > 0 := by
        rw [MessageBuffer.getRemainingSpace, hps, hpwpos]
        omega
      rw [if_neg hspace']
      obtain ⟨s', hs', hin, hrb, hkept, hh⟩ := handlePacket_spec (hgrown _ hpw)
        (by show pb.wpos = n; omega) rfl
      have hrb' : s'.readBuffer = rb := hrb
      have htransferred : Kept s { s with readBuffer := rb, packetBuffer := pb } :=
        ⟨rfl, rfl, hblock⟩
      refine ⟨s', _, hs', hin, htransferred.trans hkept, hh, ?_, ?_, ?_⟩
      · show _ = pb.written ++ _
        rw [hrb', hra, hpw, List.append_assoc, List.take_append_drop]
      · show pb.written.length = n
        rw [MessageBuffer.length_written]
        omega
      · rw [hrb', hra, List.length_drop]
        omega
  · right
    obtain ⟨s', hs', hin, hrb, hkept, hh⟩ := handlePacket_spec h (by omega) rfl
    rw [readPayload, if_neg hfull]
    refine ⟨s', _, hs', hin, hkept, hh, ?_, ?_, ?_⟩
    · rw [hrb, h.packet_written]
    · rw [MessageBuffer.length_written]
      omega
    · rw [hrb]
      omega

/-! ## Reading -/

theorem parse_complete {initialized authed : Bool} {active payload tail : List UInt8}
    (hread : ClientPktHeader.SIZE ≤ rest.length)
    (hdec : (clientFormat crypt initialized authed).decode k (rest.take ClientPktHeader.SIZE) =
      some (k', cmd, n))
    (hcut : rest.drop ClientPktHeader.SIZE ++ active = payload ++ tail) (hlen : payload.length = n) :
    (clientFormat crypt initialized authed).parse k (rest ++ active) =
      ((cmd, payload) :: ((clientFormat crypt initialized authed).parse k' tail).1,
        ((clientFormat crypt initialized authed).parse k' tail).2) := by
  have hsplit : rest ++ active = rest.take ClientPktHeader.SIZE ++ payload ++ tail := by
    rw [List.append_assoc, ← hcut, ← List.append_assoc, List.take_append_drop]
  have hheader : (rest.take ClientPktHeader.SIZE).length =
      (clientFormat crypt initialized authed).headerLen := by
    rw [List.length_take]
    exact Nat.min_eq_left hread
  rw [hsplit]
  apply FrameFormat.parse_frame_append hheader
  rw [hlen]
  exact hdec

theorem readRound_spec (h : Holds crypt s k rest) :
    (∃ s', readRound crypt s = some (.wait s') ∧ Holds crypt s' k (rest ++ s.readBuffer.active) ∧
        s'.readBuffer.active = [] ∧ Same s s') ∨
      (∃ s', readRound crypt s = some (.stop s') ∧ s'.closed = true ∧ Same s s' ∧
        (clientFormat crypt s.initialized s.authed).parse k (rest ++ s.readBuffer.active) =
          ([], .malformed)) ∨
      ∃ s' k' frame, readRound crypt s = some (.again s') ∧ InHeader s' k' [] ∧ Kept s s' ∧
        s'.handled = s.handled ++ [frame] ∧
        s'.readBuffer.active.length < s.readBuffer.active.length ∧
        (clientFormat crypt s.initialized s.authed).parse k (rest ++ s.readBuffer.active) =
          (frame ::
              ((clientFormat crypt s.initialized s.authed).parse k' s'.readBuffer.active).1,
            ((clientFormat crypt s.initialized s.authed).parse k' s'.readBuffer.active).2) := by
  cases h with
  | header h =>
    rcases @readHeader_spec _ crypt _ _ _ h with
      ⟨s', hs', hin, hnil, hsame⟩ | ⟨s', hs', hclosed, hsame, hparse⟩ |
      ⟨s₁, header, k', cmd, n, hs₁, hin, hlen, hsame, hcut, hless⟩
    · left
      exact ⟨s', by rw [readRound, hs'], Holds.header hin, hnil, hsame⟩
    · right; left
      exact ⟨s', by rw [readRound, hs'], hclosed, hsame, hparse⟩
    · have hround : readRound crypt s = readPayload s₁ := by rw [readRound, hs₁]
      rw [hround, ← hcut]
      rcases readPayload_spec hin (by omega) with
        ⟨s', hs', hin', hshort, hnil, hsame'⟩ |
        ⟨s', payload, hs', hin', hkept, hh, hsplit, hpl, hcount⟩
      · left
        exact ⟨s', hs', Holds.payload hin' hshort, hnil, hsame.trans hsame'⟩
      · right; right
        have hdec := hin.decode
        rw [hsame.initialized, hsame.authed] at hdec
        refine ⟨s', k', (cmd, payload), hs', hin', hsame.toKept.trans hkept, ?_, ?_,
          parse_complete hin.header_read hdec hsplit hpl⟩
        · rw [hh, hsame.handled]
        · omega
  | payload h hn =>
    have hspace := h.packet_space
    have hround : readRound crypt s = readPayload s := by
      have hzero : ¬s.headerBuffer.getRemainingSpace > 0 := by
        rw [MessageBuffer.getRemainingSpace, h.header_size, h.header_wpos]
        exact Nat.lt_irrefl 0
      rw [readRound, readHeader, if_neg hzero]
    rw [hround]
    rcases readPayload_spec h (Nat.le_of_lt hn) with
      ⟨s', hs', hin', hshort, hnil, hsame'⟩ |
      ⟨s', payload, hs', hin', hkept, hh, hsplit, hpl, hcount⟩
    · left
      exact ⟨s', hs', Holds.payload hin' hshort, hnil, hsame'⟩
    · right; right
      exact ⟨s', _, (_, payload), hs', hin', hkept, hh, by omega,
        parse_complete h.header_read h.decode hsplit hpl⟩

/-- The socket after reading: it holds what is left of an incomplete frame, or it is closed. -/
def EndsAt (crypt : Crypt κ) (s : WorldSocket κ) : FrameEnd UInt8 κ → Prop
  | .more k rest => Holds crypt s k rest ∧ s.readBuffer.active = []
  | .malformed => s.closed = true

theorem readLoop_spec (fuel : Nat) : ∀ {s : WorldSocket κ} {k : κ} {rest : List UInt8},
    Holds crypt s k rest → s.readBuffer.active.length < fuel →
    ∃ s', readLoop crypt fuel s = some s' ∧ Kept s s' ∧
      s'.handled = s.handled ++
        ((clientFormat crypt s.initialized s.authed).parse k (rest ++ s.readBuffer.active)).1 ∧
      EndsAt crypt s'
        ((clientFormat crypt s.initialized s.authed).parse k (rest ++ s.readBuffer.active)).2 := by
  induction fuel with
  | zero => exact fun _ h => absurd h (Nat.not_lt_zero _)
  | succ fuel ih =>
    intro s k rest h hfuel
    by_cases hactive : s.readBuffer.getActiveSize > 0
    · rw [readLoop, if_pos hactive]
      rcases readRound_spec h with
        ⟨s', hs', hholds, hnil, hsame⟩ | ⟨s', hs', hclosed, hsame, hparse⟩ |
        ⟨s₁, k', frame, hs₁, hin, hkept, hh, hless, hparse⟩
      · rw [hs']
        have hp := hholds.parse
        rw [hsame.initialized, hsame.authed] at hp
        rw [hp]
        exact ⟨s', rfl, hsame.toKept, by rw [hsame.handled, List.append_nil], hholds, hnil⟩
      · rw [hs', hparse]
        exact ⟨s', rfl, hsame.toKept, by rw [hsame.handled, List.append_nil], hclosed⟩
      · rw [hs₁, hparse]
        obtain ⟨s', hs', hkept', hh', hends⟩ := ih (@Holds.header _ crypt _ _ _ hin) (by omega)
        rw [hkept.initialized, hkept.authed, List.nil_append] at hh' hends
        refine ⟨s', hs', hkept.trans hkept', ?_, hends⟩
        rw [hh', hh, List.append_assoc]
        rfl
    · have hnil : s.readBuffer.active = [] := by
        rw [MessageBuffer.active_eq_nil]
        omega
      rw [readLoop, if_neg hactive, hnil, List.append_nil, h.parse]
      exact ⟨s, rfl, ⟨rfl, rfl, rfl⟩, (List.append_nil _).symm, h, hnil⟩

/-! ## Whole streams -/

/-- The state of a socket after a stream, from the parse of the stream. -/
structure Received (crypt : Crypt κ) (k : κ) (i a : Bool) (bs : List UInt8) (s : WorldSocket κ) :
    Prop where
  initialized : s.initialized = i
  authed : s.authed = a
  handled : s.handled = ((clientFormat crypt i a).parse k bs).1
  ends : EndsAt crypt s ((clientFormat crypt i a).parse k bs).2
  block : s.readBuffer.storage.length = READ_BLOCK_SIZE

theorem start_received (k : κ) (i a : Bool) : Received crypt k i a [] (start k i a) := by
  have hparse : (clientFormat crypt i a).parse k [] = ([], .more k []) :=
    FrameFormat.parse_short (Nat.zero_lt_succ 5)
  refine ⟨rfl, rfl, by rw [hparse]; rfl, ?_, List.length_replicate⟩
  rw [hparse]
  exact ⟨Holds.header ⟨rfl, rfl, List.length_replicate, rfl, Nat.zero_lt_succ 5, rfl, rfl⟩, rfl⟩

theorem Holds.withReadBuffer (h : Holds crypt s k rest) (rb : MessageBuffer) :
    Holds crypt { s with readBuffer := rb } k rest := by
  cases h with
  | header h => exact Holds.header ⟨h.1, h.2, h.3, h.4, h.5, h.6, h.7⟩
  | payload h hn =>
    exact Holds.payload ⟨h.1, h.2, h.3, h.4, h.5, h.6, h.7, h.8, h.9, h.10, h.11⟩ hn

/-- One read. -/
theorem receive_received {i a : Bool} {bs : List UInt8} (h : Received crypt k i a bs s)
    (chunk : Chunk) :
    ∃ s', receive crypt s chunk = some s' ∧ Received crypt k i a (bs ++ chunk.1) s' := by
  cases hend : ((clientFormat crypt i a).parse k bs).2 with
  | malformed =>
    -- reading has stopped
    have hclosed : s.closed = true := by
      have hends := h.ends
      rw [hend] at hends
      exact hends
    have hparse : (clientFormat crypt i a).parse k (bs ++ chunk.1) =
        (clientFormat crypt i a).parse k bs := by
      rw [FrameFormat.parse_append, FrameFormat.resume, hend]
    refine ⟨s, by rw [receive, if_pos hclosed], ⟨h.1, h.2, ?_, ?_, h.5⟩⟩
    · rw [hparse]
      exact h.handled
    · rw [hparse]
      exact h.ends
  | more k' rest =>
    have hends := h.ends
    rw [hend] at hends
    obtain ⟨hholds, hnil⟩ := hends
    obtain ⟨hna, hnw, hns⟩ := MessageBuffer.normalize_spec hnil
    rw [h.block] at hns
    have hspace : s.readBuffer.normalize.getRemainingSpace = READ_BLOCK_SIZE := by
      rw [MessageBuffer.getRemainingSpace, hns, hnw]
      rfl
    have hensure : s.readBuffer.normalize.ensureFreeSpace = s.readBuffer.normalize := by
      rw [MessageBuffer.ensureFreeSpace, if_neg]
      rw [hspace]
      decide
    obtain ⟨rb, hwrite, hwritten, hr, -, hs⟩ :=
      @MessageBuffer.write_spec s.readBuffer.normalize chunk.1 (by
        rw [hspace]
        exact chunk.2)
    have hactive : rb.active = chunk.1 := by
      have hw0 : s.readBuffer.normalize.written = [] := by
        rw [← List.length_eq_zero_iff, MessageBuffer.length_written, hnw]
      rw [MessageBuffer.active_of_rpos hr, hwritten, hw0, List.nil_append]
    have hopen : ¬s.closed = true := by
      rw [hholds.isOpen]
      exact Bool.false_ne_true
    have hparse : (clientFormat crypt i a).parse k (bs ++ chunk.1) =
        (((clientFormat crypt i a).parse k bs).1 ++
            ((clientFormat crypt i a).parse k' (rest ++ chunk.1)).1,
          ((clientFormat crypt i a).parse k' (rest ++ chunk.1)).2) := by
      rw [FrameFormat.parse_append, FrameFormat.resume, hend]
    obtain ⟨s', hs', hkept, hh, hends'⟩ := readLoop_spec (rb.getActiveSize + 1)
      (hholds.withReadBuffer rb) (by
        rw [MessageBuffer.length_active]
        exact Nat.lt_succ_self _)
    change s'.handled = s.handled ++ ((clientFormat crypt s.initialized s.authed).parse k'
      (rest ++ rb.active)).1 at hh
    change EndsAt crypt s' ((clientFormat crypt s.initialized s.authed).parse k'
      (rest ++ rb.active)).2 at hends'
    rw [h.initialized, h.authed, hactive] at hh hends'
    refine ⟨s', ?_, ⟨hkept.initialized.trans h.initialized, hkept.authed.trans h.authed, ?_, ?_,
      hkept.block.trans (hs.trans hns)⟩⟩
    · rw [receive, if_neg hopen, hensure, hwrite]
      exact hs'
    · rw [hparse, hh, h.handled]
    · rw [hparse]
      exact hends'

theorem receiveAll_received {i a : Bool} (chunks : List Chunk) :
    ∀ {s : WorldSocket κ} {bs : List UInt8}, Received crypt k i a bs s →
      ∃ s', receiveAll crypt s chunks = some s' ∧
        Received crypt k i a (bs ++ (chunks.map Subtype.val).flatten) s' := by
  induction chunks with
  | nil =>
    intro s bs h
    refine ⟨s, rfl, ?_⟩
    rw [List.map_nil, List.flatten_nil, List.append_nil]
    exact h
  | cons chunk chunks ih =>
    intro s bs h
    obtain ⟨s₁, hs₁, h₁⟩ := receive_received h chunk
    grind [receiveAll]

theorem Received.closed_iff {i a : Bool} {bs : List UInt8} (h : Received crypt k i a bs s) :
    s.closed = true ↔ ((clientFormat crypt i a).parse k bs).2 = .malformed := by
  have hends := h.ends
  cases hend : ((clientFormat crypt i a).parse k bs).2 with
  | malformed =>
    rw [hend] at hends
    exact iff_of_true hends rfl
  | more k' rest =>
    rw [hend] at hends
    refine iff_of_false ?_ (by simp)
    rw [hends.1.isOpen]
    exact Bool.false_ne_true

theorem Received.length {i a : Bool} {bs : List UInt8} (h : Received crypt k i a bs s)
    (hopen : s.closed = false) :
    (s.handled.map fun f => ClientPktHeader.SIZE + f.2.length).sum + s.headerBuffer.wpos +
      s.packetBuffer.wpos = bs.length := by
  have hends := h.ends
  cases hend : ((clientFormat crypt i a).parse k bs).2 with
  | malformed =>
    have hclosed := h.closed_iff.mpr hend
    rw [hopen] at hclosed
    cases hclosed
  | more k' rest =>
    rw [hend] at hends
    have hsum := FrameFormat.length_parse k bs hend
    have hholds := hends.1.length
    rw [← h.handled] at hsum
    change (s.handled.map fun f => ClientPktHeader.SIZE + f.2.length).sum + rest.length =
      bs.length at hsum
    omega

/-! ## Sending -/

/-- What is on its way: the buffers queued and the one that is being filled. -/
def Sending.bytes (st : Sending κ) : List UInt8 :=
  (st.queue.map MessageBuffer.active).flatten ++ st.buffer.active

theorem writePacket_spec {buffer : MessageBuffer} {header : List UInt8} {queued : EncryptablePacket}
    (h : queued.contents.length + header.length ≤ buffer.getRemainingSpace) :
    ∃ b, writePacket buffer header queued = some b ∧
      b.written = buffer.written ++ header ++ queued.contents ∧ b.rpos = buffer.rpos ∧
      b.storage.length = buffer.storage.length := by
  obtain ⟨b₁, hw₁, hb₁, hr₁, hp₁, hs₁⟩ :=
    @MessageBuffer.write_spec buffer header (by omega)
  rw [writePacket, hw₁]
  by_cases hempty : queued.contents = []
  · rw [hempty, List.append_nil]
    exact ⟨b₁, rfl, hb₁, hr₁, hs₁⟩
  · obtain ⟨b₂, hw₂, hb₂, hr₂, -, hs₂⟩ :=
      @MessageBuffer.write_spec b₁ queued.contents (by
        have hle := buffer.wpos_le
        rw [MessageBuffer.getRemainingSpace] at h ⊢
        omega)
    grind

/-- The buffer that is being filled is unread and of the size that was asked for. -/
structure Filling (sendBufferSize : Nat) (b : MessageBuffer) : Prop where
  rpos : b.rpos = 0
  size : b.storage.length = sendBufferSize

theorem new_filling (n : Nat) : Filling n (MessageBuffer.new n) := ⟨rfl, List.length_replicate⟩

theorem placePacket_spec {size : Nat} {buffer : MessageBuffer} {queue : List MessageBuffer}
    {header : List UInt8} {queued : EncryptablePacket} (hb : Filling size buffer)
    (hflushed : buffer.getRemainingSpace < queued.contents.length + header.length →
      buffer.active = []) :
    ∃ st' : Sending κ, placePacket buffer queue k header queued = some st' ∧
      Filling size st'.buffer ∧ st'.authCrypt = k ∧
      st'.bytes = (queue.map MessageBuffer.active).flatten ++ buffer.active ++ header ++
        queued.contents := by
  by_cases hfits : buffer.getRemainingSpace ≥ queued.contents.length + header.length
  · obtain ⟨b, hw, hwritten, hr, hs⟩ := @writePacket_spec _ _ queued hfits
    rw [placePacket, if_pos hfits, hw]
    refine ⟨_, rfl, ⟨hr.trans hb.rpos, hs.trans hb.size⟩, rfl, ?_⟩
    show (queue.map MessageBuffer.active).flatten ++ b.active = _
    rw [MessageBuffer.active_of_rpos (hr.trans hb.rpos), MessageBuffer.active_of_rpos hb.rpos,
      hwritten]
    simp only [List.append_assoc]
  · have hnew : (MessageBuffer.new (queued.contents.length + header.length)).getRemainingSpace =
        queued.contents.length + header.length := by
      show (List.replicate _ (0 : UInt8)).length - 0 = _
      rw [List.length_replicate, Nat.sub_zero]
    obtain ⟨b, hw, hwritten, hr, -⟩ := @writePacket_spec _ _ queued (Nat.le_of_eq hnew.symm)
    have hbody : b.active = header ++ queued.contents := by
      rw [MessageBuffer.active_of_rpos hr, hwritten]
      rfl
    rw [placePacket, if_neg hfits, hw]
    refine ⟨_, rfl, hb, rfl, ?_⟩
    show ((queue ++ [b]).map MessageBuffer.active).flatten ++ buffer.active = _
    grind

theorem sendRound_spec {size : Nat} {st : Sending κ} (h : Filling size st.buffer)
    (queued : EncryptablePacket) :
    ∃ st', sendRound crypt size st queued = some st' ∧ Filling size st'.buffer ∧
      st'.authCrypt = (sendHeader crypt st.authCrypt queued).1 ∧
      st'.bytes = st.bytes ++ (sendHeader crypt st.authCrypt queued).2 ++ queued.contents := by
  obtain ⟨k, header, hheader⟩ : ∃ k header, sendHeader crypt st.authCrypt queued = (k, header) :=
    ⟨_, _, rfl⟩
  rw [sendRound, hheader]
  dsimp only
  by_cases hflush : st.buffer.getRemainingSpace < queued.contents.length + header.length
  · obtain ⟨b, hresize, hwpos, hrpos, hsize⟩ :=
      MessageBuffer.resize_spec (b := MessageBuffer.new 0) (n := size) rfl
    have hnil : b.active = [] := by
      rw [MessageBuffer.active_eq_nil, MessageBuffer.getActiveSize, hwpos, Nat.zero_sub]
    rw [if_pos hflush, hresize]
    obtain ⟨st', hst', hfill, hk, hbytes⟩ := @placePacket_spec _ k _ _
      (st.queue ++ [st.buffer]) header queued
      ⟨hrpos, hsize⟩ fun _ => hnil
    grind [Sending.bytes]
  · rw [if_neg hflush]
    exact placePacket_spec h fun hlt => absurd hlt hflush

theorem sendLoop_spec {size : Nat} (bufferQueue : List EncryptablePacket) :
    ∀ {st : Sending κ}, Filling size st.buffer →
      ∃ st', bufferQueue.foldlM (sendRound crypt size) st = some st' ∧
        st'.bytes = st.bytes ++ wire crypt st.authCrypt bufferQueue := by
  induction bufferQueue with
  | nil => exact fun {st} _ => ⟨st, rfl, (List.append_nil _).symm⟩
  | cons queued bufferQueue ih =>
    intro st h
    obtain ⟨st₁, hs₁, h₁, hk, hbytes⟩ := @sendRound_spec _ crypt _ _ h queued
    grind [wire]

/-- The buffers that `Update` queues are the bytes of the packets. -/
theorem update_spec (crypt : Crypt κ) (size : Nat) (k : κ) (bufferQueue : List EncryptablePacket) :
    ∃ buffers k', update crypt size k bufferQueue = some (buffers, k') ∧
      (buffers.map MessageBuffer.active).flatten = wire crypt k bufferQueue := by
  cases bufferQueue with
  | nil => exact ⟨[], k, rfl, rfl⟩
  | cons queued bufferQueue =>
    obtain ⟨st, hst, hbytes⟩ := @sendLoop_spec _ crypt _ (queued :: bufferQueue)
      { buffer := MessageBuffer.new size, authCrypt := k, queue := [] } (new_filling size)
    rw [update, hst]
    refine ⟨_, _, rfl, ?_⟩
    have hwire : st.bytes = wire crypt k (queued :: bufferQueue) := hbytes
    grind [MessageBuffer.active_eq_nil, Sending.bytes]

/-- **Framing does not depend on the reads.** However the bytes are cut into reads, nothing is
asserted in vain or written past a buffer, the packets that are handed on are the frames of
the whole stream, the socket is closed just if the stream has a malformed header, and until
then every byte is in one packet or still in a buffer. In the other direction the buffers
that are queued are the encrypted headers and the bodies of the packets, in order. -/
theorem framing {κ' : Type} (crypt : Crypt κ) (k : κ) (initialized authed : Bool)
    (chunks : List Chunk) (sendCrypt : Crypt κ') (sendKey : κ') (sendBufferSize : Nat)
    (bufferQueue : List EncryptablePacket) :
    (∃ s, receiveAll crypt (start k initialized authed) chunks = some s ∧
      s.handled = ((clientFormat crypt initialized authed).parse k
        (chunks.map Subtype.val).flatten).1 ∧
      (s.closed = true ↔ ((clientFormat crypt initialized authed).parse k
        (chunks.map Subtype.val).flatten).2 = .malformed) ∧
      (s.closed = false →
        (s.handled.map fun f => ClientPktHeader.SIZE + f.2.length).sum + s.headerBuffer.wpos +
          s.packetBuffer.wpos = (chunks.map Subtype.val).flatten.length)) ∧
    ∃ buffers k', update sendCrypt sendBufferSize sendKey bufferQueue = some (buffers, k') ∧
      (buffers.map MessageBuffer.active).flatten = wire sendCrypt sendKey bufferQueue := by
  refine ⟨?_, update_spec sendCrypt sendBufferSize sendKey bufferQueue⟩
  obtain ⟨s, hs, h⟩ := receiveAll_received chunks (@start_received _ crypt k initialized authed)
  rw [List.nil_append] at h
  exact ⟨s, hs, h.handled, h.closed_iff, h.length⟩

end EGServer.Networking.WorldSocket
