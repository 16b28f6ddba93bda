import EGServer.Lib.Framing
import EGServer.Networking.MessageBuffer

/-!
# The world socket

How `WorldSocket` takes packets out of the bytes it receives, and how it puts the packets to
be sent into message buffers. A read hands over as many bytes as it pleases; what of a header
or a payload is not there yet stays in `_headerBuffer` and `_packetBuffer`, whose fullness is
all that says where in a packet the socket is.

Encryption is a function with a state. `none` is an assertion that fires or a buffer that is
written past its size. `ReadDataHandler` answers `Ok`; the packets it is handed are kept in
`handled`. Reading stops for good when a header is malformed. Multi-byte fields are read as a
little-endian host does.
-/

namespace EGServer.Networking

/-- A stream cipher that works in place. -/
structure Crypt (κ : Type) where
  update : κ → List UInt8 → κ × List UInt8
  length_update : ∀ k data, (update k data).2.length = data.length

def READ_BLOCK_SIZE : Nat := 4096
def NUM_OPCODE_HANDLERS : Nat := 0x51F
def CMSG_AUTH_SESSION : Nat := 0x1ED

/-! ## Packets from the client -/

structure ClientPktHeader where
  size : Nat
  cmd : Nat

namespace ClientPktHeader

/-- `sizeof(ClientPktHeader)`. -/
def SIZE : Nat := 6

def isValidSize (h : ClientPktHeader) : Bool := decide (4 ≤ h.size) && decide (h.size < 10240)

def isValidOpcode (h : ClientPktHeader) : Bool := decide (h.cmd < NUM_OPCODE_HANDLERS)

/-- The header as it comes: the size big-endian, the opcode little-endian. -/
def ofWire : List UInt8 → Option ClientPktHeader
  | [b0, b1, b2, b3, b4, b5] =>
    some {
      size := b0.toNat * 256 + b1.toNat
      cmd := b2.toNat + 256 * (b3.toNat + 256 * (b4.toNat + 256 * b5.toNat)) }
  | _ => none

/-- The first two bytes of a header in the memory of the host. -/
def hostSize (size : Nat) : List UInt8 := [UInt8.ofNat size, UInt8.ofNat (size / 256)]

/-- `header->cmd` of a header in the memory of the host. -/
def hostCmd : List UInt8 → Option Nat
  | [_, _, b2, b3, b4, b5] =>
    some (b2.toNat + 256 * (b3.toNat + 256 * (b4.toNat + 256 * b5.toNat)))
  | _ => none

end ClientPktHeader

structure WorldSocket (κ : Type) where
  readBuffer : MessageBuffer
  headerBuffer : MessageBuffer
  packetBuffer : MessageBuffer
  /-- The state of the decryption. -/
  authCrypt : κ
  /-- `_authCrypt.IsInitialized()`. -/
  initialized : Bool
  authed : Bool
  /-- The socket was closed, so that nothing more is read. -/
  closed : Bool
  /-- The opcodes and payloads given to `ReadDataHandler`. -/
  handled : List (Nat × List UInt8)

namespace WorldSocket

variable {κ : Type}

/-- A new socket; `_headerBuffer` has the size of a header. -/
def start (k : κ) (initialized authed : Bool) : WorldSocket κ where
  readBuffer := MessageBuffer.new READ_BLOCK_SIZE
  headerBuffer := MessageBuffer.new ClientPktHeader.SIZE
  packetBuffer := MessageBuffer.new 4096
  authCrypt := k
  initialized := initialized
  authed := authed
  closed := false
  handled := []

/-- The header of `_headerBuffer` in the clear. -/
def decrypt (crypt : Crypt κ) (initialized : Bool) (k : κ) (header : List UInt8) :
    κ × List UInt8 :=
  if initialized then crypt.update k header else (k, header)

/-- Whether the header is accepted. -/
def accepts (authed : Bool) (header : ClientPktHeader) : Bool :=
  header.isValidSize && header.isValidOpcode && (authed || header.cmd == CMSG_AUTH_SESSION)

/-- `ReadHeaderHandler`, and its answer. -/
def readHeaderHandler (crypt : Crypt κ) (s : WorldSocket κ) : Option (WorldSocket κ × Bool) :=
  if s.headerBuffer.getActiveSize ≠ ClientPktHeader.SIZE then none
  else
    let (k, bytes) := decrypt crypt s.initialized s.authCrypt s.headerBuffer.active
    match ClientPktHeader.ofWire bytes with
    | none => none
    | some header =>
      match s.headerBuffer.patch bytes with
      | none => none
      | some headerBuffer =>
        if !accepts s.authed header then some ({ s with authCrypt := k, headerBuffer }, false)
        else
          let size := header.size - 4
          match headerBuffer.patch (ClientPktHeader.hostSize size), s.packetBuffer.resize size with
          | some headerBuffer, some packetBuffer =>
            some ({ s with authCrypt := k, headerBuffer, packetBuffer }, true)
          | _, _ => none

/-- `ReadDataHandler`, which takes the storage of the packet buffer. -/
def readDataHandler (s : WorldSocket κ) : Option (WorldSocket κ) :=
  match ClientPktHeader.hostCmd s.headerBuffer.active with
  | none => none
  | some opcode =>
    let (payload, packetBuffer) := s.packetBuffer.move
    some { s with packetBuffer, handled := s.handled ++ [(opcode, payload)] }

/-- What a part of a round of `ReadHandler` comes to: go on, leave the loop for want of
bytes, or return `Stop`. -/
inductive Round (κ : Type) where
  | again (s : WorldSocket κ)
  | wait (s : WorldSocket κ)
  | stop (s : WorldSocket κ)

/-- The first part of a round: a header that is not complete. -/
def readHeader (crypt : Crypt κ) (s : WorldSocket κ) : Option (Round κ) :=
  if s.headerBuffer.getRemainingSpace > 0 then
    match s.readBuffer.transfer s.headerBuffer with
    | none => none
    | some (readBuffer, headerBuffer) =>
      if headerBuffer.getRemainingSpace > 0 then
        -- couldn't receive the whole header this time
        if readBuffer.getActiveSize = 0 then some (.wait { s with readBuffer, headerBuffer })
        else none
      else
        match readHeaderHandler crypt { s with readBuffer, headerBuffer } with
        | none => none
        | some (s, true) => some (.again s)
        | some (s, false) => some (.stop { s with closed := true })
  else some (.again s)

/-- A packet is complete. -/
def handlePacket (s : WorldSocket κ) : Option (Round κ) :=
  match s.readDataHandler with
  | none => none
  | some s => some (.again { s with headerBuffer := s.headerBuffer.reset })

/-- The second part: a payload. -/
def readPayload (s : WorldSocket κ) : Option (Round κ) :=
  if s.packetBuffer.getRemainingSpace > 0 then
    match s.readBuffer.transfer s.packetBuffer with
    | none => none
    | some (readBuffer, packetBuffer) =>
      if packetBuffer.getRemainingSpace > 0 then
        -- couldn't receive the whole data this time
        if readBuffer.getActiveSize = 0 then some (.wait { s with readBuffer, packetBuffer })
        else none
      else handlePacket { s with readBuffer, packetBuffer }
  else handlePacket s

def readRound (crypt : Crypt κ) (s : WorldSocket κ) : Option (Round κ) :=
  match readHeader crypt s with
  | some (.again s) => readPayload s
  | r => r

/-- The loop of `ReadHandler`, for so many rounds. -/
def readLoop (crypt : Crypt κ) : Nat → WorldSocket κ → Option (WorldSocket κ)
  | 0, _ => none
  | fuel + 1, s =>
    if s.readBuffer.getActiveSize > 0 then
      match readRound crypt s with
      | none => none
      | some (.again s) => readLoop crypt fuel s
      | some (.wait s) => some s
      | some (.stop s) => some s
    else some s

/-- `ReadHandler`; each round takes at least one byte. -/
def readHandler (crypt : Crypt κ) (s : WorldSocket κ) : Option (WorldSocket κ) :=
  readLoop crypt (s.readBuffer.getActiveSize + 1) s

/-- What `async_read_some` can hand over at once. -/
abbrev Chunk := { l : List UInt8 // l.length ≤ READ_BLOCK_SIZE }

/-- One read: `AsyncRead`, the bytes that arrive, and `ReadHandler`. -/
def receive (crypt : Crypt κ) (s : WorldSocket κ) (chunk : Chunk) : Option (WorldSocket κ) :=
  if s.closed then some s
  else
    match s.readBuffer.normalize.ensureFreeSpace.write chunk.1 with
    | none => none
    | some readBuffer => readHandler crypt { s with readBuffer }

def receiveAll (crypt : Crypt κ) (s : WorldSocket κ) (chunks : List Chunk) :
    Option (WorldSocket κ) :=
  chunks.foldlM (receive crypt) s

/-- **The framing of the protocol**: what a stream of bytes from a client says. -/
def clientFormat (crypt : Crypt κ) (initialized authed : Bool) : FrameFormat UInt8 κ Nat where
  headerLen := ClientPktHeader.SIZE
  headerLen_pos := by decide
  decode k bytes :=
    let (k, bytes) := decrypt crypt initialized k bytes
    match ClientPktHeader.ofWire bytes with
    | none => none
    | some header => if accepts authed header then some (k, header.cmd, header.size - 4) else none

/-! ## Packets to the client -/

structure EncryptablePacket where
  opcode : UInt16
  contents : List UInt8
  needsEncryption : Bool

/-- `ServerPktHeader(size, cmd)`: `size` is the length of the payload plus the opcode. -/
def serverPktHeader (size : UInt32) (cmd : UInt16) : List UInt8 :=
  (if size > 0x7FFF then [(0x80 : UInt8) ||| (size >>> 16).toUInt8] else []) ++
    [(size >>> 8).toUInt8, size.toUInt8, cmd.toUInt8, (cmd >>> 8).toUInt8]

/-- The header of a packet, encrypted if it is to be. -/
def sendHeader (crypt : Crypt κ) (k : κ) (queued : EncryptablePacket) : κ × List UInt8 :=
  let header := serverPktHeader (UInt32.ofNat (queued.contents.length + 2)) queued.opcode
  if queued.needsEncryption then crypt.update k header else (k, header)

/-- The buffer that is being filled, the state of the encryption, and the buffers given to
`QueuePacket`. -/
structure Sending (κ : Type) where
  buffer : MessageBuffer
  authCrypt : κ
  queue : List MessageBuffer

/-- Writing a header and, if there is one, a body. -/
def writePacket (buffer : MessageBuffer) (header : List UInt8) (queued : EncryptablePacket) :
    Option MessageBuffer :=
  match buffer.write header with
  | none => none
  | some buffer =>
    if !queued.contents.isEmpty then buffer.write queued.contents else some buffer

/-- The second half of a round: the packet goes into the buffer if it fits there now. -/
def placePacket (buffer : MessageBuffer) (queue : List MessageBuffer) (k : κ) (header : List UInt8)
    (queued : EncryptablePacket) : Option (Sending κ) :=
  if buffer.getRemainingSpace ≥ queued.contents.length + header.length then
    match writePacket buffer header queued with
    | none => none
    | some buffer => some { buffer, authCrypt := k, queue }
  else
    -- single packet larger than `_sendBufferSize`
    match writePacket (MessageBuffer.new (queued.contents.length + header.length)) header queued with
    | none => none
    | some packetBuffer => some { buffer, authCrypt := k, queue := queue ++ [packetBuffer] }

/-- One round of the loop of `Update`. -/
def sendRound (crypt : Crypt κ) (sendBufferSize : Nat) (st : Sending κ) (queued : EncryptablePacket) :
    Option (Sending κ) :=
  let (k, header) := sendHeader crypt st.authCrypt queued
  if st.buffer.getRemainingSpace < queued.contents.length + header.length then
    match (MessageBuffer.new 0).resize sendBufferSize with
    | none => none
    | some buffer => placePacket buffer (st.queue ++ [st.buffer]) k header queued
  else placePacket st.buffer st.queue k header queued

/-- The sending part of `Update`: the buffers it queues, and the state of the encryption. -/
def update (crypt : Crypt κ) (sendBufferSize : Nat) (k : κ) (bufferQueue : List EncryptablePacket) :
    Option (List MessageBuffer × κ) :=
  match bufferQueue with
  | [] => some ([], k)
  | _ :: _ =>
    match bufferQueue.foldlM (sendRound crypt sendBufferSize)
        { buffer := MessageBuffer.new sendBufferSize, authCrypt := k, queue := [] } with
    | none => none
    | some st =>
      some (if st.buffer.getActiveSize > 0 then st.queue ++ [st.buffer] else st.queue, st.authCrypt)

/-- **The bytes that the client is to get**: the headers, encrypted one after the other, each
followed by its body. -/
def wire (crypt : Crypt κ) : κ → List EncryptablePacket → List UInt8
  | _, [] => []
  | k, queued :: rest =>
    (sendHeader crypt k queued).2 ++ queued.contents ++
      wire crypt (sendHeader crypt k queued).1 rest

end WorldSocket

end EGServer.Networking
