import OnlineJam.Lib.BigEndian
import OnlineJam.Lib.Cursor
import OnlineJam.Protocol.Seq
import Mathlib.Data.Vector.Defs

/-!
# Datagram wire format

The serialization of `jam-protocol`, `packet.rs`: headers, zero-copy audio bodies and owned control
bodies, each with a writer into a caller-provided buffer and a parser of arbitrary bytes. Every
index and slice of the source is a checked access, so that `none` stands for a panic. The
`debug_assert` in `Control::write` is left out, as in a release build.
-/

namespace OnlineJam

open OnlineJam.Lib

abbrev Bytes := List UInt8

abbrev headerLen : Nat := 8
/-- timestamp(4) codec(1) flags(1) len(2) -/
abbrev audioHeaderLen : Nat := 8
def audioFlagRedundancy : UInt8 := 1

inductive ParseError where
  | truncated
  | badMagic
  | badVersion (v : UInt8)
  | badType (v : UInt8)
  | badCodec (v : UInt8)
  | badDenyReason (v : UInt8)
  | badString
  | badLength
  | trailingBytes
  | outOfRange
  deriving DecidableEq, Repr

/-! ## Enumerations of the wire -/

inductive PacketType where
  | audio | hello | welcome | deny | ping | pong | keepalive | roster | bye | ack
  deriving DecidableEq, Repr

/-- `self as u8`. -/
def PacketType.toU8 : PacketType → UInt8
  | .audio => 0
  | .hello => 1
  | .welcome => 2
  | .deny => 3
  | .ping => 4
  | .pong => 5
  | .keepalive => 6
  | .roster => 7
  | .bye => 8
  | .ack => 9

/-- `PacketType::try_from`. -/
def PacketType.tryFrom (v : UInt8) : Checked ParseError PacketType :=
  match v with
  | 0 => pure .audio
  | 1 => pure .hello
  | 2 => pure .welcome
  | 3 => pure .deny
  | 4 => pure .ping
  | 5 => pure .pong
  | 6 => pure .keepalive
  | 7 => pure .roster
  | 8 => pure .bye
  | 9 => pure .ack
  | other => throw (.badType other)

inductive Codec where
  | opus | pcmS16 | pcmF32
  deriving DecidableEq, Repr

def Codec.toU8 : Codec → UInt8
  | .opus => 0
  | .pcmS16 => 1
  | .pcmF32 => 2

/-- `Codec::try_from`. -/
def Codec.tryFrom (v : UInt8) : Checked ParseError Codec :=
  match v with
  | 0 => pure .opus
  | 1 => pure .pcmS16
  | 2 => pure .pcmF32
  | other => throw (.badCodec other)

inductive DenyReason where
  | badRoomCode | roomFull | versionMismatch
  deriving DecidableEq, Repr

def DenyReason.toU8 : DenyReason → UInt8
  | .badRoomCode => 0
  | .roomFull => 1
  | .versionMismatch => 2

/-- `DenyReason::try_from`. -/
def DenyReason.tryFrom (v : UInt8) : Checked ParseError DenyReason :=
  match v with
  | 0 => pure .badRoomCode
  | 1 => pure .roomFull
  | 2 => pure .versionMismatch
  | other => throw (.badDenyReason other)

/-! ## Words -/

/-- `u16::to_be_bytes`. -/
def u16ToBe (v : UInt16) : Bytes := toBe 2 v.toNat

/-- `u32::to_be_bytes`. -/
def u32ToBe (v : UInt32) : Bytes := toBe 4 v.toNat

/-- `u64::to_be_bytes`. -/
def u64ToBe (v : UInt64) : Bytes := toBe 8 v.toNat

def u16FromBe (b : Bytes) : UInt16 := UInt16.ofNat (fromBe b)

def u32FromBe (b : Bytes) : UInt32 := UInt32.ofNat (fromBe b)

def u64FromBe (b : Bytes) : UInt64 := UInt64.ofNat (fromBe b)

/-- `buf[i]`. -/
def byteAt (buf : Bytes) (i : Nat) : Checked ParseError UInt8 := orPanic buf[i]?

/-- `&buf[a..b]`. -/
def bytesAt (buf : Bytes) (a b : Nat) : Checked ParseError Bytes := orPanic (slice buf a b)

/-! ## Headers -/

structure Header where
  ptype : PacketType
  sessionId : UInt16
  senderId : UInt16
  seq : UInt16
  deriving DecidableEq, Repr

namespace Header

/-- Writes the header into `out`; the second component is the length written. -/
def write (h : Header) (out : Bytes) : Option (Bytes × Nat) := do
  let out ← copyAt out 0 [magic]
  let out ← copyAt out 1 [(protocolVersion <<< 4) ||| h.ptype.toU8]
  let out ← copyAt out 2 (u16ToBe h.sessionId)
  let out ← copyAt out 4 (u16ToBe h.senderId)
  let out ← copyAt out 6 (u16ToBe h.seq)
  pure (out, headerLen)

def parse (buf : Bytes) : Checked ParseError (Header × Bytes) := do
  if buf.length < headerLen then throw .truncated
  else if (← byteAt buf 0) ≠ magic then throw .badMagic
  else
    let b ← byteAt buf 1
    let version := b >>> 4
    if version ≠ protocolVersion then throw (.badVersion version)
    else
      let ptype ← PacketType.tryFrom (b &&& 0x0F)
      let header : Header :=
        { ptype := ptype
          sessionId := u16FromBe [← byteAt buf 2, ← byteAt buf 3]
          senderId := u16FromBe [← byteAt buf 4, ← byteAt buf 5]
          seq := u16FromBe [← byteAt buf 6, ← byteAt buf 7] }
      pure (header, ← bytesAt buf headerLen buf.length)

end Header

/-! ## Audio packets -/

structure AudioPacket where
  /-- Sample clock of the first sample in this frame, in the sender's clock. -/
  timestamp : UInt32
  codec : Codec
  payload : Bytes
  /-- Re-encoded copy of the previous frame, if the sender enabled redundancy. -/
  redundant : Option Bytes
  deriving DecidableEq, Repr

namespace AudioPacket

/-- Serializes the audio body after `header` into `out`; returns the total datagram length. -/
def write (p : AudioPacket) (header : Header) (out : Bytes) : Option (Bytes × Nat) := do
  let (out, n) ← header.write out
  let out ← copyAt out n (u32ToBe p.timestamp)
  let out ← copyAt out (n + 4) [p.codec.toU8]
  let out ← copyAt out (n + 5) [if p.redundant.isSome then audioFlagRedundancy else 0]
  let plen := UInt16.ofNat p.payload.length
  let out ← copyAt out (n + 6) (u16ToBe plen)
  let n := n + audioHeaderLen
  let out ← copyAt out n p.payload
  let n := n + p.payload.length
  match p.redundant with
  | some red =>
    let rlen := UInt16.ofNat red.length
    let out ← copyAt out n (u16ToBe rlen)
    let n := n + 2
    let out ← copyAt out n red
    pure (out, n + red.length)
  | none => pure (out, n)

/-- The optional section of `parse`, with what is left after it. -/
def parseRedundant (flags : UInt8) (tail : Bytes) : Checked ParseError (Option Bytes × Bytes) :=
  if flags &&& audioFlagRedundancy ≠ 0 then do
    if tail.length < 2 then throw .truncated
    else
      let rlen := (u16FromBe [← byteAt tail 0, ← byteAt tail 1]).toNat
      let tail ← bytesAt tail 2 tail.length
      if tail.length < rlen then throw .badLength
      else pure (some (← bytesAt tail 0 rlen), ← bytesAt tail rlen tail.length)
  else pure (none, tail)

/-- Parses the body that follows an audio header. -/
def parse (body : Bytes) : Checked ParseError AudioPacket := do
  if body.length < audioHeaderLen then throw .truncated
  else
    let timestamp := u32FromBe [← byteAt body 0, ← byteAt body 1, ← byteAt body 2, ← byteAt body 3]
    let codec ← Codec.tryFrom (← byteAt body 4)
    let flags ← byteAt body 5
    let plen := (u16FromBe [← byteAt body 6, ← byteAt body 7]).toNat
    let rest ← bytesAt body audioHeaderLen body.length
    if rest.length < plen then throw .badLength
    else
      let payload ← bytesAt rest 0 plen
      let tail ← bytesAt rest plen rest.length
      let (redundant, tail) ← parseRedundant flags tail
      if ¬ tail.isEmpty then throw .trailingBytes
      else pure { timestamp := timestamp, codec := codec, payload := payload, redundant := redundant }

end AudioPacket

/-! ## Control packets -/

structure PlayerInfo where
  id : UInt16
  name : String
  deriving DecidableEq, Repr

inductive Control where
  | hello (protoVersion : UInt8) (roomCode : Vector UInt8 roomCodeLen) (name : String)
      (codecMask frameMask : UInt8)
  | welcome (assignedId sessionId : UInt16) (sampleRate : UInt32) (frameSamples : UInt16)
      (codec : Codec) (roster : List PlayerInfo)
  | deny (reason : DenyReason)
  /-- The sender's transmit time, microseconds on its own clock. -/
  | ping (t1Us : UInt64)
  /-- `t2Us` and `t3Us` are receive and re-transmit times on the responder's clock. -/
  | pong (t1Us t2Us t3Us : UInt64)
  | keepalive
  | roster (players : List PlayerInfo)
  | bye
  /-- Sequence number and type of the control packet being acknowledged. -/
  | ack (ackedSeq : UInt16) (ackedType : UInt8)
  deriving DecidableEq, Repr

/-! ### Writer -/

abbrev Writer := Cursor UInt8

namespace Writer

def bytes (v : Bytes) (w : Writer) : Option Writer := do
  let buf ← copyAt w.buf w.pos v
  pure { buf := buf, pos := w.pos + v.length }

def u8 (v : UInt8) (w : Writer) : Option Writer := do
  let buf ← copyAt w.buf w.pos [v]
  pure { buf := buf, pos := w.pos + 1 }

def u16 (v : UInt16) (w : Writer) : Option Writer := do
  let buf ← copyAt w.buf w.pos (u16ToBe v)
  pure { buf := buf, pos := w.pos + 2 }

def u32 (v : UInt32) (w : Writer) : Option Writer := do
  let buf ← copyAt w.buf w.pos (u32ToBe v)
  pure { buf := buf, pos := w.pos + 4 }

def u64 (v : UInt64) (w : Writer) : Option Writer := do
  let buf ← copyAt w.buf w.pos (u64ToBe v)
  pure { buf := buf, pos := w.pos + 8 }

end Writer

/-- `s.as_bytes()`. -/
def asBytes (s : String) : Bytes := s.toByteArray.data.toList

/-- `str::is_char_boundary`: the start, the end, or a byte `b` that is not a continuation byte
(`b as i8 >= -0x40`, that is outside `0x80..0xC0`). -/
def isCharBoundary (s : String) (i : Nat) : Bool :=
  i == 0 || i == (asBytes s).length ||
    match (asBytes s)[i]? with
    | some b => b < 0x80 || 0xC0 ≤ b
    | none => false

/-- The loop of `Writer::string` that steps `n` back to a character boundary. -/
def charFloor (s : String) : Nat → Nat
  | 0 => 0
  | n + 1 => if isCharBoundary s (n + 1) then n + 1 else charFloor s n

namespace Writer

def string (s : String) (w : Writer) : Option Writer := do
  let n := charFloor s (min (asBytes s).length maxNameLen)
  let w ← w.u8 (UInt8.ofNat n)
  let v ← slice (asBytes s) 0 n
  w.bytes v

/-- The loop of `Writer::players`. -/
def playersLoop : List PlayerInfo → Writer → Option Writer
  | [], w => some w
  | p :: ps, w => do
    let w ← w.u16 p.id
    let w ← w.string p.name
    playersLoop ps w

def players (ps : List PlayerInfo) (w : Writer) : Option Writer := do
  let w ← w.u8 (UInt8.ofNat ps.length)
  playersLoop ps w

end Writer

/-! ### Reader -/

abbrev Reader := Scan UInt8 ParseError

namespace Reader

/-- Lifts a checked access. -/
def check {α : Type} (x : Checked ParseError α) : Reader α := StateT.lift x

/-- Moves past the next `n` bytes and returns them. -/
def bytes (n : Nat) : Reader Bytes := fun r => do
  let avail ← orPanic (checkedSub r.buf.length r.pos)
  if avail < n then throw .truncated
  else
    let s ← bytesAt r.buf r.pos (r.pos + n)
    pure (s, { r with pos := r.pos + n })

def u8 : Reader UInt8 := do
  let b ← bytes 1
  check (byteAt b 0)

def u16 : Reader UInt16 := do
  let b ← bytes 2
  pure (u16FromBe [← check (byteAt b 0), ← check (byteAt b 1)])

def u32 : Reader UInt32 := do
  let b ← bytes 4
  pure (u32FromBe [← check (byteAt b 0), ← check (byteAt b 1), ← check (byteAt b 2),
    ← check (byteAt b 3)])

/-- `b.try_into().unwrap()` panics unless `b` has eight bytes. -/
def u64 : Reader UInt64 := do
  let b ← bytes 8
  if b.length = 8 then pure (u64FromBe b) else check (orPanic none)

def string : Reader String := do
  let n := (← u8).toNat
  if n > maxNameLen then throw .outOfRange
  else
    let b ← bytes n
    match String.fromUTF8? ⟨b.toArray⟩ with
    | some s => pure s
    | none => throw .badString

/-- The loop of `Reader::players`. -/
def playersLoop : Nat → Reader (List PlayerInfo)
  | 0 => pure []
  | n + 1 => do
    let id ← u16
    let name ← string
    let ps ← playersLoop n
    pure ({ id := id, name := name } :: ps)

def players : Reader (List PlayerInfo) := do
  let n := (← u8).toNat
  if n > maxClients + 1 then throw .outOfRange
  else playersLoop n

/-- `room_code.copy_from_slice(r.bytes(ROOM_CODE_LEN)?)`; the copy panics on a length mismatch. -/
def roomCode : Reader (Vector UInt8 roomCodeLen) := do
  let b ← bytes roomCodeLen
  if h : b.toArray.size = roomCodeLen then pure ⟨b.toArray, h⟩ else check (orPanic none)

def finish : Reader Unit := fun r =>
  if r.pos = r.buf.length then pure ((), r) else throw .trailingBytes

end Reader

namespace Control

def packetType : Control → PacketType
  | hello .. => .hello
  | welcome .. => .welcome
  | deny _ => .deny
  | ping _ => .ping
  | pong .. => .pong
  | keepalive => .keepalive
  | roster _ => .roster
  | bye => .bye
  | ack .. => .ack

/-- The body, written after the header. -/
def writeBody : Control → Writer → Option Writer
  | hello protoVersion roomCode name codecMask frameMask, w => do
    let w ← w.u8 protoVersion
    let w ← w.bytes roomCode.toList
    let w ← w.string name
    let w ← w.u8 codecMask
    w.u8 frameMask
  | welcome assignedId sessionId sampleRate frameSamples codec players, w => do
    let w ← w.u16 assignedId
    let w ← w.u16 sessionId
    let w ← w.u32 sampleRate
    let w ← w.u16 frameSamples
    let w ← w.u8 codec.toU8
    w.players players
  | deny reason, w => w.u8 reason.toU8
  | ping t1Us, w => w.u64 t1Us
  | pong t1Us t2Us t3Us, w => do
    let w ← w.u64 t1Us
    let w ← w.u64 t2Us
    w.u64 t3Us
  | keepalive, w => some w
  | bye, w => some w
  | roster players, w => w.players players
  | ack ackedSeq ackedType, w => do
    let w ← w.u16 ackedSeq
    w.u8 ackedType

/-- Serializes header and body into `out`, returning the datagram length. -/
def write (c : Control) (header : Header) (out : Bytes) : Option (Bytes × Nat) := do
  let (out, n) ← header.write out
  let w ← c.writeBody { buf := out, pos := n }
  pure (w.buf, w.pos)

/-- The body of a packet of type `ptype`. -/
def readBody (ptype : PacketType) : Reader Control :=
  match ptype with
  | .audio => throw (.badType ptype.toU8)
  | .hello => do
    let protoVersion ← Reader.u8
    let roomCode ← Reader.roomCode
    let name ← Reader.string
    let codecMask ← Reader.u8
    let frameMask ← Reader.u8
    pure (hello protoVersion roomCode name codecMask frameMask)
  | .welcome => do
    let assignedId ← Reader.u16
    let sessionId ← Reader.u16
    let sampleRate ← Reader.u32
    let frameSamples ← Reader.u16
    let codec ← Reader.check (Codec.tryFrom (← Reader.u8))
    let players ← Reader.players
    pure (welcome assignedId sessionId sampleRate frameSamples codec players)
  | .deny => do
    let reason ← Reader.check (DenyReason.tryFrom (← Reader.u8))
    pure (deny reason)
  | .ping => do
    let t1Us ← Reader.u64
    pure (ping t1Us)
  | .pong => do
    let t1Us ← Reader.u64
    let t2Us ← Reader.u64
    let t3Us ← Reader.u64
    pure (pong t1Us t2Us t3Us)
  | .keepalive => pure keepalive
  | .roster => do
    let players ← Reader.players
    pure (roster players)
  | .bye => pure bye
  | .ack => do
    let ackedSeq ← Reader.u16
    let ackedType ← Reader.u8
    pure (ack ackedSeq ackedType)

/-- Parses the body that follows a control-type header. -/
def parse (ptype : PacketType) (body : Bytes) : Checked ParseError Control :=
  (do
    let control ← readBody ptype
    Reader.finish
    pure control : Reader Control).run' { buf := body, pos := 0 }

end Control

/-! ## Datagrams -/

/-- A fully parsed datagram. -/
inductive Payload where
  | audio (p : AudioPacket)
  | control (c : Control)
  deriving DecidableEq, Repr

/-- Serializes a header and a payload of either kind. -/
def Payload.write : Payload → Header → Bytes → Option (Bytes × Nat)
  | audio p => p.write
  | control c => c.write

/-- Parses a whole datagram: the single entry point of the receive thread. -/
def parseDatagram (datagram : Bytes) : Checked ParseError (Header × Payload) := do
  let (header, body) ← Header.parse datagram
  let payload ← match header.ptype with
    | .audio => do pure (Payload.audio (← AudioPacket.parse body))
    | ptype => do pure (Payload.control (← Control.parse ptype body))
  pure (header, payload)

/-! ## Stale-sequence filter -/

/-- Accept a control packet only if its `seq` is newer than the last one seen, tolerating the first
packet; also returns the new watermark. -/
def acceptControlSeq (last : Option UInt16) (incoming : UInt16) : Bool × Option UInt16 :=
  match last with
  | none => (true, some incoming)
  | some prev =>
    if newerThan incoming prev then (true, some incoming) else (false, some prev)

end OnlineJam
