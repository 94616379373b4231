import OnlineJam.Protocol.Packet

/-!
# What the wire format means

The bytes of each kind of packet as a pure function of its value, and the value a receiver gets:
names are cut to the longest prefix of whole characters that fits in `maxNameLen` bytes. These are
the specifications the writer and the parser of `Packet` are compared with.
-/

namespace OnlineJam

open OnlineJam.Lib

/-! ## Names -/

/-- The characters of `cs` that fit in `n` bytes of UTF-8, taken greedily from the front. -/
def fitChars : Nat → List Char → List Char
  | _, [] => []
  | n, c :: cs => if c.utf8Size ≤ n then c :: fitChars (n - c.utf8Size) cs else []

/-- The name that survives serialization. -/
def fitName (s : String) : String := String.ofList (fitChars maxNameLen s.toList)

/-- `t` is the longest prefix of whole characters of `s` that fits in `n` bytes. -/
def LongestFit (n : Nat) (s t : String) : Prop :=
  t.toList <+: s.toList ∧ (asBytes t).length ≤ n ∧
    ∀ u : String, u.toList <+: s.toList → (asBytes u).length ≤ n → u.toList <+: t.toList

def PlayerInfo.wire (p : PlayerInfo) : PlayerInfo := { p with name := fitName p.name }

namespace Control

/-- Every roster in the packet has at most `maxClients + 1` entries. -/
def RosterFits : Control → Prop
  | welcome _ _ _ _ _ players => players.length ≤ maxClients + 1
  | roster players => players.length ≤ maxClients + 1
  | _ => True

instance (c : Control) : Decidable c.RosterFits := by
  cases c <;> unfold RosterFits <;> infer_instance

/-- The names a packet carries. -/
def names : Control → List String
  | hello _ _ name _ _ => [name]
  | welcome _ _ _ _ _ players => players.map PlayerInfo.name
  | roster players => players.map PlayerInfo.name
  | _ => []

/-- The packet as the receiver sees it. -/
def wire : Control → Control
  | hello protoVersion roomCode name codecMask frameMask =>
    hello protoVersion roomCode (fitName name) codecMask frameMask
  | welcome assignedId sessionId sampleRate frameSamples codec players =>
    welcome assignedId sessionId sampleRate frameSamples codec (players.map PlayerInfo.wire)
  | roster players => roster (players.map PlayerInfo.wire)
  | c => c

end Control

/-! ## Encodings -/

def Header.encode (h : Header) : Bytes :=
  [magic, (protocolVersion <<< 4) ||| h.ptype.toU8] ++ u16ToBe h.sessionId ++ u16ToBe h.senderId ++
    u16ToBe h.seq

/-- The optional section that follows the payload. -/
def encodeRedundant : Option Bytes → Bytes
  | some red => u16ToBe (UInt16.ofNat red.length) ++ red
  | none => []

/-- The body bytes of an audio packet, for payloads shorter than `2 ^ 16`. -/
def AudioPacket.encode (p : AudioPacket) : Bytes :=
  u32ToBe p.timestamp ++ [p.codec.toU8, if p.redundant.isSome then audioFlagRedundancy else 0] ++
    u16ToBe (UInt16.ofNat p.payload.length) ++ p.payload ++ encodeRedundant p.redundant

/-- A length-prefixed string of at most `maxNameLen` bytes. -/
def encodeName (s : String) : Bytes := UInt8.ofNat (asBytes s).length :: asBytes s

def PlayerInfo.encode (p : PlayerInfo) : Bytes := u16ToBe p.id ++ encodeName p.name

def encodePlayers (ps : List PlayerInfo) : Bytes :=
  UInt8.ofNat ps.length :: ps.flatMap PlayerInfo.encode

/-- The body bytes of a control packet whose names fit. -/
def Control.encode : Control → Bytes
  | hello protoVersion roomCode name codecMask frameMask =>
    [protoVersion] ++ (roomCode.toList ++ (encodeName name ++ ([codecMask] ++ [frameMask])))
  | welcome assignedId sessionId sampleRate frameSamples codec players =>
    u16ToBe assignedId ++ (u16ToBe sessionId ++ (u32ToBe sampleRate ++ (u16ToBe frameSamples ++
      ([codec.toU8] ++ encodePlayers players))))
  | deny reason => [reason.toU8]
  | ping t1Us => u64ToBe t1Us
  | pong t1Us t2Us t3Us => u64ToBe t1Us ++ (u64ToBe t2Us ++ u64ToBe t3Us)
  | keepalive => []
  | roster players => encodePlayers players
  | bye => []
  | ack ackedSeq ackedType => u16ToBe ackedSeq ++ [ackedType]

def Payload.encode : Payload → Bytes
  | audio p => p.encode
  | control c => c.encode

/-- The payload as the receiver sees it. -/
def Payload.wire : Payload → Payload
  | audio p => audio p
  | control c => control c.wire

/-- What `parseDatagram` makes of its input: the flags byte of an audio datagram loses its unused
bits, everything else is kept. -/
def canonical (h : Header) (d : Bytes) : Bytes :=
  match h.ptype with
  | .audio => d.set 13 ((d.getD 13 0) &&& audioFlagRedundancy)
  | _ => d

end OnlineJam
