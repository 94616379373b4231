import OnlineJam.Protocol.Handshake

/-!
# Public address discovery

What the host makes of the answers of a STUN server (`jam-app`, `stun.rs`). As in `Packet`, every index
and slice is a checked access, so that `none` stands for a panic; `some (.error ())` is the `None` that
the functions return.
-/

namespace OnlineJam

open OnlineJam.Lib

abbrev magicCookie : UInt32 := 0x2112A442
abbrev bindingResponse : UInt16 := 0x0101
abbrev attrXorMappedAddress : UInt16 := 0x0020
abbrev attrMappedAddress : UInt16 := 0x0001

/-- `?` on an `Option`. -/
def orReturn {α : Type} : Option α → Checked Unit α
  | some a => pure a
  | none => throw ()

def parseAddress (value : Bytes) (xored : Bool) : Checked Unit SocketAddr :=
  if value.length < 8 then throw ()
  else do
    -- IPv4 only.
    if (← orPanic value[1]?) ≠ 0x01 then throw ()
    else do
      let port := u16FromBe [← orPanic value[2]?, ← orPanic value[3]?]
      let octets := [← orPanic value[4]?, ← orPanic value[5]?, ← orPanic value[6]?, ← orPanic value[7]?]
      if xored then
        pure (.v4 (u32FromBe (octets.zipWith (· ^^^ ·) (u32ToBe magicCookie)))
          (port ^^^ (magicCookie >>> 16).toUInt16))
      else pure (.v4 (u32FromBe octets) port)

/-- The loop over the attributes. -/
def scanAttrs (attrs : Bytes) : Checked Unit SocketAddr :=
  if _h : 4 ≤ attrs.length then do
    let attrType := u16FromBe [← orPanic attrs[0]?, ← orPanic attrs[1]?]
    let len := (u16FromBe [← orPanic attrs[2]?, ← orPanic attrs[3]?]).toNat
    let value ← orReturn (slice attrs 4 (4 + len))
    if attrType = attrXorMappedAddress then parseAddress value true
    else if attrType = attrMappedAddress then parseAddress value false
    else
      -- Attributes are 4-byte aligned.
      let advance := 4 + (len + 3) / 4 * 4
      if advance ≤ attrs.length then scanAttrs (attrs.drop advance) else throw ()
  else throw ()
termination_by attrs.length
decreasing_by
  rw [List.length_drop]
  omega

def parseBindingResponse (msg : Bytes) : Checked Unit SocketAddr := do
  let attrLen := (u16FromBe [← orPanic msg[2]?, ← orPanic msg[3]?]).toNat
  scanAttrs (← orReturn (slice msg 20 (20 + attrLen)))

/-- The loop of `try_server` over what arrives, for at most `tries` datagrams; the list ends with a
timeout. -/
def awaitResponse (server : SocketAddr) (txid : Bytes) :
    Nat → List (SocketAddr × Bytes) → Checked Unit SocketAddr
  | 0, _ => throw ()
  | _ + 1, [] => throw ()
  | tries + 1, (src, datagram) :: rest =>
    let buf := datagram.take 256
    if src ≠ server ∨ buf.length < 20 then awaitResponse server txid tries rest
    else do
      let msgType := u16FromBe [← orPanic buf[0]?, ← orPanic buf[1]?]
      let id ← orPanic (slice buf 8 20)
      if msgType ≠ bindingResponse ∨ id ≠ txid then awaitResponse server txid tries rest
      else parseBindingResponse buf

/-! ## What a server answers -/

/-- An attribute as it is sent, padded to a multiple of four bytes. -/
structure StunAttr where
  type : UInt16
  value : Bytes
  padding : Bytes
  aligned : 4 ∣ value.length + padding.length
  short : padding.length < 4

def StunAttr.encode (a : StunAttr) : Bytes :=
  u16ToBe a.type ++ u16ToBe (UInt16.ofNat a.value.length) ++ a.value ++ a.padding

/-- Port and address of an IPv4 attribute behind the reserved byte and the family. -/
def addressValue (reserved : UInt8) (ip : UInt32) (port : UInt16) : Bytes :=
  [reserved, 0x01] ++ u16ToBe port ++ u32ToBe ip

/-- `MAPPED-ADDRESS`, or `XOR-MAPPED-ADDRESS` which hides the port under the upper half of the cookie and
the address under all of it. -/
def addressAttr (xored : Bool) (reserved : UInt8) (ip : UInt32) (port : UInt16) : StunAttr where
  type := if xored then attrXorMappedAddress else attrMappedAddress
  value :=
    if xored then addressValue reserved (ip ^^^ magicCookie) (port ^^^ 0x2112)
    else addressValue reserved ip port
  padding := []
  aligned := by
    cases xored <;> exact ⟨2, rfl⟩
  short := by decide

/-- A binding response whose first address attribute is IPv4. -/
structure BindingResponse where
  msgType : UInt16
  /-- The magic cookie and the transaction id. -/
  cookieAndId : Vector UInt8 16
  before : List StunAttr
  others : ∀ a ∈ before, a.type ≠ attrMappedAddress ∧ a.type ≠ attrXorMappedAddress
  xored : Bool
  reserved : UInt8
  ip : UInt32
  port : UInt16
  /-- Anything that follows, further attributes or not. -/
  after : Bytes
  fits : (before.flatMap StunAttr.encode ++ (addressAttr xored reserved ip port).encode ++ after).length <
    2 ^ 16

namespace BindingResponse

def body (r : BindingResponse) : Bytes :=
  r.before.flatMap StunAttr.encode ++ (addressAttr r.xored r.reserved r.ip r.port).encode ++ r.after

def encode (r : BindingResponse) : Bytes :=
  u16ToBe r.msgType ++ u16ToBe (UInt16.ofNat r.body.length) ++ r.cookieAndId.toList ++ r.body

end BindingResponse

end OnlineJam
