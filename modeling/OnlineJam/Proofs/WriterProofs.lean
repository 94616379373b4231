import OnlineJam.Proofs.Utf8Proofs

/-!
# Proofs: the writer

Every write operation emits a byte string that depends on its arguments only, so writing a packet is
emitting its header's encoding followed by its body's.
-/

namespace OnlineJam

open OnlineJam.Lib

@[simp] theorem u16ToBe_length (v : UInt16) : (u16ToBe v).length = 2 := toBe_length _ _

@[simp] theorem u32ToBe_length (v : UInt32) : (u32ToBe v).length = 4 := toBe_length _ _

@[simp] theorem u64ToBe_length (v : UInt64) : (u64ToBe v).length = 8 := toBe_length _ _

@[simp] theorem Header.encode_length (h : Header) : h.encode.length = headerLen := by
  simp [Header.encode]

/-! ## Operations of the writer -/

namespace Writer

theorem bytes_eq (v : Bytes) (w : Writer) : w.bytes v = w.emit v := by
  simp only [bytes, Cursor.emit]
  cases copyAt w.buf w.pos v <;> rfl

theorem u8_eq (v : UInt8) (w : Writer) : w.u8 v = w.emit [v] := bytes_eq [v] w

theorem u16_eq (v : UInt16) (w : Writer) : w.u16 v = w.emit (u16ToBe v) := by
  rw [← bytes_eq, bytes, u16ToBe_length, u16]

theorem u32_eq (v : UInt32) (w : Writer) : w.u32 v = w.emit (u32ToBe v) := by
  rw [← bytes_eq, bytes, u32ToBe_length, u32]

theorem u64_eq (v : UInt64) (w : Writer) : w.u64 v = w.emit (u64ToBe v) := by
  rw [← bytes_eq, bytes, u64ToBe_length, u64]

/-- Writing one thing after another emits the concatenation. -/
theorem emit_bind (w : Writer) (u v : Bytes) :
    (w.emit u >>= fun w' => w'.emit v) = w.emit (u ++ v) := Cursor.emit_emit w u v

/-- A string is written as the longest prefix of it that fits. -/
theorem string_eq (s : String) (w : Writer) : w.string s = w.emit (encodeName (fitName s)) := by
  have hn := charFloor_fit s
  simp only [string, hn, slice_fitName, u8_eq, bytes_eq]
  exact emit_bind w _ _

theorem playersLoop_eq (ps : List PlayerInfo) {w : Writer} (hw : w.pos ≤ w.buf.length) :
    playersLoop ps w = w.emit ((ps.map PlayerInfo.wire).flatMap PlayerInfo.encode) := by
  induction ps generalizing w with
  | nil => exact (Cursor.emit_nil hw).symm
  | cons p ps ih =>
    have hp : p.wire.encode = u16ToBe p.id ++ encodeName (fitName p.name) := rfl
    simp only [playersLoop, u16_eq, string_eq, List.map_cons, List.flatMap_cons, hp,
      List.append_assoc]
    rw [← emit_bind w (u16ToBe p.id)]
    refine congrArg _ (funext fun w1 => ?_)
    rw [← emit_bind]
    rcases he : w1.emit (encodeName (fitName p.name)) with _ | w2
    · rfl
    · exact ih (Cursor.emit_pos_le he)

theorem players_eq (ps : List PlayerInfo) (w : Writer) :
    w.players ps = w.emit (encodePlayers (ps.map PlayerInfo.wire)) := by
  have henc : encodePlayers (ps.map PlayerInfo.wire) = [UInt8.ofNat ps.length] ++
      (ps.map PlayerInfo.wire).flatMap PlayerInfo.encode := by
    rw [encodePlayers, List.length_map, List.singleton_append]
  rw [players, u8_eq, henc, ← emit_bind]
  rcases he : w.emit [UInt8.ofNat ps.length] with _ | w1
  · rfl
  · exact playersLoop_eq ps (Cursor.emit_pos_le he)

end Writer

/-! ## Packets -/

theorem Control.writeBody_eq (c : Control) {w : Writer} (hw : w.pos ≤ w.buf.length) :
    c.writeBody w = w.emit c.wire.encode := by
  cases c <;>
    simp only [Control.writeBody, Control.wire, Control.encode, Writer.u8_eq, Writer.u16_eq,
      Writer.u32_eq, Writer.u64_eq, Writer.bytes_eq, Writer.string_eq, Writer.players_eq,
      Writer.emit_bind, Cursor.emit_nil hw]

/-- A copy at a cursor's position continues like an emission. -/
theorem copyAt_bind {γ : Type} (buf v : Bytes) (i : Nat) (g : Writer → Option γ) :
    ((Cursor.mk buf i).emit v >>= g) = copyAt buf i v >>= fun b => g ⟨b, i + v.length⟩ := by
  simp only [Cursor.emit]
  cases copyAt buf i v <;> rfl

/-- What a write returns: the filled buffer and the datagram's length. -/
def writeOut (w : Option Writer) : Option (Bytes × Nat) := do
  let w ← w
  pure (w.buf, w.pos)

theorem Header.write_eq (h : Header) (out : Bytes) :
    h.write out = writeOut ((Cursor.mk out 0).emit h.encode) := by
  have henc : h.encode = [magic] ++ ([(protocolVersion <<< 4) ||| h.ptype.toU8] ++
      (u16ToBe h.sessionId ++ (u16ToBe h.senderId ++ u16ToBe h.seq))) := by
    simp [Header.encode]
  rw [henc, writeOut]
  simp only [← Writer.emit_bind, copyAt_bind, bind_assoc]
  rfl

theorem AudioPacket.write_eq (p : AudioPacket) (h : Header) (out : Bytes) :
    p.write h out = writeOut ((Cursor.mk out 0).emit (h.encode ++ p.encode)) := by
  rw [← Writer.emit_bind, writeOut, bind_assoc, AudioPacket.write, Header.write_eq, writeOut,
    bind_assoc]
  refine congrArg _ (funext fun ⟨buf, n⟩ => ?_)
  rw [pure_bind]
  rcases p with ⟨timestamp, codec, payload, _ | red⟩
  · have henc : AudioPacket.encode ⟨timestamp, codec, payload, none⟩ = u32ToBe timestamp ++
        ([codec.toU8] ++ ([0] ++ (u16ToBe (UInt16.ofNat payload.length) ++ payload))) := by
      simp [AudioPacket.encode, encodeRedundant]
    simp only [henc, ← Writer.emit_bind, copyAt_bind, bind_assoc]
    rfl
  · have henc : AudioPacket.encode ⟨timestamp, codec, payload, some red⟩ = u32ToBe timestamp ++
        ([codec.toU8] ++ ([audioFlagRedundancy] ++ (u16ToBe (UInt16.ofNat payload.length) ++
          (payload ++ (u16ToBe (UInt16.ofNat red.length) ++ red))))) := by
      simp [AudioPacket.encode, encodeRedundant]
    simp only [henc, ← Writer.emit_bind, copyAt_bind, bind_assoc]
    rfl

theorem Payload.write_eq (p : Payload) (h : Header) (out : Bytes) :
    p.write h out = writeOut ((Cursor.mk out 0).emit (h.encode ++ p.wire.encode)) := by
  cases p with
  | audio p => exact p.write_eq h out
  | control c =>
    show c.write h out = _
    rw [← Writer.emit_bind, writeOut, bind_assoc, Control.write, Header.write_eq, writeOut,
      bind_assoc]
    rcases he : (Cursor.mk out 0).emit h.encode with _ | w
    · rfl
    · show c.writeBody w >>= _ = _
      rw [Control.writeBody_eq c (Cursor.emit_pos_le he)]
      rfl

/-- A datagram that fits is written at the front of the buffer. -/
theorem Payload.write_of_le {p : Payload} {h : Header} {out : Bytes}
    (hle : (h.encode ++ p.wire.encode).length ≤ out.length) :
    p.write h out = some (h.encode ++ p.wire.encode ++
      out.drop (h.encode ++ p.wire.encode).length, (h.encode ++ p.wire.encode).length) := by
  rw [Payload.write_eq, Cursor.emit_zero hle]
  rfl

end OnlineJam
