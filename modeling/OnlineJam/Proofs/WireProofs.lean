import OnlineJam.Proofs.ReaderProofs

/-!
# Proofs: round trips of whole datagrams

Parsing a written datagram gives back its header and its payload as seen on the wire; whatever is
accepted is the encoding of the result.
-/

namespace OnlineJam

open OnlineJam.Lib

/-! ## Headers -/

theorem exists_cons8 {d : Bytes} (h : 8 ≤ d.length) :
    ∃ b0 b1 b2 b3 b4 b5 b6 b7 rest, d = b0 :: b1 :: b2 :: b3 :: b4 :: b5 :: b6 :: b7 :: rest := by
  match d, h with
  | b0 :: b1 :: b2 :: b3 :: b4 :: b5 :: b6 :: b7 :: rest, _ =>
    exact ⟨b0, b1, b2, b3, b4, b5, b6, b7, rest, rfl⟩

/-- The high nibble is the version, the low nibble the type. -/
theorem version_type (t : PacketType) :
    ((protocolVersion <<< 4) ||| t.toU8) >>> 4 = protocolVersion ∧
      ((protocolVersion <<< 4) ||| t.toU8) &&& 0x0F = t.toU8 := by
  cases t <;> decide

theorem version_type_join {b : UInt8} (h : b >>> 4 = protocolVersion) :
    (protocolVersion <<< 4) ||| (b &&& 0x0F) = b := by
  cases b with
  | ofBitVec b =>
    cases b with
    | ofFin b =>
      revert b
      decide +kernel

theorem flag_eq {b : UInt8} (h : b &&& audioFlagRedundancy ≠ 0) :
    b &&& audioFlagRedundancy = audioFlagRedundancy := by
  cases b with
  | ofBitVec b =>
    cases b with
    | ofFin b =>
      revert b
      decide +kernel

theorem Header.parse_of_length_lt {d : Bytes} (h : d.length < headerLen) :
    Header.parse d = some (.error .truncated) := by
  rw [Header.parse, if_pos h]
  rfl

theorem Header.parse_cons8 (b0 b1 b2 b3 b4 b5 b6 b7 : UInt8) (body : Bytes) :
    Header.parse (b0 :: b1 :: b2 :: b3 :: b4 :: b5 :: b6 :: b7 :: body) =
      if b0 ≠ magic then throw .badMagic
      else if b1 >>> 4 ≠ protocolVersion then throw (.badVersion (b1 >>> 4))
      else PacketType.tryFrom (b1 &&& 0x0F) >>= fun t =>
        pure ({ ptype := t, sessionId := u16FromBe [b2, b3], senderId := u16FromBe [b4, b5],
                seq := u16FromBe [b6, b7] }, body) := by
  have hs : bytesAt (b0 :: b1 :: b2 :: b3 :: b4 :: b5 :: b6 :: b7 :: body) headerLen
      (b0 :: b1 :: b2 :: b3 :: b4 :: b5 :: b6 :: b7 :: body).length = some (.ok body) := by
    rw [bytesAt, slice, if_pos ⟨by simp [headerLen], le_rfl⟩]
    simp [headerLen]
  rw [Header.parse, if_neg (by simp [headerLen]), hs]
  rfl

/-- Reading a header back. -/
theorem Header.parse_encode (h : Header) (body : Bytes) :
    Header.parse (h.encode ++ body) = some (.ok (h, body)) := by
  obtain ⟨b2, b3, h2⟩ := List.length_eq_two.mp (u16ToBe_length h.sessionId)
  obtain ⟨b4, b5, h4⟩ := List.length_eq_two.mp (u16ToBe_length h.senderId)
  obtain ⟨b6, b7, h6⟩ := List.length_eq_two.mp (u16ToBe_length h.seq)
  have henc : h.encode ++ body = magic :: ((protocolVersion <<< 4) ||| h.ptype.toU8) ::
      b2 :: b3 :: b4 :: b5 :: b6 :: b7 :: body := by
    simp [Header.encode, h2, h4, h6]
  obtain ⟨hv, ht⟩ := version_type h.ptype
  rw [henc, Header.parse_cons8, if_neg (by simp), if_neg (by simp [hv]), ht,
    Checked.bind_ok h.ptype.tryFrom_toU8, ← h2, ← h4, ← h6, u16FromBe_toBe, u16FromBe_toBe,
    u16FromBe_toBe]
  rfl

/-- Header parsing stays in range, and what it accepts is an encoded header with its rest. -/
theorem Header.parse_sound (d : Bytes) : Header.parse d ≠ none ∧
    ∀ h body, Header.parse d = some (.ok (h, body)) → d = h.encode ++ body := by
  by_cases hlen : d.length < headerLen
  · rw [Header.parse_of_length_lt hlen]
    exact ⟨Checked.some_ne_none, fun h body he => absurd he Checked.error_ne_ok⟩
  obtain ⟨b0, b1, b2, b3, b4, b5, b6, b7, rest, rfl⟩ := exists_cons8 (Nat.le_of_not_lt hlen)
  rw [Header.parse_cons8]
  split_ifs with hm hv
  · exact ⟨Checked.some_ne_none, fun h body he => absurd he Checked.error_ne_ok⟩
  · exact ⟨Checked.some_ne_none, fun h body he => absurd he Checked.error_ne_ok⟩
  · refine ⟨Checked.bind_ne_none (PacketType.tryFrom_ne_none _) fun _ _ => Checked.some_ne_none,
      fun h body he => ?_⟩
    obtain ⟨t, ht, he⟩ := Checked.bind_eq_ok he
    obtain ⟨rfl, rfl⟩ := Prod.mk.inj (Checked.ok_inj he)
    have hb1 : (protocolVersion <<< 4) ||| t.toU8 = b1 := by
      rw [PacketType.toU8_of_tryFrom ht, version_type_join (not_not.mp hv)]
    simp [Header.encode, hb1, not_not.mp hm, u16ToBe_fromBe]

/-! ## Audio bodies -/

theorem bytesAt_take {d : Bytes} {n : Nat} (h : n ≤ d.length) :
    bytesAt d 0 n = some (.ok (d.take n)) := by
  rw [bytesAt, slice_take h]
  rfl

theorem bytesAt_drop {d : Bytes} {n : Nat} (h : n ≤ d.length) :
    bytesAt d n d.length = some (.ok (d.drop n)) := by
  rw [bytesAt, slice_drop h]
  rfl

namespace AudioPacket

theorem parse_cons8 (b0 b1 b2 b3 b4 b5 b6 b7 : UInt8) (rest : Bytes) :
    parse (b0 :: b1 :: b2 :: b3 :: b4 :: b5 :: b6 :: b7 :: rest) =
      Codec.tryFrom b4 >>= fun codec =>
        if rest.length < (u16FromBe [b6, b7]).toNat then throw .badLength
        else parseRedundant b5 (rest.drop (u16FromBe [b6, b7]).toNat) >>= fun r =>
          if ¬ r.2.isEmpty then throw .trailingBytes
          else pure { timestamp := u32FromBe [b0, b1, b2, b3], codec := codec,
                      payload := rest.take (u16FromBe [b6, b7]).toNat, redundant := r.1 } := by
  have hs : bytesAt (b0 :: b1 :: b2 :: b3 :: b4 :: b5 :: b6 :: b7 :: rest) audioHeaderLen
      (b0 :: b1 :: b2 :: b3 :: b4 :: b5 :: b6 :: b7 :: rest).length = some (.ok rest) :=
    bytesAt_drop (by simp [audioHeaderLen])
  rw [parse, if_neg (by simp [audioHeaderLen]), hs]
  refine congrArg (Codec.tryFrom b4 >>= ·) (funext fun codec => ?_)
  show (if rest.length < (u16FromBe [b6, b7]).toNat then throw ParseError.badLength else _) = _
  split_ifs with h
  · rfl
  · rw [bytesAt_take (Nat.le_of_not_lt h), bytesAt_drop (Nat.le_of_not_lt h)]
    rfl

theorem parseRedundant_cons2 {flags : UInt8} (hf : flags &&& audioFlagRedundancy ≠ 0) (x y : UInt8)
    (tail : Bytes) : parseRedundant flags (x :: y :: tail) =
      if tail.length < (u16FromBe [x, y]).toNat then throw .badLength
      else pure (some (tail.take (u16FromBe [x, y]).toNat), tail.drop (u16FromBe [x, y]).toNat) := by
  have hdrop : bytesAt (x :: y :: tail) 2 (x :: y :: tail).length = some (.ok tail) :=
    bytesAt_drop (by simp)
  rw [parseRedundant, if_pos hf, if_neg (by simp), hdrop]
  show (if tail.length < (u16FromBe [x, y]).toNat then throw ParseError.badLength else _) = _
  split_ifs with h
  · rfl
  · rw [bytesAt_take (Nat.le_of_not_lt h), bytesAt_drop (Nat.le_of_not_lt h)]
    rfl

theorem parseRedundant_encode {r : Option Bytes} (hr : ∀ red, r = some red → red.length < 2 ^ 16) :
    parseRedundant (if r.isSome then audioFlagRedundancy else 0) (encodeRedundant r)
      = some (.ok (r, [])) := by
  cases r with
  | none => rfl
  | some red =>
    obtain ⟨x, y, hxy⟩ := List.length_eq_two.mp (u16ToBe_length (UInt16.ofNat red.length))
    have hn : (u16FromBe [x, y]).toNat = red.length := by
      rw [← hxy, u16FromBe_toBe, UInt16.toNat_ofNat_of_lt' (hr red rfl)]
    have htail : encodeRedundant (some red) = x :: y :: red := by
      rw [encodeRedundant, hxy]
      rfl
    have hflag : (if (some red).isSome then audioFlagRedundancy else 0) &&& audioFlagRedundancy ≠ 0 := by
      rw [Option.isSome_some, if_pos rfl]
      decide
    rw [htail, parseRedundant_cons2 hflag, hn, if_neg (by omega), List.take_length, List.drop_length]
    rfl

theorem parseRedundant_sound (flags : UInt8) (tail : Bytes) : parseRedundant flags tail ≠ none ∧
    ∀ r rest, parseRedundant flags tail = some (.ok (r, rest)) → tail = encodeRedundant r ++ rest ∧
      flags &&& audioFlagRedundancy = if r.isSome then audioFlagRedundancy else 0 := by
  by_cases hf : flags &&& audioFlagRedundancy = 0
  · rw [parseRedundant, if_neg (not_not.mpr hf)]
    refine ⟨Checked.some_ne_none, fun r rest he => ?_⟩
    obtain ⟨rfl, rfl⟩ := Prod.mk.inj (Checked.ok_inj he)
    exact ⟨rfl, hf⟩
  match tail with
  | [] =>
    rw [parseRedundant, if_pos hf]
    exact ⟨Checked.some_ne_none, fun r rest he => absurd he Checked.error_ne_ok⟩
  | [_] =>
    rw [parseRedundant, if_pos hf]
    exact ⟨Checked.some_ne_none, fun r rest he => absurd he Checked.error_ne_ok⟩
  | x :: y :: tail =>
    rw [parseRedundant_cons2 hf]
    split_ifs with hlen
    · exact ⟨Checked.some_ne_none, fun r rest he => absurd he Checked.error_ne_ok⟩
    · refine ⟨Checked.some_ne_none, fun r rest he => ?_⟩
      obtain ⟨rfl, rfl⟩ := Prod.mk.inj (Checked.ok_inj he)
      refine ⟨?_, ?_⟩
      · have htake : (tail.take (u16FromBe [x, y]).toNat).length = (u16FromBe [x, y]).toNat := by
          rw [List.length_take]; omega
        rw [encodeRedundant, htake, UInt16.ofNat_toNat, u16ToBe_fromBe rfl, List.append_assoc,
          List.take_append_drop]
        rfl
      · exact flag_eq hf

theorem parse_encode {p : AudioPacket} (hp : p.payload.length < 2 ^ 16)
    (hr : ∀ red, p.redundant = some red → red.length < 2 ^ 16) : parse p.encode = some (.ok p) := by
  obtain ⟨x, y, hxy⟩ := List.length_eq_two.mp (u16ToBe_length (UInt16.ofNat p.payload.length))
  have hn : (u16FromBe [x, y]).toNat = p.payload.length := by
    rw [← hxy, u16FromBe_toBe, UInt16.toNat_ofNat_of_lt' hp]
  obtain ⟨t0, t1, t2, t3, ht⟩ : ∃ t0 t1 t2 t3, u32ToBe p.timestamp = [t0, t1, t2, t3] :=
    ⟨_, _, _, _, rfl⟩
  have henc : p.encode = t0 :: t1 :: t2 :: t3 :: p.codec.toU8 ::
      (if p.redundant.isSome then audioFlagRedundancy else 0) :: x :: y ::
      (p.payload ++ encodeRedundant p.redundant) := by
    simp [encode, ht, hxy]
  rw [henc, parse_cons8, Checked.bind_ok p.codec.tryFrom_toU8, hn, if_neg (by simp),
    List.drop_left, Checked.bind_ok (parseRedundant_encode hr), List.take_left, ← ht,
    u32FromBe_toBe]
  rfl

theorem parse_sound (body : Bytes) : parse body ≠ none ∧ ∀ p, parse body = some (.ok p) →
    body.set 5 (body.getD 5 0 &&& audioFlagRedundancy) = p.encode := by
  by_cases hlen : body.length < audioHeaderLen
  · rw [parse, if_pos hlen]
    exact ⟨Checked.some_ne_none, fun p he => absurd he Checked.error_ne_ok⟩
  obtain ⟨b0, b1, b2, b3, b4, b5, b6, b7, rest, rfl⟩ := exists_cons8 (Nat.le_of_not_lt hlen)
  rw [parse_cons8]
  obtain ⟨hne, hok⟩ := parseRedundant_sound b5 (rest.drop (u16FromBe [b6, b7]).toNat)
  refine ⟨Checked.bind_ne_none (Codec.tryFrom_ne_none _) fun _ _ => ?_, fun p he => ?_⟩
  · split_ifs
    · exact Checked.some_ne_none
    · refine Checked.bind_ne_none hne fun r _ => ?_
      split_ifs <;> exact Checked.some_ne_none
  · obtain ⟨codec, hc, he⟩ := Checked.bind_eq_ok he
    split_ifs at he with hl
    · exact absurd he Checked.error_ne_ok
    obtain ⟨⟨r, tail⟩, hr, he⟩ := Checked.bind_eq_ok he
    by_cases ht : ¬ tail.isEmpty
    · rw [if_pos ht] at he
      exact absurd he Checked.error_ne_ok
    rw [if_neg ht] at he
    obtain ⟨hrest, hflag⟩ := hok r tail hr
    have hnil : tail = [] := by simpa using ht
    have htake : (rest.take (u16FromBe [b6, b7]).toNat).length = (u16FromBe [b6, b7]).toNat := by
      rw [List.length_take]; omega
    rw [hnil, List.append_nil] at hrest
    have ht : u32ToBe (u32FromBe [b0, b1, b2, b3]) = [b0, b1, b2, b3] := u32ToBe_fromBe rfl
    have hl : u16ToBe (u16FromBe [b6, b7]) = [b6, b7] := u16ToBe_fromBe rfl
    rw [← Checked.ok_inj he]
    simp only [encode, htake, UInt16.ofNat_toNat, ht, hl, ← hrest, ← hflag,
      Codec.toU8_of_tryFrom hc]
    simp

end AudioPacket

/-! ## Control bodies -/

namespace Control

/-- The body is parsed when all of it is consumed. -/
theorem parse_eq (t : PacketType) (body : Bytes) :
    parse t body = readBody t { buf := body, pos := 0 } >>= fun x =>
      if x.2.pos = x.2.buf.length then pure x.1 else throw .trailingBytes := by
  show Functor.map Prod.fst (readBody t { buf := body, pos := 0 } >>= fun x =>
    (Reader.finish x.2 >>= fun y => pure (x.1, y.2))) = _
  rcases readBody t { buf := body, pos := 0 } with _ | (e | ⟨c, r⟩)
  · rfl
  · rfl
  · show Functor.map Prod.fst (Reader.finish r >>= fun y => pure (c, y.2)) =
      if r.pos = r.buf.length then _ else _
    rw [Reader.finish]
    split_ifs <;> rfl

theorem parse_encode {c : Control} (h : c.Fits) :
    parse c.packetType c.encode = some (.ok c) := by
  have hread := reads_readBody h { buf := c.encode, pos := 0 } [] (Nat.zero_le _)
    (by simp [Cursor.rest])
  rw [parse_eq, Checked.bind_ok hread, if_pos (by simp)]
  rfl

theorem parse_sound (t : PacketType) (body : Bytes) : parse t body ≠ none ∧
    ∀ c, parse t body = some (.ok c) → body = c.encode ∧ c.packetType = t ∧ c.Fits := by
  obtain ⟨hne, hok⟩ := accepts_readBody t { buf := body, pos := 0 } (Nat.zero_le _)
  rw [parse_eq]
  refine ⟨Checked.bind_ne_none hne fun x _ => ?_, fun c he => ?_⟩
  · split_ifs <;> exact Checked.some_ne_none
  · obtain ⟨⟨c', r⟩, hr, he⟩ := Checked.bind_eq_ok he
    obtain ⟨v, w, hvw, rfl, hv, ht, hfits⟩ := hok c' r hr
    split_ifs at he with hpos
    · obtain rfl := Checked.ok_inj he
      have hbody : body = v ++ w := by simpa [Cursor.rest] using hvw
      have hlen : v.length = body.length := by simpa using hpos
      have hw : w = [] := by
        have := congrArg List.length hbody
        rw [List.length_append] at this
        exact List.eq_nil_of_length_eq_zero (by omega)
      exact ⟨by rw [hbody, hw, List.append_nil, hv], ht, hfits⟩
    · exact absurd he Checked.error_ne_ok

end Control

/-! ## Datagrams -/

namespace Payload

/-- The packet type a payload goes under. -/
def packetType : Payload → PacketType
  | audio _ => .audio
  | control c => c.packetType

/-- The payload is within the limits of the wire. -/
def Fits : Payload → Prop
  | audio p => p.payload.length < 2 ^ 16 ∧ ∀ red, p.redundant = some red → red.length < 2 ^ 16
  | control c => c.Fits

end Payload

theorem Control.packetType_ne_audio (c : Control) : c.packetType ≠ .audio := by
  cases c <;> simp [Control.packetType]

theorem parseDatagram_control {h : Header} {body d : Bytes} (hd : Header.parse d = some (.ok (h, body)))
    (ht : h.ptype ≠ .audio) : parseDatagram d =
      Control.parse h.ptype body >>= fun c => pure (h, Payload.control c) := by
  rw [parseDatagram, Checked.bind_ok hd]
  obtain ⟨t, sid, snd, seq⟩ := h
  cases t <;> first | exact absurd rfl ht | rfl

theorem parseDatagram_audio {h : Header} {body d : Bytes} (hd : Header.parse d = some (.ok (h, body)))
    (ht : h.ptype = .audio) : parseDatagram d =
      AudioPacket.parse body >>= fun p => pure (h, Payload.audio p) := by
  rw [parseDatagram, Checked.bind_ok hd]
  obtain ⟨t, sid, snd, seq⟩ := h
  obtain rfl : t = .audio := ht
  rfl

theorem parseDatagram_encode {h : Header} {p : Payload} (ht : h.ptype = p.packetType) (hp : p.Fits) :
    parseDatagram (h.encode ++ p.encode) = some (.ok (h, p)) := by
  have hd := Header.parse_encode h p.encode
  cases p with
  | audio p =>
    rw [parseDatagram_audio hd ht]
    exact Checked.bind_ok (AudioPacket.parse_encode hp.1 hp.2)
  | control c =>
    rw [parseDatagram_control hd (by rw [ht]; exact c.packetType_ne_audio), ht]
    exact Checked.bind_ok (Control.parse_encode hp)

theorem parseDatagram_sound (d : Bytes) : parseDatagram d ≠ none ∧
    ∀ h p, parseDatagram d = some (.ok (h, p)) →
      canonical h d = h.encode ++ p.encode ∧ h.ptype = p.packetType ∧
        ∀ c, p = .control c → c.Fits := by
  obtain ⟨hne, hok⟩ := Header.parse_sound d
  rcases hd : Header.parse d with _ | (e | ⟨h, body⟩)
  · exact absurd hd hne
  · rw [parseDatagram, Checked.bind_error hd]
    exact ⟨Checked.some_ne_none, fun h p he => absurd he Checked.error_ne_ok⟩
  · have hdb := hok h body hd
    by_cases ht : h.ptype = .audio
    · obtain ⟨hne, hok⟩ := AudioPacket.parse_sound body
      rw [parseDatagram_audio hd ht]
      refine ⟨Checked.bind_ne_none hne fun _ _ => Checked.some_ne_none, fun h' p he => ?_⟩
      obtain ⟨a, ha, he⟩ := Checked.bind_eq_ok he
      obtain ⟨rfl, rfl⟩ := Prod.mk.inj (Checked.ok_inj he)
      refine ⟨?_, ht, fun c hc => by cases hc⟩
      have h13 : 13 = h.encode.length + 5 := by rw [Header.encode_length]
      rw [canonical, ht, hdb]
      show (h.encode ++ body).set 13 ((h.encode ++ body).getD 13 0 &&& audioFlagRedundancy) = _
      have hget : (h.encode ++ body).getD (h.encode.length + 5) 0 = body.getD 5 0 := by
        rw [List.getD_eq_getElem?_getD, List.getElem?_append_right (by omega),
          Nat.add_sub_cancel_left, List.getD_eq_getElem?_getD]
      rw [h13, hget, List.set_append_right _ _ (by omega), Nat.add_sub_cancel_left, hok a ha]
      rfl
    · obtain ⟨hne, hok⟩ := Control.parse_sound h.ptype body
      rw [parseDatagram_control hd ht]
      refine ⟨Checked.bind_ne_none hne fun _ _ => Checked.some_ne_none, fun h' p he => ?_⟩
      obtain ⟨c, hc, he⟩ := Checked.bind_eq_ok he
      obtain ⟨rfl, rfl⟩ := Prod.mk.inj (Checked.ok_inj he)
      obtain ⟨hb, hct, hfits⟩ := hok c hc
      refine ⟨?_, hct.symm, fun c' hc' => by rw [← Payload.control.inj hc']; exact hfits⟩
      have hcan : canonical h d = d := by
        obtain ⟨t, sid, snd, seq⟩ := h
        cases t <;> first | exact absurd rfl ht | rfl
      rw [hcan, hdb, hb]
      rfl

/-! ## What a receiver sees -/

theorem map_wire_of_fits {ps : List PlayerInfo}
    (h : ∀ p ∈ ps, (asBytes p.name).length ≤ maxNameLen) : ps.map PlayerInfo.wire = ps := by
  induction ps with
  | nil => rfl
  | cons p ps ih =>
    rw [List.map_cons, PlayerInfo.wire, fitName_of_le (h p (by simp)),
      ih fun q hq => h q (by simp [hq])]

/-- A packet that came off the wire is written as it is. -/
theorem Control.wire_of_fits {c : Control} (h : c.Fits) : c.wire = c := by
  obtain ⟨-, hn⟩ := h
  cases c with
  | hello protoVersion roomCode name codecMask frameMask =>
    rw [Control.wire, fitName_of_le (hn name (by simp [Control.names]))]
  | welcome assignedId sessionId sampleRate frameSamples codec players =>
    rw [Control.wire, map_wire_of_fits (by simpa [Control.names] using hn)]
  | roster players => rw [Control.wire, map_wire_of_fits (by simpa [Control.names] using hn)]
  | _ => rfl

theorem encodePlayers_length_le {ps : List PlayerInfo} (hlen : ps.length ≤ maxClients + 1)
    (hps : ∀ p ∈ ps, (asBytes p.name).length ≤ maxNameLen) :
    (encodePlayers ps).length ≤ 1 + (maxClients + 1) * (3 + maxNameLen) := by
  have hflat : ∀ qs : List PlayerInfo, (∀ p ∈ qs, (asBytes p.name).length ≤ maxNameLen) →
      (qs.flatMap PlayerInfo.encode).length ≤ qs.length * (3 + maxNameLen) := by
    intro qs
    induction qs with
    | nil => simp
    | cons q qs ih =>
      intro h
      have h1 := h q (by simp)
      have h2 := ih fun p hp => h p (by simp [hp])
      simp only [List.flatMap_cons, List.length_append, PlayerInfo.encode, encodeName,
        u16ToBe_length, List.length_cons, Nat.add_mul]
      omega
  have h := Nat.mul_le_mul_right (3 + maxNameLen) hlen
  have := hflat ps hps
  rw [encodePlayers, List.length_cons]
  omega

/-- Every control packet within the limits of the wire fits in a datagram. -/
theorem Control.encode_length_le {c : Control} (h : c.Fits) :
    headerLen + c.encode.length ≤ maxDatagram := by
  obtain ⟨hr, hn⟩ := h
  cases c with
  | hello protoVersion roomCode name codecMask frameMask =>
    have hname := hn name (by simp [Control.names])
    simp only [Control.encode, encodeName, List.length_append, List.length_cons, List.length_nil,
      Vector.length_toList]
    simp only [headerLen, roomCodeLen, maxNameLen, maxDatagram] at hname ⊢
    omega
  | welcome assignedId sessionId sampleRate frameSamples codec players =>
    have hps := encodePlayers_length_le hr (by simpa [Control.names] using hn)
    simp only [Control.encode, List.length_append, u16ToBe_length, u32ToBe_length, List.length_cons,
      List.length_nil]
    simp only [headerLen, maxClients, maxNameLen, maxDatagram] at hps ⊢
    omega
  | roster players =>
    have hps := encodePlayers_length_le hr (by simpa [Control.names] using hn)
    simp only [Control.encode]
    simp only [headerLen, maxClients, maxNameLen, maxDatagram] at hps ⊢
    omega
  | _ => simp [Control.encode, headerLen, maxDatagram]

/-- The length of an audio datagram. -/
def AudioPacket.datagramLen (p : AudioPacket) : Nat :=
  headerLen + audioHeaderLen + p.payload.length +
    match p.redundant with
    | some red => 2 + red.length
    | none => 0

theorem AudioPacket.encode_length (p : AudioPacket) :
    headerLen + p.encode.length = p.datagramLen := by
  rcases p with ⟨timestamp, codec, payload, _ | red⟩ <;>
    simp [AudioPacket.encode, encodeRedundant, AudioPacket.datagramLen, audioHeaderLen] <;> omega

/-- A payload within the limits of the wire is written inside the buffer and read back. -/
theorem Payload.write_parseDatagram {h : Header} {p : Payload} (out : Bytes)
    (ht : h.ptype = p.wire.packetType) (hp : p.wire.Fits)
    (hlen : headerLen + p.wire.encode.length ≤ out.length) :
    ∃ out', p.write h out = some (out', headerLen + p.wire.encode.length) ∧
      out'.length = out.length ∧
      parseDatagram (out'.take (headerLen + p.wire.encode.length)) = some (.ok (h, p.wire)) := by
  have hn : (h.encode ++ p.wire.encode).length = headerLen + p.wire.encode.length := by simp
  refine ⟨_, hn ▸ Payload.write_of_le (hn ▸ hlen), ?_, ?_⟩
  · rw [List.length_append, List.length_drop]
    omega
  · rw [← hn, List.take_left]
    exact parseDatagram_encode ht hp

theorem Control.packetType_wire (c : Control) : c.wire.packetType = c.packetType := by
  cases c <;> rfl

/-! ## Main results -/

/-- Wire round trip: a control packet is read back with every name replaced by its longest prefix of
whole characters that fits, an audio packet exactly as it was. -/
theorem write_then_parse (h : Header) (out : Bytes) (hout : out.length = maxDatagram) :
    (∀ c : Control, c.RosterFits → h.ptype = c.packetType →
      ∃ out' n, c.write h out = some (out', n) ∧ n ≤ maxDatagram ∧ out'.length = maxDatagram ∧
        parseDatagram (out'.take n) = some (.ok (h, .control c.wire))) ∧
    (∀ name : String, LongestFit maxNameLen name (fitName name)) ∧
    (∀ p : AudioPacket, p.datagramLen ≤ maxDatagram → h.ptype = .audio →
      ∃ out' n, p.write h out = some (out', n) ∧ n ≤ maxDatagram ∧ out'.length = maxDatagram ∧
        parseDatagram (out'.take n) = some (.ok (h, .audio p))) := by
  refine ⟨fun c hc ht => ?_, fitName_longest, fun p hp ht => ?_⟩
  · have hfits := Control.fits_wire hc
    have hlen := Control.encode_length_le hfits
    obtain ⟨out', hw, hl, hparse⟩ := Payload.write_parseDatagram (p := .control c) out
      (ht.trans c.packetType_wire.symm) hfits (hout ▸ hlen)
    exact ⟨out', _, hw, hlen, hl.trans hout, hparse⟩
  · have hlen : headerLen + p.encode.length ≤ maxDatagram := p.encode_length ▸ hp
    have hpay : p.payload.length ≤ p.datagramLen := by
      unfold AudioPacket.datagramLen
      omega
    have hred : ∀ red, p.redundant = some red → red.length ≤ p.datagramLen := by
      intro red hr
      unfold AudioPacket.datagramLen
      rw [hr]
      show _ ≤ _ + (2 + red.length)
      omega
    have h16 : maxDatagram < 2 ^ 16 := by decide
    obtain ⟨out', hw, hl, hparse⟩ := Payload.write_parseDatagram (p := .audio p) out ht
      ⟨by omega, fun red hr => by have := hred red hr; omega⟩ (hout ▸ hlen)
    exact ⟨out', _, hw, hlen, hl.trans hout, hparse⟩

/-- A name of 33 bytes whose last character has two. -/
theorem write_then_parse_long_name :
    ∃ out' n, Control.write (.hello 1 (Vector.replicate 6 65) "abcdefghijklmnopqrstuvwxyzabcdeé" 7 4)
        ⟨.hello, 0, unjoinedSenderId, 5⟩ (List.replicate maxDatagram 0) = some (out', n) ∧
      n ≤ maxDatagram ∧ out'.length = maxDatagram ∧
      parseDatagram (out'.take n) = some (.ok (⟨.hello, 0, unjoinedSenderId, 5⟩, .control
        (.hello 1 (Vector.replicate 6 65) "abcdefghijklmnopqrstuvwxyzabcde" 7 4))) := by
  have hname : fitName "abcdefghijklmnopqrstuvwxyzabcdeé" = "abcdefghijklmnopqrstuvwxyzabcde" := by
    decide +kernel
  have h := (write_then_parse ⟨.hello, 0, unjoinedSenderId, 5⟩ (List.replicate maxDatagram 0)
    (by simp)).1 (.hello 1 (Vector.replicate 6 65) "abcdefghijklmnopqrstuvwxyzabcdeé" 7 4)
    (by decide) rfl
  rwa [Control.wire, hname] at h

/-- The parser never reads out of range, and it accepts only what the writer writes: writing the
result again reproduces the input up to the unused bits of an audio datagram's flags, so that two
control datagrams with one meaning are equal. -/
theorem parse_then_write (d : Bytes) : parseDatagram d ≠ none ∧
    (∀ h p, parseDatagram d = some (.ok (h, p)) →
      (∀ c, p = .control c →
        c.RosterFits ∧ ∀ name ∈ c.names, (asBytes name).length ≤ maxNameLen) ∧
      ∀ out : Bytes, d.length ≤ out.length →
        p.write h out = some (canonical h d ++ out.drop d.length, d.length)) ∧
    (∀ h c d', parseDatagram d = some (.ok (h, .control c)) →
      parseDatagram d' = some (.ok (h, .control c)) → d = d') := by
  have hwire : ∀ d h p, parseDatagram d = some (.ok (h, p)) → p.wire = p := by
    intro d h p hd
    cases p with
    | audio p => rfl
    | control c =>
      exact congrArg Payload.control
        (Control.wire_of_fits (((parseDatagram_sound d).2 h _ hd).2.2 c rfl))
  have hlen : ∀ h : Header, (canonical h d).length = d.length := by
    intro h
    unfold canonical
    split
    · rw [List.length_set]
    · rfl
  refine ⟨(parseDatagram_sound d).1, fun h p hd => ?_, fun h c d' hd hd' => ?_⟩
  · obtain ⟨hcan, -, hfits⟩ := (parseDatagram_sound d).2 h p hd
    refine ⟨hfits, fun out hout => ?_⟩
    have hw := hwire d h p hd
    have h1 : h.encode ++ p.wire.encode = canonical h d := by rw [hw, hcan]
    rw [Payload.write_of_le (by rw [h1, hlen]; exact hout), h1, hlen]
  · obtain ⟨hcan, ht, -⟩ := (parseDatagram_sound d).2 h _ hd
    obtain ⟨hcan', -, -⟩ := (parseDatagram_sound d').2 h _ hd'
    have hctl : ∀ d, canonical h d = d := by
      intro d
      have hne : h.ptype ≠ .audio := by rw [ht]; exact c.packetType_ne_audio
      unfold canonical
      split
      · exact absurd ‹_› hne
      · rfl
    rw [← hctl d, ← hctl d', hcan, hcan']

/-- An acknowledgement, and an audio datagram with stray flag bits that come back as zero. -/
theorem parse_then_write_flags :
    Payload.write (.control (.ack 3 2)) ⟨.ack, 9, 1, 4⟩ (List.replicate 12 0) =
      some ([0xA5, 0x19, 0, 9, 0, 1, 0, 4, 0, 3, 2, 0], 11) ∧
    Payload.write (.audio ⟨7, .pcmS16, [0xAB], none⟩) ⟨.audio, 9, 1, 4⟩ (List.replicate 17 0) =
      some ([0xA5, 0x10, 0, 9, 0, 1, 0, 4, 0, 0, 0, 7, 1, 0, 0, 1, 0xAB], 17) :=
  ⟨((parse_then_write [0xA5, 0x19, 0, 9, 0, 1, 0, 4, 0, 3, 2]).2.1 ⟨.ack, 9, 1, 4⟩
      (.control (.ack 3 2)) (by rfl)).2 (List.replicate 12 0) (by decide),
    ((parse_then_write [0xA5, 0x10, 0, 9, 0, 1, 0, 4, 0, 0, 0, 7, 1, 0xFE, 0, 1, 0xAB]).2.1
      ⟨.audio, 9, 1, 4⟩ (.audio ⟨7, .pcmS16, [0xAB], none⟩) (by rfl)).2 (List.replicate 17 0)
      (by decide)⟩

end OnlineJam
