import OnlineJam.Proofs.WriterProofs

/-!
# Proofs: the reader

Each read operation is compared with the encoding of `WireSpec` in both directions: it reads back
what the encoding wrote, and what it accepts is an encoding.
-/

namespace OnlineJam

open OnlineJam.Lib

/-! ## Words -/

theorem u16FromBe_toBe (v : UInt16) : u16FromBe (u16ToBe v) = v := by
  rw [u16FromBe, u16ToBe, fromBe_toBe (by simpa using v.toNat_lt), UInt16.ofNat_toNat]

theorem u32FromBe_toBe (v : UInt32) : u32FromBe (u32ToBe v) = v := by
  rw [u32FromBe, u32ToBe, fromBe_toBe (by simpa using v.toNat_lt), UInt32.ofNat_toNat]

theorem u64FromBe_toBe (v : UInt64) : u64FromBe (u64ToBe v) = v := by
  rw [u64FromBe, u64ToBe, fromBe_toBe (by simpa using v.toNat_lt), UInt64.ofNat_toNat]

theorem u16ToBe_fromBe {b : Bytes} (h : b.length = 2) : u16ToBe (u16FromBe b) = b := by
  have hlt := fromBe_lt b
  rw [h] at hlt
  rw [u16ToBe, u16FromBe, UInt16.toNat_ofNat_of_lt' hlt, ← h, toBe_fromBe]

theorem u32ToBe_fromBe {b : Bytes} (h : b.length = 4) : u32ToBe (u32FromBe b) = b := by
  have hlt := fromBe_lt b
  rw [h] at hlt
  rw [u32ToBe, u32FromBe, UInt32.toNat_ofNat_of_lt' hlt, ← h, toBe_fromBe]

theorem u64ToBe_fromBe {b : Bytes} (h : b.length = 8) : u64ToBe (u64FromBe b) = b := by
  have hlt := fromBe_lt b
  rw [h] at hlt
  rw [u64ToBe, u64FromBe, UInt64.toNat_ofNat_of_lt' hlt, ← h, toBe_fromBe]

theorem PacketType.tryFrom_toU8 (t : PacketType) : tryFrom t.toU8 = some (.ok t) := by
  cases t <;> rfl

theorem Codec.tryFrom_toU8 (c : Codec) : tryFrom c.toU8 = some (.ok c) := by
  cases c <;> rfl

theorem DenyReason.tryFrom_toU8 (r : DenyReason) : tryFrom r.toU8 = some (.ok r) := by
  cases r <;> rfl

theorem PacketType.toU8_of_tryFrom {v : UInt8} {t : PacketType} (h : tryFrom v = some (.ok t)) :
    t.toU8 = v := by
  unfold tryFrom at h
  split at h <;> first
    | (rw [← Checked.ok_inj h]; rfl)
    | exact absurd h Checked.error_ne_ok

theorem Codec.toU8_of_tryFrom {v : UInt8} {c : Codec} (h : tryFrom v = some (.ok c)) :
    c.toU8 = v := by
  unfold tryFrom at h
  split at h <;> first
    | (rw [← Checked.ok_inj h]; rfl)
    | exact absurd h Checked.error_ne_ok

theorem DenyReason.toU8_of_tryFrom {v : UInt8} {r : DenyReason} (h : tryFrom v = some (.ok r)) :
    r.toU8 = v := by
  unfold tryFrom at h
  split at h <;> first
    | (rw [← Checked.ok_inj h]; rfl)
    | exact absurd h Checked.error_ne_ok

theorem PacketType.tryFrom_ne_none (v : UInt8) : tryFrom v ≠ none := by
  unfold tryFrom
  split <;> exact Checked.some_ne_none

theorem Codec.tryFrom_ne_none (v : UInt8) : tryFrom v ≠ none := by
  unfold tryFrom
  split <;> exact Checked.some_ne_none

theorem DenyReason.tryFrom_ne_none (v : UInt8) : tryFrom v ≠ none := by
  unfold tryFrom
  split <;> exact Checked.some_ne_none

/-! ## Reads of a fixed length -/

namespace Reader

theorem bytes_fixed (n : Nat) : Scan.Fixed (bytes n) n .truncated id := by
  intro c hc
  have hrest : c.rest.length = c.buf.length - c.pos := by simp [Cursor.rest]
  simp only [bytes, checkedSub_eq hc, Checked.orPanic_some]
  rw [Checked.bind_ok rfl]
  by_cases hn : n ≤ c.rest.length
  · have hs : slice c.buf c.pos (c.pos + n) = some (c.rest.take n) := slice_add (by omega)
    rw [if_neg (by omega), if_pos hn, bytesAt, hs]
    rfl
  · rw [if_pos (by omega), if_neg hn]
    rfl

theorem u8_fixed : Scan.Fixed u8 1 .truncated fun b => b.headD 0 := by
  refine (bytes_fixed 1).bind fun b hb c => ?_
  obtain ⟨x, rfl⟩ := List.length_eq_one_iff.mp hb
  rfl

theorem u16_fixed : Scan.Fixed u16 2 .truncated u16FromBe := by
  refine (bytes_fixed 2).bind fun b hb c => ?_
  obtain ⟨x, y, rfl⟩ := List.length_eq_two.mp hb
  rfl

theorem u32_fixed : Scan.Fixed u32 4 .truncated u32FromBe := by
  refine (bytes_fixed 4).bind fun b hb c => ?_
  match b, hb with
  | [_, _, _, _], _ => rfl

theorem u64_fixed : Scan.Fixed u64 8 .truncated u64FromBe := by
  refine (bytes_fixed 8).bind fun b hb c => ?_
  show (if b.length = 8 then pure (u64FromBe b) else check (orPanic none) : Reader UInt64) c = _
  rw [if_pos hb]
  rfl

theorem reads_bytes (v : Bytes) : Scan.Reads (bytes v.length) v v := (bytes_fixed _).reads rfl

theorem reads_u8 (b : UInt8) : Scan.Reads u8 [b] b := u8_fixed.reads rfl

theorem reads_u16 (v : UInt16) : Scan.Reads u16 (u16ToBe v) v := by
  simpa [u16FromBe_toBe] using u16_fixed.reads (u16ToBe_length v)

theorem reads_u32 (v : UInt32) : Scan.Reads u32 (u32ToBe v) v := by
  simpa [u32FromBe_toBe] using u32_fixed.reads (u32ToBe_length v)

theorem reads_u64 (v : UInt64) : Scan.Reads u64 (u64ToBe v) v := by
  simpa [u64FromBe_toBe] using u64_fixed.reads (u64ToBe_length v)

theorem accepts_u8 : Scan.Accepts u8 fun b v => v = [b] := by
  refine u8_fixed.accepts.mono fun b v ⟨hv, hb⟩ => ?_
  obtain ⟨x, rfl⟩ := List.length_eq_one_iff.mp hv
  rw [hb]
  rfl

theorem accepts_u16 : Scan.Accepts u16 fun x v => v = u16ToBe x := by
  refine u16_fixed.accepts.mono fun x v ⟨hv, hx⟩ => ?_
  rw [hx, u16ToBe_fromBe hv]

theorem accepts_u32 : Scan.Accepts u32 fun x v => v = u32ToBe x := by
  refine u32_fixed.accepts.mono fun x v ⟨hv, hx⟩ => ?_
  rw [hx, u32ToBe_fromBe hv]

theorem accepts_u64 : Scan.Accepts u64 fun x v => v = u64ToBe x := by
  refine u64_fixed.accepts.mono fun x v ⟨hv, hx⟩ => ?_
  rw [hx, u64ToBe_fromBe hv]

/-! ## Composite fields -/

theorem roomCode_fixed : Scan.Fixed roomCode roomCodeLen .truncated fun b =>
    if h : b.toArray.size = roomCodeLen then ⟨b.toArray, h⟩ else Vector.replicate _ 0 := by
  refine (bytes_fixed _).bind fun b hb c => ?_
  have h : b.toArray.size = roomCodeLen := by simpa using hb
  rw [dif_pos h, id_eq, dif_pos h]
  rfl

theorem reads_roomCode (code : Vector UInt8 roomCodeLen) :
    Scan.Reads roomCode code.toList code := by
  have h := roomCode_fixed.reads (v := code.toList) (by simp)
  rw [dif_pos (by simp)] at h
  exact h

theorem accepts_roomCode : Scan.Accepts roomCode fun code v => v = code.toList := by
  refine roomCode_fixed.accepts.mono fun code v ⟨hv, hc⟩ => ?_
  rw [hc, dif_pos (by simpa using hv)]
  simp

theorem reads_string {s : String} (hs : (asBytes s).length ≤ maxNameLen) :
    Scan.Reads string (encodeName s) s := by
  have hn : (UInt8.ofNat (asBytes s).length).toNat = (asBytes s).length :=
    UInt8.toNat_ofNat_of_lt' (Nat.lt_of_le_of_lt hs (by decide))
  refine (reads_u8 _).bind (v := asBytes s) (Scan.Reads.ite_neg (by omega) ?_)
  rw [hn]
  refine ((reads_bytes (asBytes s)).bind (v := []) ?_).cast (List.append_nil _)
  rw [fromUTF8_asBytes]
  exact Scan.Reads.pure s

theorem accepts_string : Scan.Accepts string fun s v =>
    v = encodeName s ∧ (asBytes s).length ≤ maxNameLen := by
  refine accepts_u8.bind fun n u hu => Scan.Accepts.ite (fun _ => Scan.Accepts.throw _ _) fun hn => ?_
  refine (bytes_fixed _).accepts.bind fun b w ⟨hw, hb⟩ => ?_
  rw [id_eq] at hb
  split
  · next s hs =>
    have hbs : asBytes s = b := asBytes_of_fromUTF8 hs
    have hlen : (asBytes s).length = n.toNat := by rw [hbs, hb, hw]
    refine Scan.Accepts.pure ⟨?_, by omega⟩
    rw [encodeName, hlen, hbs, UInt8.ofNat_toNat, hu, ← hb, List.append_nil]
    rfl
  · exact Scan.Accepts.throw _ _

theorem reads_playersLoop {ps : List PlayerInfo}
    (hps : ∀ p ∈ ps, (asBytes p.name).length ≤ maxNameLen) :
    Scan.Reads (playersLoop ps.length) (ps.flatMap PlayerInfo.encode) ps := by
  induction ps with
  | nil => exact Scan.Reads.pure []
  | cons p ps ih =>
    rw [List.flatMap_cons, PlayerInfo.encode, List.append_assoc]
    exact (reads_u16 p.id).bind ((reads_string (hps p (by simp))).bind
      ((ih fun q hq => hps q (by simp [hq])).bind_pure (p :: ·)))

theorem accepts_playersLoop (n : Nat) : Scan.Accepts (playersLoop n) fun ps v =>
    v = ps.flatMap PlayerInfo.encode ∧ ps.length = n ∧
      ∀ p ∈ ps, (asBytes p.name).length ≤ maxNameLen := by
  induction n with
  | zero => exact Scan.Accepts.pure ⟨rfl, rfl, by simp⟩
  | succ n ih =>
    refine accepts_u16.bind fun id u hu => accepts_string.bind fun name w ⟨hw, hname⟩ =>
      (ih.mono ?_).bind_pure
    rintro ps v ⟨hv, hlen, hnames⟩
    refine ⟨?_, by simp [hlen], ?_⟩
    · rw [hu, hw, hv, List.flatMap_cons, PlayerInfo.encode, List.append_assoc]
    · simpa [hname] using hnames

theorem reads_players {ps : List PlayerInfo} (hlen : ps.length ≤ maxClients + 1)
    (hps : ∀ p ∈ ps, (asBytes p.name).length ≤ maxNameLen) :
    Scan.Reads players (encodePlayers ps) ps := by
  have hn : (UInt8.ofNat ps.length).toNat = ps.length :=
    UInt8.toNat_ofNat_of_lt' (Nat.lt_of_le_of_lt hlen (by decide))
  refine (reads_u8 _).bind (v := ps.flatMap PlayerInfo.encode) (Scan.Reads.ite_neg (by omega) ?_)
  rw [hn]
  exact reads_playersLoop hps

theorem accepts_players : Scan.Accepts players fun ps v =>
    v = encodePlayers ps ∧ ps.length ≤ maxClients + 1 ∧
      ∀ p ∈ ps, (asBytes p.name).length ≤ maxNameLen := by
  refine accepts_u8.bind fun n u hu => Scan.Accepts.ite (fun _ => Scan.Accepts.throw _ _) fun hn => ?_
  refine (accepts_playersLoop _).mono fun ps v ⟨hv, hlen, hps⟩ => ⟨?_, by omega, hps⟩
  rw [encodePlayers, hlen, UInt8.ofNat_toNat, hu, hv]
  rfl

end Reader

/-! ## Bodies -/

namespace Control

/-- The packet's names and rosters are within the limits of the wire. -/
def Fits (c : Control) : Prop :=
  c.RosterFits ∧ ∀ name ∈ c.names, (asBytes name).length ≤ maxNameLen

theorem fits_wire {c : Control} (h : c.RosterFits) : c.wire.Fits := by
  cases c <;> simp_all [Fits, RosterFits, wire, names, PlayerInfo.wire, fitName_length_le]

theorem reads_readBody {c : Control} (h : c.Fits) :
    Scan.Reads (readBody c.packetType) c.encode c := by
  obtain ⟨hr, hn⟩ := h
  cases c with
  | hello protoVersion roomCode name codecMask frameMask =>
    exact (Reader.reads_u8 _).bind ((Reader.reads_roomCode _).bind
      ((Reader.reads_string (hn name (by simp [names]))).bind
        ((Reader.reads_u8 _).bind ((Reader.reads_u8 _).bind_pure _))))
  | welcome assignedId sessionId sampleRate frameSamples codec players =>
    exact (Reader.reads_u16 _).bind ((Reader.reads_u16 _).bind ((Reader.reads_u32 _).bind
      ((Reader.reads_u16 _).bind ((Reader.reads_u8 _).bind
        (Scan.Reads.lift_bind codec.tryFrom_toU8
          ((Reader.reads_players hr (by simpa [names] using hn)).bind_pure _))))))
  | deny reason =>
    exact ((Reader.reads_u8 _).bind
      (Scan.Reads.lift_bind reason.tryFrom_toU8 (Scan.Reads.pure (deny reason)))).cast (List.append_nil _)
  | ping t1Us => exact (Reader.reads_u64 _).bind_pure _
  | pong t1Us t2Us t3Us =>
    exact (Reader.reads_u64 _).bind ((Reader.reads_u64 _).bind ((Reader.reads_u64 _).bind_pure _))
  | keepalive => exact Scan.Reads.pure _
  | roster players => exact (Reader.reads_players hr (by simpa [names] using hn)).bind_pure _
  | bye => exact Scan.Reads.pure _
  | ack ackedSeq ackedType => exact (Reader.reads_u16 _).bind ((Reader.reads_u8 _).bind_pure _)

theorem accepts_readBody (t : PacketType) : Scan.Accepts (readBody t) fun c v =>
    v = c.encode ∧ c.packetType = t ∧ c.Fits := by
  cases t with
  | audio => exact Scan.Accepts.throw _ _
  | hello =>
    refine Reader.accepts_u8.bind fun _ _ h1 => Reader.accepts_roomCode.bind fun _ _ h2 =>
      Reader.accepts_string.bind fun name _ ⟨h3, hn⟩ => Reader.accepts_u8.bind fun _ _ h4 =>
        (Reader.accepts_u8.mono fun _ _ h5 => ?_).bind_pure
    subst h1 h2 h3 h4 h5
    exact ⟨rfl, rfl, trivial, by simpa [names] using hn⟩
  | welcome =>
    refine Reader.accepts_u16.bind fun _ _ h1 => Reader.accepts_u16.bind fun _ _ h2 =>
      Reader.accepts_u32.bind fun _ _ h3 => Reader.accepts_u16.bind fun _ _ h4 =>
        Reader.accepts_u8.bind fun b _ h5 => Scan.Accepts.lift_bind (Codec.tryFrom_ne_none b)
          fun codec hc => (Reader.accepts_players.mono fun _ _ ⟨h6, hr, hn⟩ => ?_).bind_pure
    rw [← Codec.toU8_of_tryFrom hc] at h5
    subst h1 h2 h3 h4 h5 h6
    exact ⟨rfl, rfl, hr, by simpa [names] using hn⟩
  | deny =>
    refine Reader.accepts_u8.bind fun b _ h1 => Scan.Accepts.lift_bind
      (DenyReason.tryFrom_ne_none b) fun reason hr => Scan.Accepts.pure ?_
    rw [← DenyReason.toU8_of_tryFrom hr] at h1
    subst h1
    exact ⟨rfl, rfl, trivial, by simp [names]⟩
  | ping =>
    refine (Reader.accepts_u64.mono fun _ _ h1 => ?_).bind_pure
    subst h1
    exact ⟨rfl, rfl, trivial, by simp [names]⟩
  | pong =>
    refine Reader.accepts_u64.bind fun _ _ h1 => Reader.accepts_u64.bind fun _ _ h2 =>
      (Reader.accepts_u64.mono fun _ _ h3 => ?_).bind_pure
    subst h1 h2 h3
    exact ⟨rfl, rfl, trivial, by simp [names]⟩
  | keepalive => exact Scan.Accepts.pure ⟨rfl, rfl, trivial, by simp [names]⟩
  | roster =>
    refine (Reader.accepts_players.mono fun _ _ ⟨h1, hr, hn⟩ => ?_).bind_pure
    subst h1
    exact ⟨rfl, rfl, hr, by simpa [names] using hn⟩
  | bye => exact Scan.Accepts.pure ⟨rfl, rfl, trivial, by simp [names]⟩
  | ack =>
    refine Reader.accepts_u16.bind fun _ _ h1 => (Reader.accepts_u8.mono fun _ _ h2 => ?_).bind_pure
    subst h1 h2
    exact ⟨rfl, rfl, trivial, by simp [names]⟩

end Control

end OnlineJam
