import OnlineJam.Proofs.HandshakeProofs
import OnlineJam.Proofs.JitterProofs
import OnlineJam.Proofs.PipelineProofs
import Mathlib.Data.List.Chain

/-!
# Proofs: redundancy repairs isolated losses

Every datagram that arrives pushes its own frame and the one before it, so by the time a position is
popped its frame has been pushed at least once, and all pushes for one position carry the same frame.
-/

namespace OnlineJam

open OnlineJam.Lib

/-! ## Receiving one datagram -/

theorem agrees_publishJitterUs {jb : JitterBuffer} {h : List JitterOp} (j : ℚ) (ha : Agrees jb h) :
    Agrees (jb.publishJitterUs j) h := ha

/-- The pushes that an accepted audio packet at position `pos` makes. -/
def receiveOps (cfg : RxConfig) (pos : Int) (audio : AudioPacket) : List JitterOp :=
  .push pos ⟨audio.timestamp, audio.payload⟩ ::
    match audio.redundant with
    | some red => [.push (pos - 1) ⟨audio.timestamp - UInt32.ofNat cfg.frameSamples, red⟩]
    | none => []

theorem agrees_receiveAudio {cfg : RxConfig} {nowUs : Nat} {jitter : ArrivalJitter}
    {stream : StreamShared} {header : Header} {audio : AudioPacket} {h : List JitterOp} {pos : Int}
    (hseq : header.seq = lowSeq pos) (hw : InWindow (h ++ receiveOps cfg pos audio))
    (ha : Agrees stream.jb h) :
    Agrees (receiveAudio cfg nowUs jitter stream header audio).2.jb (h ++ receiveOps cfg pos audio) := by
  rcases audio with ⟨timestamp, codec, payload, _ | red⟩
  · rw [receiveAudio, hseq]
    exact (Agrees.push hw (agrees_publishJitterUs _ ha)).2
  · have hops : h ++ receiveOps cfg pos ⟨timestamp, codec, payload, some red⟩ =
        (h ++ [.push pos ⟨timestamp, payload⟩]) ++
          [.push (pos - 1) ⟨timestamp - UInt32.ofNat cfg.frameSamples, red⟩] := by
      simp [receiveOps]
    rw [hops] at hw ⊢
    rw [receiveAudio, hseq]
    have h1 := (Agrees.push hw.init (agrees_publishJitterUs
      (jitter.onArrival nowUs (mediaUs cfg timestamp)).1 ha)).2
    have h2 := (Agrees.push hw h1).2
    rw [lowSeq_sub_one] at h2
    exact h2

/-- Routing an audio datagram whose session, sender and source address match. -/
theorem routeHost_audio (cfg : RxConfig) (nowUs t3Us : Nat) {rx : RxState} {shared : HostShared}
    {src : SocketAddr} {d : Bytes} {header : Header} {audio : AudioPacket} {slot : Fin maxClients}
    (hlen : d.length ≤ maxDatagram) (hparse : parseDatagram d = some (.ok (header, .audio audio)))
    (hsess : header.sessionId = shared.sessionId)
    (hslot : HostHandshake.slotOfSender header.senderId = some slot)
    (haddr : rx.clientAddrs slot = some src) :
    let r := receiveAudio cfg nowUs (rx.jitters slot) (shared.clients slot) header audio
    routeHost cfg nowUs t3Us rx shared src d =
      { rx := { rx with jitters := Function.update rx.jitters slot r.1 }
        shared := shared.setClient slot r.2, reply := none, event := none } := by
  simp only [routeHost, List.take_of_length_le hlen, hparse, hsess, hslot, haddr, ne_eq,
    not_true_eq_false, if_false]

/-! ## Schedules -/

theorem delivered_append_deliver (es : List PlayEvent) (i nowUs : Nat) :
    delivered (es ++ [.deliver i nowUs]) = delivered es ++ [i] := by
  simp [delivered]

theorem delivered_append_pop (es : List PlayEvent) : delivered (es ++ [.pop]) = delivered es := by
  simp [delivered]

theorem popCount_append_deliver (es : List PlayEvent) (i nowUs : Nat) :
    popCount (es ++ [.deliver i nowUs]) = popCount es := by
  simp [popCount]

theorem popCount_append_pop (es : List PlayEvent) : popCount (es ++ [.pop]) = popCount es + 1 := by
  simp [popCount]

namespace IsolatedLosses

theorem init {es : List PlayEvent} {e : PlayEvent} (h : IsolatedLosses (es ++ [e])) :
    IsolatedLosses es := by
  have hpre : ∃ l, delivered (es ++ [e]) = delivered es ++ l := by
    cases e with
    | deliver i nowUs => exact ⟨[i], delivered_append_deliver es i nowUs⟩
    | pop => exact ⟨[], by rw [delivered_append_pop, List.append_nil]⟩
  obtain ⟨l, hl⟩ := hpre
  refine ⟨fun i hi => h.first i ?_, ?_, ?_, ?_, ?_⟩
  · rw [hl]
    exact List.mem_head?_append_of_mem_head? hi
  · exact (List.pairwise_append.mp (hl ▸ h.order)).1
  · exact (hl ▸ h.gaps : List.IsChain _ (delivered es ++ l)).left_of_append
  · exact fun es₁ i nowUs es₂ he => h.window es₁ i nowUs (es₂ ++ [e]) (by rw [he]; simp)
  · exact fun es₁ es₂ he => h.ready es₁ (es₂ ++ [e]) (by rw [he]; simp)

theorem nil : IsolatedLosses [] where
  first := by simp [delivered]
  order := by simp [delivered]
  gaps := by simp [delivered]
  window := by simp
  ready := by simp

theorem append_deliver {es : List PlayEvent} {i : Nat} (nowUs : Nat) (h : IsolatedLosses es)
    (hfirst : delivered es = [] → i = 0) (hlt : ∀ j ∈ delivered es, j < i)
    (hgap : ∀ j ∈ (delivered es).getLast?, i ≤ j + 2) (hwin : i ≤ popCount es + 63) :
    IsolatedLosses (es ++ [.deliver i nowUs]) where
  first := by
    rw [delivered_append_deliver]
    cases hd : delivered es with
    | nil => simpa using hfirst hd
    | cons j js => exact fun k hk => h.first k (by rw [hd]; simpa using hk)
  order := by
    rw [delivered_append_deliver, List.pairwise_append]
    exact ⟨h.order, by simp, fun j hj k hk => List.mem_singleton.mp hk ▸ hlt j hj⟩
  gaps := by
    rw [delivered_append_deliver, List.isChain_append]
    exact ⟨h.gaps, by simp, fun j hj k hk => by
      obtain rfl := Option.some.inj hk
      exact hgap j hj⟩
  window := by
    intro es₁ k t es₂ he
    rcases Lib.split_append_singleton he with ⟨-, rfl, hk⟩ | ⟨es₂, -, he⟩
    · cases hk
      exact hwin
    · exact h.window es₁ k t es₂ he
  ready := by
    intro es₁ es₂ he
    rcases Lib.split_append_singleton he with ⟨-, -, hk⟩ | ⟨es₂, -, he⟩
    · cases hk
    · exact h.ready es₁ es₂ he

theorem append_pop {es : List PlayEvent} (h : IsolatedLosses es)
    (hready : popCount es ∈ delivered es ∨ popCount es + 1 ∈ delivered es) :
    IsolatedLosses (es ++ [.pop]) where
  first := by rw [delivered_append_pop]; exact h.first
  order := by rw [delivered_append_pop]; exact h.order
  gaps := by rw [delivered_append_pop]; exact h.gaps
  window := by
    intro es₁ k t es₂ he
    rcases Lib.split_append_singleton he with ⟨-, -, hk⟩ | ⟨es₂, -, he⟩
    · cases hk
    · exact h.window es₁ k t es₂ he
  ready := by
    intro es₁ es₂ he
    rcases Lib.split_append_singleton he with ⟨-, rfl, -⟩ | ⟨es₂, -, he⟩
    · exact hready
    · exact h.ready es₁ es₂ he

/-- A datagram comes after all that have arrived. -/
theorem lt_last {es : List PlayEvent} {i nowUs : Nat}
    (h : IsolatedLosses (es ++ [.deliver i nowUs])) : ∀ j ∈ delivered es, j < i := by
  have ho := h.order
  rw [delivered_append_deliver, List.pairwise_append] at ho
  exact fun j hj => ho.2.2 j hj i (by simp)

end IsolatedLosses

/-! ## The history behind a schedule -/

/-- What has been pushed and read so far, in terms of the schedule. -/
structure PlayHistory (p : ClientPipeline) (enc : Nat → Bytes) (es : List PlayEvent)
    (h : List JitterOp) : Prop where
  /-- Nothing is popped before the first datagram. -/
  quiet : delivered es = [] → popCount es = 0 ∧ readPos h = none
  pos : delivered es ≠ [] → readPos h = some (posAt p (popCount es))
  /-- The read position is at most one past an arrived datagram. -/
  close : popCount es = 0 ∨ ∃ i ∈ delivered es, popCount es ≤ i + 1
  /-- Every push for a frame's position carries that frame. -/
  pushes : ∀ i f, JitterOp.push (posAt p i) f ∈ h → f = ⟨clockAt p i, enc i⟩
  /-- An arrived datagram has pushed its frame and the one before. -/
  arrived : ∀ i ∈ delivered es, ∀ j, (j = i ∨ j + 1 = i) → ∃ f, JitterOp.push (posAt p j) f ∈ h

theorem firstFrame_of_mem {h : List JitterOp} {q : Int} {f g : Frame} (hm : .push q g ∈ h)
    (hall : ∀ g, .push q g ∈ h → g = f) : firstFrame h q = some f := by
  have hsome : (firstFrame h q).isSome := by
    rw [firstFrame, List.findSome?_isSome_iff]
    exact ⟨_, hm, by simp⟩
  obtain ⟨g', hg'⟩ := Option.isSome_iff_exists.mp hsome
  obtain ⟨op, hop, he⟩ := List.exists_of_findSome?_eq_some hg'
  cases op with
  | push q' f' =>
    simp only at he
    split_ifs at he with hq
    subst hq
    rw [hg', ← Option.some.inj he, hall f' hop]
  | pop => cases he
  | skip => cases he

theorem posAt_inj {p : ClientPipeline} {i j : Nat} (h : posAt p i = posAt p j) : i = j := by
  simp only [posAt] at h
  omega

section Play

variable {p : ClientPipeline} {enc : Nat → Bytes} {cfg : RxConfig}

/-- The packet of frame `i`. -/
def audioAt (p : ClientPipeline) (enc : Nat → Bytes) (i : Nat) : AudioPacket :=
  { timestamp := clockAt p i, codec := p.params.codec, payload := enc i,
    redundant := redundantAt p enc i }

/-- The redundant copy of frame `i + 1` is frame `i`. -/
theorem receiveOps_succ (hframe : cfg.frameSamples = p.params.frameSamples) (i : Nat) :
    receiveOps cfg (posAt p (i + 1)) (audioAt p enc (i + 1)) =
      [.push (posAt p (i + 1)) ⟨clockAt p (i + 1), enc (i + 1)⟩,
        .push (posAt p i) ⟨clockAt p i, enc i⟩] := by
  have hclk : clockAt p (i + 1) - UInt32.ofNat p.params.frameSamples = clockAt p i := by
    rw [clockAt_succ, UInt32.add_sub_cancel]
  have hpos : posAt p (i + 1) - 1 = posAt p i := by simp only [posAt]; omega
  simp only [receiveOps, audioAt, redundantAt, hframe, hclk, hpos]

/-- The read position does not pass a datagram that has not arrived. -/
theorem PlayHistory.popCount_le {es : List PlayEvent} {h : List JitterOp} {i nowUs : Nat}
    (hh : PlayHistory p enc es h) (hl : IsolatedLosses (es ++ [.deliver i nowUs])) :
    popCount es ≤ i := by
  rcases hh.close with h0 | ⟨j, hj, hle⟩
  · omega
  · have := hl.lt_last j hj
    omega

theorem PlayHistory.first_index {es : List PlayEvent} {i nowUs : Nat}
    (hl : IsolatedLosses (es ++ [.deliver i nowUs])) (he : delivered es = []) : i = 0 := by
  apply hl.first i
  rw [delivered_append_deliver, he]
  rfl

theorem readPos_receiveOps (h : List JitterOp) (pos : Int) (audio : AudioPacket) :
    readPos (h ++ receiveOps cfg pos audio) = some ((readPos h).getD pos) := by
  rcases audio with ⟨timestamp, codec, payload, _ | red⟩
  · exact readPos_append_push h pos _
  · have hops : h ++ receiveOps cfg pos ⟨timestamp, codec, payload, some red⟩ =
        (h ++ [.push pos ⟨timestamp, payload⟩]) ++
          [.push (pos - 1) ⟨timestamp - UInt32.ofNat cfg.frameSamples, red⟩] := by
      simp [receiveOps]
    rw [hops, readPos_append_push, readPos_append_push, Option.getD_some]

/-- An arriving datagram stays within the window of the ring. -/
theorem PlayHistory.inWindow (cfg : RxConfig) {es : List PlayEvent} {h : List JitterOp} {i nowUs : Nat}
    (henc : ∀ i, 1 ≤ (enc i).length ∧ (enc i).length ≤ 960) (hw : InWindow h)
    (hh : PlayHistory p enc es h) (hl : IsolatedLosses (es ++ [.deliver i nowUs])) :
    InWindow (h ++ receiveOps cfg (posAt p i) (audioAt p enc i)) := by
  have hsize : ∀ j, (enc j).length ≤ maxFrameBytes :=
    fun j => Nat.le_trans (henc j).2 (Nat.le_of_ble_eq_true rfl)
  have hpos : ∀ next, readPos h = some next → next ≤ posAt p i ∧ posAt p i ≤ next + 63 := by
    intro next hr
    by_cases he : delivered es = []
    · rw [(hh.quiet he).2] at hr
      cases hr
    · rw [hh.pos he] at hr
      have h1 := hh.popCount_le hl
      have h2 := hl.window es i nowUs [] rfl
      have h3 := Option.some.inj hr
      simp only [posAt] at h3 ⊢
      omega
  have hfirst : InWindow (h ++ [.push (posAt p i) ⟨clockAt p i, enc i⟩]) :=
    hw.append_push (hsize i) fun next hr => by have := hpos next hr; omega
  cases hr : redundantAt p enc i with
  | none =>
    rw [receiveOps, audioAt, hr]
    exact hfirst
  | some red =>
    have hred : red.length ≤ maxFrameBytes := by
      cases i with
      | zero => exact PrevFrame.get_length_le hr
      | succ i => exact Option.some.inj hr ▸ hsize i
    have hops : h ++ receiveOps cfg (posAt p i) (audioAt p enc i) =
        (h ++ [.push (posAt p i) ⟨clockAt p i, enc i⟩]) ++
          [.push (posAt p i - 1) ⟨clockAt p i - UInt32.ofNat cfg.frameSamples, red⟩] := by
      simp [receiveOps, audioAt, hr]
    rw [hops]
    refine hfirst.append_push hred fun next hn => ?_
    rw [readPos_append_push] at hn
    have hn := Option.some.inj hn
    cases hr' : readPos h with
    | none =>
      rw [hr', Option.getD_none] at hn
      omega
    | some next' =>
      have := hpos next' hr'
      rw [hr', Option.getD_some] at hn
      omega

/-- What an arriving datagram adds to the history. -/
theorem PlayHistory.deliver {es : List PlayEvent} {h : List JitterOp} {i nowUs : Nat}
    (hframe : cfg.frameSamples = p.params.frameSamples) (hh : PlayHistory p enc es h)
    (hl : IsolatedLosses (es ++ [.deliver i nowUs])) :
    PlayHistory p enc (es ++ [.deliver i nowUs])
      (h ++ receiveOps cfg (posAt p i) (audioAt p enc i)) where
  quiet := by
    rw [delivered_append_deliver]
    exact fun he => absurd he (by simp)
  pos := by
    intro _
    rw [readPos_receiveOps, popCount_append_deliver]
    by_cases he : delivered es = []
    · rw [(hh.quiet he).2, (hh.quiet he).1, PlayHistory.first_index hl he]
      rfl
    · rw [hh.pos he]
      rfl
  close := by
    rw [popCount_append_deliver, delivered_append_deliver]
    exact hh.close.imp_right fun ⟨j, hj, hle⟩ => ⟨j, by simp [hj], hle⟩
  pushes := by
    intro j f hm
    rcases List.mem_append.mp hm with hm | hm
    · exact hh.pushes j f hm
    · cases i with
      | zero =>
        -- The redundant copy of the first datagram lies before the start.
        simp only [receiveOps, audioAt] at hm
        rcases List.mem_cons.mp hm with hm | hm
        · obtain ⟨hq, rfl⟩ := JitterOp.push.inj hm
          rw [posAt_inj hq]
        · cases hr : redundantAt p enc 0 with
          | none => rw [hr] at hm; simp at hm
          | some red =>
            rw [hr] at hm
            have hq := (JitterOp.push.inj (List.mem_singleton.mp hm)).1
            simp only [posAt] at hq
            omega
      | succ i =>
        rw [receiveOps_succ hframe] at hm
        rcases List.mem_cons.mp hm with hm | hm
        · obtain ⟨hq, rfl⟩ := JitterOp.push.inj hm
          rw [posAt_inj hq]
        · obtain ⟨hq, rfl⟩ := JitterOp.push.inj (List.mem_singleton.mp hm)
          rw [posAt_inj hq]
  arrived := by
    intro j hj k hk
    rw [delivered_append_deliver, List.mem_append, List.mem_singleton] at hj
    rcases hj with hj | rfl
    · obtain ⟨f, hf⟩ := hh.arrived j hj k hk
      exact ⟨f, List.mem_append_left _ hf⟩
    · rcases hk with rfl | rfl
      · exact ⟨_, List.mem_append_right _ (List.mem_cons_self ..)⟩
      · rw [receiveOps_succ hframe]
        exact ⟨⟨clockAt p k, enc k⟩, List.mem_append_right _ (by simp)⟩

/-- A pop finds the frame of its position. -/
theorem PlayHistory.pop {es : List PlayEvent} {h : List JitterOp} (hh : PlayHistory p enc es h)
    (hl : IsolatedLosses (es ++ [.pop])) :
    specPop h = .frame (enc (popCount es)) (clockAt p (popCount es)) ∧
      PlayHistory p enc (es ++ [.pop]) (h ++ [.pop]) := by
  have hready := hl.ready es [] rfl
  have hne : delivered es ≠ [] := by
    intro he
    rw [he] at hready
    simp at hready
  obtain ⟨f, hf⟩ : ∃ f, JitterOp.push (posAt p (popCount es)) f ∈ h := by
    rcases hready with hr | hr
    · exact hh.arrived _ hr _ (Or.inl rfl)
    · exact hh.arrived _ hr _ (Or.inr rfl)
  have hfirst := firstFrame_of_mem hf fun g hg => hh.pushes _ g hg
  refine ⟨?_, ?_, ?_, ?_, ?_, ?_⟩
  · rw [specPop, hh.pos hne, Option.bind_some, hfirst]
  · rw [delivered_append_pop]
    exact fun he => absurd he hne
  · intro _
    rw [readPos_append_read h .pop rfl, hh.pos hne, popCount_append_pop]
    simp only [Option.map_some, posAt, Nat.cast_add, Nat.cast_one, Int.add_assoc]
  · rw [popCount_append_pop, delivered_append_pop]
    refine Or.inr (hready.elim (fun hr => ⟨_, hr, le_rfl⟩) fun hr => ⟨_, hr, by omega⟩)
  · intro i g hg
    refine hh.pushes i g ?_
    simpa using hg
  · rw [delivered_append_pop]
    intro i hi j hj
    obtain ⟨g, hg⟩ := hh.arrived i hi j hj
    exact ⟨g, List.mem_append_left _ hg⟩

theorem PlayHistory.nil : PlayHistory p enc [] [] where
  quiet := fun _ => ⟨rfl, rfl⟩
  pos := fun h => absurd rfl h
  close := Or.inl rfl
  pushes := by simp
  arrived := by simp [delivered]

end Play

/-! ## Main result -/

section Main

variable {p : ClientPipeline} {client : ClientShared} {enc : Nat → Bytes} {cfg : RxConfig}
  {src : SocketAddr} {slot : Fin maxClients} {sessionId : UInt16} {dgram : Nat → Bytes}

/-- The datagrams are those of the pipeline. -/
def Emits (p : ClientPipeline) (enc : Nat → Bytes) (slot : Fin maxClients) (sessionId : UInt16)
    (dgram : Nat → Bytes) : Prop :=
  ∀ i, (dgram i).length ≤ maxDatagram ∧ parseDatagram (dgram i) = some (.ok
    ({ ptype := .audio, sessionId := sessionId, senderId := HostHandshake.senderId slot,
       seq := lowSeq (posAt p i) }, .audio (audioAt p enc i)))

/-- The host's end after a schedule. -/
structure PlayInv (p : ClientPipeline) (enc : Nat → Bytes) (src : SocketAddr)
    (slot : Fin maxClients) (sessionId : UInt16) (es : List PlayEvent) (st : PlayState) : Prop where
  addr : st.rx.clientAddrs slot = some src
  session : st.shared.sessionId = sessionId
  popped : st.popped = (List.range (popCount es)).map fun i => .frame (enc i) (clockAt p i)
  hist : ∃ h, InWindow h ∧ Agrees (st.shared.clients slot).jb h ∧ PlayHistory p enc es h

theorem PlayInv.deliver {es : List PlayEvent} {st : PlayState} {i nowUs : Nat}
    (henc : ∀ i, 1 ≤ (enc i).length ∧ (enc i).length ≤ 960)
    (hframe : cfg.frameSamples = p.params.frameSamples) (hd : Emits p enc slot sessionId dgram)
    (hl : IsolatedLosses (es ++ [.deliver i nowUs])) (hi : PlayInv p enc src slot sessionId es st) :
    PlayInv p enc src slot sessionId (es ++ [.deliver i nowUs])
      (st.step cfg src slot dgram (.deliver i nowUs)) := by
  obtain ⟨haddr, hsess, hpop, h, hw, ha, hh⟩ := hi
  obtain ⟨hlen, hparse⟩ := hd i
  have hroute := routeHost_audio cfg nowUs nowUs hlen hparse hsess.symm
    (HostHandshake.slotOfSender_senderId slot) haddr
  have hw' := hh.inWindow cfg henc hw hl
  simp only [PlayState.step, hroute]
  refine ⟨haddr, hsess, ?_, _, hw', ?_, hh.deliver hframe hl⟩
  · rw [popCount_append_deliver]
    exact hpop
  · simp only [HostShared.setClient, Function.update_self]
    exact agrees_receiveAudio rfl hw' ha

theorem PlayInv.pop (cfg : RxConfig) (dgram : Nat → Bytes) {es : List PlayEvent} {st : PlayState}
    (hl : IsolatedLosses (es ++ [.pop])) (hi : PlayInv p enc src slot sessionId es st) :
    PlayInv p enc src slot sessionId (es ++ [.pop]) (st.step cfg src slot dgram .pop) := by
  obtain ⟨haddr, hsess, hpop, h, hw, ha, hh⟩ := hi
  obtain ⟨hout, hh'⟩ := hh.pop hl
  obtain ⟨hp, ha'⟩ := ha.pop hw
  refine ⟨haddr, hsess, ?_, h ++ [.pop], hw.append_read rfl, ?_, hh'⟩
  · rw [popCount_append_pop, List.range_succ, List.map_append, ← hpop, List.map_singleton, ← hout,
      ← hp]
    rfl
  · simp only [PlayState.step, HostShared.setClient, Function.update_self]
    exact ha'

theorem playInv_run (henc : ∀ i, 1 ≤ (enc i).length ∧ (enc i).length ≤ 960)
    (hframe : cfg.frameSamples = p.params.frameSamples) (hd : Emits p enc slot sessionId dgram)
    {st : PlayState} (h0 : PlayInv p enc src slot sessionId [] st) {es : List PlayEvent}
    (hl : IsolatedLosses es) :
    PlayInv p enc src slot sessionId es (es.foldl (PlayState.step cfg src slot dgram) st) := by
  induction es using List.reverseRecOn with
  | nil => exact h0
  | append_singleton es e ih =>
    rw [List.foldl_append]
    cases e with
    | deliver i nowUs => exact (ih hl.init).deliver henc hframe hd hl
    | pop => exact (ih hl.init).pop cfg dgram hl

/-- Redundancy repairs every isolated loss: whatever selection of the emitted datagrams arrives, the
`i`-th pop returns the encoding and the timestamp of frame `i`. -/
theorem redundancy_repairs_losses (p : ClientPipeline) (client : ClientShared) (enc : Nat → Bytes)
    (cfg : RxConfig) (src : SocketAddr) (slot : Fin maxClients) (rx : RxState) (shared : HostShared)
    (hj : client.joined = true) (hid : client.senderId = HostHandshake.senderId slot)
    (hsess : client.sessionId = shared.sessionId) (hred : p.params.redundancy = true)
    (henc : ∀ i, 1 ≤ (enc i).length ∧ (enc i).length ≤ 960)
    (hframe : cfg.frameSamples = p.params.frameSamples) (haddr : rx.clientAddrs slot = some src)
    (hfresh : (shared.clients slot).jb = JitterBuffer.new) :
    ∃ dgram : Nat → Bytes,
      (∀ i, emittedAt p client enc i = some (dgram i) ∧ (dgram i).length ≤ maxDatagram) ∧
      ∀ es, IsolatedLosses es →
        (es.foldl (PlayState.step cfg src slot dgram) ⟨rx, shared, []⟩).popped =
          (List.range (popCount es)).map fun i =>
            .frame (enc i) (p.sampleClock + UInt32.ofNat (i * p.params.frameSamples)) := by
  choose dgram hem hlen hparse using emittedAt_spec client hj hred henc
  have hd : Emits p enc slot shared.sessionId dgram := by
    intro i
    rw [hparse i, hsess, hid]
    exact ⟨hlen i, rfl⟩
  have h0 : PlayInv p enc src slot shared.sessionId [] ⟨rx, shared, []⟩ :=
    ⟨haddr, rfl, rfl, [], InWindow.nil, hfresh ▸ Agrees.new, PlayHistory.nil⟩
  exact ⟨dgram, fun i => ⟨hem i, hlen i⟩, fun es hl => (playInv_run henc hframe hd h0 hl).popped⟩

/-- A stream whose sequence numbers wrap and whose second datagram is lost. -/
theorem redundancy_repairs_losses_wrap :
    ∃ dgram : Nat → Bytes,
      ([.deliver 0 0, .pop, .deliver 2 5000, .pop, .pop].foldl
        (PlayState.step ⟨120, 48000⟩ (.v4 0x0A000002 5000) 2 dgram)
        ⟨{ RxState.new with clientAddrs := fun _ => some (.v4 0x0A000002 5000) },
          HostShared.new 77, []⟩).popped =
      [.frame [0, 9] 4294967200, .frame [1, 9] 24, .frame [2, 9] 144] := by
  have hl : IsolatedLosses [.deliver 0 0, .pop, .deliver 2 5000, .pop, .pop] := by
    have h1 : IsolatedLosses [.deliver 0 0] :=
      IsolatedLosses.nil.append_deliver 0 (by decide) (by decide) (by decide) (by decide)
    have h2 : IsolatedLosses [.deliver 0 0, .pop] := h1.append_pop (by decide)
    have h3 : IsolatedLosses [.deliver 0 0, .pop, .deliver 2 5000] :=
      h2.append_deliver 5000 (by decide) (by decide) (by decide) (by decide)
    have h4 : IsolatedLosses [.deliver 0 0, .pop, .deliver 2 5000, .pop] := h3.append_pop (by decide)
    exact h4.append_pop (by decide)
  obtain ⟨dgram, -, hplay⟩ := redundancy_repairs_losses
    { params := ⟨48000, 120, .opus, true⟩, seq := ⟨65535⟩, prevEnc := PrevFrame.new,
      sampleClock := 4294967200 }
    { ClientShared.new with joined := true, senderId := 3, sessionId := 77 }
    (fun i => [UInt8.ofNat i, 9]) ⟨120, 48000⟩ (.v4 0x0A000002 5000) 2
    { RxState.new with clientAddrs := fun _ => some (.v4 0x0A000002 5000) } (HostShared.new 77) rfl rfl rfl rfl
    (fun i => ⟨by simp, by simp⟩) rfl rfl rfl
  exact ⟨dgram, hplay _ hl⟩

end Main

end OnlineJam
