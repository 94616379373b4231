import OnlineJam.Proofs.CodecProofs
import OnlineJam.Proofs.LineProofs
import OnlineJam.Proofs.MixProofs

/-!
# Proofs: a session is players joined by lines

Everything between a microphone and the mixes it gets into is one link, and a step of the session moves
each link as it moves the line.
-/

namespace OnlineJam

variable {n : Nat} {ε σ : Type}

/-! ## The senders -/

/-- What a sending half makes of one frame: nothing, or a datagram with the next number. -/
inductive Sends (sessionId senderId : UInt16) (active : Bool) (encoded : Option Bytes) (seq : SeqGen) :
    SeqGen → List Bytes → Prop
  | silent (h : active = false ∨ encoded = none) : Sends sessionId senderId active encoded seq seq []
  | frame {payload dgram : Bytes} (hactive : active = true) (hencoded : encoded = some payload)
      (h : ∀ pos, seq.val = lowSeq pos → Carries (audioHeader sessionId senderId pos) dgram payload) :
      Sends sessionId senderId active encoded seq seq.next.2 [dgram]

theorem Sends.eq_nil {sessionId senderId : UInt16} {encoded : Option Bytes} {seq seq' : SeqGen}
    {sent : List Bytes} (h : Sends sessionId senderId false encoded seq seq' sent) : sent = [] := by
  cases h with
  | silent => rfl
  | frame hactive => cases hactive

theorem Sends.of_write (sessionId senderId : UInt16) (seq : SeqGen) (timestamp : UInt32)
    (params : EngineParams) {payload : Bytes} (hlen : payload.length ≤ 960) (prev : PrevFrame) :
    ∃ dgram, writeAudioDatagram sessionId senderId seq.next.1 timestamp params payload
        (if params.redundancy then prev.get else none) = some dgram ∧
      Sends sessionId senderId true (some payload) seq seq.next.2 [dgram] := by
  obtain ⟨dgram, hwrite, -⟩ := writeAudioDatagram_carries sessionId senderId (lowSeq_natCast seq.val).symm
    timestamp params hlen prev
  refine ⟨dgram, hwrite, .frame rfl rfl fun pos hpos => ?_⟩
  obtain ⟨dgram', hwrite', hcarries⟩ := writeAudioDatagram_carries sessionId senderId hpos timestamp params
    hlen prev
  obtain rfl := Option.some.inj (hwrite.symm.trans hwrite')
  exact hcarries

theorem PrevFrame.store_of_le {data : Bytes} (prev : PrevFrame) (h : data.length ≤ 960) :
    ∃ prev', prev.store data = some prev' := ⟨_, dif_pos (h.trans (by decide))⟩

theorem ClientPipeline.processFrame_sends (p : ClientPipeline) (shared : ClientShared) {encoded : Option Bytes}
    (hlen : ∀ payload, encoded = some payload → payload.length ≤ 960) :
    ∃ dgram q, p.processFrame shared encoded = some (dgram, q) ∧
      Sends shared.sessionId shared.senderId shared.joined encoded p.seq q.seq dgram.toList := by
  unfold ClientPipeline.processFrame ClientPipeline.sendFrame
  by_cases hj : shared.joined = true
  · rw [if_pos hj, hj]
    cases encoded with
    | none => exact ⟨_, _, rfl, .silent (Or.inr rfl)⟩
    | some payload =>
      obtain ⟨dgram, hwrite, hsends⟩ := Sends.of_write shared.sessionId shared.senderId p.seq p.sampleClock
        p.params (hlen payload rfl) p.prevEnc
      obtain ⟨prev, hstore⟩ := p.prevEnc.store_of_le (hlen payload rfl)
      simp only [hwrite, hstore, Option.bind_eq_bind, Option.bind_some, Option.pure_def]
      exact ⟨_, _, rfl, hsends⟩
  · rw [if_neg hj]
    exact ⟨_, _, rfl, .silent (Or.inl (Bool.eq_false_iff.mpr hj))⟩

namespace HostPipeline

theorem sendFrame_sends (p : HostPipeline) (shared : HostShared) (c : Fin maxClients)
    {encoded : Option Bytes} (hlen : ∀ payload, encoded = some payload → payload.length ≤ 960) :
    ∃ dgram q, p.sendFrame shared c encoded = some (dgram, q) ∧
      Sends shared.sessionId hostSenderId (p.lastActive c) encoded (p.seqs c) (q.seqs c) dgram.toList ∧
      q.lastActive = p.lastActive ∧ ∀ d, d ≠ c → q.seqs d = p.seqs d := by
  unfold HostPipeline.sendFrame
  by_cases ha : p.lastActive c = true
  · rw [if_pos ha, ha]
    cases encoded with
    | none => exact ⟨_, _, rfl, .silent (Or.inr rfl), rfl, fun _ _ => rfl⟩
    | some payload =>
      obtain ⟨dgram, hwrite, hsends⟩ := Sends.of_write shared.sessionId hostSenderId (p.seqs c) p.sampleClock
        p.params (hlen payload rfl) (p.prevEnc c)
      obtain ⟨prev, hstore⟩ := (p.prevEnc c).store_of_le (hlen payload rfl)
      simp only [hwrite, hstore, Option.bind_eq_bind, Option.bind_some, Option.pure_def]
      refine ⟨_, _, rfl, ?_, rfl, fun d hd => Function.update_of_ne hd _ _⟩
      dsimp only
      rw [Function.update_self]
      exact hsends
  · rw [if_neg ha]
    exact ⟨_, _, rfl, .silent (Or.inl (Bool.eq_false_iff.mpr ha)), rfl, fun _ _ => rfl⟩

theorem addressed_append (xs ys : List (UInt8 × Bytes)) (c : Fin maxClients) :
    Jam.addressed (xs ++ ys) c = Jam.addressed xs c ++ Jam.addressed ys c := by
  simp [Jam.addressed]

theorem addressed_slot (dgram : Option Bytes) (c d : Fin maxClients) :
    Jam.addressed (dgram.toList.map fun bytes => (UInt8.ofNat c.val, bytes)) d =
      if d = c then dgram.toList else [] := by
  have hslot : UInt8.ofNat c.val = UInt8.ofNat d.val ↔ d = c := by
    revert c d
    decide
  cases dgram with
  | none => simp [Jam.addressed]
  | some dgram =>
    by_cases hd : d = c
    · simp [Jam.addressed, hd]
    · simp [Jam.addressed, hslot, hd]

/-- The loop of step 3: the datagrams for each client are its own. -/
theorem sendFrames_sends (shared : HostShared) {encoded : Fin maxClients → Option Bytes}
    (hlen : ∀ c payload, encoded c = some payload → payload.length ≤ 960)
    {cs : List (Fin maxClients)} (hcs : cs.Nodup) (p : HostPipeline) :
    ∃ emitted q, sendFrames shared (Vector.ofFn encoded) cs p = some (emitted, q) ∧ q.lastActive = p.lastActive ∧
      (∀ c ∈ cs, Sends shared.sessionId hostSenderId (p.lastActive c) (encoded c) (p.seqs c) (q.seqs c)
        (Jam.addressed emitted c)) ∧
      ∀ c ∉ cs, q.seqs c = p.seqs c ∧ Jam.addressed emitted c = [] := by
  induction cs generalizing p with
  | nil => exact ⟨[], p, rfl, rfl, fun c hc => (by cases hc), fun c _ => ⟨rfl, rfl⟩⟩
  | cons c cs ih =>
    obtain ⟨hc, hcs⟩ := List.nodup_cons.mp hcs
    obtain ⟨dgram, q, hsend, hsends, hactive, hother⟩ := p.sendFrame_sends shared c (hlen c)
    obtain ⟨emitted, r, hrest, hactive', hin, hout⟩ := ih hcs q
    refine ⟨dgram.toList.map (fun bytes => (UInt8.ofNat c.val, bytes)) ++ emitted, r, ?_,
      hactive'.trans hactive, fun d hd => ?_, fun d hd => ?_⟩
    · simp only [sendFrames, Fin.getElem_fin, Vector.getElem_ofFn, hsend, hrest, Option.bind_eq_bind,
        Option.bind_some, Option.pure_def]
    · rw [addressed_append, addressed_slot]
      by_cases heq : d = c
      · subst heq
        obtain ⟨hseq, hnone⟩ := hout d hc
        rw [if_pos rfl, hseq, hnone, List.append_nil]
        exact hsends
      · have hmem : d ∈ cs := (List.mem_cons.mp hd).resolve_left heq
        rw [if_neg heq, List.nil_append, ← hother d heq, ← hactive]
        exact hin d hmem
    · rw [List.mem_cons, not_or] at hd
      obtain ⟨hseq, hnone⟩ := hout d hd.2
      rw [addressed_append, addressed_slot, if_neg hd.1, hnone]
      exact ⟨hseq.trans (hother d hd.1), rfl⟩

end HostPipeline

theorem Line.send_eq (codec : AudioCodec n ε σ) (l : Line n ε σ) (x : Samples n) : l.send codec x =
    { l with
      encoder := (codec.encode l.encoder x).2
      flying := l.flying ++ (codec.encode l.encoder x).1.toList } := rfl

/-- A sender whose link is at the line, and a frame. -/
theorem Link.sends {codec : AudioCodec n ε σ} (hcodec : codec.Sound) {sessionId senderId : UInt16}
    {depth : Nat} {seq seq' : SeqGen} {encoder : ε} {dgrams sent : List Bytes} {jb : JitterBuffer}
    {sp : StreamPlayout n σ} {l : Line n ε σ}
    (h : Link codec sessionId senderId depth seq encoder dgrams jb sp l) {x : Samples n}
    (hs : Sends sessionId senderId true (codec.encode encoder x).1 seq seq' sent) :
    Link codec sessionId senderId depth seq' (codec.encode encoder x).2 (dgrams ++ sent) jb sp
      (l.send codec x) := by
  obtain ⟨pos, hpos, hgrow⟩ := h.position
  rw [Line.send_eq, ← h.encoder]
  generalize hencode : codec.encode encoder x = r at hs ⊢
  obtain ⟨encoded, encoder'⟩ := r
  dsimp only at hs ⊢
  cases hs with
  | silent hnone =>
    obtain rfl := hnone.resolve_left fun htrue => by cases htrue
    rw [List.append_nil, Option.toList_none, List.append_nil]
    exact ⟨⟨h.plays.controller, h.plays.primed, h.plays.insertPending, h.plays.driftEnabled,
      h.plays.decoder, h.plays.decodeBuf⟩, rfl, h.stream, h.room, h.decodes⟩
  | frame _ hencoded hcarries =>
    rename_i payload dgram
    subst hencoded
    exact hgrow _ _ (hcarries pos hpos) (hcodec.decodes encoder x _ (congrArg Prod.fst hencode)) _

/-! ## The receive thread of a client -/

theorem routeClient_audio (cfg : RxConfig) (hostAddr : SocketAddr) (nowUs t3Us : Nat) (rx : RxState)
    {shared : ClientShared} {d : Bytes} {header : Header} {audio : AudioPacket}
    (hlen : d.length ≤ maxDatagram) (hparse : parseDatagram d = some (.ok (header, .audio audio)))
    (hsender : header.senderId = hostSenderId) (hjoined : shared.joined = true)
    (hsession : header.sessionId = shared.sessionId) :
    let r := receiveAudio cfg nowUs (rx.jitters 0) shared.fromHost header audio
    routeClient cfg hostAddr nowUs t3Us rx shared hostAddr d =
      { rx := { rx with jitters := Function.update rx.jitters 0 r.1 }
        shared := { shared with fromHost := r.2 }, reply := none, event := none } := by
  simp only [routeClient, List.take_of_length_le hlen, hparse, hsender, hjoined, hsession, ne_eq,
    not_true_eq_false, or_self, if_false]

/-! ## The mixer -/

/-- Of the streams, the mixing looks at the `active` flags only. -/
theorem HostMixer.processFrame_congr (m : HostMixer n) {x y : MixInput n} (hactive : x.active = y.active)
    (hclients : ∀ c, (x.shared.clients c).active = (y.shared.clients c).active)
    (hgains : x.shared.gains = y.shared.gains) (hmuted : x.shared.muted = y.shared.muted)
    (hsoloed : x.shared.soloed = y.shared.soloed) (hmonitor : x.monitorGain = y.monitorGain)
    (hlocal : x.localIn = y.localIn) (hdecoded : x.decoded = y.decoded) :
    m.processFrame x = m.processFrame y := by
  have hcounts : x.shared.soloCounts = y.shared.soloCounts := by
    funext p
    rw [HostShared.soloCounts, HostShared.soloCounts, hmuted]
    simp only [hclients]
  have hsolo : x.shared.anySolo = y.shared.anySolo := by
    rw [HostShared.anySolo, HostShared.anySolo, hsoloed, hcounts]
  have htarget : gainTarget x.shared = gainTarget y.shared := by
    funext anySolo p
    rw [gainTarget, gainTarget, HostShared.inMix, HostShared.inMix, hgains, hmuted, hsoloed]
  have hpull : m.pull x = m.pull y := by
    rw [pull, pull, hactive, hdecoded]
  have hmix : ∀ (m : HostMixer n) localIn, m.mixAll x.shared localIn = m.mixAll y.shared localIn := by
    intro m localIn
    have hclient : mixClient (n := n) x.shared = mixClient y.shared := by
      unfold mixClient
      rw [htarget]
    unfold mixAll mixLocal
    rw [hsolo, hclient, htarget]
  rw [processFrame, processFrame, hpull, hmix, hmonitor, hlocal]

theorem HostMixer.processFrame_lastActive (m : HostMixer n) (x : MixInput n) :
    (m.processFrame x).2.lastActive = x.active := by
  have hframe : ∀ m' : HostMixer n, (m'.hostFrame x.localIn x.monitorGain).2.lastActive = m'.lastActive := by
    intro m'
    unfold hostFrame
    split <;> rfl
  exact (hframe (m.mixed x)).trans (m.mixes_mixed x).lastActive

/-- There is a frame for each client that is active, and for nobody else. -/
theorem HostMixer.processFrame_clientOut_isSome (m : HostMixer n) (x : MixInput n) (c : Fin maxClients) :
    ((m.processFrame x).1.clientOut c).isSome = x.active c := by
  have hactive := congrFun (m.mixes_mixed x).lastActive c
  show ((m.mixed x).clientFrame c).isSome = x.active c
  rw [clientFrame, hactive]
  show (if x.active c = true then _ else _ : Option (Samples n)).isSome = x.active c
  cases x.active c <;> rfl

/-- A tick, given what the mixer and the sending half make of it. -/
theorem HostAudio.processFrame_eq (codec : AudioCodec n ε σ) (a : HostAudio n ε σ) (shared : HostShared)
    (monitorGain : ℚ) (localIn : Samples n) {mixed : MixOutput n × HostMixer n}
    (hmix : a.mixer.processFrame
      { active := fun c => (a.pull codec shared c).2.2.active
        shared := { shared with clients := fun c => (a.pull codec shared c).2.2 }
        monitorGain := monitorGain
        localIn := localIn
        decoded := fun c => (a.pull codec shared c).1 } = mixed)
    {emitted : List (UInt8 × Bytes)} {sender : HostPipeline}
    (hsend : a.sender.processFrame { shared with clients := fun c => (a.pull codec shared c).2.2 }
      (Vector.ofFn fun c => (encodeClient codec (a.encoders c) (mixed.1.clientOut c)).1) =
        some (emitted, sender)) :
    a.processFrame codec shared monitorGain localIn = some ((mixed.1.toHost, emitted),
      { playouts := fun c => (a.pull codec shared c).2.1
        encoders := fun c => (encodeClient codec (a.encoders c) (mixed.1.clientOut c)).2
        mixer := mixed.2
        sender := sender },
      { shared with clients := fun c => (a.pull codec shared c).2.2 }) := by
  obtain ⟨out, mixer⟩ := mixed
  unfold processFrame
  dsimp only at hsend ⊢
  rw [hmix]
  dsimp only
  rw [hsend]
  rfl

/-! ## The session -/

/-- What a client keeps for its own output. -/
def ClientAudio.listener (a : ClientAudio n ε σ) : Listener :=
  { master := a.masterSmoother, monitor := a.monitorSmoother }

namespace Jam

variable (codec : AudioCodec n ε σ) (cfg : JamConfig)

/-- A client and the lines that end at it. -/
structure Tracks (c : Fin maxClients) (client : JamClient n ε σ) (i : IdealJam n ε σ) : Prop where
  joined : client.shared.joined = cfg.present c
  senderId : client.shared.senderId = HostHandshake.senderId c
  sessionId : client.shared.sessionId = cfg.sessionId
  monitor : client.audio.monitor = cfg.monitor c.succ
  listener : client.audio.listener = i.listeners c
  fresh : cfg.present c = true → client.audio.wasJoined = false → (i.down c).playing = false

/-- The session is at the point at which the players on their lines are. -/
structure Mirrors (j : Jam n ε σ) (i : IdealJam n ε σ) : Prop where
  mixer : j.host.mixer = i.mixer
  active : ∀ c, (j.shared.clients c).active = cfg.present c
  session : j.shared.sessionId = cfg.sessionId
  addrs : ∀ c, cfg.present c = true → j.rx.clientAddrs c = some (cfg.addr c)
  fresh : ∀ c, cfg.present c = true → i.mixer.lastActive c = false → (i.up c).playing = false
  clients : ∀ c, Tracks cfg c (j.clients c) i
  up : ∀ c, cfg.present c = true →
    Link codec cfg.sessionId (HostHandshake.senderId c) (cfg.depth hostPlayer) (j.clients c).audio.sender.seq
      (j.clients c).audio.encoder (j.up c) (j.shared.clients c).jb (j.host.playouts c) (i.up c)
  down : ∀ c, cfg.present c = true →
    Link codec cfg.sessionId hostSenderId (cfg.depth c.succ) (j.host.sender.seqs c) (j.host.encoders c)
      (j.down c) (j.clients c).shared.fromHost.jb (j.clients c).audio.playout (i.down c)
  absent : ∀ c, cfg.present c = false → j.up c = [] ∧ j.down c = []

theorem plays_newPlayout (encoder : ε) (decoder : σ) (p : Fin (maxClients + 1)) :
    Plays (n := n) (cfg.depth p) (newPlayout cfg decoder p) (Line.new encoder decoder) :=
  ⟨⟨rfl, rfl, rfl, rfl, rfl⟩, rfl, rfl, rfl, rfl, rfl⟩

/-- At the start everything is in its place. -/
theorem mirrors_start (encoder : ε) (decoder : σ) :
    Mirrors codec cfg (start (n := n) cfg encoder decoder) (IdealJam.start cfg encoder decoder) where
  mixer := rfl
  active := fun _ => rfl
  session := rfl
  addrs := fun _ hc => if_pos hc
  fresh := fun _ _ _ => rfl
  clients := fun _ => ⟨rfl, rfl, rfl, rfl, rfl, fun _ _ => rfl⟩
  up := fun _ _ => Link.new codec _ _ _ encoder (plays_newPlayout cfg encoder decoder hostPlayer)
  down := fun c _ => Link.new codec _ _ _ encoder (plays_newPlayout cfg encoder decoder c.succ)
  absent := fun _ _ => ⟨rfl, rfl⟩

variable {codec cfg} {j : Jam n ε σ} {i : IdealJam n ε σ}

/-! ### Datagrams arrive -/

/-- Everything of the ideal session but one line of a client stays. -/
theorem Tracks.of_up {c : Fin maxClients} {client : JamClient n ε σ} (h : Tracks cfg c client i)
    (up : Fin maxClients → Line n ε σ) : Tracks cfg c client { i with up := up } :=
  ⟨h.joined, h.senderId, h.sessionId, h.monitor, h.listener, h.fresh⟩

theorem Mirrors.deliverUp (h : Mirrors codec cfg j i) {c : Fin maxClients} (nowUs : Nat)
    (hroom : (i.up c).HasRoom (cfg.depth hostPlayer)) :
    Mirrors codec cfg (j.deliverUp cfg c nowUs)
      { i with up := Function.update i.up c (i.up c).deliver } := by
  have hfresh : ∀ d, cfg.present d = true → i.mixer.lastActive d = false →
      (Function.update i.up c (i.up c).deliver d).playing = false := by
    intro d hp hd
    by_cases hdc : d = c
    · subst hdc
      rw [Function.update_self, Line.deliver_playing]
      exact h.fresh d hp hd
    · rw [Function.update_of_ne hdc]
      exact h.fresh d hp hd
  unfold Jam.deliverUp
  split
  · rename_i dgram flying hup
    have hc : cfg.present c = true := by
      by_contra hc
      rw [(h.absent c (Bool.eq_false_iff.mpr hc)).1] at hup
      cases hup
    have hlink := h.up c hc
    rw [hup] at hlink
    obtain ⟨header, audio, hshort, hparse, hsession, hsender, hnext⟩ := hlink.deliver hroom
    have hroute := routeHost_audio (rxConfig cfg) nowUs nowUs hshort hparse
      (hsession.trans h.session.symm) (hsender ▸ HostHandshake.slotOfSender_senderId c) (h.addrs c hc)
    dsimp only at hroute ⊢
    rw [hroute]
    refine ⟨h.mixer, fun d => ?_, h.session, h.addrs, hfresh, fun d => (h.clients d).of_up _, fun d hd => ?_,
      h.down, fun d hd => ?_⟩
    · by_cases hdc : d = c
      · subst hdc
        simp only [HostShared.setClient, Function.update_self]
        exact h.active d
      · simp only [HostShared.setClient, Function.update_of_ne hdc]
        exact h.active d
    · by_cases hdc : d = c
      · subst hdc
        simp only [HostShared.setClient, Function.update_self]
        exact hnext _ _ _ _ rfl
      · simp only [HostShared.setClient, Function.update_of_ne hdc]
        exact h.up d hd
    · have hdc : d ≠ c := by
        rintro rfl
        rw [hc] at hd
        cases hd
      simp only [Function.update_of_ne hdc]
      exact h.absent d hd
  · rename_i hup
    refine ⟨h.mixer, h.active, h.session, h.addrs, hfresh, fun d => (h.clients d).of_up _, fun d hd => ?_,
      h.down, h.absent⟩
    by_cases hdc : d = c
    · subst hdc
      have hlink := h.up d hd
      rw [hup] at hlink
      simp only [Function.update_self, hlink.deliver_nil]
      exact h.up d hd
    · simp only [Function.update_of_ne hdc]
      exact h.up d hd

theorem Mirrors.deliverDown (h : Mirrors codec cfg j i) {c : Fin maxClients} (nowUs : Nat)
    (hroom : (i.down c).HasRoom (cfg.depth c.succ)) :
    Mirrors codec cfg (j.deliverDown cfg c nowUs)
      { i with down := Function.update i.down c (i.down c).deliver } := by
  have hfresh : ∀ d, cfg.present d = true → (j.clients d).audio.wasJoined = false →
      (Function.update i.down c (i.down c).deliver d).playing = false := by
    intro d hp hd
    by_cases hdc : d = c
    · subst hdc
      rw [Function.update_self, Line.deliver_playing]
      exact (h.clients d).fresh hp hd
    · rw [Function.update_of_ne hdc]
      exact (h.clients d).fresh hp hd
  unfold Jam.deliverDown
  split
  · rename_i dgram flying hdown
    have hc : cfg.present c = true := by
      by_contra hc
      rw [(h.absent c (Bool.eq_false_iff.mpr hc)).2] at hdown
      cases hdown
    have hlink := h.down c hc
    have ht := h.clients c
    rw [hdown] at hlink
    obtain ⟨header, audio, hshort, hparse, hsession, hsender, hnext⟩ := hlink.deliver hroom
    have hroute := routeClient_audio (rxConfig cfg) cfg.hostAddr nowUs nowUs (j.clients c).rx hshort hparse
      hsender (ht.joined.trans hc) (hsession.trans ht.sessionId.symm)
    dsimp only at hroute ⊢
    rw [hroute]
    refine ⟨h.mixer, h.active, h.session, h.addrs, h.fresh, fun d => ?_, fun d hd => ?_, fun d hd => ?_,
      fun d hd => ?_⟩
    · have hd := h.clients d
      by_cases hdc : d = c
      · subst hdc
        simp only [Function.update_self]
        exact ⟨hd.joined, hd.senderId, hd.sessionId, hd.monitor, hd.listener,
          hfresh d⟩
      · simp only [Function.update_of_ne hdc]
        exact ⟨hd.joined, hd.senderId, hd.sessionId, hd.monitor, hd.listener,
          hfresh d⟩
    · by_cases hdc : d = c
      · subst hdc
        simp only [Function.update_self]
        exact h.up d hd
      · simp only [Function.update_of_ne hdc]
        exact h.up d hd
    · by_cases hdc : d = c
      · subst hdc
        simp only [Function.update_self]
        exact hnext _ _ _ _ rfl
      · simp only [Function.update_of_ne hdc]
        exact h.down d hd
    · have hdc : d ≠ c := by
        rintro rfl
        rw [hc] at hd
        cases hd
      simp only [Function.update_of_ne hdc]
      exact h.absent d hd
  · rename_i hdown
    refine ⟨h.mixer, h.active, h.session, h.addrs, h.fresh, fun d => ?_, h.up, fun d hd => ?_, h.absent⟩
    · have hd := h.clients d
      exact ⟨hd.joined, hd.senderId, hd.sessionId, hd.monitor, hd.listener,
        hfresh d⟩
    · by_cases hdc : d = c
      · subst hdc
        have hlink := h.down d hd
        rw [hdown] at hlink
        simp only [Function.update_self, hlink.deliver_nil]
        exact h.down d hd
      · simp only [Function.update_of_ne hdc]
        exact h.down d hd

/-! ### The callback of the host -/

/-- Step 1 plays what the lines play. -/
theorem Mirrors.pull (h : Mirrors codec cfg j i) (hpos : 1 ≤ cfg.depth hostPlayer)
    (hready : ∀ c, cfg.present c = true → (i.up c).Ready (cfg.depth hostPlayer)) {shared : HostShared}
    (hclients : shared.clients = j.shared.clients) (c : Fin maxClients) :
    let r := j.host.pull codec shared c
    r.1 = (i.heardUp codec cfg c).1 ∧ r.2.2.active = cfg.present c ∧ (cfg.present c = true →
      Link codec cfg.sessionId (HostHandshake.senderId c) (cfg.depth hostPlayer) (j.clients c).audio.sender.seq
        (j.clients c).audio.encoder (j.up c) r.2.2.jb r.2.1 (i.heardUp codec cfg c).2) := by
  have hactive := h.active c
  unfold HostAudio.pull HostAudio.pullClient IdealJam.heardUp
  rw [hclients]
  by_cases hc : cfg.present c = true
  · have hlink : Link codec cfg.sessionId (HostHandshake.senderId c) (cfg.depth hostPlayer)
        (j.clients c).audio.sender.seq (j.clients c).audio.encoder (j.up c) (j.shared.clients c).jb
        (if j.host.mixer.lastActive c then j.host.playouts c else (j.host.playouts c).resetStream)
        (i.up c) := by
      split
      · exact h.up c hc
      · rename_i hidle
        rw [h.mixer, Bool.not_eq_true] at hidle
        exact (h.up c hc).resetStream (h.fresh c hc hidle)
    obtain ⟨hout, hnext⟩ := hlink.tick hpos (hready c hc) (j.host.mixer.decoded c)
    rw [if_pos (hactive.trans hc), if_pos hc]
    exact ⟨hout, hactive, fun _ => hnext⟩
  · rw [if_neg (by rw [hactive]; exact hc), if_neg hc]
    exact ⟨rfl, hactive, fun hp => absurd hp hc⟩

/-- Step 3 sends each client its frame. -/
theorem Mirrors.sendAll (h : Mirrors codec cfg j i) (hcodec : codec.Sound) {shared : HostShared}
    (hsession : shared.sessionId = cfg.sessionId) (hactive : ∀ c, (shared.clients c).active = cfg.present c)
    (out : MixOutput n) (hout : ∀ c, (out.clientOut c).isSome = cfg.present c) :
    ∃ emitted q, j.host.sender.processFrame shared
        (Vector.ofFn fun c => (HostAudio.encodeClient codec (j.host.encoders c) (out.clientOut c)).1) =
          some (emitted, q) ∧
      ∀ c, if cfg.present c then
          Link codec cfg.sessionId hostSenderId (cfg.depth c.succ) (q.seqs c)
            (HostAudio.encodeClient codec (j.host.encoders c) (out.clientOut c)).2
            (j.down c ++ addressed emitted c) (j.clients c).shared.fromHost.jb (j.clients c).audio.playout
            (match out.toEncoder c with
              | some frame => (i.down c).send codec frame
              | none => i.down c)
        else addressed emitted c = [] := by
  have hlen : ∀ c payload, (HostAudio.encodeClient codec (j.host.encoders c) (out.clientOut c)).1 =
      some payload → payload.length ≤ 960 := by
    intro c payload hp
    unfold HostAudio.encodeClient at hp
    split at hp
    · exact hcodec.short _ _ _ hp
    · cases hp
  obtain ⟨emitted, q, hsend, hlast, hsends, -⟩ := HostPipeline.sendFrames_sends shared hlen
    (List.nodup_finRange maxClients)
    { j.host.sender with lastActive := fun c => (shared.clients c).active }
  refine ⟨emitted, { q with sampleClock := q.sampleClock + UInt32.ofNat q.params.frameSamples }, ?_,
    fun c => ?_⟩
  · unfold HostPipeline.processFrame
    simp only [hsend, Option.bind_eq_bind, Option.bind_some, Option.pure_def]
  · have hs := hsends c (List.mem_finRange c)
    dsimp only at hs
    rw [hactive c, hsession] at hs
    have hsome := hout c
    by_cases hc : cfg.present c = true
    · rw [if_pos hc]
      rw [hc] at hs hsome
      obtain ⟨frame, hframe⟩ := Option.isSome_iff_exists.mp hsome
      rw [MixOutput.toEncoder, hframe, Option.map_some]
      rw [hframe] at hs
      exact (h.down c hc).sends hcodec hs
    · rw [if_neg hc]
      rw [Bool.not_eq_true] at hc
      rw [hc] at hs
      exact hs.eq_nil

theorem Mirrors.hostFrame (h : Mirrors codec cfg j i) (hcodec : codec.Sound) (hpos : 1 ≤ cfg.depth hostPlayer)
    (controls : HostControls) (localIn : Samples n)
    (hready : ∀ c, cfg.present c = true → (i.up c).Ready (cfg.depth hostPlayer)) :
    ∃ j', j.hostFrame codec controls localIn = some ((i.hostFrame codec cfg controls localIn).1, j') ∧
      Mirrors codec cfg j' (i.hostFrame codec cfg controls localIn).2 := by
  let shared := controls.apply j.shared
  have hpull := h.pull hpos hready (show shared.clients = j.shared.clients from rfl)
  let pulled : HostShared := { shared with clients := fun c => (j.host.pull codec shared c).2.2 }
  let x := IdealJam.mixInput cfg controls localIn fun c => (i.heardUp codec cfg c).1
  -- The mixer gets the same to mix.
  have hmix : j.host.mixer.processFrame
      { active := fun c => (pulled.clients c).active, shared := pulled
        monitorGain := controls.monitorGain, localIn := localIn
        decoded := fun c => (j.host.pull codec shared c).1 } = i.mixer.processFrame x := by
    rw [← h.mixer]
    exact j.host.mixer.processFrame_congr (funext fun c => (hpull c).2.1) (fun c => (hpull c).2.1) rfl rfl
      rfl rfl rfl (funext fun c => (hpull c).1)
  have hlast := i.mixer.processFrame_lastActive x
  obtain ⟨emitted, sender, hsend, hsent⟩ := h.sendAll hcodec (show pulled.sessionId = _ from h.session)
    (fun c => (hpull c).2.1) (i.mixer.processFrame x).1 (i.mixer.processFrame_clientOut_isSome x)
  have hframe := j.host.processFrame_eq codec shared controls.monitorGain localIn hmix hsend
  have hdo : j.hostFrame codec controls localIn = some ((i.mixer.processFrame x).1.toHost,
      { j with
        host :=
          { playouts := fun c => (j.host.pull codec shared c).2.1
            encoders := fun c => (HostAudio.encodeClient codec (j.host.encoders c)
              ((i.mixer.processFrame x).1.clientOut c)).2
            mixer := (i.mixer.processFrame x).2
            sender := sender }
        shared := pulled
        down := fun c => j.down c ++ addressed emitted c }) := by
    unfold Jam.hostFrame
    rw [hframe]
    rfl
  refine ⟨_, hdo, rfl, fun c => (hpull c).2.1, h.session, h.addrs, fun c hc hidle => ?_, fun c => ?_,
    fun c hc => (hpull c).2.2 hc, fun c hc => ?_, fun c hc => ⟨(h.absent c hc).1, ?_⟩⟩
  · change (i.mixer.processFrame x).2.lastActive c = false at hidle
    rw [hlast] at hidle
    cases hc.symm.trans hidle
  · have ht := h.clients c
    refine ⟨ht.joined, ht.senderId, ht.sessionId, ht.monitor, ht.listener, fun hp hw => ?_⟩
    have hfresh := ht.fresh hp hw
    unfold IdealJam.hostFrame
    dsimp only
    split
    · exact hfresh
    · exact hfresh
  · have hlink := hsent c
    rw [if_pos hc] at hlink
    exact hlink
  · have hnone := hsent c
    rw [if_neg (by rw [hc]; exact Bool.false_ne_true)] at hnone
    show j.down c ++ addressed emitted c = []
    rw [(h.absent c hc).2, hnone]
    rfl

/-! ### The callback of a client -/

end Jam

/-- Step 3 leaves everything but the gains. -/
theorem ClientAudio.mixOut_spec (a : ClientAudio n ε σ) (masterGain monitorGain : ℚ) (localIn : Samples n) :
    let r := a.mixOut masterGain monitorGain localIn
    let k := a.listener.hear a.monitor masterGain monitorGain a.decoded localIn
    r.1 = k.1 ∧
      r.2 = { a with masterSmoother := k.2.master, monitorSmoother := k.2.monitor } := by
  unfold mixOut Listener.hear
  dsimp only [listener]
  by_cases hm : a.monitor = .direct
  · rw [if_pos hm, if_pos hm]
    exact ⟨rfl, rfl⟩
  · rw [if_neg hm, if_neg hm]
    exact ⟨rfl, rfl⟩

/-- A tick, given what the sending half and the playout make of it. -/
theorem ClientAudio.processFrame_eq (codec : AudioCodec n ε σ) (a : ClientAudio n ε σ) {shared : ClientShared}
    (masterGain monitorGain : ℚ) (localIn : Samples n) {encoded : Option Bytes × ε}
    (hencode : (if shared.joined = true then codec.encode a.encoder localIn else (none, a.encoder)) = encoded)
    {dgram : Option Bytes} {sender : ClientPipeline}
    (hsend : a.sender.processFrame shared encoded.1 = some (dgram, sender))
    {pulled : Samples n × StreamPlayout n σ × ClientShared}
    (hpull : pull codec (if shared.joined = true ∧ ¬ a.wasJoined = true then a.playout.resetStream
      else a.playout) shared a.decoded = pulled) :
    let r := mixOut
      { a with
        playout := pulled.2.1, encoder := encoded.2, sender := sender, decoded := pulled.1
        wasJoined := pulled.2.2.joined } masterGain monitorGain localIn
    a.processFrame codec shared masterGain monitorGain localIn = some ((r.1, dgram), r.2, pulled.2.2) := by
  obtain ⟨encoded, encoder⟩ := encoded
  obtain ⟨decoded, playout, shared'⟩ := pulled
  unfold processFrame
  dsimp only at hsend ⊢
  rw [hencode]
  dsimp only
  rw [hsend, Option.bind_eq_bind, Option.bind_some]
  dsimp only
  rw [hpull]
  rfl

namespace Jam

variable {codec : AudioCodec n ε σ} {cfg : JamConfig} {j : Jam n ε σ} {i : IdealJam n ε σ}

/-- A callback of one client, given what it does to the two links of the client and to its gains. -/
theorem Mirrors.of_client (h : Mirrors codec cfg j i) {c : Fin maxClients} {client : JamClient n ε σ}
    {flying : List Bytes} {i' : IdealJam n ε σ} (htracks : Tracks cfg c client i')
    (hmixer : i'.mixer = i.mixer)
    (hothers : ∀ d, d ≠ c → i'.up d = i.up d ∧ i'.down d = i.down d ∧ i'.listeners d = i.listeners d)
    (hplaying : (i'.up c).playing = (i.up c).playing)
    (hup : cfg.present c = true → Link codec cfg.sessionId (HostHandshake.senderId c) (cfg.depth hostPlayer)
      client.audio.sender.seq client.audio.encoder flying (j.shared.clients c).jb (j.host.playouts c) (i'.up c))
    (hdown : cfg.present c = true → Link codec cfg.sessionId hostSenderId (cfg.depth c.succ)
      (j.host.sender.seqs c) (j.host.encoders c) (j.down c) client.shared.fromHost.jb client.audio.playout
      (i'.down c))
    (habsent : cfg.present c = false → flying = []) :
    Mirrors codec cfg
      { j with clients := Function.update j.clients c client, up := Function.update j.up c flying } i' := by
  refine ⟨h.mixer.trans hmixer.symm, h.active, h.session, h.addrs, fun d hd hidle => ?_, fun d => ?_,
    fun d hd => ?_, fun d hd => ?_, fun d hd => ?_⟩
  all_goals by_cases hdc : d = c
  · subst hdc
    rw [hplaying]
    exact h.fresh d hd (hmixer ▸ hidle)
  · rw [(hothers d hdc).1]
    exact h.fresh d hd (hmixer ▸ hidle)
  · subst hdc
    simp only [Function.update_self]
    exact htracks
  · have ht := h.clients d
    obtain ⟨-, hdown', hlistener⟩ := hothers d hdc
    simp only [Function.update_of_ne hdc]
    refine ⟨ht.joined, ht.senderId, ht.sessionId, ht.monitor, ht.listener.trans hlistener.symm, ?_⟩
    rw [hdown']
    exact ht.fresh
  · subst hdc
    simp only [Function.update_self]
    exact hup hd
  · simp only [Function.update_of_ne hdc]
    rw [(hothers d hdc).1]
    exact h.up d hd
  · subst hdc
    simp only [Function.update_self]
    exact hdown hd
  · simp only [Function.update_of_ne hdc]
    rw [(hothers d hdc).2.1]
    exact h.down d hd
  · subst hdc
    simp only [Function.update_self]
    exact ⟨habsent hd, (h.absent d hd).2⟩
  · simp only [Function.update_of_ne hdc]
    exact h.absent d hd

/-- Step 2 plays what the line plays. -/
theorem Mirrors.pullDown (h : Mirrors codec cfg j i) {c : Fin maxClients} (hpos : 1 ≤ cfg.depth c.succ)
    (hready : cfg.present c = true → (i.down c).Ready (cfg.depth c.succ)) :
    let a := (j.clients c).audio
    let shared := (j.clients c).shared
    let r := ClientAudio.pull codec
      (if shared.joined = true ∧ ¬ a.wasJoined = true then a.playout.resetStream else a.playout) shared
      a.decoded
    r.1 = (i.heardDown codec cfg c).1 ∧
      (r.2.2.joined = cfg.present c ∧ r.2.2.senderId = HostHandshake.senderId c ∧
        r.2.2.sessionId = cfg.sessionId) ∧
      (cfg.present c = true →
        Link codec cfg.sessionId hostSenderId (cfg.depth c.succ) (j.host.sender.seqs c) (j.host.encoders c)
          (j.down c) r.2.2.fromHost.jb r.2.1 (i.heardDown codec cfg c).2) := by
  have ht := h.clients c
  unfold ClientAudio.pull IdealJam.heardDown
  dsimp only
  by_cases hc : cfg.present c = true
  · have hjoined := ht.joined.trans hc
    have hlink : Link codec cfg.sessionId hostSenderId (cfg.depth c.succ) (j.host.sender.seqs c)
        (j.host.encoders c) (j.down c) (j.clients c).shared.fromHost.jb
        (if (j.clients c).shared.joined = true ∧ ¬ (j.clients c).audio.wasJoined = true then
          (j.clients c).audio.playout.resetStream else (j.clients c).audio.playout) (i.down c) := by
      split
      · rename_i hidle
        exact (h.down c hc).resetStream (ht.fresh hc (Bool.not_eq_true _ ▸ hidle.2))
      · exact h.down c hc
    obtain ⟨hout, hnext⟩ := hlink.tick hpos (hready hc) (j.clients c).audio.decoded
    rw [if_pos hc]
    rw [if_pos hjoined (α := Samples n × StreamPlayout n σ × ClientShared)]
    exact ⟨hout, ⟨ht.joined, ht.senderId, ht.sessionId⟩, fun _ => hnext⟩
  · have hjoined : ¬ (j.clients c).shared.joined = true := by
      rw [ht.joined]
      exact hc
    rw [if_neg hc, if_neg hjoined (α := Samples n × StreamPlayout n σ × ClientShared)]
    exact ⟨rfl, ⟨ht.joined, ht.senderId, ht.sessionId⟩, fun hp => absurd hp hc⟩

theorem Mirrors.clientFrame (h : Mirrors codec cfg j i) (hcodec : codec.Sound) {c : Fin maxClients}
    (hpos : 1 ≤ cfg.depth c.succ) (masterGain monitorGain : ℚ) (localIn : Samples n)
    (hready : cfg.present c = true → (i.down c).Ready (cfg.depth c.succ)) :
    ∃ j', j.clientFrame codec c masterGain monitorGain localIn =
        some ((i.clientFrame codec cfg c masterGain monitorGain localIn).1, j') ∧
      Mirrors codec cfg j' (i.clientFrame codec cfg c masterGain monitorGain localIn).2 := by
  have ht := h.clients c
  -- The sending half.
  generalize hencode : (if (j.clients c).shared.joined = true then
    codec.encode (j.clients c).audio.encoder localIn else (none, (j.clients c).audio.encoder)) = encoded
  have hlen : ∀ payload, encoded.1 = some payload → payload.length ≤ 960 := by
    intro payload hp
    rw [← hencode] at hp
    split at hp
    · exact hcodec.short _ _ _ hp
    · cases hp
  obtain ⟨dgram, sender, hsend, hsends⟩ :=
    (j.clients c).audio.sender.processFrame_sends (j.clients c).shared hlen
  rw [ht.joined, ht.senderId, ht.sessionId] at hsends
  -- The playout.
  obtain ⟨hmix, ⟨hjoined, hsender, hsession⟩, hdown⟩ := h.pullDown hpos hready
  have hframe := (j.clients c).audio.processFrame_eq codec masterGain monitorGain localIn hencode hsend rfl
  dsimp only at hmix hjoined hsender hsession hdown hframe
  generalize ClientAudio.pull codec _ _ _ = pulled at hmix hjoined hsender hsession hdown hframe
  -- The local output.
  let audio : ClientAudio n ε σ :=
    { (j.clients c).audio with
      playout := pulled.2.1, encoder := encoded.2, sender := sender, decoded := pulled.1
      wasJoined := pulled.2.2.joined }
  obtain ⟨hout, hrest⟩ := audio.mixOut_spec masterGain monitorGain localIn
  have hhear : audio.listener.hear audio.monitor masterGain monitorGain audio.decoded localIn =
      (i.listeners c).hear (cfg.monitor c.succ) masterGain monitorGain (i.heardDown codec cfg c).1
        localIn := by
    rw [show audio.listener = i.listeners c from ht.listener,
      show audio.monitor = cfg.monitor c.succ from ht.monitor,
      show audio.decoded = (i.heardDown codec cfg c).1 from hmix]
  rw [hhear] at hout hrest
  have hdo : j.clientFrame codec c masterGain monitorGain localIn =
      some ((audio.mixOut masterGain monitorGain localIn).1,
        { j with
          clients := Function.update j.clients c
            { j.clients c with
              audio := (audio.mixOut masterGain monitorGain localIn).2
              shared := pulled.2.2 }
          up := Function.update j.up c (j.up c ++ dgram.toList) }) := by
    unfold Jam.clientFrame
    dsimp only
    rw [hframe]
    rfl
  rw [hout, hrest] at hdo
  refine ⟨_, hdo, h.of_client ⟨hjoined, hsender, hsession, ht.monitor, ?_, fun hp hw => ?_⟩ rfl
    (fun d hd => ⟨Function.update_of_ne hd _ _, Function.update_of_ne hd _ _, Function.update_of_ne hd _ _⟩)
    ?_ (fun hc => ?_) (fun hc => ?_) fun hc => ?_⟩
  · show _ = Function.update i.listeners c _ c
    rw [Function.update_self]
    rfl
  · cases (hjoined.trans hp).symm.trans hw
  · show (Function.update i.up c _ c).playing = _
    rw [Function.update_self]
    split <;> rfl
  · rw [if_pos (ht.joined.trans hc)] at hencode
    rw [hc, ← hencode] at hsends
    have hlink := (h.up c hc).sends hcodec hsends
    rw [hencode] at hlink
    show Link _ _ _ _ _ _ _ _ _ (Function.update i.up c _ c)
    rw [Function.update_self, if_pos hc]
    exact hlink
  · show Link _ _ _ _ _ _ _ _ _ (Function.update i.down c _ c)
    rw [Function.update_self]
    exact hdown hc
  · rw [hc] at hsends
    rw [(h.absent c hc).1, hsends.eq_nil]
    rfl

/-! ### Runs -/

/-- The step lemma. -/
theorem Mirrors.step (h : Mirrors codec cfg j i) (hcodec : codec.Sound) (hdepth : ∀ p, 1 ≤ cfg.depth p)
    {e : JamEvent n} (hpaced : i.Paced cfg e) :
    ∃ j', j.step codec cfg e = some ((i.step codec cfg e).1, j') ∧
      Mirrors codec cfg j' (i.step codec cfg e).2 := by
  cases e with
  | host controls localIn =>
    obtain ⟨j', hframe, hnext⟩ := h.hostFrame hcodec (hdepth hostPlayer) controls localIn hpaced
    refine ⟨j', ?_, hnext⟩
    rw [Jam.step, hframe]
    rfl
  | client c masterGain monitorGain localIn =>
    obtain ⟨j', hframe, hnext⟩ := h.clientFrame hcodec (hdepth c.succ) masterGain monitorGain localIn hpaced
    refine ⟨j', ?_, hnext⟩
    rw [Jam.step, hframe]
    rfl
  | deliverUp c nowUs => exact ⟨_, rfl, h.deliverUp nowUs hpaced⟩
  | deliverDown c nowUs => exact ⟨_, rfl, h.deliverDown nowUs hpaced⟩

/-- The run lemma. -/
theorem Mirrors.run (h : Mirrors codec cfg j i) (hcodec : codec.Sound) (hdepth : ∀ p, 1 ≤ cfg.depth p)
    {es : List (JamEvent n)} (hpaced : i.PacedRun codec cfg es) :
    ∃ j', j.run codec cfg es = some ((i.run codec cfg es).1, j') ∧
      Mirrors codec cfg j' (i.run codec cfg es).2 := by
  induction es generalizing j i with
  | nil => exact ⟨j, rfl, h⟩
  | cons e es ih =>
    obtain ⟨j', hstep, hnext⟩ := h.step hcodec hdepth hpaced.1
    obtain ⟨j'', hrun, hend⟩ := ih hnext hpaced.2
    refine ⟨j'', ?_, hend⟩
    rw [Jam.run, hstep, Option.bind_eq_bind, Option.bind_some]
    dsimp only
    rw [hrun]
    rfl

/-- With fixed depths of at least one frame, no drift correction and wires that keep each direction in order,
in every run whose steps come in time every sound card gets what it gets from players joined by lines. -/
theorem jam_refines {codec : AudioCodec n ε σ} (hcodec : codec.Sound) {cfg : JamConfig}
    (hdepth : ∀ p, 1 ≤ cfg.depth p) (encoder : ε) (decoder : σ) {es : List (JamEvent n)}
    (hpaced : (IdealJam.start cfg encoder decoder).PacedRun codec cfg es) :
    ∃ j, (start cfg encoder decoder).run codec cfg es =
      some (((IdealJam.start cfg encoder decoder).run codec cfg es).1, j) := by
  obtain ⟨j, hrun, -⟩ := (mirrors_start codec cfg encoder decoder).run hcodec hdepth hpaced
  exact ⟨j, hrun⟩

/-- A host and two clients. -/
def trio : JamConfig where
  params := { sampleRate := 48000, frameSamples := 1, codec := .pcmS16, redundancy := true }
  sessionId := 7
  hostAddr := .v4 1 5000
  addr := fun c => .v4 2 (.ofNat c.val)
  present := fun c => decide (c.val < 2)
  echo := false
  monitor := fun _ => .off
  depth := fun p => if p = hostPlayer then 1 else 2
  alpha := 1 / 2

/-- The first client plays, and the second one hears it two frames later. -/
def trioRound (x : ℚ) (nowUs : Nat) : List (JamEvent 1) :=
  [.client 0 1 0 fun _ => x, .deliverUp 0 nowUs, .client 1 1 0 fun _ => 0, .deliverUp 1 nowUs,
    .host { gains := fun _ => 1, muted := fun _ => false, soloed := fun _ => false, monitorGain := 0 }
      fun _ => 0,
    .deliverDown 0 nowUs, .deliverDown 1 nowUs]

theorem jam_refines_trio : ∃ j, (start trio () ()).run pcmS16 trio
    (trioRound (1 / 2) 0 ++ trioRound (1 / 4) 2500 ++ trioRound 0 5000) =
    some (((IdealJam.start trio () ()).run pcmS16 trio
      (trioRound (1 / 2) 0 ++ trioRound (1 / 4) 2500 ++ trioRound 0 5000)).1, j) :=
  jam_refines (pcmS16_sound (by decide)) (by decide) () () (by decide +kernel)

end Jam

end OnlineJam
