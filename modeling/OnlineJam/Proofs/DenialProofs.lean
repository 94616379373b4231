import OnlineJam.Proofs.JoinProofs

/-!
# The host turns strangers away

A host that has nothing else to do answers a HELLO with a wrong room code by a DENY and is as before, but
for the number of its next control packet.
-/

namespace OnlineJam

open OnlineJam.Lib
open HostHandshake

/-! ## The host and strangers -/

/-- What the host does on a step of its own or on a datagram of a stranger. What it sends is collected. -/
def Session.talk (cfg : SessionConfig) (x : Host × List Outgoing) :
    SessionLabel → Option (Host × List Outgoing)
  | .host l => (x.1.step l).map fun r => (r.1, x.2 ++ r.2.toList)
  | .strangerRecv src bytes nowUs t3Us =>
    if src = cfg.hostAddr ∨ src = cfg.clientAddr then none
    else (x.1.receive src bytes nowUs t3Us).map fun r => (r.1, x.2 ++ r.2.toList)
  | _ => none

/-- What the host puts on the network. -/
def Session.posted (cfg : SessionConfig) (outs : List Outgoing) : List Envelope :=
  outs.map fun o => { src := cfg.hostAddr, dst := o.dst, bytes := o.bytes }

theorem Session.post_eq {cfg : SessionConfig} {s : Session} {out : Option Outgoing} :
    s.post cfg.hostAddr out = s.net ++ posted cfg out.toList := by
  cases out <;> rfl

theorem Session.posted_append {cfg : SessionConfig} {outs outs' : List Outgoing} :
    posted cfg (outs ++ outs') = posted cfg outs ++ posted cfg outs' := List.map_append

namespace Session

/-- What the observer knows of the client stays while only the host moves. -/
structure SameClient (w w' : Watched) : Prop where
  client : w'.1.client = w.1.client
  queue : w'.2.queue = w.2.queue
  accepted : w'.2.accepted = w.2.accepted
  rosters : w'.2.rosters = w.2.rosters
  delivered : w'.2.delivered = w.2.delivered

/-- A run goes on with the host and strangers. -/
theorem Runs.talk {cfg : SessionConfig} {c : Watched → SessionLabel → Prop} {ls : List SessionLabel}
    {w : Watched} (h : Runs cfg c ls w) (hc : ∀ w l, (∀ i nowUs t3Us, l ≠ .clientRecv i nowUs t3Us) → c w l)
    {ms : List SessionLabel} {host : Host} {outs : List Outgoing}
    (hms : exec (talk cfg) (w.1.host, []) ms = some (host, outs)) :
    ∃ w', Runs cfg c (ls ++ ms) w' ∧ w'.1.host = host ∧ w'.1.net = w.1.net ++ posted cfg outs ∧
      SameClient w w' := by
  induction ms using List.reverseRecOn generalizing host outs with
  | nil =>
    obtain ⟨rfl, rfl⟩ := Prod.mk.inj (Option.some.inj hms)
    exact ⟨w, (List.append_nil ls).symm ▸ h, rfl, (List.append_nil _).symm, rfl, rfl, rfl, rfl, rfl⟩
  | append_singleton ms l ih =>
    rw [exec_append, Option.bind_eq_some_iff] at hms
    obtain ⟨⟨host₁, outs₁⟩, h₁, hl⟩ := hms
    rw [exec_singleton] at hl
    obtain ⟨w₁, hrun, rfl, hnet, hsame⟩ := ih h₁
    -- One more move of the host.
    have next : ∀ r : Host × Option Outgoing, step cfg w₁.1 l = some (w₁.1.hostMoved cfg r) →
        (∀ i nowUs t3Us, l ≠ .clientRecv i nowUs t3Us) → (∀ cl, l ≠ .client cl) →
        (r.1, outs₁ ++ r.2.toList) = (host, outs) →
        ∃ w', Runs cfg c (ls ++ (ms ++ [l])) w' ∧ w'.1.host = host ∧
          w'.1.net = w.1.net ++ posted cfg outs ∧ SameClient w w' := by
      intro r hs hrecv hclient hr
      obtain ⟨rfl, rfl⟩ := Prod.mk.inj hr
      refine ⟨(w₁.1.hostMoved cfg r, SessionLog.observe cfg w₁.2 w₁.1 l (w₁.1.hostMoved cfg r)),
        ?_, rfl, ?_, ?_⟩
      · rw [← List.append_assoc]
        exact .snoc hrun (hc _ _ hrecv) (watch_eq_some.mpr ⟨hs, rfl⟩)
      · show w₁.1.post cfg.hostAddr r.2 = _
        rw [post_eq, hnet, posted_append, List.append_assoc]
      · cases l with
        | client cl => exact absurd rfl (hclient cl)
        | clientRecv i nowUs t3Us => exact absurd rfl (hrecv i nowUs t3Us)
        | _ =>
          refine ⟨hsame.client, hsame.queue, (if_neg fun h => h.1 h.2).trans hsame.accepted, hsame.rosters,
            hsame.delivered⟩
    cases l with
    | host hl' =>
      obtain ⟨r, hr, he⟩ := Option.map_eq_some_iff.mp hl
      have hs : step cfg w₁.1 (.host hl') = some (w₁.1.hostMoved cfg r) := by
        rw [step, hr]
        rfl
      exact next r hs (fun _ _ _ h => by cases h) (fun _ h => by cases h) he
    | strangerRecv src bytes nowUs t3Us =>
      rw [Session.talk] at hl
      split at hl
      · cases hl
      · rename_i hsrc
        obtain ⟨r, hr, he⟩ := Option.map_eq_some_iff.mp hl
        have hs : step cfg w₁.1 (.strangerRecv src bytes nowUs t3Us) = some (w₁.1.hostMoved cfg r) := by
          rw [step, if_neg hsrc, hr]
          rfl
        exact next r hs (fun _ _ _ h => by cases h) (fun _ h => by cases h) he
    | hostRecv i nowUs t3Us => cases hl
    | client cl => cases hl
    | clientRecv i nowUs t3Us => cases hl

end Session

/-! ## A denial -/

/-- A HELLO with this room code. -/
def greeting (code : Vector UInt8 roomCodeLen) (name : String) : Bytes :=
  stampedDatagram 0 (.hello protocolVersion code name 0b111 0b011) 0 unjoinedSenderId

/-- One round of the control loop for it, all within a millisecond. -/
def denial (src : SocketAddr) (code : Vector UInt8 roomCodeLen) (name : String) (nowMs : Nat) :
    List SessionLabel :=
  [.strangerRecv src (greeting code name) 0 0, .host .rx, .host .rx, .host (.wake nowMs)] ++
    List.replicate 9 (.host (.control 0))

/-- The host has nothing to do but for what arrives, has no slot for this address and has another room
code. -/
structure Host.Quiet (h : Host) (src : SocketAddr) (code : Vector UInt8 roomCodeLen) : Prop where
  phase : h.phase = .wait
  tasks : h.tasks = []
  events : h.events = []
  rxPhase : h.rxPhase = .recv
  updates : h.updates = []
  shutdown : h.shutdown = false
  shared : h.shared.shutdown = false
  heard : ∀ k, (if (h.shared.clients k).lastRxUs > 0 then
    h.hs.markHeard (senderId k) ((h.shared.clients k).lastRxUs / 1000) else h.hs) = h.hs
  tick : h.hs.tick h.nowMs = ([], h.hs)
  pings : ¬ h.nowMs - h.lastPing ≥ pingIntervalMs
  keepalives : ¬ h.nowMs - h.lastKeepalive ≥ keepaliveMs
  sender : h.hs.senderForAddr src = none
  code : code ≠ h.hs.roomCode

/-- What the receive thread makes of it. -/
theorem receive_greeting {h : Host} (hr : h.rxPhase = .recv) (src : SocketAddr)
    (code : Vector UInt8 roomCodeLen) (name : String) :
    h.receive src (greeting code name) 0 0 = some
      ({ h with rxPhase := .check, events := h.events ++
          [⟨src, ⟨.hello, 0, unjoinedSenderId, 0⟩, .hello protocolVersion code (fitName name) 0b111 0b011, 0⟩] },
        none) := by
  have hfits : (Control.hello protocolVersion code name 0b111 0b011).RosterFits := trivial
  have hp := parses_stampedDatagram 0 0 unjoinedSenderId hfits
  have hslot : slotOfSender unjoinedSenderId = none := by decide
  rw [Host.receive, if_pos hr]
  unfold routeHost
  rw [show parseDatagram ((greeting code name).take maxDatagram) = _ from hp]
  dsimp only [Control.wire]
  rw [hslot]
  rfl

/-- What the control loop makes of it. -/
theorem wake_greeting {h : Host} {src : SocketAddr} {code : Vector UInt8 roomCodeLen} {name : String}
    {header : Header} (hs : h.hs.senderForAddr src = none) (hc : code ≠ h.hs.roomCode) (nowMs : Nat)
    (he : h.events = [⟨src, header, .hello protocolVersion code name 0b111 0b011, 0⟩]) :
    h.wake nowMs = { h with
      nowMs := nowMs, phase := .feed 0, events := []
      tasks := [.act (.send src (.deny .badRoomCode))] } := by
  have hd : Host.dispatch h.hs h.shared.sessionId
      ⟨src, header, .hello protocolVersion code name 0b111 0b011, 0⟩ nowMs =
        ([.send src (.deny .badRoomCode)], h.hs) := by
    unfold Host.dispatch
    dsimp only
    rw [hs]
    dsimp only
    rw [onHello, if_neg (not_not.mpr rfl), if_pos hc]
  have hm : h.measure ⟨src, header, .hello protocolVersion code name 0b111 0b011, 0⟩ = h.shared := rfl
  rw [Host.wake, he]
  dsimp only
  rw [hd, hm]
  rfl

/-- The DENY that this host sends next. -/
def Host.denies (h : Host) (src : SocketAddr) : Outgoing :=
  { dst := src
    bytes := stampedDatagram h.seq.next.1 (.deny .badRoomCode) h.shared.sessionId hostSenderId }

/-- Feeding changes nothing if nothing new was heard. -/
theorem advance_feed {h : Host} {k : Fin maxClients} (hphase : h.phase = .feed k)
    (hk : (if (h.shared.clients k).lastRxUs > 0 then
      h.hs.markHeard (senderId k) ((h.shared.clients k).lastRxUs / 1000) else h.hs) = h.hs) :
    h.advance = some { h with
      phase := if hn : k.val + 1 < maxClients then .feed ⟨k.val + 1, hn⟩ else .tick } := by
  unfold Host.advance
  rw [hphase]
  dsimp only
  rw [hk]
  split <;> rfl

theorem talk_control {cfg : SessionConfig} {h h' : Host} {outs : List Outgoing} (ht : h.tasks = [])
    (ha : h.advance = some h') :
    Session.talk cfg (h, outs) (.host (.control 0)) = some (h', outs) := by
  rw [Session.talk, Host.step, ht]
  dsimp only
  rw [ha]
  simp

/-- A pass of the control loop over its phases when there is nothing to do. -/
theorem exec_pass {cfg : SessionConfig} {h : Host} {outs : List Outgoing} (hphase : h.phase = .feed 0)
    (ht : h.tasks = []) (hs : h.shared.shutdown = false)
    (hheard : ∀ k, (if (h.shared.clients k).lastRxUs > 0 then
      h.hs.markHeard (senderId k) ((h.shared.clients k).lastRxUs / 1000) else h.hs) = h.hs)
    (htick : h.hs.tick h.nowMs = ([], h.hs)) (hpings : ¬ h.nowMs - h.lastPing ≥ pingIntervalMs)
    (hkeep : ¬ h.nowMs - h.lastKeepalive ≥ keepaliveMs) :
    exec (Session.talk cfg) (h, outs) (List.replicate 8 (.host (.control 0))) =
      some ({ h with phase := .wait }, outs) := by
  have feed : ∀ k : Fin maxClients, Session.talk cfg ({ h with phase := .feed k }, outs)
      (.host (.control 0)) = some ({ h with
        phase := if hn : k.val + 1 < maxClients then .feed ⟨k.val + 1, hn⟩ else .tick }, outs) :=
    fun k => talk_control ht (advance_feed (h := { h with phase := .feed k }) rfl (hheard k))
  have ticks : Session.talk cfg ({ h with phase := .tick }, outs) (.host (.control 0)) =
      some ({ h with phase := .pings }, outs) := by
    have hadvance : Host.advance { h with phase := .tick } = some { h with
        hs := (h.hs.tick h.nowMs).2, phase := .pings
        tasks := (h.hs.tick h.nowMs).1.map HostTask.act } := rfl
    refine talk_control ht (hadvance.trans ?_)
    rw [htick, ht]
    rfl
  have pings : Session.talk cfg ({ h with phase := .pings }, outs) (.host (.control 0)) =
      some ({ h with phase := .keepalives }, outs) := talk_control ht (if_neg hpings)
  have keeps : Session.talk cfg ({ h with phase := .keepalives }, outs) (.host (.control 0)) =
      some ({ h with phase := .check }, outs) := talk_control ht (if_neg hkeep)
  have check : Session.talk cfg ({ h with phase := .check }, outs) (.host (.control 0)) =
      some ({ h with phase := .wait }, outs) := by
    refine talk_control ht (if_neg ?_)
    show ¬ h.shared.shutdown = true
    rw [hs]
    exact Bool.false_ne_true
  have start : h = { h with phase := .feed 0 } := by rw [← hphase]
  rw [start]
  calc exec (Session.talk cfg) ({ h with phase := .feed 0 }, outs) (List.replicate 8 (.host (.control 0)))
      = exec (Session.talk cfg) ({ h with phase := .feed 1 }, outs)
          (List.replicate 7 (.host (.control 0))) := exec_cons_of (feed 0) _
    _ = exec (Session.talk cfg) ({ h with phase := .feed 2 }, outs)
          (List.replicate 6 (.host (.control 0))) := exec_cons_of (feed 1) _
    _ = exec (Session.talk cfg) ({ h with phase := .feed 3 }, outs)
          (List.replicate 5 (.host (.control 0))) := exec_cons_of (feed 2) _
    _ = exec (Session.talk cfg) ({ h with phase := .tick }, outs)
          (List.replicate 4 (.host (.control 0))) := exec_cons_of (feed 3) _
    _ = exec (Session.talk cfg) ({ h with phase := .pings }, outs)
          (List.replicate 3 (.host (.control 0))) := exec_cons_of ticks _
    _ = exec (Session.talk cfg) ({ h with phase := .keepalives }, outs)
          (List.replicate 2 (.host (.control 0))) := exec_cons_of pings _
    _ = exec (Session.talk cfg) ({ h with phase := .check }, outs) [.host (.control 0)] :=
        exec_cons_of keeps _
    _ = some ({ h with phase := .wait }, outs) := exec_cons_of check []

/-- A quiet host denies and is quiet again. -/
theorem Host.Quiet.denial {h : Host} {src : SocketAddr} {code : Vector UInt8 roomCodeLen}
    (hq : h.Quiet src code) {cfg : SessionConfig} (hsrc : ¬ (src = cfg.hostAddr ∨ src = cfg.clientAddr))
    (name : String) (outs : List Outgoing) :
    exec (Session.talk cfg) (h, outs) (denial src code name h.nowMs) =
      some ({ h with seq := h.seq.next.2 }, outs ++ [h.denies src]) := by
  let ev : CtrlEvent :=
    ⟨src, ⟨.hello, 0, unjoinedSenderId, 0⟩, .hello protocolVersion code (fitName name) 0b111 0b011, 0⟩
  have recv : Session.talk cfg (h, outs) (.strangerRecv src (greeting code name) 0 0) =
      some ({ h with rxPhase := .check, events := [ev] }, outs) := by
    rw [Session.talk, if_neg hsrc, receive_greeting hq.rxPhase, hq.events]
    simp [ev]
  have check : Session.talk cfg ({ h with rxPhase := .check, events := [ev] }, outs) (.host .rx) =
      some ({ h with rxPhase := .drain, events := [ev] }, outs) := by
    rw [Session.talk, Host.step, Host.rxAdvance, hq.shutdown]
    simp
  have drain : Session.talk cfg ({ h with rxPhase := .drain, events := [ev] }, outs) (.host .rx) =
      some ({ h with rxPhase := .recv, events := [ev] }, outs) := by
    rw [Session.talk, Host.step, Host.rxAdvance]
    dsimp only
    rw [hq.updates]
    simp
  have wake : Session.talk cfg ({ h with rxPhase := .recv, events := [ev] }, outs)
      (.host (.wake h.nowMs)) = some ({ h with
        rxPhase := .recv, events := [], phase := .feed 0
        tasks := [.act (.send src (.deny .badRoomCode))] }, outs) := by
    rw [Session.talk, Host.step, if_pos ⟨hq.tasks, hq.phase⟩]
    rw [wake_greeting (h := { h with rxPhase := .recv, events := [ev] }) hq.sender hq.code h.nowMs rfl]
    simp
  have send : Session.talk cfg ({ h with
        rxPhase := .recv, events := [], phase := .feed 0
        tasks := [.act (.send src (.deny .badRoomCode))] }, outs) (.host (.control 0)) = some ({ h with
        rxPhase := .recv, events := [], phase := .feed 0, tasks := [], seq := h.seq.next.2 },
        outs ++ [h.denies src]) := rfl
  let idle : Host := { h with
    rxPhase := .recv, events := [], phase := .feed 0, tasks := [], seq := h.seq.next.2 }
  have pass : exec (Session.talk cfg) (idle, outs ++ [h.denies src]) (List.replicate 8 (.host (.control 0))) =
      some ({ idle with phase := .wait }, outs ++ [h.denies src]) :=
    exec_pass rfl rfl hq.shared hq.heard hq.tick hq.pings hq.keepalives
  have back : { h with rxPhase := .recv, events := [], phase := .wait, tasks := [], seq := h.seq.next.2 } =
      { h with seq := h.seq.next.2 } := by
    rw [← hq.rxPhase, ← hq.events, ← hq.phase, ← hq.tasks]
  rw [OnlineJam.denial, List.cons_append, exec_cons_of recv, List.cons_append, exec_cons_of check,
    List.cons_append, exec_cons_of drain, List.cons_append, exec_cons_of wake, List.nil_append,
    List.replicate_succ, exec_cons_of send, pass, back]

/-- The number of the next packet is all that changes. -/
theorem Host.Quiet.renumber {h : Host} {src : SocketAddr} {code : Vector UInt8 roomCodeLen}
    (hq : h.Quiet src code) (seq : SeqGen) : { h with seq := seq }.Quiet src code :=
  ⟨hq.phase, hq.tasks, hq.events, hq.rxPhase, hq.updates, hq.shutdown, hq.shared, hq.heard, hq.tick,
    hq.pings, hq.keepalives, hq.sender, hq.code⟩

/-- Any number of denials. -/
theorem Host.Quiet.denials {h : Host} {src : SocketAddr} {code : Vector UInt8 roomCodeLen}
    (hq : h.Quiet src code) {cfg : SessionConfig} (hsrc : ¬ (src = cfg.hostAddr ∨ src = cfg.clientAddr))
    (name : String) (n : Nat) (outs : List Outgoing) :
    ∃ sent, exec (Session.talk cfg) (h, outs)
        (List.replicate n (OnlineJam.denial src code name h.nowMs)).flatten =
          some ({ h with seq := ⟨h.seq.val + UInt16.ofNat n⟩ }, outs ++ sent) ∧
      sent.length = n ∧ ∀ o ∈ sent, o.dst = src := by
  induction n generalizing h outs with
  | zero => exact ⟨[], by simp [exec_nil], rfl, fun o ho => by cases ho⟩
  | succ n ih =>
    obtain ⟨sent, hexec, hlen, hdst⟩ := ih (hq.renumber h.seq.next.2) (outs ++ [h.denies src])
    refine ⟨h.denies src :: sent, ?_, by rw [List.length_cons, hlen], ?_⟩
    · rw [List.replicate_succ, List.flatten_cons, exec_append, hq.denial hsrc, Option.bind_some, hexec,
        List.append_assoc, List.singleton_append]
      have hval : h.seq.next.2.val + UInt16.ofNat n = h.seq.val + UInt16.ofNat (n + 1) := by
        rw [UInt16.ofNat_add, UInt16.add_comm (UInt16.ofNat n), ← UInt16.add_assoc]
        rfl
      rw [hval]
    · intro o ho
      rcases List.mem_cons.mp ho with rfl | ho
      · rfl
      · exact hdst o ho

/-- The clock does nothing to slots that are kept. -/
theorem tick_of_kept {hs : HostHandshake} {nowMs : Nat}
    (h : ∀ k s, hs.slots k = some s → tickSlot nowMs s = .kept) : hs.tick nowMs = ([], hs) := by
  have hslots : (fun i => (hs.slots i).bind (tickEntry nowMs)) = hs.slots := by
    funext i
    cases hi : hs.slots i with
    | none => rfl
    | some s => rw [Option.bind_some, tickEntry, h i s hi]
  have hnone : ∀ i, (hs.slots i).map (tickSlot nowMs) = none ∨
      (hs.slots i).map (tickSlot nowMs) = some .kept := by
    intro i
    cases hi : hs.slots i with
    | none => exact .inl rfl
    | some s => exact .inr (congrArg some (h i s hi))
  have hempty : (hs.tick nowMs).1 = [] := by
    unfold tick
    dsimp only
    refine List.append_eq_nil_iff.mpr ⟨List.append_eq_nil_iff.mpr ⟨?_, ?_⟩, if_pos (List.isEmpty_iff.mpr ?_)⟩
    all_goals
      refine List.filterMap_eq_nil_iff.mpr fun i _ => ?_
      rcases hnone i with h | h <;> rw [h]
  refine Prod.ext hempty ?_
  show { hs with slots := fun i => (hs.slots i).bind (tickEntry nowMs) } = hs
  rw [hslots]

end OnlineJam
